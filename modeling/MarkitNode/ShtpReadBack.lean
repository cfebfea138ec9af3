import MarkitNode.ShtpStale

/-!
The reports of the sensor hub and what the driver keeps of them. A report is written as
the hub's manual lays it out: the base of the time, the header of the report, its
values in little-endian order, and whatever else is in the packet. Then the driver's
fields hold the values, and no others have changed. Reports on the gyro channel have
no header, and the first byte of their values may be that of another packet.
-/

namespace MarkitNode

namespace ShtpReports

open MemoryBlock ShtpCommands

/-- The sensors whose reports are three values and an accuracy. -/
inductive MeasuredSensor
  | accelerometer
  | linearAcceleration
  | gyroscope
  | magneticField
  | gravity
  deriving DecidableEq, Repr

inductive RawSensor
  | accelerometer
  | gyroscope
  | magnetometer
  deriving DecidableEq, Repr

/-- The rotation vectors that come with an estimate of their accuracy. -/
inductive RotationSensor
  | rotationVector
  | arvrStabilized
  deriving DecidableEq, Repr

inductive GameRotationSensor
  | gameRotationVector
  | arvrStabilized
  deriving DecidableEq, Repr

inductive Report
  | measured (sensor : MeasuredSensor) (axes : Axes)
  | raw (sensor : RawSensor) (axes : Axes)
  | uncalibratedGyro (axes bias : Axes)
  | rotation (sensor : RotationSensor) (quat : Quaternion) (radianAccuracy : UInt16)
  | gameRotation (sensor : GameRotationSensor) (quat : Quaternion)
  | tap (flags : UInt8)
  | steps (latency : UInt32) (count : UInt16)
  | stability (classification : UInt8)
  | activity (page state c₀ c₁ c₂ c₃ c₄ c₅ c₆ c₇ c₈ : UInt8)
  | gyroIntegrated (quat : Quaternion) (velocity : Axes)
  deriving DecidableEq, Repr

/-- What comes before the values; the accuracy is in the last two bits of `status`. -/
structure Preamble where
  timeBase : UInt32
  sequence : UInt8
  status : UInt8
  delay : UInt8
  deriving DecidableEq, Repr

def le16 (w : UInt16) : List UInt8 := [w.toUInt8, (w >>> 8).toUInt8]

def le32 (w : UInt32) : List UInt8 :=
  [w.toUInt8, (w >>> 8).toUInt8, (w >>> 16).toUInt8, (w >>> 24).toUInt8]

def Axes.bytes (a : Axes) : List UInt8 := le16 a.x ++ le16 a.y ++ le16 a.z

def Quaternion.bytes (q : Quaternion) : List UInt8 :=
  le16 q.i ++ le16 q.j ++ le16 q.k ++ le16 q.real

def MeasuredSensor.id : MeasuredSensor → ReportId
  | .accelerometer => .accelerometer
  | .linearAcceleration => .linearAcceleration
  | .gyroscope => .gyroscope
  | .magneticField => .magneticField
  | .gravity => .gravity

def RawSensor.id : RawSensor → ReportId
  | .accelerometer => .rawAccelerometer
  | .gyroscope => .rawGyroscope
  | .magnetometer => .rawMagnetometer

def RotationSensor.id : RotationSensor → ReportId
  | .rotationVector => .rotationVector
  | .arvrStabilized => .arvrStabilizedRotationVector

def GameRotationSensor.id : GameRotationSensor → ReportId
  | .gameRotationVector => .gameRotationVector
  | .arvrStabilized => .arvrStabilizedGameRotationVector

def Report.code : Report → UInt8
  | .measured sensor _ => sensor.id.code
  | .raw sensor _ => sensor.id.code
  | .uncalibratedGyro _ _ => ReportId.uncalibratedGyro.code
  | .rotation sensor _ _ => sensor.id.code
  | .gameRotation sensor _ => sensor.id.code
  | .tap _ => ReportId.tapDetector.code
  | .steps _ _ => ReportId.stepCounter.code
  | .stability _ => ReportId.stabilityClassifier.code
  | .activity _ _ _ _ _ _ _ _ _ _ _ => ReportId.personalActivityClassifier.code
  | .gyroIntegrated _ _ => gyroIntegratedCode

def Report.channel : Report → Channel
  | .gyroIntegrated _ _ => .gyro
  | _ => .reports

def Report.values : Report → List UInt8
  | .measured _ axes => axes.bytes
  | .raw _ axes => axes.bytes
  | .uncalibratedGyro axes bias => axes.bytes ++ bias.bytes
  | .rotation _ quat radianAccuracy => quat.bytes ++ le16 radianAccuracy
  | .gameRotation _ quat => quat.bytes
  | .tap flags => [flags]
  | .steps latency count => le32 latency ++ le16 count
  | .stability classification => [classification]
  | .activity page state c₀ c₁ c₂ c₃ c₄ c₅ c₆ c₇ c₈ =>
      [page, state, c₀, c₁, c₂, c₃, c₄, c₅, c₆, c₇, c₈]
  | .gyroIntegrated quat velocity => quat.bytes ++ velocity.bytes

def Report.cargo (preamble : Preamble) : Report → List UInt8
  | .gyroIntegrated quat velocity => (Report.gyroIntegrated quat velocity).values
  | report => 0xFB :: le32 preamble.timeBase ++
      [report.code, preamble.sequence, preamble.status, preamble.delay] ++ report.values

/-- The header of a packet with so much cargo. -/
def headerOf (length : Nat) (channel : Channel) (number : UInt8) : Block UInt8 4 :=
  fun i => [UInt8.ofNat (length + 4), UInt8.ofNat ((length + 4) / 256), channel.number, number].getD
    i 0

/-- The fields of the driver that a report is for. A game rotation vector has no
estimate of its accuracy, and what is behind it in the array is taken for one. -/
def Report.keep (accuracy : UInt8) (behind : UInt16) (device : Readings) : Report → Readings
  | .measured .accelerometer axes => { device with accel := ⟨axes, accuracy⟩ }
  | .measured .linearAcceleration axes => { device with linAccel := ⟨axes, accuracy⟩ }
  | .measured .gyroscope axes => { device with gyro := ⟨axes, accuracy⟩ }
  | .measured .magneticField axes => { device with magf := ⟨axes, accuracy⟩ }
  | .measured .gravity axes => { device with gravity := ⟨axes, accuracy⟩ }
  | .raw .accelerometer axes => { device with memsRawAccel := axes }
  | .raw .gyroscope axes => { device with memsRawGyro := axes }
  | .raw .magnetometer axes => { device with memsRawMagf := axes }
  | .uncalibratedGyro axes bias =>
      { device with uncalibGyro := ⟨axes, accuracy⟩, bias := bias }
  | .rotation _ quat radianAccuracy =>
      { device with quat := quat, quatRadianAccuracy := radianAccuracy, quatAccuracy := accuracy }
  | .gameRotation _ quat =>
      { device with quat := quat, quatRadianAccuracy := behind, quatAccuracy := accuracy }
  | .tap flags => { device with tapDetector := flags }
  | .steps _ count => { device with stepCount := count }
  | .stability classification => { device with stabilityClassifier := classification }
  | .activity _ state c₀ c₁ c₂ c₃ c₄ c₅ c₆ c₇ c₈ =>
      { device with
        activityClassifier := state
        activityConfidences := some [c₀, c₁, c₂, c₃, c₄, c₅, c₆, c₇, c₈] }
  | .gyroIntegrated quat velocity => { device with quat := quat, velocityGyro := velocity }

/-- The time of a report; on the gyro channel some bytes of the quaternion are taken for
it. -/
def Report.stamp (preamble : Preamble) (body : Block UInt8 300) : Report → UInt32
  | .gyroIntegrated _ _ => timeStamp body
  | _ => preamble.timeBase

/-! ### Words -/

theorem word_le16 (w : UInt16) : word w.toUInt8 (w >>> 8).toUInt8 = w := by
  apply UInt16.toNat_inj.mp
  rw [word_toNat]
  have hw : w.toNat < 65536 := w.toNat_lt
  simp
  omega

theorem announced_headerOf {length : Nat} (h : length ≤ 300) (channel : Channel) (number : UInt8) :
    announced (headerOf length channel number) = length + 4 := by
  change (word (UInt8.ofNat (length + 4)) (UInt8.ofNat ((length + 4) / 256))).toNat % 32768 = _
  simp only [word_toNat, UInt8.toNat_ofNat']
  omega

theorem dataLength_headerOf {length : Nat} (h : length ≤ 300) (channel : Channel)
    (number : UInt8) : dataLength (headerOf length channel number) = length := by
  rw [dataLength, announced_headerOf h]
  omega

/-- A report on the gyro channel does not begin like a response, and there is an array
for the confidences. -/
def Report.Storable (device : Readings) : Report → Prop
  | .gyroIntegrated quat _ => quat.i.toUInt8 ≠ 0xF8 ∧ quat.i.toUInt8 ≠ 0xF3
  | .activity _ _ _ _ _ _ _ _ _ _ _ => device.activityConfidences.isSome = true
  | _ => True

/-- The packet that arrives, with what was on the stack behind it. -/
def arrived (report : Report) (preamble : Preamble) (rest : List UInt8) (number : UInt8)
    (stack : Block UInt8 300) : RxPacket :=
  ⟨headerOf (report.cargo preamble ++ rest).length report.channel number,
    received (fun i => (report.cargo preamble ++ rest).getD i 0)
      (report.cargo preamble ++ rest).length stack,
    (report.cargo preamble ++ rest).length⟩

theorem receivePacket_arrived (report : Report) (preamble : Preamble) {rest : List UInt8}
    (number : UInt8) (stack : Block UInt8 300)
    (hfit : (report.cargo preamble ++ rest).length ≤ 300) :
    receivePacket (headerOf (report.cargo preamble ++ rest).length report.channel number)
      (fun i => (report.cargo preamble ++ rest).getD i 0) stack =
        some (some (arrived report preamble rest number stack)) := by
  rw [receivePacket, announced_headerOf hfit, if_neg (by omega), dataLength_headerOf hfit, readBody,
    if_pos hfit]
  rfl

/-- The array begins with the bytes. -/
def Holds (body : Block UInt8 300) (bytes : List UInt8) : Prop :=
  ∀ (k : Fin 300) (b : UInt8), bytes[k.val]? = some b → body k = b

theorem arrived_holds (report : Report) (preamble : Preamble) (rest : List UInt8) (number : UInt8)
    (stack : Block UInt8 300) :
    Holds (arrived report preamble rest number stack).body (report.cargo preamble) := by
  intro k b hb
  obtain ⟨hk, _⟩ := List.getElem?_eq_some_iff.mp hb
  have hall : k.val < (report.cargo preamble ++ rest).length := by
    rw [List.length_append]
    omega
  simp only [arrived, received_of_lt hall]
  rw [List.getD_eq_getElem?_getD, List.getElem?_append_left hk, hb, Option.getD_some]

/-- The bytes of a word, shifted back to their places. -/
theorem or_bytes (t : UInt32) :
    (t >>> 24).toUInt8.toUInt32 <<< 24 ||| (t >>> 16).toUInt8.toUInt32 <<< 16 |||
      (t >>> 8).toUInt8.toUInt32 <<< 8 ||| t.toUInt8.toUInt32 = t := by
  apply UInt32.eq_of_toBitVec_eq
  ext i hi
  simp only [UInt32.toBitVec_or, UInt32.toBitVec_shiftLeft, UInt8.toBitVec_toUInt32,
    UInt32.toBitVec_toUInt8, UInt32.toBitVec_shiftRight, UInt32.toBitVec_ofNat, BitVec.reduceMod,
    BitVec.shiftLeft_eq', BitVec.ushiftRight_eq', BitVec.reduceToNat, BitVec.getLsbD_or,
    BitVec.getLsbD_shiftLeft, BitVec.getLsbD_setWidth, BitVec.getLsbD_ushiftRight,
    ← BitVec.getLsbD_eq_getElem, hi, decide_true, Bool.true_and]
  -- the byte that the bit is in
  rcases Nat.lt_or_ge i 8 with h8 | h8
  · simp [h8, show i < 16 by omega, show i < 24 by omega]
  rcases Nat.lt_or_ge i 16 with h16 | h16
  · simp [h16, Nat.not_lt.mpr h8, show i < 24 by omega, show i - 8 < 8 by omega,
      show i - 8 < 32 by omega, show 8 + (i - 8) = i by omega]
  rcases Nat.lt_or_ge i 24 with h24 | h24
  · simp [h24, Nat.not_lt.mpr h8, Nat.not_lt.mpr h16, show ¬ i - 8 < 8 by omega,
      show i - 16 < 8 by omega, show i - 16 < 32 by omega, show 16 + (i - 16) = i by omega]
  · simp [Nat.not_lt.mpr h24, Nat.not_lt.mpr h8, Nat.not_lt.mpr h16, show ¬ i - 8 < 8 by omega,
      show ¬ i - 16 < 8 by omega, show i - 24 < 8 by omega, show i - 24 < 32 by omega,
      show 24 + (i - 24) = i by omega]

section Holding

variable {body : Block UInt8 300} {bytes : List UInt8}

theorem Holds.word (h : Holds body bytes) (low high : Fin 300) {w : UInt16}
    (hlow : bytes[low.val]? = some w.toUInt8) (hhigh : bytes[high.val]? = some (w >>> 8).toUInt8) :
    wordAt body low high = w := by
  rw [wordAt, h low _ hlow, h high _ hhigh, word_le16]

/-- A preamble is read back, and then the status has the accuracy. -/
theorem Holds.timeStamp {preamble : Preamble} {code : UInt8} {values : List UInt8}
    (h : Holds body (0xFB :: le32 preamble.timeBase ++
      [code, preamble.sequence, preamble.status, preamble.delay] ++ values)) :
    ShtpReports.timeStamp body = preamble.timeBase := by
  rw [ShtpReports.timeStamp, h 1 _ rfl, h 2 _ rfl, h 3 _ rfl, h 4 _ rfl, or_bytes]

theorem axes_of_words {a : Axes} (hx : wordAt body 9 10 = a.x) (hy : wordAt body 11 12 = a.y)
    (hz : wordAt body 13 14 = a.z) (n : Nat) : (readWords body n).axes = a := by
  rw [Words.axes, readWords, hx, hy, hz]

theorem status_of_byte {status : UInt8} (h : body 7 = status) (n : Nat) :
    (readWords body n).status = status &&& 3 := by
  rw [readWords, h]

/-- The later words, of a packet that is long enough. -/
theorem laterWords (body : Block UInt8 300) {n : Nat} (h : 17 ≤ n) :
    (readWords body n).data4 = wordAt body 15 16 ∧
      (readWords body n).data5 = wordAt body 17 18 := by
  have h4 : (n : Int) - 5 > 9 := by omega
  have h5 : (n : Int) - 5 > 11 := by omega
  exact ⟨if_pos h4, if_pos h5⟩

theorem lastWord {n : Nat} (h : 19 ≤ n) : (readWords body n).data6 = wordAt body 19 20 := by
  have h6 : (n : Int) - 5 > 13 := by omega
  exact if_pos h6

theorem quat_of_words {n : Nat} (h : 17 ≤ n) {q : Quaternion} (hi : wordAt body 9 10 = q.i)
    (hj : wordAt body 11 12 = q.j) (hk : wordAt body 13 14 = q.k)
    (hreal : wordAt body 15 16 = q.real) :
    Quaternion.mk (readWords body n).data1 (readWords body n).data2 (readWords body n).data3
      (readWords body n).data4 = q := by
  rw [(laterWords _ h).1, hreal, readWords, hi, hj, hk]

end Holding

theorem ofCode_code (id : ReportId) : ReportId.ofCode id.code = some id := by
  cases id <;> rfl

section Parse

variable {report : Report} {preamble : Preamble} {rest : List UInt8} {number : UInt8}
  {stack : Block UInt8 300} {device : Readings}

/-- A report that begins with a preamble goes to the case of its id. -/
theorem parsePacket_arrived (id : ReportId)
    (hcargo : report.cargo preamble = 0xFB :: le32 preamble.timeBase ++
      [id.code, preamble.sequence, preamble.status, preamble.delay] ++ report.values)
    (hchannel : report.channel = .reports)
    (hfit : (report.cargo preamble ++ rest).length ≤ 300) :
    parsePacket device (arrived report preamble rest number stack) =
      (storeReport { device with timeStamp := preamble.timeBase }
        (arrived report preamble rest number stack).body
        (readWords (arrived report preamble rest number stack).body
          (report.cargo preamble ++ rest).length) id).map fun device => (id.code, device) := by
  have hholds := arrived_holds report preamble rest number stack
  rw [hcargo] at hholds
  have hheader : (arrived report preamble rest number stack).header 2 = Channel.reports.number := by
    rw [← hchannel]
    rfl
  have hlength : dataLength (arrived report preamble rest number stack).header =
      (report.cargo preamble ++ rest).length := dataLength_headerOf hfit _ _
  have hgyro : ¬ Channel.reports.number = Channel.gyro.number := by decide
  rw [parsePacket, hholds 0 _ rfl, if_neg (by decide), if_neg (by decide), if_pos ⟨hheader, rfl⟩,
    parseInputReport, hheader, if_neg hgyro, hholds 5 _ rfl, ofCode_code, hholds.timeStamp, hlength]

theorem parse_measured (sensor : MeasuredSensor) (axes : Axes) (behind : UInt16)
    (hfit : ((Report.measured sensor axes).cargo preamble ++ rest).length ≤ 300) :
    parsePacket device (arrived (.measured sensor axes) preamble rest number stack) =
      some (sensor.id.code, (Report.measured sensor axes).keep (preamble.status &&& 3) behind
        { device with timeStamp := preamble.timeBase }) := by
  have h := arrived_holds (.measured sensor axes) preamble rest number stack
  have haxes := axes_of_words (a := axes) (h.word 9 10 rfl rfl) (h.word 11 12 rfl rfl)
    (h.word 13 14 rfl rfl)
  have hstatus := status_of_byte (h 7 _ rfl)
  rw [parsePacket_arrived sensor.id rfl rfl hfit]
  cases sensor <;>
    simp only [MeasuredSensor.id, storeReport, haxes, hstatus, Option.map_some, Report.keep]

theorem parse_raw (sensor : RawSensor) (axes : Axes) (behind : UInt16)
    (hfit : ((Report.raw sensor axes).cargo preamble ++ rest).length ≤ 300) :
    parsePacket device (arrived (.raw sensor axes) preamble rest number stack) =
      some (sensor.id.code, (Report.raw sensor axes).keep (preamble.status &&& 3) behind
        { device with timeStamp := preamble.timeBase }) := by
  have h := arrived_holds (.raw sensor axes) preamble rest number stack
  have haxes := axes_of_words (a := axes) (h.word 9 10 rfl rfl) (h.word 11 12 rfl rfl)
    (h.word 13 14 rfl rfl)
  rw [parsePacket_arrived sensor.id rfl rfl hfit]
  cases sensor <;> simp only [RawSensor.id, storeReport, haxes, Option.map_some, Report.keep]

theorem parse_uncalibratedGyro (axes bias : Axes) (behind : UInt16)
    (hfit : ((Report.uncalibratedGyro axes bias).cargo preamble ++ rest).length ≤ 300) :
    parsePacket device (arrived (.uncalibratedGyro axes bias) preamble rest number stack) =
      some (ReportId.uncalibratedGyro.code,
        (Report.uncalibratedGyro axes bias).keep (preamble.status &&& 3) behind
          { device with timeStamp := preamble.timeBase }) := by
  have h := arrived_holds (.uncalibratedGyro axes bias) preamble rest number stack
  have haxes := axes_of_words (a := axes) (h.word 9 10 rfl rfl) (h.word 11 12 rfl rfl)
    (h.word 13 14 rfl rfl)
  have hstatus := status_of_byte (h 7 _ rfl)
  have hlong : 21 ≤ ((Report.uncalibratedGyro axes bias).cargo preamble ++ rest).length := by
    rw [List.length_append]
    exact Nat.le_add_right 21 _
  obtain ⟨hdata4, hdata5⟩ := laterWords
    (arrived (.uncalibratedGyro axes bias) preamble rest number stack).body
    (Nat.le_trans (by decide) hlong)
  rw [parsePacket_arrived .uncalibratedGyro rfl rfl hfit, storeReport, haxes, hstatus, hdata4,
    hdata5, lastWord (Nat.le_trans (by decide) hlong), h.word 15 16 (w := bias.x) rfl rfl,
    h.word 17 18 (w := bias.y) rfl rfl, h.word 19 20 (w := bias.z) rfl rfl]
  rfl

theorem parse_rotation (sensor : RotationSensor) (quat : Quaternion)
    (radianAccuracy behind : UInt16)
    (hfit : ((Report.rotation sensor quat radianAccuracy).cargo preamble ++ rest).length ≤ 300) :
    parsePacket device (arrived (.rotation sensor quat radianAccuracy) preamble rest number stack) =
      some (sensor.id.code,
        (Report.rotation sensor quat radianAccuracy).keep (preamble.status &&& 3) behind
          { device with timeStamp := preamble.timeBase }) := by
  have h := arrived_holds (.rotation sensor quat radianAccuracy) preamble rest number stack
  have hlong :
      17 ≤ ((Report.rotation sensor quat radianAccuracy).cargo preamble ++ rest).length := by
    rw [List.length_append]
    exact Nat.le_trans (by decide) (Nat.le_add_right 19 _)
  have hquat := quat_of_words (q := quat) hlong (h.word 9 10 rfl rfl) (h.word 11 12 rfl rfl)
    (h.word 13 14 rfl rfl) (h.word 15 16 rfl rfl)
  have haccuracy := (laterWords _ hlong).2.trans (h.word 17 18 (w := radianAccuracy) rfl rfl)
  have hstatus := status_of_byte (h 7 _ rfl)
  rw [parsePacket_arrived sensor.id rfl rfl hfit]
  cases sensor <;>
    simp only [RotationSensor.id, storeReport, hquat, haccuracy, hstatus, Option.map_some,
      Report.keep]

/-- What stands behind the report is kept as its accuracy. -/
theorem parse_gameRotation (sensor : GameRotationSensor) (quat : Quaternion)
    (hfit : ((Report.gameRotation sensor quat).cargo preamble ++ rest).length ≤ 300) :
    parsePacket device (arrived (.gameRotation sensor quat) preamble rest number stack) =
      some (sensor.id.code,
        (Report.gameRotation sensor quat).keep (preamble.status &&& 3)
          (wordAt (arrived (.gameRotation sensor quat) preamble rest number stack).body 17 18)
          { device with timeStamp := preamble.timeBase }) := by
  have h := arrived_holds (.gameRotation sensor quat) preamble rest number stack
  have hlong : 17 ≤ ((Report.gameRotation sensor quat).cargo preamble ++ rest).length := by
    rw [List.length_append]
    exact Nat.le_add_right 17 _
  have hquat := quat_of_words (q := quat) hlong (h.word 9 10 rfl rfl) (h.word 11 12 rfl rfl)
    (h.word 13 14 rfl rfl) (h.word 15 16 rfl rfl)
  have hbehind := (laterWords
    (arrived (.gameRotation sensor quat) preamble rest number stack).body hlong).2
  have hstatus := status_of_byte (h 7 _ rfl)
  rw [parsePacket_arrived sensor.id rfl rfl hfit]
  cases sensor <;>
    simp only [GameRotationSensor.id, storeReport, hquat, hbehind, hstatus, Option.map_some,
      Report.keep]

/-- Reports of single values. -/
theorem parse_tap (flags : UInt8) (behind : UInt16)
    (hfit : ((Report.tap flags).cargo preamble ++ rest).length ≤ 300) :
    parsePacket device (arrived (.tap flags) preamble rest number stack) =
      some (ReportId.tapDetector.code, (Report.tap flags).keep (preamble.status &&& 3) behind
        { device with timeStamp := preamble.timeBase }) := by
  have h := arrived_holds (.tap flags) preamble rest number stack
  rw [parsePacket_arrived .tapDetector rfl rfl hfit, storeReport, h 9 _ rfl]
  rfl

theorem parse_stability (classification : UInt8) (behind : UInt16)
    (hfit : ((Report.stability classification).cargo preamble ++ rest).length ≤ 300) :
    parsePacket device (arrived (.stability classification) preamble rest number stack) =
      some (ReportId.stabilityClassifier.code,
        (Report.stability classification).keep (preamble.status &&& 3) behind
          { device with timeStamp := preamble.timeBase }) := by
  have h := arrived_holds (.stability classification) preamble rest number stack
  rw [parsePacket_arrived .stabilityClassifier rfl rfl hfit, storeReport, h 9 _ rfl]
  rfl

theorem parse_steps (latency : UInt32) (count behind : UInt16)
    (hfit : ((Report.steps latency count).cargo preamble ++ rest).length ≤ 300) :
    parsePacket device (arrived (.steps latency count) preamble rest number stack) =
      some (ReportId.stepCounter.code,
        (Report.steps latency count).keep (preamble.status &&& 3) behind
          { device with timeStamp := preamble.timeBase }) := by
  have h := arrived_holds (.steps latency count) preamble rest number stack
  have hcount (n : Nat) : (readWords (arrived (.steps latency count) preamble rest number
      stack).body n).data3 = count := h.word 13 14 rfl rfl
  rw [parsePacket_arrived .stepCounter rfl rfl hfit, storeReport, hcount]
  rfl

end Parse

/-- With an array for the confidences a report of the activity is kept, and without one
the write to it fails. -/
theorem parse_activity_iff {preamble : Preamble} {rest : List UInt8} {number : UInt8}
    {stack : Block UInt8 300} {device : Readings}
    (page state c₀ c₁ c₂ c₃ c₄ c₅ c₆ c₇ c₈ : UInt8) (behind : UInt16)
    (hfit : ((Report.activity page state c₀ c₁ c₂ c₃ c₄ c₅ c₆ c₇ c₈).cargo preamble ++
      rest).length ≤ 300) :
    parsePacket device (arrived (.activity page state c₀ c₁ c₂ c₃ c₄ c₅ c₆ c₇ c₈) preamble rest
        number stack) =
      some (ReportId.personalActivityClassifier.code,
        (Report.activity page state c₀ c₁ c₂ c₃ c₄ c₅ c₆ c₇ c₈).keep (preamble.status &&& 3) behind
          { device with timeStamp := preamble.timeBase }) ↔
      device.activityConfidences.isSome = true := by
  have h := arrived_holds (.activity page state c₀ c₁ c₂ c₃ c₄ c₅ c₆ c₇ c₈) preamble rest number
    stack
  rw [parsePacket_arrived .personalActivityClassifier rfl rfl hfit, storeReport]
  cases hconfidences : device.activityConfidences with
  | none => simp
  | some confidences =>
    rw [h 10 _ rfl, h 11 _ rfl, h 12 _ rfl, h 13 _ rfl, h 14 _ rfl, h 15 _ rfl, h 16 _ rfl,
      h 17 _ rfl, h 18 _ rfl, h 19 _ rfl]
    exact iff_of_true rfl rfl

/-- A report on the gyro channel is kept unless its first byte makes it a response. -/
theorem parse_gyroIntegrated_iff {preamble : Preamble} {rest : List UInt8} {number : UInt8}
    {stack : Block UInt8 300} {device : Readings} (quat : Quaternion) (velocity : Axes)
    (accuracy : UInt8) (behind : UInt16) :
    parsePacket device (arrived (.gyroIntegrated quat velocity) preamble rest number stack) =
      some (gyroIntegratedCode, (Report.gyroIntegrated quat velocity).keep accuracy behind
        { device with
          timeStamp :=
            timeStamp (arrived (.gyroIntegrated quat velocity) preamble rest number stack).body }) ↔
      quat.i.toUInt8 ≠ 0xF8 ∧ quat.i.toUInt8 ≠ 0xF3 := by
  have h := arrived_holds (.gyroIntegrated quat velocity) preamble rest number stack
  have hfirst := h 0 quat.i.toUInt8 rfl
  have hheader : (arrived (.gyroIntegrated quat velocity) preamble rest number stack).header 2 =
    Channel.gyro.number := rfl
  rw [parsePacket, hfirst, hheader]
  by_cases hproduct : quat.i.toUInt8 = 0xF8
  · rw [if_pos hproduct, parseProductIdReport]
    refine iff_of_false ?_ fun hkept => hkept.1 hproduct
    intro heq
    exact absurd (Prod.mk.inj (Option.some.inj heq)).1 (by decide)
  by_cases hfrs : quat.i.toUInt8 = 0xF3
  · rw [if_neg hproduct, if_pos hfrs, parseFrsReadResponseReport]
    refine iff_of_false ?_ fun hkept => hkept.2 hfrs
    intro heq
    exact absurd (Prod.mk.inj (Option.some.inj heq)).1 (by decide)
  have hreports : ¬ (Channel.gyro.number = Channel.reports.number ∧ quat.i.toUInt8 = 0xFB) :=
    fun hboth => absurd hboth.1 (by decide)
  have hcontrol : ¬ Channel.gyro.number = Channel.control.number := by decide
  rw [if_neg hproduct, if_neg hfrs, if_neg hreports, if_neg hcontrol, if_pos rfl, parseInputReport,
    hheader, if_pos rfl, storeGyroReport, h.word 0 1 (w := quat.i) rfl rfl,
    h.word 2 3 (w := quat.j) rfl rfl, h.word 4 5 (w := quat.k) rfl rfl,
    h.word 6 7 (w := quat.real) rfl rfl, h.word 8 9 (w := velocity.x) rfl rfl,
    h.word 10 11 (w := velocity.y) rfl rfl, h.word 12 13 (w := velocity.z) rfl rfl]
  exact iff_of_true rfl ⟨hproduct, hfrs⟩

/-- A report that fits into a packet is received and kept exactly if it is not taken for a
response and has an array to go to. Its fields hold what the hub has sent, and no others
change but two: after a game rotation vector the estimate of the accuracy, and after a report
on the gyro channel the time. -/
theorem report_kept_iff (report : Report) (preamble : Preamble) (rest : List UInt8) (number : UInt8)
    (stack : Block UInt8 300) (device : Readings)
    (hfit : (report.cargo preamble ++ rest).length ≤ 300) :
    ∃ packet,
      receivePacket (headerOf (report.cargo preamble ++ rest).length report.channel number)
        (fun i => (report.cargo preamble ++ rest).getD i 0) stack = some (some packet) ∧
      (parsePacket device packet = some (report.code,
          report.keep (preamble.status &&& 3) (wordAt packet.body 17 18)
            { device with timeStamp := report.stamp preamble packet.body }) ↔
        report.Storable device) := by
  refine ⟨_, receivePacket_arrived report preamble number stack hfit, ?_⟩
  cases report with
  | measured sensor axes => exact iff_of_true (parse_measured sensor axes _ hfit) trivial
  | raw sensor axes => exact iff_of_true (parse_raw sensor axes _ hfit) trivial
  | uncalibratedGyro axes bias =>
    exact iff_of_true (parse_uncalibratedGyro axes bias _ hfit) trivial
  | rotation sensor quat radianAccuracy =>
    exact iff_of_true (parse_rotation sensor quat radianAccuracy _ hfit) trivial
  | gameRotation sensor quat => exact iff_of_true (parse_gameRotation sensor quat hfit) trivial
  | tap flags => exact iff_of_true (parse_tap flags _ hfit) trivial
  | steps latency count => exact iff_of_true (parse_steps latency count _ hfit) trivial
  | stability classification => exact iff_of_true (parse_stability classification _ hfit) trivial
  | activity page state c₀ c₁ c₂ c₃ c₄ c₅ c₆ c₇ c₈ =>
    exact parse_activity_iff page state c₀ c₁ c₂ c₃ c₄ c₅ c₆ c₇ c₈ _ hfit
  | gyroIntegrated quat velocity => exact parse_gyroIntegrated_iff quat velocity _ _

/-- A quaternion that begins like the response to a request. -/
def likeResponse : Report := .gyroIntegrated ⟨0x01F8, 0, 0, 0x4000⟩ ⟨0, 0, 0⟩

theorem likeResponse_kept_iff :
    ∃ packet,
      receivePacket (headerOf 14 .gyro 0)
        (fun i => (likeResponse.cargo ⟨0, 0, 0, 0⟩ ++ []).getD i 0) (fun _ => 0) =
          some (some packet) ∧
      (parsePacket Readings.boot packet = some (gyroIntegratedCode,
          likeResponse.keep 0 (wordAt packet.body 17 18)
            { Readings.boot with timeStamp := likeResponse.stamp ⟨0, 0, 0, 0⟩ packet.body }) ↔
        likeResponse.Storable Readings.boot) :=
  report_kept_iff likeResponse ⟨0, 0, 0, 0⟩ [] 0 (fun _ => 0) Readings.boot (by decide)

end ShtpReports

end MarkitNode
