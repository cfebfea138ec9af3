import MarkitNode.ShtpReports

/-!
How much of a report has to arrive. The parser looks at fixed places of an array that
lies on the stack, so that what it makes of a report may hang on what was there
before. It does not exactly if as many bytes have come as the report's case uses,
which for the bias of the gyroscope and the accuracy of a rotation vector is more
than the length that the parser asks for.
-/

namespace MarkitNode

namespace ShtpReports

open MemoryBlock ShtpCommands

/-- The array behind `length` bytes from the bus. -/
def received (bus : Nat → UInt8) (length : Nat) (stack : Block UInt8 300) : Block UInt8 300 :=
  fun i => if i < length then bus i else stack i

/-- What `BNO08x_parse_input_report` does with the bytes of a packet. -/
def inputReport (device : Readings) (header : Block UInt8 4) (bus : Nat → UInt8)
    (stack : Block UInt8 300) : Option (UInt8 × Readings) :=
  parseInputReport device ⟨header, received bus (dataLength header) stack, dataLength header⟩

/-- The stack has no part in the result. -/
def Settled (device : Readings) (header : Block UInt8 4) (bus : Nat → UInt8) : Prop :=
  ∀ stack stack', inputReport device header bus stack = inputReport device header bus stack'

/-- The bytes that the case of a report uses. -/
def bytesOf (device : Readings) (command : UInt8) : ReportId → Nat
  | .tapDetector | .stabilityClassifier => 10
  | .commandResponse => if command = commandMeCalibrate then 11 else 8
  | .personalActivityClassifier => if device.activityConfidences.isSome then 20 else 6
  | .uncalibratedGyro => 21
  | .rotationVector | .gameRotationVector => 19
  | .arvrStabilizedRotationVector | .arvrStabilizedGameRotationVector => 19
  | _ => 15

def bytesUsed (device : Readings) (header : Block UInt8 4) (bus : Nat → UInt8) : Nat :=
  if header 2 = Channel.gyro.number then 14
  else match ReportId.ofCode (bus 5) with
    | some id => bytesOf device (bus 7) id
    | none => 6

/-! ### Enough bytes -/

/-- Two arrays are the same on their first `n` places. -/
def Agree (n : Nat) (body body' : Block UInt8 300) : Prop := ∀ i, i.val < n → body i = body' i

theorem Agree.mono {m n : Nat} {body body' : Block UInt8 300} (h : Agree n body body')
    (hle : m ≤ n) : Agree m body body' :=
  fun i hi => h i (Nat.lt_of_lt_of_le hi hle)

theorem received_of_lt {bus : Nat → UInt8} {n : Nat} {stack : Block UInt8 300} {i : Fin 300}
    (h : i.val < n) : received bus n stack i = bus i := if_pos h

theorem received_of_le {bus : Nat → UInt8} {n : Nat} {stack : Block UInt8 300} {i : Fin 300}
    (h : n ≤ i.val) : received bus n stack i = stack i := if_neg (Nat.not_lt.mpr h)

theorem agree_received (bus : Nat → UInt8) (n : Nat) (stack stack' : Block UInt8 300) :
    Agree n (received bus n stack) (received bus n stack') := by
  intro i hi
  rw [received_of_lt hi, received_of_lt hi]

section Enough

variable {n : Nat} {body body' : Block UInt8 300}

theorem wordAt_congr (h : Agree n body body') (low high : Fin 300) (hlow : low.val < n)
    (hhigh : high.val < n) : wordAt body low high = wordAt body' low high := by
  rw [wordAt, wordAt, h low hlow, h high hhigh]

theorem axes_congr (h : Agree 15 body body') :
    (readWords body n).axes = (readWords body' n).axes := by
  simp only [Words.axes, readWords, wordAt_congr h 9 10 (by decide) (by decide),
    wordAt_congr h 11 12 (by decide) (by decide),
    wordAt_congr h 13 14 (by decide) (by decide)]

theorem status_congr (h : Agree 15 body body') :
    (readWords body n).status = (readWords body' n).status := by
  simp only [readWords, h 7 (by decide)]

/-- The fourth and the fifth word are read when all of them has come. -/
theorem data45_congr (h : Agree 19 body body') (m : Nat) :
    (readWords body m).data4 = (readWords body' m).data4 ∧
      (readWords body m).data5 = (readWords body' m).data5 := by
  simp only [readWords, wordAt_congr h 15 16 (by decide) (by decide),
    wordAt_congr h 17 18 (by decide) (by decide), and_self]

theorem data6_congr (h : Agree 21 body body') (m : Nat) :
    (readWords body m).data6 = (readWords body' m).data6 := by
  simp only [readWords, wordAt_congr h 19 20 (by decide) (by decide)]

theorem stepCount_congr (h : Agree 15 body body') :
    (readWords body n).data3 = (readWords body' n).data3 := congrArg Axes.z (axes_congr (n := n) h)

theorem storeReport_congr (device : Readings) {id : ReportId} {command : UInt8}
    (h : Agree n body body') (hn : bytesOf device command id ≤ n)
    (hcommand : id = .commandResponse → command = body 7) :
    storeReport device body (readWords body n) id =
      storeReport device body' (readWords body' n) id := by
  cases id with
  | tapDetector | stabilityClassifier =>
    have h10 : Agree 10 body body' := h.mono hn
    rw [storeReport, storeReport, h10 9 (by decide)]
  | commandResponse =>
    rw [bytesOf, hcommand rfl] at hn
    rw [storeReport, storeReport]
    split_ifs at hn with hcommand
    · have h11 : Agree 11 body body' := h.mono hn
      rw [← h11 7 (by decide), if_pos hcommand, if_pos hcommand, h11 10 (by decide)]
    · have h8 : Agree 8 body body' := h.mono hn
      rw [← h8 7 (by decide), if_neg hcommand, if_neg hcommand]
  | personalActivityClassifier =>
    rw [bytesOf] at hn
    rw [storeReport, storeReport]
    cases hconfidences : device.activityConfidences with
    | none => rfl
    | some confidences =>
      rw [hconfidences, Option.isSome_some, if_pos rfl] at hn
      have h20 : Agree 20 body body' := h.mono hn
      rw [h20 10 (by decide), h20 11 (by decide), h20 12 (by decide), h20 13 (by decide),
        h20 14 (by decide), h20 15 (by decide), h20 16 (by decide), h20 17 (by decide),
        h20 18 (by decide), h20 19 (by decide)]
  | uncalibratedGyro =>
    have h21 : Agree 21 body body' := h.mono hn
    have h15 : Agree 15 body body' := h21.mono (by decide)
    obtain ⟨hdata4, hdata5⟩ := data45_congr (h21.mono (by decide)) n
    rw [storeReport, storeReport, axes_congr h15, status_congr h15, hdata4, hdata5,
      data6_congr h21 n]
  | rotationVector | gameRotationVector | arvrStabilizedRotationVector
  | arvrStabilizedGameRotationVector =>
    have h19 : Agree 19 body body' := h.mono hn
    have h15 : Agree 15 body body' := h19.mono (by decide)
    have haxes := axes_congr (n := n) h15
    rw [Words.axes, Words.axes, Axes.mk.injEq] at haxes
    obtain ⟨hdata4, hdata5⟩ := data45_congr h19 n
    rw [storeReport, storeReport, status_congr h15, haxes.1, haxes.2.1, haxes.2.2, hdata4, hdata5]
  | stepCounter =>
    have h15 : Agree 15 body body' := h.mono hn
    rw [storeReport, storeReport, stepCount_congr h15]
  | rawAccelerometer | rawGyroscope | rawMagnetometer =>
    have h15 : Agree 15 body body' := h.mono hn
    rw [storeReport, storeReport, axes_congr h15]
  | accelerometer | linearAcceleration | gyroscope | magneticField | gravity =>
    have h15 : Agree 15 body body' := h.mono hn
    rw [storeReport, storeReport, axes_congr h15, status_congr h15]

theorem timeStamp_congr (h : Agree 5 body body') : timeStamp body = timeStamp body' := by
  simp only [timeStamp, h 1 (by decide), h 2 (by decide), h 3 (by decide), h 4 (by decide)]

theorem storeGyroReport_congr (device : Readings) (h : Agree 14 body body') :
    storeGyroReport device body = storeGyroReport device body' := by
  simp only [storeGyroReport, wordAt, h 0 (by decide), h 1 (by decide), h 2 (by decide),
    h 3 (by decide), h 4 (by decide), h 5 (by decide), h 6 (by decide), h 7 (by decide),
    h 8 (by decide), h 9 (by decide), h 10 (by decide), h 11 (by decide), h 12 (by decide),
    h 13 (by decide)]

end Enough

theorem six_le_bytesOf (device : Readings) (command : UInt8) (id : ReportId) :
    6 ≤ bytesOf device command id := by
  cases id with
  | commandResponse | personalActivityClassifier =>
    rw [bytesOf]
    split_ifs <;> omega
  | _ =>
    simp only [bytesOf]
    omega

theorem eight_le_bytesOf_commandResponse (device : Readings) (command : UInt8) :
    8 ≤ bytesOf device command .commandResponse := by
  rw [bytesOf]
  split_ifs <;> omega

theorem settled_of_bytesUsed {device : Readings} {header : Block UInt8 4} {bus : Nat → UInt8}
    (h : bytesUsed device header bus ≤ dataLength header) : Settled device header bus := by
  intro stack stack'
  have hagree := agree_received bus (dataLength header) stack stack'
  rw [bytesUsed] at h
  rw [inputReport, inputReport, parseInputReport, parseInputReport]
  split_ifs at h with hgyro
  · have h14 := hagree.mono h
    rw [if_pos hgyro, if_pos hgyro, timeStamp_congr (h14.mono (by decide)),
      storeGyroReport_congr _ h14]
  · have h6 : 6 ≤ dataLength header := by
      cases hid : ReportId.ofCode (bus 5) with
      | none => simpa only [hid] using h
      | some id =>
        simp only [hid] at h
        exact Nat.le_trans (six_le_bytesOf device (bus 7) id) h
    have hcode (stack : Block UInt8 300) : received bus (dataLength header) stack 5 = bus 5 :=
      received_of_lt (i := 5) h6
    rw [if_neg hgyro, if_neg hgyro, timeStamp_congr ((hagree.mono h6).mono (by decide))]
    simp only [hcode]
    cases hid : ReportId.ofCode (bus 5) with
    | none => rfl
    | some id =>
      simp only [hid] at h ⊢
      refine congrArg _ (storeReport_congr _ hagree h ?_)
      rintro rfl
      have h8 := Nat.le_trans (eight_le_bytesOf_commandResponse device (bus 7)) h
      exact (received_of_lt (i := 7) h8).symm

/-! ### Too few bytes -/

theorem word_toNat (low high : UInt8) : (word low high).toNat = low.toNat + 256 * high.toNat := by
  have hlow : low.toNat < 2 ^ 8 := low.toNat_lt
  have hhigh : high.toNat < 256 := high.toNat_lt
  have hshift : high.toNat <<< 8 % 2 ^ 16 = high.toNat <<< 8 := by
    rw [Nat.shiftLeft_eq]
    omega
  rw [word, UInt16.toNat_or, UInt16.toNat_shiftLeft]
  simp only [UInt8.toNat_toUInt16, UInt16.reduceToNat, Nat.reduceMod, hshift]
  rw [← Nat.shiftLeft_add_eq_or_of_lt hlow, Nat.shiftLeft_eq]
  omega

/-- A stack that would be taken for the rest of a report. -/
def probe (k : UInt8) : Block UInt8 300 :=
  fun i => if i = 5 then ReportId.tapDetector.code else if i = 7 then commandMeCalibrate else k

section Few

variable {n : Nat} (bus : Nat → UInt8) {device : Readings}

theorem received_probe {i : Fin 300} (h : n ≤ i.val) (h5 : i ≠ 5) (h7 : i ≠ 7) (k : UInt8) :
    received bus n (probe k) i = k := by
  rw [received_of_le h, probe, if_neg h5, if_neg h7]

/-- A word whose high byte has not come. -/
theorem wordAt_probe_ne (low high : Fin 300) (h : n ≤ high.val) (h5 : high ≠ 5)
    (h7 : high ≠ 7) :
    wordAt (received bus n (probe 0)) low high ≠ wordAt (received bus n (probe 255)) low high := by
  intro heq
  have hvalue := congrArg UInt16.toNat heq
  rw [wordAt, wordAt, word_toNat, word_toNat, received_probe bus h h5 h7,
    received_probe bus h h5 h7]
    at hvalue
  have hlow := (received bus n (probe 0) low).toNat_lt
  have hzero : (0 : UInt8).toNat = 0 := rfl
  have hones : (255 : UInt8).toNat = 255 := rfl
  omega

theorem axes_probe_ne (h : n < 15) :
    (readWords (received bus n (probe 0)) n).data3 ≠
      (readWords (received bus n (probe 255)) n).data3 :=
  wordAt_probe_ne bus 13 14 (Nat.le_of_lt_succ h) (by decide) (by decide)

/-- The length that the parser asks for lets a word through of which one byte has come. -/
theorem data4_probe_ne (h15 : 15 ≤ n) (h17 : n < 17) :
    (readWords (received bus n (probe 0)) n).data4 ≠
      (readWords (received bus n (probe 255)) n).data4 := by
  have hlong : (n : Int) - 5 > 9 := by omega
  simp only [readWords, if_pos hlong]
  exact wordAt_probe_ne bus 15 16 (Nat.le_of_lt_succ h17) (by decide) (by decide)

theorem data5_probe_ne (h17 : 17 ≤ n) (h19 : n < 19) :
    (readWords (received bus n (probe 0)) n).data5 ≠
      (readWords (received bus n (probe 255)) n).data5 := by
  have hlong : (n : Int) - 5 > 11 := by omega
  simp only [readWords, if_pos hlong]
  exact wordAt_probe_ne bus 17 18 (Nat.le_of_lt_succ h19) (by decide) (by decide)

theorem data6_probe_ne (h19 : 19 ≤ n) (h21 : n < 21) :
    (readWords (received bus n (probe 0)) n).data6 ≠
      (readWords (received bus n (probe 255)) n).data6 := by
  have hlong : (n : Int) - 5 > 13 := by omega
  simp only [readWords, if_pos hlong]
  exact wordAt_probe_ne bus 19 20 (Nat.le_of_lt_succ h21) (by decide) (by decide)

theorem command_probe (hn : n < bytesOf device (bus 7) .commandResponse) (k : UInt8) :
    received bus n (probe k) 7 = commandMeCalibrate ∧ n ≤ 10 := by
  rw [bytesOf] at hn
  by_cases h7 : 7 < n
  · have hbus : received bus n (probe k) 7 = bus 7 := received_of_lt (i := 7) h7
    rw [hbus]
    split_ifs at hn with hcommand
    · exact ⟨hcommand, Nat.le_of_lt_succ hn⟩
    · omega
  · refine ⟨?_, by omega⟩
    have hstack : received bus n (probe k) 7 = probe k 7 :=
      received_of_le (i := 7) (Nat.not_lt.mp h7)
    rw [hstack]
    rfl

theorem storeReport_differs (device : Readings) {id : ReportId} (h6 : 6 ≤ n)
    (hn : n < bytesOf device (bus 7) id) :
    storeReport device (received bus n (probe 0)) (readWords (received bus n (probe 0)) n) id ≠
      storeReport device (received bus n (probe 255)) (readWords (received bus n (probe 255)) n)
        id := by
  intro heq
  cases id with
  | tapDetector | stabilityClassifier =>
    have h10 : n < 10 := hn
    simp only [storeReport, Option.some.injEq, Readings.mk.injEq, true_and, and_true] at heq
    have h9 := received_probe (n := n) bus (i := 9) (Nat.le_of_lt_succ h10) (by decide)
      (by decide)
    rw [h9, h9] at heq
    exact absurd heq (by decide)
  | accelerometer | linearAcceleration | gyroscope | magneticField | gravity =>
    have h15 : n < 15 := hn
    simp only [storeReport, Option.some.injEq, Readings.mk.injEq, Measured.mk.injEq, Words.axes,
      Axes.mk.injEq, true_and, and_true] at heq
    exact wordAt_probe_ne bus 13 14 (Nat.le_of_lt_succ h15) (by decide) (by decide) heq.1.2.2
  | rawAccelerometer | rawGyroscope | rawMagnetometer =>
    have h15 : n < 15 := hn
    simp only [storeReport, Option.some.injEq, Readings.mk.injEq, Words.axes, Axes.mk.injEq,
      true_and, and_true] at heq
    exact wordAt_probe_ne bus 13 14 (Nat.le_of_lt_succ h15) (by decide) (by decide) heq.2.2
  | stepCounter =>
    have h15 : n < 15 := hn
    simp only [storeReport, Option.some.injEq, Readings.mk.injEq, true_and, and_true] at heq
    exact wordAt_probe_ne bus 13 14 (Nat.le_of_lt_succ h15) (by decide) (by decide) heq
  | commandResponse =>
    obtain ⟨hzero, h10⟩ := command_probe bus hn 0
    obtain ⟨hones, _⟩ := command_probe bus hn 255
    rw [storeReport, storeReport, if_pos hzero, if_pos hones] at heq
    simp only [Option.some.injEq, Readings.mk.injEq, true_and, and_true] at heq
    have hstatus := received_probe (n := n) bus (i := 10) h10 (by decide) (by decide)
    rw [hstatus, hstatus] at heq
    exact absurd heq (by decide)
  | personalActivityClassifier =>
    rw [bytesOf] at hn
    split_ifs at hn with hconfidences
    · obtain ⟨confidences, hsome⟩ := Option.isSome_iff_exists.mp hconfidences
      simp only [storeReport, hsome, Option.map_some, Option.some.injEq, Readings.mk.injEq,
        true_and, and_true, List.cons.injEq] at heq
      have hlast := received_probe (n := n) bus (i := 19) (Nat.le_of_lt_succ hn)
        (by decide) (by decide)
      rw [hlast, hlast] at heq
      exact absurd heq.2.2.2.2.2.2.2.2.2 (by decide)
    · omega
  | uncalibratedGyro =>
    have h21 : n < 21 := hn
    simp only [storeReport, Option.some.injEq, Readings.mk.injEq, Measured.mk.injEq, Words.axes,
      Axes.mk.injEq, true_and, and_true] at heq
    obtain ⟨⟨⟨_, _, hdata3⟩, _⟩, hdata4, hdata5, hdata6⟩ := heq
    rcases Nat.lt_or_ge n 15 with h15 | h15
    · exact axes_probe_ne bus h15 hdata3
    rcases Nat.lt_or_ge n 17 with h17 | h17
    · exact data4_probe_ne bus h15 h17 hdata4
    rcases Nat.lt_or_ge n 19 with h19 | h19
    · exact data5_probe_ne bus h17 h19 hdata5
    · exact data6_probe_ne bus h19 h21 hdata6
  | rotationVector | gameRotationVector | arvrStabilizedRotationVector
  | arvrStabilizedGameRotationVector =>
    have h19 : n < 19 := hn
    simp only [storeReport, Option.some.injEq, Readings.mk.injEq, Quaternion.mk.injEq, true_and,
      and_true] at heq
    obtain ⟨⟨_, _, hdata3, hdata4⟩, hdata5, _⟩ := heq
    rcases Nat.lt_or_ge n 15 with h15 | h15
    · exact axes_probe_ne bus h15 hdata3
    rcases Nat.lt_or_ge n 17 with h17 | h17
    · exact data4_probe_ne bus h15 h17 hdata4
    · exact data5_probe_ne bus h17 h19 hdata5

/-- A packet that ends before its report begins is taken for what is on the stack. -/
theorem received_probe_code (h : n ≤ 5) (k : UInt8) :
    received bus n (probe k) 5 = ReportId.tapDetector.code :=
  received_of_le (i := 5) h

end Few

theorem not_settled_of_few {device : Readings} {header : Block UInt8 4} {bus : Nat → UInt8}
    (h : dataLength header < bytesUsed device header bus) : ¬ Settled device header bus := by
  intro hsettled
  have heq := hsettled (probe 0) (probe 255)
  rw [bytesUsed] at h
  rw [inputReport, inputReport, parseInputReport, parseInputReport] at heq
  split_ifs at h with hgyro
  · rw [if_pos hgyro, if_pos hgyro] at heq
    simp only [storeGyroReport, Option.some.injEq, Prod.mk.injEq, Readings.mk.injEq, Axes.mk.injEq,
      true_and, and_true] at heq
    exact wordAt_probe_ne bus 12 13 (Nat.le_of_lt_succ h) (by decide) (by decide)
      heq.2.2.2.2
  · rw [if_neg hgyro, if_neg hgyro] at heq
    have htap : ReportId.ofCode ReportId.tapDetector.code = some .tapDetector := rfl
    rcases Nat.lt_or_ge (dataLength header) 6 with hfew | h6
    · have hcode := received_probe_code bus (Nat.le_of_lt_succ hfew)
      simp only [hcode, htap, storeReport, Option.map_some, Option.some.injEq, Prod.mk.injEq,
        Readings.mk.injEq, true_and, and_true] at heq
      have h9 := received_probe (n := dataLength header) bus (i := 9) (Nat.le_trans
        (Nat.le_of_lt hfew) (by decide)) (by decide) (by decide)
      rw [h9, h9] at heq
      exact absurd heq.2 (by decide)
    · have hcode (k : UInt8) : received bus (dataLength header) (probe k) 5 = bus 5 :=
        received_of_lt (i := 5) h6
      have hagree := agree_received bus (dataLength header) (probe 0) (probe 255)
      simp only [hcode, timeStamp_congr ((hagree.mono h6).mono (by decide))] at heq
      cases hid : ReportId.ofCode (bus 5) with
      | none =>
        simp only [hid] at h
        omega
      | some id =>
        simp only [hid] at h heq
        have hsame := Option.map_injective (Prod.mk_right_injective (bus 5)) heq
        refine storeReport_differs bus _ h6 ?_ hsame
        exact h

/-- What a report is taken for hangs on nothing that was on the stack exactly if all of
the bytes have come that its case uses. -/
theorem settled_iff (device : Readings) (header : Block UInt8 4) (bus : Nat → UInt8) :
    Settled device header bus ↔ bytesUsed device header bus ≤ dataLength header := by
  constructor
  · intro hsettled
    by_contra hfew
    exact not_settled_of_few (Nat.lt_of_not_le hfew) hsettled
  · exact settled_of_bytesUsed

end ShtpReports

end MarkitNode
