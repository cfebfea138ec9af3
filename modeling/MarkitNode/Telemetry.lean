import MarkitNode.SampleHandshake
import MarkitNode.SampleLine
import MarkitNode.SessionDelivery

/-!
A streaming session from the line of the IMU to the packets. `hi229_poll_task` takes
the bytes, and copies a sample that the parser reports into `raw_snapshot` for
`hi229_read`; `app_monitor` numbers what it reads and pushes it, and `app_data_client`
sends what it finds in the ring. The two tasks of the IMU meet as in the handshake, to
which the data are added here: `sensor` has the numbers of the samples only. Each `memcpy`
of the snapshot is one step, as if nothing came between its bytes.
-/

namespace MarkitNode

namespace Telemetry

open Hi229Serial SampleHandshake StreamSession

/-- `memcpy` of a `ch_imu_data_t` into an `imu_data_t`. -/
def imuDataOf (imu : ChImuData) : ImuData where
  id := imu.id
  acc := imu.acc
  gyr := imu.gyr
  mag := imu.mag
  eul := imu.eul
  quat := imu.quat
  pressure := imu.pressure
  imuTsMs := imu.timestamp

structure Node where
  /-- the bytes that are still to come -/
  line : List UInt8
  raw : Raw
  /-- `ch_serial_input` has returned 1, and the sample is not copied yet -/
  reported : Bool
  sensor : Sensor
  rawSnapshot : ChImuData
  /-- `imu_data` of `app_monitor` -/
  imuData : ImuData
  /-- `hi229_read` has succeeded, and the sample is not pushed yet -/
  readOk : Bool
  session : Session

inductive Label
  /-- the poll task feeds the next byte to the parser -/
  | byte
  | copySnapshot
  | storeTimestamp
  | setDataReady
  /-- a call of `hi229_read` by `app_monitor` -/
  | waitBits
  | readSnapshot
  | readTimestamp
  | clearDataReady
  | push (devTsUs tsfTsUs : Int64) (bufferDelayUs : Int32)
  /-- an iteration of `app_data_client` -/
  | iterate (nowUs : Int64)
  deriving DecidableEq

def sensorStep (s : Node) (a : SampleHandshake.Label) : Option Node :=
  (SampleHandshake.step s.sensor a).map fun sensor => { s with sensor := sensor }

def step (s : Node) : Label → Option Node
  | .byte =>
      match s.line with
      | [] => none
      | b :: line =>
          if s.sensor.poll = .betweenSamples ∧ s.reported = false then
            (chSerialInput parseData s.raw b true).map fun entry =>
              { s with line := line, raw := entry.2, reported := entry.1 = .inputData }
          else none
  | .copySnapshot =>
      if s.reported then
        (sensorStep s .copySnapshot).map fun s =>
          { s with reported := false, rawSnapshot := imuOf s.raw.data }
      else none
  | .storeTimestamp => sensorStep s .storeTimestamp
  | .setDataReady => sensorStep s .setDataReady
  | .waitBits => if s.readOk then none else sensorStep s (.waitBits false)
  | .readSnapshot =>
      (sensorStep s .readSnapshot).map fun s => { s with imuData := imuDataOf s.rawSnapshot }
  | .readTimestamp => sensorStep s .readTimestamp
  | .clearDataReady =>
      (sensorStep s .clearDataReady).map fun s => { s with readOk := true }
  | .push devTsUs tsfTsUs bufferDelayUs =>
      if s.readOk then
        some { s with
          readOk := false
          session := monitorPush s.session ⟨s.imuData, devTsUs, tsfTsUs, 0, bufferDelayUs⟩ }
      else none
  | .iterate nowUs => some { s with session := clientIterate s.session nowUs }

/-- After `hi229_buffer_reset` and `ring_buf_reset`: neither touches the snapshot of an
earlier sample, or its bit. -/
def start (line : List UInt8) (old : ChImuData) (imuData : ImuData) (evDataReady : Bool)
    (rb : SlotRing ImuDgram) : Node where
  line := line
  raw := Raw.zeroed
  reported := false
  sensor := { SampleHandshake.boot with evDataReady := evDataReady }
  rawSnapshot := old
  imuData := imuData
  readOk := false
  session := StreamSession.start rb

section Line

variable (noise : List UInt8) (samples : List SentSample) (old : ChImuData)

def machine (evDataReady : Bool) : Machine Node Label where
  Init s := ∃ imuData rb,
    s = start (noise ++ samples.flatMap sampleFrame) old imuData evDataReady rb
  step := step

/-- Number 0 is the snapshot of the time before. -/
def sampleAt (n : Nat) : Option ChImuData := (old :: samples.map fun s => s.2.imu)[n]?

/-- The packet has the values of the sample. -/
structure CarriesSample (pkt : MarkerPacket) (imu : ChImuData) : Prop where
  acc : pkt.acc = imu.acc
  gyr : pkt.gyr = imu.gyr
  mag : pkt.mag = imu.mag
  quat : pkt.quat = imu.quat
  imuTsMs : pkt.imuTsMs = imu.timestamp

/-- The packets are numbered from 0 on, and carry samples of the line that follow each
other as `r` says. -/
structure Follows (r : Nat → Nat → Prop) (sent : List MarkerPacket) : Prop where
  carries : ∃ numbers : List Nat, numbers.Pairwise r ∧
    List.Forall₂ (fun pkt n => ∃ imu, sampleAt samples old n = some imu ∧ CarriesSample pkt imu)
      sent numbers
  seq : ∀ k (hk : k < sent.length), sent[k].seq = UInt32.ofNat k

end Line

/-- The consumer keeps within one ring of the producer. -/
def InWindow (s : Node) : Label → Prop
  | .iterate nowUs => SessionDelivery.InWindow s.session (.iterate nowUs)
  | _ => True

instance (s : Node) : DecidablePred (InWindow s)
  | .iterate nowUs =>
      inferInstanceAs (Decidable (SessionDelivery.InWindow s.session (.iterate nowUs)))
  | .byte | .copySnapshot | .storeTimestamp | .setDataReady | .waitBits | .readSnapshot
  | .readTimestamp | .clearDataReady | .push _ _ _ => inferInstanceAs (Decidable True)

/-- The part of a step that the handshake sees. -/
def Label.shared : Label → Option SampleHandshake.Label
  | .copySnapshot => some .copySnapshot
  | .storeTimestamp => some .storeTimestamp
  | .setDataReady => some .setDataReady
  | .waitBits => some (.waitBits false)
  | .readSnapshot => some .readSnapshot
  | .readTimestamp => some .readTimestamp
  | .clearDataReady => some .clearDataReady
  | _ => none

/-- No read copies the snapshot between the copy of a sample and its bit. -/
def Apart (s : Node) (a : Label) : Prop := a = .readSnapshot → s.sensor.poll = .betweenSamples

instance (s : Node) (a : Label) : Decidable (Apart s a) := inferInstanceAs (Decidable (_ → _))

/-- A sample is copied when the one before it has been read. -/
def KeepsUp (s : Node) (a : Label) : Prop :=
  a = .copySnapshot → s.sensor.evDataReady = false ∧ s.sensor.read = .notReading

instance (s : Node) (a : Label) : Decidable (KeepsUp s a) := inferInstanceAs (Decidable (_ → _))

/-! ### The handshake -/

section Handshake

variable {s t : Sensor} {a : SampleHandshake.Label}

theorem handshake_cases (hstep : SampleHandshake.step s a = some t) :
    (a = .copySnapshot ∧ s.poll = .betweenSamples ∧
      t = { s with poll := .snapshotCopied, rawSnapshot := s.rawSnapshot + 1 }) ∨
    (a = .storeTimestamp ∧ s.poll = .snapshotCopied ∧
      t = { s with poll := .timestampStored, rawTimestamp := s.rawSnapshot }) ∨
    (a = .setDataReady ∧ s.poll = .timestampStored ∧
      t = { s with poll := .betweenSamples, evDataReady := true, published := s.rawSnapshot }) ∨
    (∃ outIsNull, a = .waitBits outIsNull ∧ s.read = .notReading ∧
      (t = s ∨ s.evDataReady = true ∧ t = { s with read := .dataReady })) ∨
    (a = .readSnapshot ∧ s.read = .dataReady ∧
      t = { s with read := .snapshotRead s.rawSnapshot }) ∨
    (∃ k, a = .readTimestamp ∧ s.read = .snapshotRead k ∧
      t = { s with read := .timestampRead k s.rawTimestamp }) ∨
    (∃ k time, a = .clearDataReady ∧ s.read = .timestampRead k time ∧
      t = { s with
        read := .notReading, evDataReady := false, returned := (k, time) :: s.returned }) := by
  cases a with
  | copySnapshot =>
    simp only [SampleHandshake.step, Option.ite_none_right_eq_some, Option.some.injEq] at hstep
    exact Or.inl ⟨rfl, hstep.1, hstep.2.symm⟩
  | storeTimestamp =>
    simp only [SampleHandshake.step, Option.ite_none_right_eq_some, Option.some.injEq] at hstep
    exact Or.inr (Or.inl ⟨rfl, hstep.1, hstep.2.symm⟩)
  | setDataReady =>
    simp only [SampleHandshake.step, Option.ite_none_right_eq_some, Option.some.injEq] at hstep
    exact Or.inr (Or.inr (Or.inl ⟨rfl, hstep.1, hstep.2.symm⟩))
  | waitBits outIsNull =>
    simp only [SampleHandshake.step, Option.ite_none_right_eq_some] at hstep
    obtain ⟨hread, hstep⟩ := hstep
    refine Or.inr (Or.inr (Or.inr (Or.inl ⟨outIsNull, rfl, hread, ?_⟩)))
    split at hstep
    · rename_i hready
      exact Or.inr ⟨(Bool.and_eq_true_iff.mp hready).1, (Option.some.inj hstep).symm⟩
    · exact Or.inl (Option.some.inj hstep).symm
  | readSnapshot =>
    simp only [SampleHandshake.step, Option.ite_none_right_eq_some, Option.some.injEq] at hstep
    exact Or.inr (Or.inr (Or.inr (Or.inr (Or.inl ⟨rfl, hstep.1, hstep.2.symm⟩))))
  | readTimestamp =>
    simp only [SampleHandshake.step] at hstep
    split at hstep
    · rename_i k hread
      exact Or.inr (Or.inr (Or.inr (Or.inr (Or.inr (Or.inl
        ⟨k, rfl, hread, (Option.some.inj hstep).symm⟩)))))
    · cases hstep
  | clearDataReady =>
    simp only [SampleHandshake.step] at hstep
    split at hstep
    · rename_i k time hread
      exact Or.inr (Or.inr (Or.inr (Or.inr (Or.inr (Or.inr
        ⟨k, time, rfl, hread, (Option.some.inj hstep).symm⟩)))))
    · cases hstep

/-- The numbers of the samples that reads have returned, the last one first. -/
def numbers (s : Sensor) : List Nat := s.returned.map Prod.fst

/-- What has been read is older than what has the bit, if no read copies a sample that is
still without it. -/
structure Fresh (s : Sensor) : Prop where
  ready : s.read = .dataReady → s.evDataReady = true
  unread : s.evDataReady = true → s.read.sample? = none → ∀ n ∈ numbers s, n < s.published
  copied : ∀ k, s.read.sample? = some k → k ≤ s.published ∧ ∀ n ∈ numbers s, n < k
  returned : ∀ n ∈ numbers s, n ≤ s.published
  sorted : (numbers s).Pairwise (· > ·)

/-- Every sample is read before the next one is copied. -/
structure InStep (s : Sensor) : Prop where
  ready : s.evDataReady = true → s.poll = .betweenSamples ∧ 0 < s.published
  reading : s.read ≠ .notReading → s.evDataReady = true
  copied : ∀ k, s.read.sample? = some k → k = s.published
  numbers : (numbers s).reverse = List.range' 1 (s.published - s.evDataReady.toNat)

end Handshake

/-! ### What a step can do -/

section Steps

variable {s t : Node} {a : Label}

theorem step_cases (hstep : step s a = some t) :
    (∃ b line status raw', a = .byte ∧ s.line = b :: line ∧ s.reported = false ∧
      chSerialInput parseData s.raw b true = some (status, raw') ∧
      t = { s with line := line, raw := raw', reported := status = .inputData }) ∨
    (∃ sensor, a = .copySnapshot ∧ s.reported = true ∧
      SampleHandshake.step s.sensor .copySnapshot = some sensor ∧
      t = { s with sensor := sensor, reported := false, rawSnapshot := imuOf s.raw.data }) ∨
    (∃ b sensor, a.shared = some b ∧ b ≠ .copySnapshot ∧ b ≠ .readSnapshot ∧
      b ≠ .clearDataReady ∧ (a = .waitBits → s.readOk = false) ∧
      SampleHandshake.step s.sensor b = some sensor ∧ t = { s with sensor := sensor }) ∨
    (∃ sensor, a = .readSnapshot ∧
      SampleHandshake.step s.sensor .readSnapshot = some sensor ∧
      t = { s with sensor := sensor, imuData := imuDataOf s.rawSnapshot }) ∨
    (∃ sensor, a = .clearDataReady ∧
      SampleHandshake.step s.sensor .clearDataReady = some sensor ∧
      t = { s with sensor := sensor, readOk := true }) ∨
    (∃ devTsUs tsfTsUs bufferDelayUs, a = .push devTsUs tsfTsUs bufferDelayUs ∧
      s.readOk = true ∧ t = { s with
        readOk := false
        session := monitorPush s.session ⟨s.imuData, devTsUs, tsfTsUs, 0, bufferDelayUs⟩ }) ∨
    (∃ nowUs, a = .iterate nowUs ∧ t = { s with session := clientIterate s.session nowUs }) := by
  cases a with
  | byte =>
    simp only [step] at hstep
    split at hstep
    · cases hstep
    · rename_i b line hline
      rw [Option.ite_none_right_eq_some, Option.map_eq_some_iff] at hstep
      obtain ⟨⟨_, hreported⟩, ⟨status, raw'⟩, hcall, rfl⟩ := hstep
      exact Or.inl ⟨b, line, status, raw', rfl, hline, hreported, hcall, rfl⟩
  | copySnapshot =>
    simp only [step, sensorStep, Option.ite_none_right_eq_some, Option.map_map,
      Option.map_eq_some_iff] at hstep
    obtain ⟨hreported, sensor, hsensor, rfl⟩ := hstep
    exact Or.inr (Or.inl ⟨sensor, rfl, hreported, hsensor, rfl⟩)
  | storeTimestamp =>
    obtain ⟨sensor, hsensor, rfl⟩ := Option.map_eq_some_iff.mp hstep
    exact Or.inr (Or.inr (Or.inl ⟨_, sensor, rfl, by decide, by decide, by decide,
      fun h => (by cases h), hsensor, rfl⟩))
  | setDataReady =>
    obtain ⟨sensor, hsensor, rfl⟩ := Option.map_eq_some_iff.mp hstep
    exact Or.inr (Or.inr (Or.inl ⟨_, sensor, rfl, by decide, by decide, by decide,
      fun h => (by cases h), hsensor, rfl⟩))
  | waitBits =>
    simp only [step, sensorStep] at hstep
    split at hstep
    · cases hstep
    · rename_i hread
      obtain ⟨sensor, hsensor, rfl⟩ := Option.map_eq_some_iff.mp hstep
      exact Or.inr (Or.inr (Or.inl ⟨_, sensor, rfl, by decide, by decide, by decide,
        fun _ => by simpa using hread, hsensor, rfl⟩))
  | readSnapshot =>
    simp only [step, sensorStep, Option.map_map, Option.map_eq_some_iff] at hstep
    obtain ⟨sensor, hsensor, rfl⟩ := hstep
    exact Or.inr (Or.inr (Or.inr (Or.inl ⟨sensor, rfl, hsensor, rfl⟩)))
  | readTimestamp =>
    obtain ⟨sensor, hsensor, rfl⟩ := Option.map_eq_some_iff.mp hstep
    exact Or.inr (Or.inr (Or.inl ⟨_, sensor, rfl, by decide, by decide, by decide,
      fun h => (by cases h), hsensor, rfl⟩))
  | clearDataReady =>
    simp only [step, sensorStep, Option.map_map, Option.map_eq_some_iff] at hstep
    obtain ⟨sensor, hsensor, rfl⟩ := hstep
    exact Or.inr (Or.inr (Or.inr (Or.inr (Or.inl ⟨sensor, rfl, hsensor, rfl⟩))))
  | push devTsUs tsfTsUs bufferDelayUs =>
    simp only [step, Option.ite_none_right_eq_some, Option.some.injEq] at hstep
    exact Or.inr (Or.inr (Or.inr (Or.inr (Or.inr (Or.inl
      ⟨devTsUs, tsfTsUs, bufferDelayUs, rfl, hstep.1, hstep.2.symm⟩)))))
  | iterate nowUs =>
    exact Or.inr (Or.inr (Or.inr (Or.inr (Or.inr (Or.inr
      ⟨nowUs, rfl, (Option.some.inj hstep).symm⟩)))))

/-- With the data left out, a step is one of the handshake, or none. -/
theorem sensor_step (hstep : step s a = some t) :
    (∀ b, a.shared = some b → SampleHandshake.step s.sensor b = some t.sensor) ∧
    (a.shared = none → t.sensor = s.sensor) := by
  rcases step_cases hstep with ⟨_, _, _, _, rfl, -, -, -, rfl⟩ | ⟨_, rfl, -, hsensor, rfl⟩ |
    ⟨b, _, hshared, -, -, -, -, hsensor, rfl⟩ | ⟨_, rfl, hsensor, rfl⟩ | ⟨_, rfl, hsensor, rfl⟩ |
    ⟨_, _, _, rfl, -, rfl⟩ | ⟨_, rfl, rfl⟩
  case inr.inr.inl =>
    rw [hshared]
    exact ⟨fun _ h => Option.some.inj h ▸ hsensor, fun h => (by cases h)⟩
  case inr.inl | inr.inr.inr.inl | inr.inr.inr.inr.inl =>
    exact ⟨fun _ h => Option.some.inj h ▸ hsensor, fun h => (by cases h)⟩
  all_goals exact ⟨fun _ h => (by cases h), fun _ => rfl⟩

/-- What every step of the handshake keeps is kept by the node. -/
theorem sensor_keeps {I : Sensor → Prop} (h : I s.sensor)
    (hkeep : ∀ b, a.shared = some b → ∀ sensor,
      SampleHandshake.step s.sensor b = some sensor → I sensor)
    (hstep : step s a = some t) : I t.sensor := by
  obtain ⟨hsome, hnone⟩ := sensor_step hstep
  cases hshared : a.shared with
  | none =>
    rw [hnone hshared]
    exact h
  | some b => exact hkeep b hshared _ (hsome b hshared)

end Steps

end Telemetry

end MarkitNode
