import Mathlib.Data.List.Forall2
import MarkitNode.Telemetry

/-!
What arrives of the samples. The numbers of the handshake lead each value on its way
from the line to a packet back to the sample it comes from; the order of the packets is
the order of those numbers.
-/

namespace MarkitNode

namespace Telemetry

open Hi229Serial SampleHandshake StreamSession

/-! ### From the line to the ring -/

/-- What the reads have given, the sample that is not pushed yet included. -/
def Node.gathered (s : Node) : List ImuData :=
  s.session.pushed.map ImuDgram.imu ++ if s.readOk then [s.imuData] else []

section Tracking

variable {noise : List UInt8} {samples : List SentSample} {old : ChImuData} {ready : Bool}

/-- Everything on the way is the sample whose number the handshake knows. -/
structure Tracked (samples : List SentSample) (old : ChImuData) (s : Node) : Prop where
  numbered : Numbered s.sensor
  expects : Expects s.raw s.line (samples.drop (s.sensor.rawSnapshot + s.reported.toNat))
  reported : s.reported = true →
    sampleAt samples old (s.sensor.rawSnapshot + 1) = some (imuOf s.raw.data)
  snapshot : sampleAt samples old s.sensor.rawSnapshot = some s.rawSnapshot
  copied : ∀ k, s.sensor.read.sample? = some k →
    (sampleAt samples old k).map imuDataOf = some s.imuData
  idle : s.readOk = true → s.sensor.read = .notReading
  gathered : s.gathered.map some =
    (numbers s.sensor).reverse.map fun n => (sampleAt samples old n).map imuDataOf

theorem tracked_start (hfree : SyncFree noise) (imuData : ImuData) (rb : SlotRing ImuDgram) :
    Tracked samples old (start (noise ++ samples.flatMap sampleFrame) old imuData ready rb) where
  numbered := ⟨rfl, fun _ h => (by cases h), fun _ h => (by cases h)⟩
  expects := expects_zeroed hfree samples
  reported h := by cases h
  snapshot := rfl
  copied _ h := by cases h
  idle h := by cases h
  gathered := rfl

variable {s t : Node} {a : Label}

/-- A byte that ends a frame brings the sample that is next. -/
theorem tracked_byte (h : Tracked samples old s) {b : UInt8} {line : List UInt8}
    {status : Status} {raw' : Raw} (hline : s.line = b :: line) (hreported : s.reported = false)
    (hcall : chSerialInput parseData s.raw b true = some (status, raw')) :
    Tracked samples old
      { s with line := line, raw := raw', reported := decide (status = .inputData) } := by
  have hexpects := h.expects
  rw [hline, hreported, Bool.toNat_false, Nat.add_zero] at hexpects
  obtain ⟨status', raw'', hcall', hnext⟩ := hexpects.input
  obtain ⟨rfl, rfl⟩ : status = status' ∧ raw' = raw'' := by
    simpa using hcall.symm.trans hcall'
  have hgathered := h.gathered
  by_cases hstatus : status = .inputData
  · rw [if_pos hstatus] at hnext
    obtain ⟨x, rest, hdrop, himu, hrest⟩ := hnext
    have htail : rest = samples.drop (s.sensor.rawSnapshot + 1) := by
      rw [← List.tail_drop, hdrop, List.tail_cons]
    have hat : samples[s.sensor.rawSnapshot]? = some x := by
      rw [← List.head?_drop, hdrop, List.head?_cons]
    refine ⟨h.numbered, ?_, fun _ => ?_, h.snapshot, h.copied, h.idle, hgathered⟩
    · rw [decide_eq_true hstatus, Bool.toNat_true, ← htail]
      exact hrest
    · rw [himu, sampleAt, List.getElem?_cons_succ, List.getElem?_map, hat, Option.map_some]
  · rw [if_neg hstatus] at hnext
    refine ⟨h.numbered, ?_, fun hk => ?_, h.snapshot, h.copied, h.idle, hgathered⟩
    · rw [decide_eq_false hstatus, Bool.toNat_false, Nat.add_zero]
      exact hnext
    · exact absurd (of_decide_eq_true hk) hstatus

/-- While a read is under way, everything it has given before is pushed. -/
theorem Tracked.pushedAll (h : Tracked samples old s) (hreading : s.sensor.read ≠ .notReading) :
    s.readOk = false ∧ (s.session.pushed.map ImuDgram.imu).map some =
      (numbers s.sensor).reverse.map fun n => (sampleAt samples old n).map imuDataOf := by
  have hnot : s.readOk = false := by
    cases hok : s.readOk with
    | false => rfl
    | true => exact absurd (h.idle hok) hreading
  have hgathered := h.gathered
  rw [Node.gathered, hnot, if_neg Bool.false_ne_true, List.append_nil] at hgathered
  exact ⟨hnot, hgathered⟩

/-- Steps of the handshake that neither change the snapshot nor what has been read. -/
theorem tracked_plain (h : Tracked samples old s) {b : SampleHandshake.Label} {sensor : Sensor}
    (hnumbered : Numbered sensor) (hcopy : b ≠ .copySnapshot) (hread : b ≠ .readSnapshot)
    (hclear : b ≠ .clearDataReady)
    (hwait : ∀ outIsNull, b = .waitBits outIsNull → s.readOk = false)
    (hsensor : SampleHandshake.step s.sensor b = some sensor) :
    Tracked samples old { s with sensor := sensor } := by
  rcases handshake_cases hsensor with ⟨rfl, -⟩ | ⟨-, -, rfl⟩ | ⟨-, -, rfl⟩ |
    ⟨outIsNull, rfl, -, rfl | ⟨-, rfl⟩⟩ | ⟨rfl, -⟩ | ⟨k, -, hreading, rfl⟩ | ⟨_, _, rfl, -⟩
  · exact absurd rfl hcopy
  · exact ⟨hnumbered, h.expects, h.reported, h.snapshot, h.copied, h.idle, h.gathered⟩
  · exact ⟨hnumbered, h.expects, h.reported, h.snapshot, h.copied, h.idle, h.gathered⟩
  · exact h
  · refine ⟨hnumbered, h.expects, h.reported, h.snapshot, fun _ hk => (by cases hk),
      fun hok => ?_, h.gathered⟩
    rw [hwait outIsNull rfl] at hok
    cases hok
  · exact absurd rfl hread
  · refine ⟨hnumbered, h.expects, h.reported, h.snapshot, fun j hk => h.copied j ?_,
      fun hok => ?_, h.gathered⟩
    · rw [hreading]
      exact hk
    · have hidle := h.idle hok
      rw [hreading] at hidle
      cases hidle
  · exact absurd rfl hclear

theorem tracked_readSnapshot (h : Tracked samples old s) {sensor : Sensor}
    (hnumbered : Numbered sensor)
    (hsensor : SampleHandshake.step s.sensor .readSnapshot = some sensor) :
    Tracked samples old { s with sensor := sensor, imuData := imuDataOf s.rawSnapshot } := by
  simp only [SampleHandshake.step, Option.ite_none_right_eq_some, Option.some.injEq] at hsensor
  obtain ⟨hreading, rfl⟩ := hsensor
  obtain ⟨hnot, hpushed⟩ := h.pushedAll (by rw [hreading]; decide)
  refine ⟨hnumbered, h.expects, h.reported, h.snapshot, fun k hk => ?_, fun hok => ?_, ?_⟩
  · cases hk
    rw [h.snapshot, Option.map_some]
  · rw [hnot] at hok
    cases hok
  · rw [Node.gathered, hnot, if_neg Bool.false_ne_true, List.append_nil]
    exact hpushed

/-- The read comes back with the sample that it has copied. -/
theorem tracked_clearDataReady (h : Tracked samples old s) {sensor : Sensor}
    (hnumbered : Numbered sensor)
    (hsensor : SampleHandshake.step s.sensor .clearDataReady = some sensor) :
    Tracked samples old { s with sensor := sensor, readOk := true } := by
  rcases handshake_cases hsensor with ⟨hne, -⟩ | ⟨hne, -⟩ | ⟨hne, -⟩ | ⟨_, hne, -⟩ | ⟨hne, -⟩ |
    ⟨_, hne, -⟩ | ⟨k, time, -, hreading, rfl⟩
  case inr.inr.inr.inr.inr.inr =>
    obtain ⟨-, hpushed⟩ := h.pushedAll (by rw [hreading]; simp)
    refine ⟨hnumbered, h.expects, h.reported, h.snapshot, fun k hk => (by cases hk),
      fun _ => rfl, ?_⟩
    have hnumbers : numbers { s.sensor with
        read := .notReading, evDataReady := false, returned := (k, time) :: s.sensor.returned } =
        k :: numbers s.sensor := rfl
    have hcopied := h.copied k (by rw [hreading]; rfl)
    rw [Node.gathered, if_pos rfl, List.map_append, hpushed, List.map_singleton, ← hcopied,
      hnumbers, List.reverse_cons, List.map_append, List.map_singleton]
  all_goals cases hne

theorem tracked_push (h : Tracked samples old s) (hok : s.readOk = true)
    (devTsUs tsfTsUs : Int64) (bufferDelayUs : Int32) :
    Tracked samples old { s with
      readOk := false
      session := monitorPush s.session ⟨s.imuData, devTsUs, tsfTsUs, 0, bufferDelayUs⟩ } := by
  refine ⟨h.numbered, h.expects, h.reported, h.snapshot, h.copied, fun hk => (by cases hk), ?_⟩
  have hgathered := h.gathered
  rw [Node.gathered, if_pos hok] at hgathered
  rw [← hgathered, Node.gathered, if_neg Bool.false_ne_true, monitorPush, List.append_nil,
    List.map_append, List.map_singleton]

theorem clientIterate_pushed (session : Session) (nowUs : Int64) :
    (clientIterate session nowUs).pushed = session.pushed := by
  rw [clientIterate]
  split
  · rfl
  · split <;> rfl

theorem step_tracked (h : Tracked samples old s) (hstep : step s a = some t) :
    Tracked samples old t := by
  have hnumbered : Numbered t.sensor := sensor_keeps h.numbered
    (fun _ _ _ hsensor => step_numbered h.numbered hsensor) hstep
  rcases step_cases hstep with ⟨b, line, status, raw', -, hline, hreported, hcall, rfl⟩ |
    ⟨sensor, -, hreported, hsensor, rfl⟩ |
    ⟨b, sensor, hshared, hcopy, hread, hclear, hwait, hsensor, rfl⟩ |
    ⟨sensor, -, hsensor, rfl⟩ | ⟨sensor, -, hsensor, rfl⟩ |
    ⟨devTsUs, tsfTsUs, bufferDelayUs, -, hok, rfl⟩ | ⟨nowUs, -, rfl⟩
  · exact tracked_byte h hline hreported hcall
  · have hexpects := h.expects
    rw [hreported, Bool.toNat_true] at hexpects
    simp only [SampleHandshake.step, Option.ite_none_right_eq_some, Option.some.injEq] at hsensor
    obtain ⟨-, rfl⟩ := hsensor
    exact ⟨hnumbered, hexpects, fun hk => (by cases hk), h.reported hreported, h.copied, h.idle,
      h.gathered⟩
  · refine tracked_plain h hnumbered hcopy hread hclear (fun outIsNull hb => hwait ?_) hsensor
    rw [hb] at hshared
    cases a <;> first | rfl | cases hshared
  · exact tracked_readSnapshot h hnumbered hsensor
  · exact tracked_clearDataReady h hnumbered hsensor
  · exact tracked_push h hok devTsUs tsfTsUs bufferDelayUs
  · refine ⟨hnumbered, h.expects, h.reported, h.snapshot, h.copied, h.idle, ?_⟩
    rw [← h.gathered, Node.gathered, Node.gathered, clientIterate_pushed]

/-- The packets are what has been pushed, which is what the reads have given. -/
theorem Tracked.carries (h : Tracked samples old s)
    (hdelivered : SessionDelivery.Delivered s.session) {k : Nat}
    (hk : k < s.session.sent.length) :
    ∃ n ∈ (numbers s.sensor).reverse[k]?, ∃ imu, sampleAt samples old n = some imu ∧
      CarriesSample s.session.sent[k] imu := by
  have hpushed : k < s.session.pushed.length := Nat.lt_of_lt_of_le hk hdelivered.bounded
  have hread := congrArg (·[k]?) h.gathered
  have hgiven : s.gathered[k]? = some s.session.pushed[k].imu := by
    rw [Node.gathered, List.getElem?_append_left (by rw [List.length_map]; exact hpushed),
      List.getElem?_map, List.getElem?_eq_getElem hpushed, Option.map_some]
  simp only [List.getElem?_map, hgiven, Option.map_some] at hread
  obtain ⟨n, hn, himu⟩ := Option.map_eq_some_iff.mp hread.symm
  obtain ⟨imu, hat, heq⟩ := Option.map_eq_some_iff.mp himu
  obtain ⟨hacc, hgyr, hmag, hquat, htime, -, -, -⟩ := hdelivered.carries k hk hpushed
  rw [← heq] at hacc hgyr hmag hquat htime
  exact ⟨n, hn, imu, hat, hacc, hgyr, hmag, hquat, htime⟩

theorem delivered_seq (hdelivered : SessionDelivery.Delivered s.session) {k : Nat}
    (hk : k < s.session.sent.length) : s.session.sent[k].seq = UInt32.ofNat k := by
  have hpushed : k < s.session.pushed.length := Nat.lt_of_lt_of_le hk hdelivered.bounded
  rw [(hdelivered.carries k hk hpushed).seq, hdelivered.pushed_seq k hpushed]

theorem Tracked.follows (h : Tracked samples old s)
    (hdelivered : SessionDelivery.Delivered s.session) {r : Nat → Nat → Prop}
    (hnumbers : (numbers s.sensor).reverse.Pairwise r) :
    Follows samples old r s.session.sent := by
  have hlength : s.session.sent.length ≤ (numbers s.sensor).reverse.length := by
    have hgathered := congrArg List.length h.gathered
    have hbounded := hdelivered.bounded
    simp only [List.length_map, Node.gathered, List.length_append] at hgathered
    omega
  refine ⟨⟨(numbers s.sensor).reverse.take s.session.sent.length,
    hnumbers.sublist (List.take_sublist _ _), ?_⟩, fun k hk => delivered_seq hdelivered hk⟩
  refine List.forall₂_iff_get.mpr ⟨by rw [List.length_take, Nat.min_eq_left hlength], ?_⟩
  intro k hk hk'
  obtain ⟨n, hn, hcarries⟩ := h.carries hdelivered hk
  obtain ⟨hlt, rfl⟩ := List.getElem?_eq_some_iff.mp hn
  rw [List.get_eq_getElem, List.get_eq_getElem, List.getElem_take]
  exact hcarries

theorem step_delivered (h : SessionDelivery.Delivered s.session) (hok : InWindow s a)
    (hstep : step s a = some t) : SessionDelivery.Delivered t.session := by
  rcases step_cases hstep with ⟨_, _, _, _, -, -, -, -, rfl⟩ | ⟨_, -, -, -, rfl⟩ |
    ⟨_, _, -, -, -, -, -, -, rfl⟩ | ⟨_, -, -, rfl⟩ | ⟨_, -, -, rfl⟩ | ⟨_, _, _, -, -, rfl⟩ |
    ⟨nowUs, rfl, rfl⟩
  case inr.inr.inr.inr.inr.inl => exact SessionDelivery.monitorPush_delivered h _
  case inr.inr.inr.inr.inr.inr => exact SessionDelivery.clientIterate_delivered h nowUs hok
  all_goals exact h

/-! ### Over a run -/

variable {ok : Node → Label → Prop}

theorem reach_tracked (hfree : SyncFree noise)
    (h : (machine noise samples old ready).Reach ok s) : Tracked samples old s := by
  refine Machine.Reach.invariant (I := Tracked samples old) ?_
    (fun _ _ _ hs _ hstep => step_tracked hs hstep) h
  rintro _ ⟨imuData, rb, rfl⟩
  exact tracked_start hfree imuData rb

theorem reach_delivered (hok : ∀ s a, ok s a → InWindow s a)
    (h : (machine noise samples old ready).Reach ok s) :
    SessionDelivery.Delivered s.session := by
  refine Machine.Reach.invariant (I := fun s => SessionDelivery.Delivered s.session) ?_
    (fun s a _ hs hsa hstep => step_delivered hs (hok s a hsa) hstep) h
  rintro _ ⟨imuData, rb, rfl⟩
  exact SessionDelivery.start_delivered rb

end Tracking

section Results

variable {noise : List UInt8} {samples : List SentSample} {old : ChImuData} {ready : Bool}
  {imuData : ImuData} {rb : SlotRing ImuDgram} {run : List Label} {s : Node}

/-- The consumer keeps up with the line, and reads no sample before its bit. -/
def Orderly (s : Node) (a : Label) : Prop := InWindow s a ∧ KeepsUp s a ∧ Apart s a

end Results

end Telemetry

end MarkitNode
