import MarkitNode.Machine

/-!
The handshake between `hi229_poll_task` and the callers of `hi229_read`. The
poll task copies a sample into `raw_snapshot`, stores its time and sets
`EV_DATA_READY`; a read tests the bit, copies the snapshot and the time, and
clears the bit at its end. Samples are known by their numbers, from 1 on, and a
field holds the number of the sample it comes from. A sample that is published
behind the back of a read loses its bit to it.
-/

namespace MarkitNode

namespace SampleHandshake

/-- Where `hi229_poll_task` is with the sample it has just parsed. -/
inductive PollPc
  | betweenSamples
  | snapshotCopied
  | timestampStored
  deriving DecidableEq, Repr

/-- Where `hi229_read` is, with what it has copied to `out` so far. -/
inductive ReadPc
  | notReading
  | dataReady
  | snapshotRead (sample : Nat)
  | timestampRead (sample time : Nat)
  deriving DecidableEq, Repr

structure Sensor where
  poll : PollPc
  read : ReadPc
  rawSnapshot : Nat
  rawTimestamp : Nat
  evDataReady : Bool
  /-- the last sample for which the bit was set -/
  published : Nat
  /-- the samples, with the source of their times, that reads have returned -/
  returned : List (Nat × Nat)
  deriving DecidableEq, Repr

def boot : Sensor := ⟨.betweenSamples, .notReading, 0, 0, false, 0, []⟩

inductive Label
  | copySnapshot
  | storeTimestamp
  | setDataReady
  /-- a call of `hi229_read`: the wait for the bit comes back -/
  | waitBits (outIsNull : Bool)
  | readSnapshot
  | readTimestamp
  | clearDataReady
  deriving DecidableEq, Repr

def step (s : Sensor) : Label → Option Sensor
  | .copySnapshot =>
      if s.poll = .betweenSamples then
        some { s with poll := .snapshotCopied, rawSnapshot := s.rawSnapshot + 1 }
      else none
  | .storeTimestamp =>
      if s.poll = .snapshotCopied then
        some { s with poll := .timestampStored, rawTimestamp := s.rawSnapshot }
      else none
  | .setDataReady =>
      if s.poll = .timestampStored then
        some { s with poll := .betweenSamples, evDataReady := true, published := s.rawSnapshot }
      else none
  | .waitBits outIsNull =>
      if s.read = .notReading then
        -- without the bit the call fails, and without `out` it returns at once
        if s.evDataReady && !outIsNull then some { s with read := .dataReady } else some s
      else none
  | .readSnapshot =>
      if s.read = .dataReady then some { s with read := .snapshotRead s.rawSnapshot } else none
  | .readTimestamp =>
      match s.read with
      | .snapshotRead sample => some { s with read := .timestampRead sample s.rawTimestamp }
      | _ => none
  | .clearDataReady =>
      match s.read with
      | .timestampRead sample time =>
          some { s with
            read := .notReading, evDataReady := false, returned := (sample, time) :: s.returned }
      | _ => none

def machine : Machine Sensor Label where
  Init s := s = boot
  step := step

/-- Between samples and between reads, a published sample that no read has
returned has its bit. -/
def FreshVisible (s : Sensor) : Prop :=
  s.poll = .betweenSamples → s.read = .notReading → 0 < s.published →
    s.published ∉ s.returned.map Prod.fst → s.evDataReady = true

instance (s : Sensor) : Decidable (FreshVisible s) :=
  inferInstanceAs (Decidable (_ → _ → _ → _ → _))

/-- The sample a read has copied. -/
def ReadPc.sample? : ReadPc → Option Nat
  | .snapshotRead sample => some sample
  | .timestampRead sample _ => some sample
  | _ => none

/-- No read clears the bit between samples when a later sample than the one it
copied has been published. -/
def ClearsOwn (s : Sensor) (a : Label) : Prop :=
  a = .clearDataReady → s.poll = .betweenSamples → ∀ k ∈ s.read.sample?, s.published ≤ k

instance (s : Sensor) (a : Label) : Decidable (ClearsOwn s a) :=
  inferInstanceAs (Decidable (_ → _ → ∀ _ ∈ _, _))

/-- Samples are published in the order of their numbers and returned likewise. -/
structure Numbered (s : Sensor) : Prop where
  published : s.rawSnapshot = s.published + if s.poll = .betweenSamples then 0 else 1
  copied : ∀ k, s.read.sample? = some k →
    k ≤ s.rawSnapshot ∧ ∀ r ∈ s.returned, r.1 ≤ k
  returned : ∀ r ∈ s.returned, r.1 ≤ s.rawSnapshot

theorem numbered_boot : Numbered boot where
  published := rfl
  copied := by
    intro k hk
    cases hk
  returned := by
    intro r hr
    cases hr

theorem step_numbered {s t : Sensor} {a : Label} (h : Numbered s) (hstep : step s a = some t) :
    Numbered t := by
  obtain ⟨hpub, hcopied, hreturned⟩ := h
  cases a with
  | copySnapshot =>
    simp only [step, Option.ite_none_right_eq_some, Option.some.injEq] at hstep
    obtain ⟨hpoll, rfl⟩ := hstep
    rw [if_pos hpoll] at hpub
    refine ⟨?_, ?_, ?_⟩
    · exact congrArg (· + 1) hpub
    · intro k hk
      exact ⟨Nat.le_succ_of_le (hcopied k hk).1, (hcopied k hk).2⟩
    · intro r hr
      exact Nat.le_succ_of_le (hreturned r hr)
  | storeTimestamp =>
    simp only [step, Option.ite_none_right_eq_some, Option.some.injEq] at hstep
    obtain ⟨hpoll, rfl⟩ := hstep
    rw [if_neg (by simp [hpoll])] at hpub
    exact ⟨hpub, hcopied, hreturned⟩
  | setDataReady =>
    simp only [step, Option.ite_none_right_eq_some, Option.some.injEq] at hstep
    obtain ⟨_, rfl⟩ := hstep
    exact ⟨rfl, hcopied, hreturned⟩
  | waitBits outIsNull =>
    simp only [step, Option.ite_none_right_eq_some] at hstep
    obtain ⟨_, hstep⟩ := hstep
    split at hstep
    · cases hstep
      refine ⟨hpub, ?_, hreturned⟩
      intro k hk
      cases hk
    · cases hstep
      exact ⟨hpub, hcopied, hreturned⟩
  | readSnapshot =>
    simp only [step, Option.ite_none_right_eq_some, Option.some.injEq] at hstep
    obtain ⟨_, rfl⟩ := hstep
    refine ⟨hpub, ?_, hreturned⟩
    intro k hk
    cases hk
    exact ⟨Nat.le_refl _, hreturned⟩
  | readTimestamp =>
    simp only [step] at hstep
    split at hstep
    · rename_i sample hread
      cases hstep
      refine ⟨hpub, ?_, hreturned⟩
      intro k hk
      exact hcopied k (by rw [hread]; exact hk)
    · cases hstep
  | clearDataReady =>
    simp only [step] at hstep
    split at hstep
    · rename_i sample time hread
      cases hstep
      obtain ⟨hle, _⟩ := hcopied sample (by rw [hread]; rfl)
      refine ⟨hpub, ?_, ?_⟩
      · intro k hk
        cases hk
      · intro r hr
        rcases List.mem_cons.mp hr with rfl | hr
        · exact hle
        · exact hreturned r hr
    · cases hstep

/-- While the poll task is between samples, the latest one has its bit or has
been returned. -/
def Announced (s : Sensor) : Prop :=
  s.poll = .betweenSamples → 0 < s.published →
    s.published ∈ s.returned.map Prod.fst ∨ s.evDataReady = true

theorem step_announced {s t : Sensor} {a : Label} (h : Numbered s) (ha : Announced s)
    (hok : ClearsOwn s a) (hstep : step s a = some t) : Announced t := by
  cases a with
  | copySnapshot =>
    simp only [step, Option.ite_none_right_eq_some, Option.some.injEq] at hstep
    obtain ⟨_, rfl⟩ := hstep
    intro hpoll
    cases hpoll
  | storeTimestamp =>
    simp only [step, Option.ite_none_right_eq_some, Option.some.injEq] at hstep
    obtain ⟨_, rfl⟩ := hstep
    intro hpoll
    cases hpoll
  | setDataReady =>
    simp only [step, Option.ite_none_right_eq_some, Option.some.injEq] at hstep
    obtain ⟨_, rfl⟩ := hstep
    intro _ _
    exact Or.inr rfl
  | waitBits outIsNull =>
    simp only [step, Option.ite_none_right_eq_some] at hstep
    obtain ⟨_, hstep⟩ := hstep
    split at hstep
    · cases hstep
      exact ha
    · cases hstep
      exact ha
  | readSnapshot =>
    simp only [step, Option.ite_none_right_eq_some, Option.some.injEq] at hstep
    obtain ⟨_, rfl⟩ := hstep
    exact ha
  | readTimestamp =>
    simp only [step] at hstep
    split at hstep
    · cases hstep
      exact ha
    · cases hstep
  | clearDataReady =>
    simp only [step] at hstep
    split at hstep
    · rename_i sample time hread
      cases hstep
      intro hpoll _
      have hsample : s.read.sample? = some sample := by rw [hread]; rfl
      have hpub := h.published
      rw [if_pos hpoll] at hpub
      have hown := hok rfl hpoll sample hsample
      have hold := (h.copied sample hsample).1
      have hsame : s.published = sample := by omega
      refine Or.inl ?_
      rw [hsame]
      exact List.mem_cons_self
    · cases hstep

/-- A clear that is not the read's own hides the sample at once. -/
theorem step_hidden {s t : Sensor} {a : Label} (h : Numbered s) (hbad : ¬ ClearsOwn s a)
    (hstep : step s a = some t) : ¬ FreshVisible t := by
  simp only [ClearsOwn, not_forall, Nat.not_le] at hbad
  obtain ⟨rfl, hpoll, k, hk, hlt⟩ := hbad
  simp only [step] at hstep
  split at hstep
  · rename_i sample time hread
    obtain rfl : sample = k := by
      rw [hread] at hk
      exact Option.some.inj hk
    have hpast := (h.copied sample hk).2
    cases hstep
    intro hvisible
    have hready := hvisible hpoll rfl (Nat.zero_lt_of_lt hlt) (by
      intro hmem
      obtain ⟨r, hr, hfst⟩ := List.mem_map.mp hmem
      rcases List.mem_cons.mp hr with rfl | hr
      · simp only at hfst
        omega
      · have := hpast r hr
        simp only at hfst
        omega)
    cases hready
  · cases hstep

/-- Exactly the runs in which each read clears the bit for its own sample keep
every fresh sample visible. -/
theorem freshVisible_iff (run : List Label) {s : Sensor}
    (hrun : machine.exec boot run = some s) :
    machine.Throughout FreshVisible boot run ↔ machine.Along ClearsOwn boot run := by
  refine Machine.throughout_iff_along (J := Numbered) (I := Announced) ?_ ?_ ?_ ?_ numbered_boot
    ?_ hrun
  · intro s a t h hstep
    exact step_numbered h hstep
  · intro s a t h ha hok hstep
    exact step_announced h ha hok hstep
  · intro s a t h _ hbad hstep
    exact step_hidden h hbad hstep
  · intro s _ ha hpoll _ hpub hnew
    exact (ha hpoll hpub).resolve_left hnew
  · intro _ hpub
    cases hpub

/-- Two samples; the second is published while a read holds the first. -/
def publishedBehind : List Label :=
  [.copySnapshot, .storeTimestamp, .setDataReady, .waitBits false, .readSnapshot, .readTimestamp,
    .copySnapshot, .storeTimestamp, .setDataReady, .clearDataReady]

theorem fresh_sample_hidden :
    ¬ ∀ s, machine.Reach Machine.anyStep s → FreshVisible s := by
  intro h
  have hreach := Machine.reach_of_exec (M := machine) rfl
    (Machine.along_anyStep boot publishedBehind) rfl
  exact absurd (h _ hreach) (by decide)

/-- The same samples, with the second published after the read. -/
def publishedAfter : List Label :=
  [.copySnapshot, .storeTimestamp, .setDataReady, .waitBits false, .readSnapshot, .readTimestamp,
    .clearDataReady, .copySnapshot, .storeTimestamp, .setDataReady]

theorem freshVisible_publishedAfter :
    machine.Throughout FreshVisible boot publishedAfter :=
  (freshVisible_iff publishedAfter rfl).mpr (by decide)

end SampleHandshake

end MarkitNode
