import MarkitNode.Machine
import MarkitNode.MarkerPacket
import MarkitNode.RingBuf

/-!
One streaming session: the ring is reset, then `app_monitor` pushes frames
while `app_data_client` peeks and sends them. A push and an iteration of the
consumer's inner loop are single steps, in any order; every send succeeds.
The lists `pushed` and `sent` record what both tasks have done.
-/

namespace MarkitNode.StreamSession

structure Session where
  ring : SlotRing ImuDgram
  seq : UInt32
  currIndex : ℤ
  confirmIndex : ℤ
  pushed : List ImuDgram
  sent : List MarkerPacket

inductive Label
  /-- `app_monitor` has read `imuData` from the IMU. -/
  | push (imuData : ImuDgram)
  /-- An iteration of the consumer; `nowUs` is the time it tags a packet with. -/
  | iterate (nowUs : Int64)

/-- `imu_data.seq = seq++; ring_buf_push(serial_buf, &imu_data)` -/
def monitorPush (s : Session) (imuData : ImuDgram) : Session :=
  let frame := { imuData with seq := s.seq }
  { s with
    seq := s.seq + 1
    ring := s.ring.push frame
    pushed := s.pushed ++ [frame] }

def clientIterate (s : Session) (nowUs : Int64) : Session :=
  if s.currIndex ≥ s.ring.head then s
  else
    match ringBufPeek s.ring.toRingBuf s.currIndex with
    | .error _ => s
    | .ok (imuReading, confirmIndex) =>
        { s with
          currIndex := s.currIndex + 1
          confirmIndex := confirmIndex
          sent := s.sent ++ [tagPacket nowUs imuReading] }

def next (s : Session) : Label → Session
  | .push imuData => monitorPush s imuData
  | .iterate nowUs => clientIterate s nowUs

/-- The session as both tasks find it, in a buffer `rb` that may hold old frames. -/
def start (rb : SlotRing ImuDgram) : Session where
  ring := rb.reset
  seq := 0
  currIndex := 1
  confirmIndex := -1
  pushed := []
  sent := []

def session : Machine Session Label where
  Init s := ∃ rb, s = start rb
  step s a := some (next s a)

/-- The smallest buffer, on which runs are evaluated. -/
def twoSlots : SlotRing ImuDgram := SlotRing.filled 2 112 default (by decide) (by decide)

/-- What both tasks know of each other at any moment of a session. -/
structure Invariant (s : Session) : Prop where
  holds : s.ring.Holds s.pushed
  seq_eq : s.seq = UInt32.ofNat s.pushed.length
  pushed_seq : ∀ k (hk : k < s.pushed.length), s.pushed[k].seq = UInt32.ofNat k
  currIndex_pos : 0 < s.currIndex

theorem start_invariant (rb : SlotRing ImuDgram) : Invariant (start rb) where
  holds := SlotRing.holds_reset rb
  seq_eq := rfl
  pushed_seq := by simp [start]
  currIndex_pos := by simp [start]

theorem monitorPush_invariant {s : Session} (h : Invariant s) (imuData : ImuDgram) :
    Invariant (monitorPush s imuData) where
  holds := SlotRing.holds_push h.holds _
  seq_eq := by
    simp only [monitorPush, List.length_append, List.length_singleton, h.seq_eq,
      UInt32.ofNat_add]
    rfl
  pushed_seq := by
    intro k hk
    simp only [monitorPush, List.length_append, List.length_singleton] at hk ⊢
    by_cases hold : k < s.pushed.length
    · rw [List.getElem_append_left hold]
      exact h.pushed_seq k hold
    · obtain rfl : k = s.pushed.length := by omega
      simpa using h.seq_eq
  currIndex_pos := h.currIndex_pos

/-- An iteration does nothing, or sends the frame that its peek found. -/
theorem clientIterate_cases {s : Session} (h : Invariant s) (nowUs : Int64) :
    (s.ring.head ≤ s.currIndex ∧ clientIterate s nowUs = s) ∨
    (s.currIndex < s.ring.head ∧ ∃ k, ∃ hk : k < s.pushed.length,
      (k : ℤ) + 1 = peekIndex s.ring.toRingBuf s.currIndex ∧
      clientIterate s nowUs =
        { s with
          currIndex := s.currIndex + 1
          confirmIndex := (k : ℤ) + 1
          sent := s.sent ++ [tagPacket nowUs s.pushed[k]] }) := by
  by_cases hempty : s.currIndex ≥ s.ring.head
  · exact Or.inl ⟨hempty, by simp only [clientIterate, if_pos hempty]⟩
  · obtain ⟨k, hk, hindex, hpeek⟩ :=
      SlotRing.peek_of_holds h.holds h.currIndex_pos (not_le.mp hempty)
    refine Or.inr ⟨not_le.mp hempty, k, hk, hindex, ?_⟩
    simp only [clientIterate, if_neg hempty, hpeek]

theorem clientIterate_invariant {s : Session} (h : Invariant s) (nowUs : Int64) :
    Invariant (clientIterate s nowUs) := by
  rcases clientIterate_cases h nowUs with ⟨_, heq⟩ | ⟨_, k, hk, _, heq⟩
  · rw [heq]
    exact h
  · rw [heq]
    exact ⟨h.holds, h.seq_eq, h.pushed_seq, by have := h.currIndex_pos; simp only; omega⟩

end MarkitNode.StreamSession
