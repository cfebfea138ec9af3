import Mathlib.Data.List.Basic
import MarkitNode.StreamSession

/-!
The order of the packets when the consumer may fall behind by any amount. A
peek past the window answers with the newest frame, but the consumer then
advances by one only, so that a later peek may find the same frame again or an
older one. The numbers sent are strictly increasing exactly if this never
happens, which can be told from the two indices before each peek.
-/

namespace MarkitNode.SessionOrder

open StreamSession

def Increasing (s : Session) : Prop := (s.sent.map MarkerPacket.seq).Pairwise (· < ·)

instance (s : Session) : Decidable (Increasing s) :=
  inferInstanceAs (Decidable (List.Pairwise _ _))

/-- A peek comes after the frame last found: either its index does, or a newer
frame has been pushed since. -/
def MovesForward (s : Session) : Label → Prop
  | .push _ => True
  | .iterate _ => s.currIndex < s.ring.head →
      s.confirmIndex < s.currIndex ∨ s.confirmIndex + 1 < s.ring.head

instance (s : Session) : DecidablePred (MovesForward s)
  | .push _ => inferInstanceAs (Decidable True)
  | .iterate _ => inferInstanceAs (Decidable (_ → _))

/-- Where the frame last found stands. After a replaced index the consumer is
a whole window behind it, so that its next index is replaced as well unless
the ring has moved on. -/
structure LastFound (s : Session) : Prop extends Invariant s where
  found_lt : s.confirmIndex < s.ring.head
  behind : s.confirmIndex < s.currIndex ∨ s.currIndex ≤ s.confirmIndex - s.ring.size + 2
  none_sent : s.sent = [] → s.confirmIndex < s.currIndex
  last_sent : ∀ front pkt, s.sent = front ++ [pkt] →
    ∃ k : ℕ, s.confirmIndex = k + 1 ∧ pkt.seq = UInt32.ofNat k

theorem start_lastFound (rb : SlotRing ImuDgram) : LastFound (start rb) where
  toInvariant := start_invariant rb
  found_lt := by simp [start]
  behind := by simp [start]
  none_sent := by simp [start]
  last_sent := by simp [start]

theorem monitorPush_lastFound {s : Session} (h : LastFound s) (imuData : ImuDgram) :
    LastFound (monitorPush s imuData) where
  toInvariant := monitorPush_invariant h.toInvariant imuData
  found_lt := by
    have hlt := h.found_lt
    simp only [monitorPush, SlotRing.head_push]
    omega
  behind := h.behind
  none_sent := h.none_sent
  last_sent := h.last_sent

theorem clientIterate_lastFound {s : Session} (h : LastFound s) (nowUs : Int64) :
    LastFound (clientIterate s nowUs) := by
  have hinv := clientIterate_invariant h.toInvariant nowUs
  rcases clientIterate_cases h.toInvariant nowUs with ⟨_, heq⟩ | ⟨hlt, k, hk, hindex, heq⟩
  · rw [heq]
    exact h
  · rw [heq] at hinv ⊢
    have hhead := h.holds.head_eq
    refine ⟨hinv, ?_, ?_, ?_, ?_⟩
    · simp only
      omega
    · have hpos := h.currIndex_pos
      rw [peekIndex] at hindex
      simp only
      split at hindex <;> omega
    · simp
    · intro front pkt hsent
      obtain ⟨_, rfl⟩ := List.append_inj' hsent rfl |>.imp_right List.singleton_inj.mp
      exact ⟨k, rfl, h.pushed_seq k hk⟩

/-- The index found is newer than the last one exactly if the peek moves forward. -/
theorem found_newer_iff {s : Session} (h : LastFound s) (hlt : s.currIndex < s.ring.head) :
    s.confirmIndex < peekIndex s.ring.toRingBuf s.currIndex ↔
      s.confirmIndex < s.currIndex ∨ s.confirmIndex + 1 < s.ring.head := by
  have hsize := s.ring.two_le_size
  have hpos := h.currIndex_pos
  have hbehind := h.behind
  unfold peekIndex
  split <;> omega

theorem increasing_append (sent : List MarkerPacket) (pkt : MarkerPacket) :
    ((sent ++ [pkt]).map MarkerPacket.seq).Pairwise (· < ·) ↔
      (sent.map MarkerPacket.seq).Pairwise (· < ·) ∧ ∀ q ∈ sent, q.seq < pkt.seq := by
  simp [List.pairwise_append]

theorem ofNat_lt_ofNat {j k : ℕ} (hj : j < 2 ^ 32) (hk : k < 2 ^ 32) :
    UInt32.ofNat j < UInt32.ofNat k ↔ j < k := by
  rw [UInt32.lt_iff_toNat_lt, UInt32.toNat_ofNat_of_lt' hj, UInt32.toNat_ofNat_of_lt' hk]

/-- Sending frame `k` keeps the numbers increasing exactly if it is newer than
the frame last found. -/
theorem increasing_send_iff {s : Session} (h : LastFound s) {k : ℕ} (hk : k < s.pushed.length)
    (hcount : s.pushed.length ≤ 2 ^ 32) {pkt : MarkerPacket} (hpkt : pkt.seq = UInt32.ofNat k) :
    ((s.sent ++ [pkt]).map MarkerPacket.seq).Pairwise (· < ·) ↔
      Increasing s ∧ (s.sent = [] ∨ s.confirmIndex < k + 1) := by
  rw [increasing_append]
  refine and_congr_right fun hinc => ?_
  rcases List.eq_nil_or_concat' s.sent with hnil | ⟨front, last, hlast⟩
  · simp [hnil]
  · obtain ⟨j, hj, hseq⟩ := h.last_sent front last hlast
    have hnew : last.seq < pkt.seq ↔ j < k := by
      have hfound := h.found_lt
      have hhead := h.holds.head_eq
      rw [hseq, hpkt]
      exact ofNat_lt_ofNat (by omega) (by omega)
    have hfront : ∀ q ∈ front, q.seq < last.seq := by
      rw [hlast, increasing_append] at hinc
      exact hinc.2
    constructor
    · intro hall
      have hjk := hnew.mp (hall last (by simp [hlast]))
      exact Or.inr (by omega)
    · rintro (hnil | hlt) q hq
      · simp [hnil] at hlast
      · have hle := hnew.mpr (by omega)
        rw [hlast, List.mem_append, List.mem_singleton] at hq
        rcases hq with hq | rfl
        · exact UInt32.lt_trans (hfront q hq) hle
        · exact hle

theorem clientIterate_increasing_iff {s : Session} (h : LastFound s) (nowUs : Int64)
    (hcount : s.pushed.length ≤ 2 ^ 32) :
    Increasing (clientIterate s nowUs) ↔ Increasing s ∧ MovesForward s (.iterate nowUs) := by
  rcases clientIterate_cases h.toInvariant nowUs with ⟨hempty, heq⟩ | ⟨hlt, k, hk, hindex, heq⟩
  · have hmove : MovesForward s (.iterate nowUs) := fun hlt => absurd hlt (not_lt.mpr hempty)
    simp [heq, hmove]
  · have hseq : (tagPacket nowUs s.pushed[k]).seq = UInt32.ofNat k := h.pushed_seq k hk
    have hmove : MovesForward s (.iterate nowUs) ↔ s.confirmIndex < k + 1 := by
      rw [hindex, found_newer_iff h hlt]
      exact ⟨fun hm => hm hlt, fun hm _ => hm⟩
    rw [heq, hmove]
    refine (increasing_send_iff h hk hcount hseq).trans (and_congr_right fun _ => ?_)
    refine or_iff_right_of_imp fun hnil => ?_
    have hfresh := h.none_sent hnil
    have hpos := h.currIndex_pos
    rw [hindex, found_newer_iff h hlt]
    exact Or.inl hfresh

theorem next_increasing_iff {s : Session} (h : LastFound s) (a : Label)
    (hcount : (next s a).pushed.length ≤ 2 ^ 32) :
    LastFound (next s a) ∧ (Increasing (next s a) ↔ Increasing s ∧ MovesForward s a) := by
  cases a with
  | push imuData =>
    exact ⟨monitorPush_lastFound h imuData, (and_iff_left trivial).symm⟩
  | iterate nowUs =>
    have hpushed : (clientIterate s nowUs).pushed = s.pushed := by
      rcases clientIterate_cases h.toInvariant nowUs with ⟨_, heq⟩ | ⟨_, _, _, _, heq⟩ <;> rw [heq]
    rw [next, hpushed] at hcount
    exact ⟨clientIterate_lastFound h nowUs, clientIterate_increasing_iff h nowUs hcount⟩

theorem pushed_le_next (s : Session) (a : Label) :
    s.pushed.length ≤ (next s a).pushed.length := by
  cases a with
  | push imuData => simp [next, monitorPush]
  | iterate nowUs =>
    simp only [next, clientIterate]
    split
    · exact le_refl _
    · split <;> exact le_refl _

/-- In a session whose counter has not wrapped around, the numbers sent are
strictly increasing exactly if every peek moves forward. -/
theorem increasing_iff_movesForward (rb : SlotRing ImuDgram) {run : List Label} {s : Session}
    (hrun : session.exec (start rb) run = some s) (hcount : s.pushed.length ≤ 2 ^ 32) :
    Increasing s ↔ session.Along MovesForward (start rb) run := by
  have hiff : Increasing s ↔
      Increasing (start rb) ∧ session.Along MovesForward (start rb) run := by
    refine Machine.exec_iff_along (I := LastFound) (B := fun s => s.pushed.length ≤ 2 ^ 32)
      ?_ ?_ (start_lastFound rb) hrun hcount
    · intro s a t hstep hle
      cases Option.some.inj hstep
      exact (pushed_le_next s a).trans hle
    · intro s a t hs hle hstep
      cases Option.some.inj hstep
      exact next_increasing_iff hs a hle
  rw [hiff]
  exact and_iff_right List.Pairwise.nil

theorem increasing_iff_movesForward_two_slots :
    ∃ s, session.exec (start twoSlots) [.push default, .iterate 0, .push default, .iterate 0] =
      some s ∧ (Increasing s ↔ session.Along MovesForward (start twoSlots)
        [.push default, .iterate 0, .push default, .iterate 0]) :=
  ⟨_, rfl, increasing_iff_movesForward twoSlots rfl (by decide)⟩

/-- A consumer that is two frames behind sends the newest frame twice. -/
theorem sends_frame_twice :
    ∃ s, session.exec (start twoSlots)
      [.push default, .push default, .push default, .iterate 0, .iterate 0] = some s ∧
      s.sent.map MarkerPacket.seq = [2, 2] ∧ ¬ Increasing s :=
  ⟨_, rfl, by decide, by decide⟩

end MarkitNode.SessionOrder
