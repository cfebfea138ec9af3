import MarkitNode.StreamSession

/-!
Sessions in which the consumer is never a full ring behind when it peeks. The
window test of the peek then always finds the frame that was asked for, so the
packets sent are the frames pushed, in order and from the first one on.
-/

namespace MarkitNode.SessionDelivery

open StreamSession

/-- Whenever there is a frame to peek, the consumer is within one ring of it. -/
def InWindow (s : Session) : Label → Prop
  | .push _ => True
  | .iterate _ => s.currIndex < s.ring.head → s.ring.head - s.currIndex < s.ring.size

instance (s : Session) : DecidablePred (InWindow s)
  | .push _ => inferInstanceAs (Decidable True)
  | .iterate _ => inferInstanceAs (Decidable (_ → _))

/-- The packets sent so far are the first frames of the session. -/
structure Delivered (s : Session) : Prop extends Invariant s where
  count : s.currIndex = s.sent.length + 1
  bounded : s.sent.length ≤ s.pushed.length
  carries : ∀ k (hk : k < s.sent.length) (hp : k < s.pushed.length),
    Carries s.sent[k] s.pushed[k]

theorem start_delivered (rb : SlotRing ImuDgram) : Delivered (start rb) where
  toInvariant := start_invariant rb
  count := rfl
  bounded := le_refl _
  carries := by simp [start]

theorem monitorPush_delivered {s : Session} (h : Delivered s) (imuData : ImuDgram) :
    Delivered (monitorPush s imuData) where
  toInvariant := monitorPush_invariant h.toInvariant imuData
  count := h.count
  bounded := by
    have hb := h.bounded
    simp only [monitorPush, List.length_append, List.length_singleton]
    omega
  carries := by
    intro k hk hp
    have hsent : k < s.sent.length := hk
    have hold : k < s.pushed.length := lt_of_lt_of_le hsent h.bounded
    simp only [monitorPush, List.getElem_append_left hold]
    exact h.carries k hsent hold

theorem clientIterate_delivered {s : Session} (h : Delivered s) (nowUs : Int64)
    (hwindow : InWindow s (.iterate nowUs)) : Delivered (clientIterate s nowUs) := by
  have hinv := clientIterate_invariant h.toInvariant nowUs
  rcases clientIterate_cases h.toInvariant nowUs with ⟨_, heq⟩ | ⟨hlt, k, hk, hindex, heq⟩
  · rw [heq]
    exact h
  · have hnext : (k : ℤ) + 1 = s.currIndex := by
      have hclose := hwindow hlt
      have hpos := h.currIndex_pos
      rw [hindex, peekIndex, if_neg (by omega)]
    obtain rfl : k = s.sent.length := by
      have hcount := h.count
      omega
    rw [heq] at hinv ⊢
    refine ⟨hinv, ?_, ?_, ?_⟩
    · have hcount := h.count
      simp only [List.length_append, List.length_singleton]
      omega
    · simp only [List.length_append, List.length_singleton]
      omega
    · intro j hj hp
      simp only [List.length_append, List.length_singleton] at hj
      by_cases hold : j < s.sent.length
      · simp only [List.getElem_append_left hold]
        exact h.carries j hold hp
      · obtain rfl : j = s.sent.length := by omega
        simpa using tagPacket_carries nowUs s.pushed[s.sent.length]

theorem reach_delivered {s : Session} (h : session.Reach InWindow s) : Delivered s := by
  refine h.invariant ?_ ?_
  · rintro s ⟨rb, rfl⟩
    exact start_delivered rb
  · intro s a t hs hok hstep
    cases Option.some.inj hstep
    cases a with
    | push imuData => exact monitorPush_delivered hs imuData
    | iterate nowUs => exact clientIterate_delivered hs nowUs hok

/-- Packet `k` carries frame `k`, whose number is `k`: no frame is lost, sent
twice or out of order. -/
theorem sent_prefix_of_pushed {s : Session} (h : session.Reach InWindow s) :
    s.sent.length ≤ s.pushed.length ∧
    ∀ k (hk : k < s.sent.length) (hp : k < s.pushed.length),
      Carries s.sent[k] s.pushed[k] ∧ s.sent[k].seq = UInt32.ofNat k := by
  have hs := reach_delivered h
  refine ⟨hs.bounded, fun k hk hp => ⟨hs.carries k hk hp, ?_⟩⟩
  rw [(hs.carries k hk hp).seq, hs.pushed_seq k hp]

/-- Three frames, the consumer keeping pace. -/
def pacedRun : List Label :=
  [.push default, .iterate 0, .push default, .iterate 0, .iterate 0, .push default, .iterate 0]

theorem sent_prefix_of_pushed_two_slots :
    ∃ s, session.exec (start twoSlots) pacedRun = some s ∧ s.sent.length = 3 ∧
      ∀ k (hk : k < s.sent.length) (_ : k < s.pushed.length),
        s.sent[k].seq = UInt32.ofNat k := by
  refine ⟨_, rfl, rfl, fun k hk hp => ?_⟩
  have halong : session.Along InWindow (start twoSlots) pacedRun := by decide
  exact ((sent_prefix_of_pushed (Machine.reach_of_exec ⟨twoSlots, rfl⟩ halong rfl)).2 k hk hp).2

end MarkitNode.SessionDelivery
