import MarkitNode.ShtpLink

/-!
The numbers of the packets on the wire. `BNO08x_queue_packet` counts a packet before
it knows whether the queue takes it, so that a packet that is lost leaves a gap in
the numbers of its channel.
-/

namespace MarkitNode

namespace ShtpLink

open ShtpCommands

/-- The numbers of the packets on a channel. -/
def numbersOn (channel : Channel) (packets : List (List UInt8)) : List UInt8 :=
  (packets.filterMap readFrame).filterMap fun frame =>
    if frame.channel = channel.number then some frame.number else none

/-- The packets of every channel are numbered from 0 on without a gap, and the
counter is where they end. -/
def Consecutive (s : Link) : Prop :=
  ∀ channel, numbersOn channel s.wire =
      (List.range (numbersOn channel s.wire).length).map UInt8.ofNat ∧
    s.device.sequenceNumber channel = UInt8.ofNat (numbersOn channel s.wire).length

/-- A call does not find the queue taken. -/
def FindsRoom (s : Link) (a : Label) : Prop := a.isCall = true → s.device.queueTxData = none

instance (s : Link) (a : Label) : Decidable (FindsRoom s a) :=
  inferInstanceAs (Decidable (_ → _))

theorem number_injective : Function.Injective Channel.number := by
  intro c d h
  cases c <;> cases d <;> first | rfl | exact absurd h (by decide)

theorem numbersOn_append (channel : Channel) (packets : List (List UInt8)) {packet : List UInt8}
    {frame : Frame} (h : readFrame packet = some frame) :
    numbersOn channel (packets ++ [packet]) = numbersOn channel packets ++
      if frame.channel = channel.number then [frame.number] else [] := by
  simp only [numbersOn, List.filterMap_append, List.filterMap_cons, h, List.filterMap_nil]
  split_ifs <;> simp

section Calls

variable {s t : Link} {call : Call} {packet : TxPacket}

/-- A packet that is taken has the number of the counter, which goes on by one. -/
theorem Called.consecutive (hcall : Called s t call packet) (h : Consecutive s)
    (hroom : s.device.queueTxData = none) : Consecutive t := by
  intro channel
  obtain ⟨cargo, hframe, _⟩ := hcall.offers.reads
  obtain ⟨hnumbers, hcounter⟩ := h channel
  rw [hcall.wire, if_pos hroom, numbersOn_append channel _ hframe, hcall.offers.sequenceNumber]
  by_cases hchannel : channel = call.channel
  · rw [← hchannel, if_pos rfl, Function.update_self, List.length_append, List.length_singleton,
      List.range_succ, List.map_append, ← hnumbers, hcounter, List.map_singleton]
    exact ⟨rfl, (UInt8.ofNat_add _ _).symm⟩
  · have hother : ¬ call.channel.number = channel.number := by
      intro heq
      exact hchannel (number_injective heq).symm
    rw [if_neg hother, Function.update_of_ne hchannel, List.append_nil]
    exact ⟨hnumbers, hcounter⟩

/-- A packet that is lost leaves a gap. -/
theorem Called.not_consecutive (hcall : Called s t call packet) (h : Consecutive s)
    (htaken : ¬ s.device.queueTxData = none) : ¬ Consecutive t := by
  intro hafter
  have hcounter := (hafter call.channel).2
  rw [hcall.wire, if_neg htaken, hcall.offers.sequenceNumber, Function.update_self,
    ← (h call.channel).2] at hcounter
  simp at hcounter

end Calls

theorem Consecutive.congr {s t : Link} (h : Consecutive s) (hwire : t.wire = s.wire)
    (hcounters : t.device.sequenceNumber = s.device.sequenceNumber) : Consecutive t := by
  intro channel
  rw [hwire, hcounters]
  exact h channel

theorem step_consecutive {s t : Link} {a : Label} (h : Consecutive s) (hok : FindsRoom s a)
    (hstep : step s a = some t) : Consecutive t := by
  rcases step_cases hstep with ⟨call, stack, packet, rfl, hcall⟩ | ⟨_, packet, rfl, hqueue, rfl⟩ |
    ⟨id, rfl, _, _, rfl⟩ | ⟨id, rfl, _, _, rfl⟩ | ⟨_, _, hrx⟩
  · exact hcall.consecutive h (hok rfl)
  · exact h.congr (wire_send hqueue) rfl
  · exact h.congr rfl rfl
  · exact h.congr rfl rfl
  · refine h.congr hrx.wire ?_
    rw [hrx.device]

theorem step_not_consecutive {s t : Link} {a : Label} (h : Consecutive s) (hbad : ¬ FindsRoom s a)
    (hstep : step s a = some t) : ¬ Consecutive t := by
  rw [FindsRoom, Classical.not_imp] at hbad
  obtain ⟨hcalls, htaken⟩ := hbad
  rcases step_cases hstep with ⟨call, stack, packet, rfl, hcall⟩ | ⟨_, packet, rfl, _, _⟩ |
    ⟨id, rfl, _, _, _⟩ | ⟨id, rfl, _, _, _⟩ | ⟨hother, _, _⟩
  · exact hcall.not_consecutive h htaken
  · cases hcalls
  · cases hcalls
  · cases hcalls
  · rw [hother] at hcalls
    cases hcalls

theorem consecutive_boot : Consecutive boot := by
  intro channel
  cases channel <;> exact ⟨rfl, rfl⟩

/-- The numbers on the wire have no gap exactly in the runs in which every call finds
the queue empty. -/
theorem consecutive_iff_findsRoom {run : List Label} {t : Link}
    (hrun : machine.exec boot run = some t) :
    machine.Throughout Consecutive boot run ↔ machine.Along FindsRoom boot run :=
  Machine.throughout_iff_along (J := fun _ => True) (I := Consecutive)
    (fun _ _ _ _ _ => trivial)
    (fun _ _ _ _ h hok hstep => step_consecutive h hok hstep)
    (fun _ _ _ _ h hbad hstep => step_not_consecutive h hbad hstep)
    (fun _ _ h => h) trivial consecutive_boot hrun

theorem consecutive_secondLost :
    machine.Throughout Consecutive boot secondLost ↔
      machine.Along FindsRoom boot secondLost := by
  obtain ⟨t, hrun⟩ : ∃ t, machine.exec boot secondLost = some t := ⟨_, rfl⟩
  exact consecutive_iff_findsRoom hrun

end ShtpLink

end MarkitNode
