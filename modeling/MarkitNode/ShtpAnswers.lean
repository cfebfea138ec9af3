import MarkitNode.ShtpLink

/-!
What `BNO08x_wait_for_tx_done` tells a call. The bit that it waits for does not say
whose packet has been sent, and a wait that runs out answers with the bits that
happen to be set. A call gets the right answer if it starts behind no other.
-/

namespace MarkitNode

namespace ShtpLink

open ShtpCommands

/-- The calls whose packets have been sent, and the one whose packet waits. -/
def Link.sentCalls (s : Link) : List Nat := (s.accepted.take s.sent.length).map Prod.fst

def Link.queuedCalls (s : Link) : List Nat := (s.accepted.drop s.sent.length).map Prod.fst

/-- The packet of the call that waits is either queued, without the bit, or sent, with
the bit. -/
def Awaited (s : Link) (id : Nat) : Prop :=
  (id ∈ s.queuedCalls ∧ s.evtGrpSpi .txDone = false) ∨
  (id ∈ s.sentCalls ∧ s.device.queueTxData = none ∧ s.evtGrpSpi .txDone = true)

/-- A call starts with an empty queue and without the bit, and a wait runs out with no
bit set. -/
def Clean (s : Link) (a : Label) : Prop :=
  (a.isCall = true → s.device.queueTxData = none ∧ s.evtGrpSpi .txDone = false) ∧
  (a = .txTimeout → anyBit s.evtGrpSpi = false)

instance (s : Link) (a : Label) : Decidable (Clean s a) :=
  inferInstanceAs (Decidable ((_ → _) ∧ (_ → _)))

theorem ReadBack.length {s : Link} (h : ReadBack s) :
    s.accepted.length = s.sent.length + s.device.queueTxData.toList.length := by
  have hlengths := congrArg List.length h.reads
  rw [List.length_map, List.length_map, Link.wire, List.length_append, Link.queued,
    List.length_map] at hlengths
  exact hlengths.symm

section Steps

variable {s t : Link} {call : Call} {packet : TxPacket}

end Steps

end ShtpLink

end MarkitNode
