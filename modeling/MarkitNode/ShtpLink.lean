import MarkitNode.EventGroup
import MarkitNode.Machine
import MarkitNode.ShtpWire

/-!
The way of a packet to the sensor hub, over any order of the steps of the tasks. A
call queues its packet and waits for the SPI task to send it; the SPI task takes a
turn whenever the hub asks for one, and sends what is queued or else receives. The
wait takes the value of the whole event group for its answer, so that a wait that
runs out counts as a success while any other bit is set. A packet that finds the
queue taken is lost, but has used up its number.
-/

namespace MarkitNode

namespace ShtpLink

open ShtpCommands

/-- `evt_grp_spi_bits_t` -/
inductive SpiBit
  | rxDone
  | rxValidPacket
  | rxInvalidPacket
  | txDone
  deriving DecidableEq, Repr

/-- `xEventGroupWaitBits` returned something other than 0. -/
def anyBit (group : EventGroup SpiBit) : Bool :=
  group .rxDone || group .rxValidPacket || group .rxInvalidPacket || group .txDone

structure Link where
  device : Device
  evtGrpSpi : EventGroup SpiBit
  /-- a received packet waits for `BNO08x_data_proc_task` -/
  queueRxData : Bool
  /-- the call that is in `BNO08x_wait_for_tx_done` -/
  user : Option Nat
  /-- the number of calls so far -/
  calls : Nat
  /-- the calls whose packets the queue has taken, with what they asked for -/
  accepted : List (Nat × Message)
  /-- what has gone over the wire -/
  sent : List (List UInt8)
  /-- the calls that were told that their packet is sent -/
  acknowledged : List Nat

def boot : Link := ⟨Device.boot, EventGroup.clearAll, false, none, 0, [], [], []⟩

inductive Label
  /-- a function of the driver queues its packet and starts to wait -/
  | call (call : Call) (stack : Stack)
  /-- `BNO08x_spi_task` is notified; `rxLength` is in the header that it may receive -/
  | spiTurn (rxLength : Nat)
  /-- `BNO08x_data_proc_task` handles a packet -/
  | process (valid : Bool)
  /-- `BNO08x_wait_for_rx_done` or `BNO08x_wait_for_data` finds a packet received -/
  | takeRxDone
  /-- the end of `BNO08x_wait_for_data` -/
  | clearPacketBits
  /-- the wait of the call finds its bit -/
  | txDone
  /-- the wait of the call runs out -/
  | txTimeout
  deriving DecidableEq

def Label.isCall : Label → Bool
  | .call _ _ => true
  | _ => false

def step (s : Link) : Label → Option Link
  | .call call stack =>
      if s.user = none then
        (call.run s.device stack).map fun device =>
          { s with
            device := device
            user := some s.calls
            calls := s.calls + 1
            accepted :=
              if s.device.queueTxData = none then
                s.accepted ++ [(s.calls, call.message s.device.commandSequenceNumber)]
              else s.accepted }
      else none
  | .spiTurn rxLength =>
      match s.device.queueTxData with
      | some packet =>
          some { s with
            device := { s.device with queueTxData := none }
            evtGrpSpi := s.evtGrpSpi.setBit .txDone
            sent := s.sent ++ [sendPacket packet] }
      | none =>
          -- a header without a length is given up
          if rxLength % 32768 = 0 then some s
          else some { s with evtGrpSpi := s.evtGrpSpi.setBit .rxDone, queueRxData := true }
  | .process valid =>
      if s.queueRxData then
        some { s with
          queueRxData := false
          evtGrpSpi := s.evtGrpSpi.setBit (if valid then .rxValidPacket else .rxInvalidPacket) }
      else none
  | .takeRxDone => some { s with evtGrpSpi := s.evtGrpSpi.clearBit .rxDone }
  | .clearPacketBits =>
      some { s with
        evtGrpSpi := (s.evtGrpSpi.clearBit .rxValidPacket).clearBit .rxInvalidPacket }
  | .txDone =>
      match s.user with
      | some id =>
          if s.evtGrpSpi .txDone then
            some { s with
              user := none
              evtGrpSpi := s.evtGrpSpi.clearBit .txDone
              acknowledged := s.acknowledged ++ [id] }
          else none
      | none => none
  | .txTimeout =>
      match s.user with
      | some id =>
          if s.evtGrpSpi .txDone then none
          else
            some { s with
              user := none
              acknowledged :=
                if anyBit s.evtGrpSpi then s.acknowledged ++ [id] else s.acknowledged }
      | none => none

def machine : Machine Link Label := ⟨(· = boot), step⟩

/-- The packet that waits to be sent. -/
def Link.queued (s : Link) : List (List UInt8) := s.device.queueTxData.toList.map sendPacket

/-- What goes over the wire, the packet that waits included. -/
def Link.wire (s : Link) : List (List UInt8) := s.sent ++ s.queued

def hubReads (packet : List UInt8) : Option Message := readFrame packet >>= readMessage

/-! ### What a step can do -/

/-- The driver's call has come through, with the packet it has offered. -/
structure Called (s t : Link) (call : Call) (packet : TxPacket) : Prop where
  idle : s.user = none
  offers : Offers call s.device t.device packet
  evtGrpSpi : t.evtGrpSpi = s.evtGrpSpi
  user : t.user = some s.calls
  calls : t.calls = s.calls + 1
  accepted : t.accepted = if s.device.queueTxData = none then
    s.accepted ++ [(s.calls, call.message s.device.commandSequenceNumber)] else s.accepted
  sent : t.sent = s.sent
  acknowledged : t.acknowledged = s.acknowledged

/-- The bits of reception are all that a step has changed. -/
structure SameButRx (s t : Link) : Prop where
  device : t.device = s.device
  txDone : t.evtGrpSpi .txDone = s.evtGrpSpi .txDone
  user : t.user = s.user
  calls : t.calls = s.calls
  accepted : t.accepted = s.accepted
  sent : t.sent = s.sent
  acknowledged : t.acknowledged = s.acknowledged

def Link.send (s : Link) (packet : TxPacket) : Link :=
  { s with
    device := { s.device with queueTxData := none }
    evtGrpSpi := s.evtGrpSpi.setBit .txDone
    sent := s.sent ++ [sendPacket packet] }

theorem step_cases {s t : Link} {a : Label} (h : step s a = some t) :
    (∃ call stack packet, a = .call call stack ∧ Called s t call packet) ∨
    (∃ rxLength packet, a = .spiTurn rxLength ∧ s.device.queueTxData = some packet ∧
      t = s.send packet) ∨
    (∃ id, a = .txDone ∧ s.user = some id ∧ s.evtGrpSpi .txDone = true ∧
      t = { s with
        user := none
        evtGrpSpi := s.evtGrpSpi.clearBit .txDone
        acknowledged := s.acknowledged ++ [id] }) ∨
    (∃ id, a = .txTimeout ∧ s.user = some id ∧ s.evtGrpSpi .txDone = false ∧
      t = { s with
        user := none
        acknowledged :=
          if anyBit s.evtGrpSpi then s.acknowledged ++ [id] else s.acknowledged }) ∨
    (a.isCall = false ∧ a ≠ .txTimeout ∧ SameButRx s t) := by
  cases a with
  | call call stack =>
    rw [step] at h
    split at h
    · rename_i hidle
      obtain ⟨device, packet, hrun, hoffers⟩ := call.run_offers s.device stack
      rw [hrun, Option.map_some] at h
      cases h
      exact Or.inl ⟨call, stack, packet, rfl, hidle, hoffers, rfl, rfl, rfl, rfl, rfl, rfl⟩
    · cases h
  | spiTurn rxLength =>
    rw [step] at h
    split at h
    · rename_i packet hqueue
      exact Or.inr (Or.inl ⟨rxLength, packet, rfl, hqueue, (Option.some.inj h).symm⟩)
    · refine Or.inr (Or.inr (Or.inr (Or.inr ⟨rfl, by simp, ?_⟩)))
      split at h
      · cases h
        exact ⟨rfl, rfl, rfl, rfl, rfl, rfl, rfl⟩
      · cases h
        exact ⟨rfl, by simp, rfl, rfl, rfl, rfl, rfl⟩
  | process valid =>
    rw [step] at h
    split at h
    · refine Or.inr (Or.inr (Or.inr (Or.inr ⟨rfl, by simp, ?_⟩)))
      cases h
      refine ⟨rfl, ?_, rfl, rfl, rfl, rfl, rfl⟩
      cases valid <;> simp
    · cases h
  | takeRxDone =>
    refine Or.inr (Or.inr (Or.inr (Or.inr ⟨rfl, by simp, ?_⟩)))
    cases h
    exact ⟨rfl, by simp, rfl, rfl, rfl, rfl, rfl⟩
  | clearPacketBits =>
    refine Or.inr (Or.inr (Or.inr (Or.inr ⟨rfl, by simp, ?_⟩)))
    cases h
    exact ⟨rfl, by simp, rfl, rfl, rfl, rfl, rfl⟩
  | txDone =>
    rw [step] at h
    split at h
    · rename_i id hid
      split at h
      · rename_i hbit
        exact Or.inr (Or.inr (Or.inl ⟨id, rfl, hid, hbit, (Option.some.inj h).symm⟩))
      · cases h
    · cases h
  | txTimeout =>
    rw [step] at h
    split at h
    · rename_i id hid
      split at h
      · cases h
      · rename_i hbit
        exact Or.inr (Or.inr (Or.inr (Or.inl
          ⟨id, rfl, hid, Bool.eq_false_iff.mpr hbit, (Option.some.inj h).symm⟩)))
    · cases h

theorem Called.queueTxData {s t : Link} {call : Call} {packet : TxPacket}
    (h : Called s t call packet) :
    t.device.queueTxData = s.device.queueTxData.or (some packet) := h.offers.queueTxData

theorem Called.wire {s t : Link} {call : Call} {packet : TxPacket} (h : Called s t call packet) :
    t.wire = if s.device.queueTxData = none then s.wire ++ [sendPacket packet] else s.wire := by
  rw [Link.wire, Link.wire, Link.queued, Link.queued, h.sent, h.queueTxData]
  cases s.device.queueTxData <;> simp

theorem wire_send {s : Link} {packet : TxPacket} (h : s.device.queueTxData = some packet) :
    (s.send packet).wire = s.wire := by
  simp [Link.wire, Link.queued, Link.send, h]

theorem SameButRx.wire {s t : Link} (h : SameButRx s t) : t.wire = s.wire := by
  rw [Link.wire, Link.wire, Link.queued, Link.queued, h.sent, h.device]

/-! ### What the hub reads -/

/-- The wire has what the accepted calls have asked for, each once and in order. -/
structure ReadBack (s : Link) : Prop where
  reads : s.wire.map hubReads = s.accepted.map fun call => some call.2
  inOrder : (s.accepted.map Prod.fst).Pairwise (· < ·)
  earlier : ∀ call ∈ s.accepted, call.1 < s.calls

theorem ReadBack.congr {s t : Link} (h : ReadBack s) (hwire : t.wire = s.wire)
    (haccepted : t.accepted = s.accepted) (hcalls : t.calls = s.calls) : ReadBack t := by
  constructor
  · rw [hwire, haccepted, h.reads]
  · rw [haccepted]
    exact h.inOrder
  · rw [haccepted, hcalls]
    exact h.earlier

theorem Called.readBack {s t : Link} {call : Call} {packet : TxPacket}
    (hcall : Called s t call packet) (h : ReadBack s) : ReadBack t := by
  have hreads : hubReads (sendPacket packet) =
      some (call.message s.device.commandSequenceNumber) := by
    obtain ⟨cargo, hframe, hmessage⟩ := hcall.offers.reads
    rw [hubReads, hframe]
    exact hmessage
  by_cases hroom : s.device.queueTxData = none
  · have haccepted := hcall.accepted
    rw [if_pos hroom] at haccepted
    constructor
    · rw [hcall.wire, if_pos hroom, haccepted, List.map_append, List.map_append, h.reads,
        List.map_singleton, List.map_singleton, hreads]
    · rw [haccepted, List.map_append, List.pairwise_append]
      refine ⟨h.inOrder, List.pairwise_singleton _ _, ?_⟩
      intro earlier hearlier later hlater
      obtain ⟨call', hmem, rfl⟩ := List.mem_map.mp hearlier
      rw [List.mem_singleton.mp hlater]
      exact h.earlier call' hmem
    · intro call' hmem
      rw [haccepted] at hmem
      rw [hcall.calls]
      rcases List.mem_append.mp hmem with hold | hnew
      · exact Nat.lt_succ_of_lt (h.earlier call' hold)
      · rw [List.mem_singleton.mp hnew]
        exact Nat.lt_succ_self _
  · have haccepted := hcall.accepted
    rw [if_neg hroom] at haccepted
    constructor
    · rw [hcall.wire, if_neg hroom, haccepted, h.reads]
    · rw [haccepted]
      exact h.inOrder
    · intro call' hmem
      rw [haccepted] at hmem
      rw [hcall.calls]
      exact Nat.lt_succ_of_lt (h.earlier call' hmem)

theorem step_readBack {s t : Link} {a : Label} (h : ReadBack s) (hstep : step s a = some t) :
    ReadBack t := by
  rcases step_cases hstep with ⟨call, stack, packet, rfl, hcall⟩ | ⟨_, packet, rfl, hqueue, rfl⟩ |
    ⟨id, rfl, _, _, rfl⟩ | ⟨id, rfl, _, _, rfl⟩ | ⟨_, _, hrx⟩
  · exact hcall.readBack h
  · exact h.congr (wire_send hqueue) rfl rfl
  · exact h.congr rfl rfl rfl
  · exact h.congr rfl rfl rfl
  · exact h.congr hrx.wire hrx.accepted hrx.calls

theorem readBack_boot : ReadBack boot := ⟨rfl, List.Pairwise.nil, fun _ h => by cases h⟩

/-- In every run the hub reads exactly what the calls asked for that found room in
the queue, each once and in order. -/
theorem wire_readBack {s : Link} (h : machine.Reach Machine.anyStep s) : ReadBack s := by
  refine Machine.Reach.invariant (I := ReadBack) ?_
    (fun _ _ _ hback _ hstep => step_readBack hback hstep) h
  rintro _ rfl
  exact readBack_boot

/-- Two calls, the second of which finds the packet of the first in the queue. -/
def secondLost : List Label :=
  [.call .requestProductId (Vector.replicate 30 0), .txTimeout,
    .call .modeSleep (Vector.replicate 30 255), .spiTurn 0, .txDone]

theorem readBack_secondLost :
    ∃ s, s.sent.map hubReads = [some .productIdRequest] ∧ ReadBack s := by
  obtain ⟨s, hrun, hsent⟩ : ∃ s, machine.exec boot secondLost = some s ∧
      s.sent.map hubReads = [some .productIdRequest] := ⟨_, rfl, by decide⟩
  exact ⟨s, hsent, wire_readBack
    (Machine.reach_of_exec rfl (Machine.along_anyStep boot secondLost) hrun)⟩

end ShtpLink

end MarkitNode
