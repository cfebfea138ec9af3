import MarkitNode.MarkerPacket
import MarkitNode.NodeControl
import MarkitNode.RingBuf

/-!
`app_monitor` and `app_data_client` over any number of sessions. The producer
starts on the mux, the consumer on `g_mcu.state.active`, and the tasks that
control both run in between. Each frame is stamped with the number of
activations so far, and `resetEpoch` is that number at the last reset of the
ring; no task reads either.
-/

namespace MarkitNode.StreamTasks

open NodeControl

/-- A frame, and the count of activations when it was pushed. -/
structure StampedFrame where
  frame : ImuDgram
  epoch : ℕ
  deriving DecidableEq, Inhabited

/-- A packet, the item it was built from, and the count of activations when it was sent. -/
structure Sent where
  packet : MarkerPacket
  item : StampedFrame
  epoch : ℕ
  deriving DecidableEq

/-- What `app_monitor` does next. -/
inductive MonitorPc
  | outer
  | bufferReset
  | reset
  | test
  | read
  | push (imuData : ImuDgram)
  deriving DecidableEq

/-- What `app_data_client` does next; from `loop` to `send` it is in its inner loop. -/
inductive ClientPc
  | wait
  | socketInit
  | enter
  | loop
  | compare
  | peek
  | advance (imuReading : StampedFrame)
  | send (imuReading : StampedFrame)
  | handleError
  | deactivate
  | setBit
  deriving DecidableEq

structure Streaming where
  node : Node
  ring : SlotRing StampedFrame
  imuEnabled : Bool
  monitor : MonitorPc
  seq : UInt32
  client : ClientPc
  socket : Bool
  currIndex : ℤ
  confirmIndex : ℤ
  epoch : ℕ
  resetEpoch : ℕ
  pushed : List StampedFrame
  sent : List Sent

/-- What a step of the consumer finds outside the modelled state. -/
structure Reads where
  ntpSynced : Bool
  discoveryCompleted : Bool
  socketOk : Bool
  sendOk : Bool
  nowUs : Int64
  deriving DecidableEq

inductive Label
  | node (a : NodeControl.Label)
  /-- `imuData` is what `g_imu.read` has returned, if it has succeeded. -/
  | monitor (imuData : Option ImuDgram)
  | client (reads : Reads)

def streams (s : Streaming) : Bool := s.imuEnabled && s.node.mux = .stream

def monitorStep (s : Streaming) (imuData : Option ImuDgram) : Streaming :=
  match s.monitor with
  | .outer => if streams s then { s with monitor := .bufferReset } else s
  | .bufferReset => { s with monitor := .reset }
  | .reset =>
      { s with seq := 0, ring := s.ring.reset, resetEpoch := s.epoch, monitor := .test }
  | .test => { s with monitor := if streams s then .read else .outer }
  | .read =>
      match imuData with
      | none => { s with monitor := .test }
      | some imuData => { s with monitor := .push imuData }
  | .push imuData =>
      let item := ⟨{ imuData with seq := s.seq }, s.epoch⟩
      { s with
        seq := s.seq + 1
        ring := s.ring.push item
        pushed := s.pushed ++ [item]
        monitor := .test }

def clientStep (s : Streaming) (reads : Reads) : Option Streaming :=
  match s.client with
  | .wait =>
      if s.node.active && reads.ntpSynced && reads.discoveryCompleted then
        some { s with client := .socketInit }
      else some s
  | .socketInit =>
      if s.socket then some { s with client := .enter }
      else if reads.socketOk then some { s with socket := true, client := .enter }
      else some { s with client := .handleError }
  | .enter => some { s with currIndex := 1, confirmIndex := -1, client := .loop }
  | .loop => some { s with client := if s.node.active then .compare else .handleError }
  | .compare => some { s with client := if s.currIndex ≥ s.ring.head then .loop else .peek }
  | .peek =>
      match ringBufPeek s.ring.toRingBuf s.currIndex with
      | .error _ => some { s with client := .loop }
      | .ok (imuReading, confirmIndex) =>
          some { s with confirmIndex := confirmIndex, client := .advance imuReading }
  | .advance imuReading => some { s with currIndex := s.currIndex + 1, client := .send imuReading }
  | .send imuReading =>
      let packet := tagPacket reads.nowUs imuReading.frame
      some { s with
        sent := s.sent ++ [⟨packet, imuReading, s.epoch⟩]
        client := if reads.sendOk then .loop else .handleError }
  | .handleError => some { s with client := if s.node.active then .deactivate else .wait }
  | .deactivate =>
      (NodeControl.step s.node (.write false)).map fun n => { s with node := n, client := .setBit }
  | .setBit => (NodeControl.step s.node .setBit).map fun n => { s with node := n, client := .wait }

/-- A write that makes an inactive device active. -/
def activates (n : Node) : NodeControl.Label → Bool
  | .write true => !n.active
  | _ => false

/-- Steps of the tasks that control the node. -/
def nodeStep (s : Streaming) (a : NodeControl.Label) : Option Streaming :=
  if isModeLabel a then
    (NodeControl.step s.node a).map fun n =>
      if activates s.node a then { s with node := n, epoch := s.epoch + 1 }
      else { s with node := n }
  else none

def step (s : Streaming) : Label → Option Streaming
  | .node a => nodeStep s a
  | .monitor imuData => some (monitorStep s imuData)
  | .client reads => clientStep s reads

/-- After a cold boot, with the ring as `ring_buf_init` leaves it. -/
def start (rb : SlotRing StampedFrame) (imuEnabled : Bool) : Streaming where
  node := coldStandby
  ring := rb
  imuEnabled := imuEnabled
  monitor := .outer
  seq := 0
  client := .wait
  socket := false
  currIndex := 1
  confirmIndex := -1
  epoch := 0
  resetEpoch := 0
  pushed := []
  sent := []

def machine : Machine Streaming Label where
  Init s := ∃ size, ∃ (h2 : 2 ≤ size) (hlt : size < 65536) (itemWidth : ℕ) (item : StampedFrame)
    (imuEnabled : Bool), s = start (SlotRing.filled size itemWidth item h2 hlt) imuEnabled
  step := step

/-- The consumer has a position in the ring. -/
def inLoop : ClientPc → Bool
  | .loop | .compare | .peek | .advance _ | .send _ => true
  | _ => false

/-- The frame that the consumer has found and not sent yet. -/
def holding : ClientPc → Option StampedFrame
  | .advance imuReading | .send imuReading => some imuReading
  | _ => none

/-- The producer is past its reset. -/
def producing : MonitorPc → Bool
  | .test | .read | .push _ => true
  | _ => false

end MarkitNode.StreamTasks
