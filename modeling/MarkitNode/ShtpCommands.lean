import MarkitNode.ByteCodes

/-!
The packets that the BNO08x driver sends. `BNO08x_queue_packet` puts a header in
front of the command bytes (length, channel, and the number of the packet on its
channel, which is counted in a static array) and offers the packet to a queue of
one slot, without waiting for room. The packet is a variable on the stack, and
what it holds behind its length is whatever was there.
-/

namespace MarkitNode

namespace ShtpCommands

open ByteCodes

/-- `channels_t` -/
inductive Channel
  | command
  | executable
  | control
  | reports
  | wakeReports
  | gyro
  deriving DecidableEq, Repr

def Channel.number : Channel → UInt8
  | .command => 0
  | .executable => 1
  | .control => 2
  | .reports => 3
  | .wakeReports => 4
  | .gyro => 5

/-- `bno08x_tx_packet_t` -/
structure TxPacket where
  body : List UInt8
  length : Nat
  deriving DecidableEq, Repr

/-- What is on the stack where the packet comes to lie. -/
abbrev Stack := Vector UInt8 30

/-- The fields of `BNO08x` that the commands use, with the static counters of
`BNO08x_queue_packet`. -/
structure Device where
  sequenceNumber : Channel → UInt8
  commandSequenceNumber : UInt8
  calibrationStatus : UInt8
  queueTxData : Option TxPacket

/-- `BNO08x_init` with the storage of the static variables. -/
def Device.boot : Device := ⟨fun _ => 0, 0, 1, none⟩

/-- `xQueueSend` to a queue of one slot, without a wait. -/
def xQueueSend {α : Type} (queue : Option α) (item : α) : Option α := queue.or (some item)

/-- `body[i] = b`, with no result outside of the array. -/
def store (body : List UInt8) (i : Nat) (b : UInt8) : Option (List UInt8) :=
  if i < body.length then some (body.set i b) else none

/-- The loop that saves the commands, from `commands[i]` on. -/
def saveCommands (commands body : List UInt8) (i : Nat) : Nat → Option (List UInt8)
  | 0 => some body
  | left + 1 => do
      let command ← commands[i]?
      let body ← store body (i + 4) command
      saveCommands commands body (i + 1) left

def queuePacket (device : Device) (channelNumber : Channel) (dataLength : Nat)
    (commands : List UInt8) (stack : Stack) : Option Device := do
  let length := dataLength + 4
  let number := device.sequenceNumber channelNumber
  let body ← store stack.toList 0 (UInt8.ofNat length)
  let body ← store body 1 (UInt8.ofNat (length / 256))
  let body ← store body 2 channelNumber.number
  let body ← store body 3 number
  let body ← saveCommands commands body 0 dataLength
  return { device with
    sequenceNumber := Function.update device.sequenceNumber channelNumber (number + 1)
    queueTxData := xQueueSend device.queueTxData ⟨body, length⟩ }

/-- `uint8_t commands[20] = {0};` -/
def noCommands : List UInt8 := List.replicate 20 0

def queueCommand (device : Device) (command : UInt8) (commands : List UInt8) (stack : Stack) :
    Option Device :=
  let commands := commands.set 0 0xF2
  let commands := commands.set 1 device.commandSequenceNumber
  let commands := commands.set 2 command
  queuePacket { device with commandSequenceNumber := device.commandSequenceNumber + 1 }
    .control 12 commands stack

def queueRequestProductIdCommand (device : Device) (stack : Stack) : Option Device :=
  queuePacket device .control 2 ((noCommands.set 0 0xF9).set 1 0) stack

/-- The packet of `BNO08x_soft_reset`, `BNO08x_mode_on` and `BNO08x_mode_sleep`. -/
def queueExecutable (command : UInt8) (device : Device) (stack : Stack) : Option Device :=
  queuePacket device .executable 1 (noCommands.set 0 command) stack

def softReset := queueExecutable 1

def modeOn := queueExecutable 2

def modeSleep := queueExecutable 3

def calibrateCommands (sensorToCalibrate : UInt8) : List UInt8 :=
  if sensorToCalibrate = 0 then noCommands.set 3 1
  else if sensorToCalibrate = 1 then noCommands.set 4 1
  else if sensorToCalibrate = 2 then noCommands.set 5 1
  else if sensorToCalibrate = 3 then noCommands.set 7 1
  else if sensorToCalibrate = 4 then ((noCommands.set 3 1).set 4 1).set 5 1
  else noCommands

/-- `COMMAND_ME_CALIBRATE` -/
def commandMeCalibrate : UInt8 := 7

def queueCalibrateCommand (device : Device) (sensorToCalibrate : UInt8) (stack : Stack) :
    Option Device :=
  queueCommand { device with calibrationStatus := 1 } commandMeCalibrate
    (calibrateCommands sensorToCalibrate) stack

def requestCalibrationStatus (device : Device) (stack : Stack) : Option Device :=
  queueCommand device commandMeCalibrate (noCommands.set 6 1) stack

/-- `COMMAND_DCD` is 6. -/
def saveCalibration (device : Device) (stack : Stack) : Option Device :=
  queueCommand device 6 noCommands stack

/-- `TARE_NOW` -/
def tareNowCommand : UInt8 := 0

/-- `COMMAND_TARE` is 3. -/
def queueTareCommand (device : Device) (command axis rotationVectorBasis : UInt8) (stack : Stack) :
    Option Device :=
  let commands := noCommands.set 3 command
  let commands :=
    if command = tareNowCommand then (commands.set 4 axis).set 5 rotationVectorBasis else commands
  queueCommand device 3 commands stack

def tareNow (device : Device) (axisSel rotationVectorBasis : UInt8) (stack : Stack) :
    Option Device :=
  queueTareCommand device tareNowCommand axisSel rotationVectorBasis stack

/-- `TARE_PERSIST` is 1, `TARE_AXIS_ALL` is 7, `TARE_ROTATION_VECTOR` is 0. -/
def saveTare (device : Device) (stack : Stack) : Option Device :=
  queueTareCommand device 1 7 0 stack

/-- `TARE_SET_REORIENTATION` is 2. -/
def clearTare (device : Device) (stack : Stack) : Option Device :=
  queueTareCommand device 2 7 0 stack

/-- `(word >> shift) & 0xFF` -/
def byteOf (word shift : Nat) : UInt8 := UInt8.ofNat (word / 2 ^ shift % 256)

def queueFeatureCommand (device : Device) (reportId : UInt8)
    (timeBetweenReports specificConfig : UInt32) (stack : Stack) : Option Device :=
  let interval := timeBetweenReports.toNat
  let config := specificConfig.toNat
  let commands := ((((noCommands.set 0 0xFD).set 1 reportId).set 2 0).set 3 0).set 4 0
  let commands := (commands.set 5 (byteOf interval 0)).set 6 (byteOf interval 8)
  let commands := (commands.set 7 (byteOf interval 16)).set 8 (byteOf interval 24)
  let commands := (((commands.set 9 0).set 10 0).set 11 0).set 12 0
  let commands := (commands.set 13 (byteOf config 0)).set 14 (byteOf config 8)
  let commands := (commands.set 15 (byteOf config 16)).set 16 (byteOf config 24)
  queuePacket device .control 17 commands stack

def frsReadRequest (device : Device) (recordId readOffset blockSize : UInt16) (stack : Stack) :
    Option Device :=
  let commands := (noCommands.set 0 0xF4).set 1 0
  let commands := (commands.set 2 (byteOf readOffset.toNat 0)).set 3 (byteOf readOffset.toNat 8)
  let commands := (commands.set 4 (byteOf recordId.toNat 0)).set 5 (byteOf recordId.toNat 8)
  let commands := (commands.set 6 (byteOf blockSize.toNat 0)).set 7 (byteOf blockSize.toNat 8)
  queuePacket device .control 8 commands stack

/-- The functions of the driver that queue a packet. -/
inductive Call
  | requestProductId
  | softReset
  | modeOn
  | modeSleep
  | calibrate (sensorToCalibrate : UInt8)
  | requestCalibrationStatus
  | saveCalibration
  | tareNow (axis rotationVectorBasis : UInt8)
  | saveTare
  | clearTare
  | feature (reportId : UInt8) (timeBetweenReports specificConfig : UInt32)
  | frsRead (recordId readOffset blockSize : UInt16)
  deriving DecidableEq

def Call.run : Call → Device → Stack → Option Device
  | .requestProductId, device, stack => queueRequestProductIdCommand device stack
  | .softReset, device, stack => ShtpCommands.softReset device stack
  | .modeOn, device, stack => ShtpCommands.modeOn device stack
  | .modeSleep, device, stack => ShtpCommands.modeSleep device stack
  | .calibrate sensor, device, stack => queueCalibrateCommand device sensor stack
  | .requestCalibrationStatus, device, stack => ShtpCommands.requestCalibrationStatus device stack
  | .saveCalibration, device, stack => ShtpCommands.saveCalibration device stack
  | .tareNow axis basis, device, stack => ShtpCommands.tareNow device axis basis stack
  | .saveTare, device, stack => ShtpCommands.saveTare device stack
  | .clearTare, device, stack => ShtpCommands.clearTare device stack
  | .feature reportId interval config, device, stack =>
      queueFeatureCommand device reportId interval config stack
  | .frsRead recordId readOffset blockSize, device, stack =>
      frsReadRequest device recordId readOffset blockSize stack

/-- The bytes that `BNO08x_send_packet` transmits. -/
def sendPacket (packet : TxPacket) : List UInt8 := packet.body.take packet.length

/-! ### What a call puts into the queue -/

theorem store_of_lt {body : List UInt8} {i : Nat} (h : i < body.length) (b : UInt8) :
    store body i b = some (body.set i b) := if_pos h

/-- The loop writes behind the header and what it has saved so far. -/
theorem saveCommands_eq {commands body : List UInt8} {i left : Nat}
    (hread : i + left ≤ commands.length) (hwrite : i + 4 + left ≤ body.length) :
    saveCommands commands body i left =
      some (body.take (i + 4) ++ (commands.drop i).take left ++ body.drop (i + 4 + left)) := by
  induction left generalizing i body with
  | zero => simp [saveCommands]
  | succ left ih =>
    have hi : i < commands.length := by omega
    have hslot : i + 4 < body.length := by omega
    rw [saveCommands, List.getElem?_eq_getElem hi, Option.bind_eq_bind, Option.bind_some,
      store_of_lt hslot, Option.bind_eq_bind, Option.bind_some,
      ih (by omega) (by rw [List.length_set]; omega)]
    have htake : (body.set (i + 4) commands[i]).take (i + 1 + 4) =
        body.take (i + 4) ++ [commands[i]] := by
      rw [show i + 1 + 4 = i + 4 + 1 by omega,
        List.take_succ_eq_append_getElem (by simpa using hslot),
        List.take_set_of_le (Nat.le_refl _), List.getElem_set_self]
    have hdrop : (body.set (i + 4) commands[i]).drop (i + 1 + 4 + left) =
        body.drop (i + 4 + (left + 1)) := by
      rw [List.drop_set_of_lt (by omega)]
      congr 1
      omega
    rw [htake, hdrop, List.drop_eq_getElem_cons hi, List.take_succ_cons, List.append_assoc,
      List.append_assoc, List.append_assoc, List.singleton_append, List.cons_append]

/-- A packet on the wire: length, channel, number, cargo. -/
def frameBytes (channel : Channel) (number : UInt8) (cargo : List UInt8) : List UInt8 :=
  toLe 2 (cargo.length + 4) ++ channel.number :: number :: cargo

/-- The device after a packet has been offered to the queue. -/
def Device.offer (device : Device) (channel : Channel) (packet : TxPacket) : Device :=
  { device with
    sequenceNumber :=
      Function.update device.sequenceNumber channel (device.sequenceNumber channel + 1)
    queueTxData := xQueueSend device.queueTxData packet }

theorem take_header {cells : List UInt8} (h : 4 ≤ cells.length) (b₀ b₁ b₂ b₃ : UInt8) :
    ((((cells.set 0 b₀).set 1 b₁).set 2 b₂).set 3 b₃).take 4 = [b₀, b₁, b₂, b₃] := by
  obtain ⟨c₀, c₁, c₂, c₃, rest, rfl⟩ :
      ∃ c₀ c₁ c₂ c₃ rest, cells = c₀ :: c₁ :: c₂ :: c₃ :: rest := by
    rcases cells with _ | ⟨c₀, _ | ⟨c₁, _ | ⟨c₂, _ | ⟨c₃, rest⟩⟩⟩⟩
    all_goals first | exact ⟨_, _, _, _, _, rfl⟩ | simp at h
  rfl

theorem drop_header {cells : List UInt8} {i : Nat} (h : 4 ≤ i) (b₀ b₁ b₂ b₃ : UInt8) :
    ((((cells.set 0 b₀).set 1 b₁).set 2 b₂).set 3 b₃).drop i = cells.drop i := by
  rw [List.drop_set_of_lt (by omega), List.drop_set_of_lt (by omega),
    List.drop_set_of_lt (by omega), List.drop_set_of_lt (by omega)]

theorem length_frameBytes (channel : Channel) (number : UInt8) (cargo : List UInt8) :
    (frameBytes channel number cargo).length = cargo.length + 4 := by
  rw [frameBytes, List.length_append, length_toLe, List.length_cons, List.length_cons]
  omega

/-- The packet fits into its array. -/
theorem queuePacket_eq (device : Device) (channel : Channel) {dataLength : Nat}
    {commands : List UInt8} (stack : Stack) (hfit : dataLength ≤ 26)
    (hcommands : dataLength ≤ commands.length) :
    queuePacket device channel dataLength commands stack =
      some (device.offer channel
        ⟨frameBytes channel (device.sequenceNumber channel) (commands.take dataLength) ++
          stack.toList.drop (dataLength + 4), dataLength + 4⟩) := by
  have hsize : stack.toList.length = 30 := by simp
  simp only [queuePacket, Option.bind_eq_bind, Option.bind_some, store_of_lt, List.length_set,
    hsize, Nat.reduceLT, Option.pure_def]
  rw [saveCommands_eq (by omega) (by simp only [List.length_set, hsize]; omega),
    Option.bind_some, take_header (by omega), drop_header (by omega), List.drop_zero,
    Device.offer, frameBytes, List.length_take, Nat.min_eq_left hcommands, Nat.add_comm (0 + 4)]
  rfl

/-- What goes out is the header and the commands, and nothing of the stack. -/
theorem queuePacket_offers (device : Device) (channel : Channel) {dataLength : Nat}
    {commands : List UInt8} (stack : Stack) (hfit : dataLength ≤ 26)
    (hcommands : dataLength ≤ commands.length) :
    ∃ packet, queuePacket device channel dataLength commands stack =
        some (device.offer channel packet) ∧
      sendPacket packet =
        frameBytes channel (device.sequenceNumber channel) (commands.take dataLength) := by
  refine ⟨_, queuePacket_eq device channel stack hfit hcommands, ?_⟩
  apply List.take_left'
  rw [length_frameBytes, List.length_take, Nat.min_eq_left hcommands]

end ShtpCommands

end MarkitNode
