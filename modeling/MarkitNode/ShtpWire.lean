import MarkitNode.ShtpCommands

/-!
What the sensor hub reads from the packets of the driver: a frame with the length
it says it has, and in its cargo one of the messages of the hub's manual. Every
call of the driver queues a packet that reads back as what was asked for.
-/

namespace MarkitNode

namespace ShtpCommands

open ByteCodes

structure Frame where
  channel : UInt8
  number : UInt8
  cargo : List UInt8
  deriving DecidableEq, Repr

def readFrame : List UInt8 → Option Frame
  | low :: high :: channel :: number :: cargo =>
      if ofLe [low, high] = cargo.length + 4 then some ⟨channel, number, cargo⟩ else none
  | _ => none

/-- What the hub is told. Commands carry a number of their own. -/
inductive Message
  | productIdRequest
  | executable (command : UInt8)
  | setFeature (reportId : UInt8) (interval config : Nat)
  | frsRead (recordId readOffset blockSize : Nat)
  | calibrate (number : UInt8) (accel gyro mag planarAccel : Bool)
  | calibrationStatus (number : UInt8)
  | saveCalibration (number : UInt8)
  | tare (number axis rotationVectorBasis : UInt8)
  | persistTare (number : UInt8)
  | clearTare (number : UInt8)
  deriving DecidableEq, Repr

/-- A command request, from its own number on. -/
def readCommand (number command : UInt8) (parameter : Nat → UInt8) : Option Message :=
  if command = 7 then
    if parameter 3 = 1 then some (.calibrationStatus number)
    else some (.calibrate number (parameter 0 = 1) (parameter 1 = 1) (parameter 2 = 1)
      (parameter 4 = 1))
  else if command = 6 then some (.saveCalibration number)
  else if command = 3 then
    if parameter 0 = 0 then some (.tare number (parameter 1) (parameter 2))
    else if parameter 0 = 1 then some (.persistTare number)
    else if parameter 0 = 2 then some (.clearTare number)
    else none
  else none

/-- Cargo of the control channel: each kind of request has its length. -/
def readControl (cargo : List UInt8) : Option Message :=
  let byte (i : Nat) : UInt8 := cargo.getD i 0
  if byte 0 = 0xF9 ∧ cargo.length = 2 then some .productIdRequest
  else if byte 0 = 0xFD ∧ cargo.length = 17 then
    some (.setFeature (byte 1) (ofLe ((cargo.drop 5).take 4)) (ofLe ((cargo.drop 13).take 4)))
  else if byte 0 = 0xF4 ∧ cargo.length = 8 then
    some (.frsRead (ofLe ((cargo.drop 4).take 2)) (ofLe ((cargo.drop 2).take 2))
      (ofLe ((cargo.drop 6).take 2)))
  else if byte 0 = 0xF2 ∧ cargo.length = 12 then
    readCommand (byte 1) (byte 2) fun i => byte (i + 3)
  else none

def readMessage (frame : Frame) : Option Message :=
  if frame.channel = Channel.executable.number then
    if frame.cargo.length = 1 then some (.executable (frame.cargo.getD 0 0)) else none
  else if frame.channel = Channel.control.number then readControl frame.cargo
  else none

/-- What a call asks for; `number` is the one that it gives to a command. -/
def Call.message (number : UInt8) : Call → Message
  | .requestProductId => .productIdRequest
  | .softReset => .executable 1
  | .modeOn => .executable 2
  | .modeSleep => .executable 3
  | .calibrate sensor => .calibrate number (sensor = 0 ∨ sensor = 4) (sensor = 1 ∨ sensor = 4)
      (sensor = 2 ∨ sensor = 4) (sensor = 3)
  | .requestCalibrationStatus => .calibrationStatus number
  | .saveCalibration => .saveCalibration number
  | .tareNow axis basis => .tare number axis basis
  | .saveTare => .persistTare number
  | .clearTare => .clearTare number
  | .feature reportId interval config => .setFeature reportId interval.toNat config.toNat
  | .frsRead recordId readOffset blockSize =>
      .frsRead recordId.toNat readOffset.toNat blockSize.toNat

def Call.channel : Call → Channel
  | .softReset | .modeOn | .modeSleep => .executable
  | _ => .control

/-- The call sends a command request, which takes a number. -/
def Call.isCommand : Call → Bool
  | .calibrate _ | .requestCalibrationStatus | .saveCalibration => true
  | .tareNow _ _ | .saveTare | .clearTare => true
  | _ => false

/-! ### Frames -/

theorem readFrame_frameBytes (channel : Channel) (number : UInt8) {cargo : List UInt8}
    (h : cargo.length + 4 < 65536) :
    readFrame (frameBytes channel number cargo) = some ⟨channel.number, number, cargo⟩ := by
  have hlength : ofLe (toLe 2 (cargo.length + 4)) = cargo.length + 4 := ofLe_toLe h
  exact if_pos hlength

theorem readMessage_control (number : UInt8) (cargo : List UInt8) :
    readMessage ⟨Channel.control.number, number, cargo⟩ = readControl cargo := rfl

theorem byteOf_eq (word k : Nat) : byteOf word (8 * k) = UInt8.ofNat (word / 256 ^ k) := by
  rw [byteOf, Nat.pow_mul]
  exact UInt8.ofNat_mod_size

theorem ofLe_byteOf_two {word : Nat} (h : word < 65536) :
    ofLe [byteOf word 0, byteOf word 8] = word := by
  have hbytes : [byteOf word 0, byteOf word 8] = toLe 2 word := by
    rw [byteOf_eq word 0, byteOf_eq word 1]
    simp [toLe]
  rw [hbytes, ofLe_toLe h]

theorem ofLe_byteOf_four {word : Nat} (h : word < 4294967296) :
    ofLe [byteOf word 0, byteOf word 8, byteOf word 16, byteOf word 24] = word := by
  have hbytes : [byteOf word 0, byteOf word 8, byteOf word 16, byteOf word 24] = toLe 4 word := by
    rw [byteOf_eq word 0, byteOf_eq word 1, byteOf_eq word 2, byteOf_eq word 3]
    simp [toLe, Nat.div_div_eq_div_mul]
  rw [hbytes, ofLe_toLe h]

/-! ### Calls -/

/-- The device after a call that has offered the packet, which reads back as the call. -/
structure Offers (call : Call) (device t : Device) (packet : TxPacket) : Prop where
  queueTxData : t.queueTxData = xQueueSend device.queueTxData packet
  sequenceNumber : t.sequenceNumber =
    Function.update device.sequenceNumber call.channel (device.sequenceNumber call.channel + 1)
  commandSequenceNumber : t.commandSequenceNumber =
    if call.isCommand then device.commandSequenceNumber + 1 else device.commandSequenceNumber
  reads : ∃ cargo, readFrame (sendPacket packet) =
      some ⟨call.channel.number, device.sequenceNumber call.channel, cargo⟩ ∧
    readMessage ⟨call.channel.number, device.sequenceNumber call.channel, cargo⟩ =
      some (call.message device.commandSequenceNumber)

section Run

variable (call : Call) {device : Device}

/-- A call that queues its packet when it has made its changes to the device. -/
theorem offers_of_queuePacket {before : Device} {dataLength : Nat} {commands : List UInt8}
    (stack : Stack) (hfit : dataLength ≤ 26) (hcommands : dataLength ≤ commands.length)
    (hqueue : before.queueTxData = device.queueTxData)
    (hnumbers : before.sequenceNumber = device.sequenceNumber)
    (hcommandNumber : before.commandSequenceNumber =
      if call.isCommand then device.commandSequenceNumber + 1 else device.commandSequenceNumber)
    (hreads : readMessage ⟨call.channel.number, device.sequenceNumber call.channel,
        commands.take dataLength⟩ = some (call.message device.commandSequenceNumber)) :
    ∃ t packet, queuePacket before call.channel dataLength commands stack = some t ∧
      Offers call device t packet := by
  obtain ⟨packet, hrun, hsend⟩ :=
    queuePacket_offers before call.channel stack hfit hcommands
  refine ⟨_, packet, hrun, ?_, ?_, hcommandNumber, commands.take dataLength, ?_, hreads⟩
  · rw [← hqueue]
    rfl
  · rw [← hnumbers]
    rfl
  · rw [hsend, hnumbers]
    apply readFrame_frameBytes
    rw [List.length_take]
    omega

/-- A command takes its number and leaves the next one. -/
theorem offers_of_queueCommand {before : Device} {command : UInt8} {commands : List UInt8}
    (stack : Stack) (hcommand : call.isCommand = true) (hchannel : call.channel = .control)
    (hlength : commands.length = 20)
    (hqueue : before.queueTxData = device.queueTxData)
    (hnumbers : before.sequenceNumber = device.sequenceNumber)
    (hcommandNumber : before.commandSequenceNumber = device.commandSequenceNumber)
    (hreads : readControl ((((commands.set 0 0xF2).set 1 device.commandSequenceNumber).set 2
        command).take 12) = some (call.message device.commandSequenceNumber)) :
    ∃ t packet, queueCommand before command commands stack = some t ∧
      Offers call device t packet := by
  rw [queueCommand, ← hchannel]
  apply offers_of_queuePacket call stack (by omega)
  · simp only [List.length_set, hlength]
    omega
  · exact hqueue
  · exact hnumbers
  · rw [hcommandNumber, hcommand]
    rfl
  · rw [hchannel, hcommandNumber]
    exact hreads

end Run

theorem length_noCommands : noCommands.length = 20 := rfl

theorem length_calibrateCommands (sensor : UInt8) : (calibrateCommands sensor).length = 20 := by
  unfold calibrateCommands
  split_ifs <;> simp only [List.length_set, length_noCommands]

theorem read_calibrate (number sensor : UInt8) :
    readControl (((((calibrateCommands sensor).set 0 0xF2).set 1 number).set 2
      commandMeCalibrate).take 12) = some ((Call.calibrate sensor).message number) := by
  unfold calibrateCommands
  split_ifs with h₀ h₁ h₂ h₃ h₄
  · subst h₀
    rfl
  · subst h₁
    rfl
  · subst h₂
    rfl
  · subst h₃
    rfl
  · subst h₄
    rfl
  · simp only [Call.message, h₀, h₁, h₂, h₃, h₄]
    rfl

theorem queueExecutable_offers (command : UInt8) {device : Device} (stack : Stack) {call : Call}
    (hchannel : call.channel = .executable) (hcommand : call.isCommand = false)
    (hmessage : call.message device.commandSequenceNumber = .executable command) :
    ∃ t packet, queueExecutable command device stack = some t ∧ Offers call device t packet := by
  rw [queueExecutable, ← hchannel]
  refine offers_of_queuePacket call stack (by omega) (by simp [noCommands]) rfl rfl ?_ ?_
  · rw [hcommand]
    rfl
  · rw [hchannel, hmessage]
    rfl

theorem queueFeatureCommand_offers (device : Device) (reportId : UInt8) (interval config : UInt32)
    (stack : Stack) :
    ∃ t packet, queueFeatureCommand device reportId interval config stack = some t ∧
      Offers (.feature reportId interval config) device t packet := by
  rw [queueFeatureCommand]
  refine offers_of_queuePacket (.feature reportId interval config) stack (by omega)
    (by simp [noCommands]) rfl rfl rfl ?_
  have hread (b₀ b₁ b₂ b₃ c₀ c₁ c₂ c₃ : UInt8) :
      readControl [0xFD, reportId, 0, 0, 0, b₀, b₁, b₂, b₃, 0, 0, 0, 0, c₀, c₁, c₂, c₃] =
        some (.setFeature reportId (ofLe [b₀, b₁, b₂, b₃]) (ofLe [c₀, c₁, c₂, c₃])) := rfl
  simp only [noCommands, List.replicate, List.set_cons_zero, List.set_cons_succ,
    List.take_succ_cons, List.take_zero, readMessage_control, Call.channel, hread,
    ofLe_byteOf_four interval.toNat_lt, ofLe_byteOf_four config.toNat_lt, Call.message]

theorem frsReadRequest_offers (device : Device) (recordId readOffset blockSize : UInt16)
    (stack : Stack) :
    ∃ t packet, frsReadRequest device recordId readOffset blockSize stack = some t ∧
      Offers (.frsRead recordId readOffset blockSize) device t packet := by
  rw [frsReadRequest]
  refine offers_of_queuePacket (.frsRead recordId readOffset blockSize) stack (by omega)
    (by simp [noCommands]) rfl rfl rfl ?_
  have hread (b₀ b₁ b₂ b₃ b₄ b₅ : UInt8) : readControl [0xF4, 0, b₀, b₁, b₂, b₃, b₄, b₅] =
      some (.frsRead (ofLe [b₂, b₃]) (ofLe [b₀, b₁]) (ofLe [b₄, b₅])) := rfl
  simp only [noCommands, List.replicate, List.set_cons_zero, List.set_cons_succ,
    List.take_succ_cons, List.take_zero, readMessage_control, Call.channel, hread,
    ofLe_byteOf_two recordId.toNat_lt, ofLe_byteOf_two readOffset.toNat_lt,
    ofLe_byteOf_two blockSize.toNat_lt, Call.message]

/-- Every call queues a packet that fits, and that reads back as the call. -/
theorem Call.run_offers (call : Call) (device : Device) (stack : Stack) :
    ∃ t packet, call.run device stack = some t ∧ Offers call device t packet := by
  cases call with
  | requestProductId =>
    rw [Call.run, queueRequestProductIdCommand]
    exact offers_of_queuePacket .requestProductId stack (by omega)
      (by simp [noCommands]) rfl rfl rfl rfl
  | softReset => exact queueExecutable_offers 1 stack rfl rfl rfl
  | modeOn => exact queueExecutable_offers 2 stack rfl rfl rfl
  | modeSleep => exact queueExecutable_offers 3 stack rfl rfl rfl
  | calibrate sensor =>
    rw [Call.run, queueCalibrateCommand]
    exact offers_of_queueCommand _ stack rfl rfl (length_calibrateCommands sensor) rfl rfl rfl
      (read_calibrate _ sensor)
  | requestCalibrationStatus =>
    rw [Call.run, ShtpCommands.requestCalibrationStatus]
    exact offers_of_queueCommand _ stack rfl rfl rfl rfl rfl rfl rfl
  | saveCalibration =>
    rw [Call.run, ShtpCommands.saveCalibration]
    exact offers_of_queueCommand _ stack rfl rfl rfl rfl rfl rfl rfl
  | tareNow axis basis =>
    rw [Call.run, ShtpCommands.tareNow, queueTareCommand]
    exact offers_of_queueCommand _ stack rfl rfl rfl rfl rfl rfl rfl
  | saveTare =>
    rw [Call.run, ShtpCommands.saveTare, queueTareCommand]
    exact offers_of_queueCommand _ stack rfl rfl rfl rfl rfl rfl rfl
  | clearTare =>
    rw [Call.run, ShtpCommands.clearTare, queueTareCommand]
    exact offers_of_queueCommand _ stack rfl rfl rfl rfl rfl rfl rfl
  | feature reportId interval config =>
    exact queueFeatureCommand_offers device reportId interval config stack
  | frsRead recordId readOffset blockSize =>
    exact frsReadRequest_offers device recordId readOffset blockSize stack

end ShtpCommands

end MarkitNode
