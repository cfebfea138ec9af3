import Mathlib.Algebra.GroupWithZero.Nat
import MarkitNode.MemoryBlock
import MarkitNode.ShtpWire

/-!
What the BNO08x driver makes of the packets it receives. `BNO08x_receive_packet` reads
a header of four bytes and then as many bytes as it announces, into an array of 300 on
the stack; `BNO08x_parse_packet` finds out what has come, and the parsers take the
values of a report from fixed places of that array, how many bytes have come or not.
-/

namespace MarkitNode

namespace ShtpReports

open MemoryBlock ShtpCommands

/-- Places of the two arrays are written as numbers. -/
scoped instance headerPlaces : NeZero 4 := ⟨Nat.succ_ne_zero 3⟩

scoped instance bodyPlaces : NeZero 300 := ⟨Nat.succ_ne_zero 299⟩

/-- `bno08x_rx_packet_t` -/
structure RxPacket where
  header : Block UInt8 4
  body : Block UInt8 300
  length : Nat

/-- `((uint16_t) high) << 8 | low` -/
def word (low high : UInt8) : UInt16 := high.toUInt16 <<< 8 ||| low.toUInt16

/-- `((header[1] << 8) | header[0]) & ~(1 << 15)` -/
def announced (header : Block UInt8 4) : Nat := (word (header 0) (header 1)).toNat % 32768

/-- The subtraction of the header's length, in 16 bits. -/
def dataLength (header : Block UInt8 4) : Nat := (announced header + 65532) % 65536

/-- The bytes that come over the bus go to the front of the array; there is no result
when there are more of them than it holds. -/
def readBody (bus : Nat → UInt8) (length : Nat) (stack : Block UInt8 300) :
    Option (Block UInt8 300) :=
  if length ≤ 300 then some fun i => if i < length then bus i else stack i else none

/-- The packet, or none for a header without a length. -/
def receivePacket (header : Block UInt8 4) (bus : Nat → UInt8) (stack : Block UInt8 300) :
    Option (Option RxPacket) :=
  if announced header = 0 then some none
  else (readBody bus (dataLength header) stack).map fun body =>
    some ⟨header, body, dataLength header⟩

/-- `SENSOR_REPORT_ID_*`, as far as the parser knows them, and
`SHTP_REPORT_COMMAND_RESPONSE`. -/
inductive ReportId
  | accelerometer
  | gyroscope
  | magneticField
  | linearAcceleration
  | rotationVector
  | gravity
  | uncalibratedGyro
  | gameRotationVector
  | tapDetector
  | stepCounter
  | stabilityClassifier
  | rawAccelerometer
  | rawGyroscope
  | rawMagnetometer
  | personalActivityClassifier
  | arvrStabilizedRotationVector
  | arvrStabilizedGameRotationVector
  | commandResponse
  deriving DecidableEq, Repr

def ReportId.code : ReportId → UInt8
  | .accelerometer => 0x01
  | .gyroscope => 0x02
  | .magneticField => 0x03
  | .linearAcceleration => 0x04
  | .rotationVector => 0x05
  | .gravity => 0x06
  | .uncalibratedGyro => 0x07
  | .gameRotationVector => 0x08
  | .tapDetector => 0x10
  | .stepCounter => 0x11
  | .stabilityClassifier => 0x13
  | .rawAccelerometer => 0x14
  | .rawGyroscope => 0x15
  | .rawMagnetometer => 0x16
  | .personalActivityClassifier => 0x1E
  | .arvrStabilizedRotationVector => 0x28
  | .arvrStabilizedGameRotationVector => 0x29
  | .commandResponse => 0xF1

def ReportId.all : List ReportId :=
  [.accelerometer, .gyroscope, .magneticField, .linearAcceleration, .rotationVector, .gravity,
    .uncalibratedGyro, .gameRotationVector, .tapDetector, .stepCounter, .stabilityClassifier,
    .rawAccelerometer, .rawGyroscope, .rawMagnetometer, .personalActivityClassifier,
    .arvrStabilizedRotationVector, .arvrStabilizedGameRotationVector, .commandResponse]

/-- The cases of the `switch`. -/
def ReportId.ofCode (code : UInt8) : Option ReportId :=
  ReportId.all.find? fun id => id.code = code

structure Axes where
  x : UInt16
  y : UInt16
  z : UInt16
  deriving DecidableEq, Repr

/-- Raw values and accuracy of one of the sensors. -/
structure Measured where
  axes : Axes
  accuracy : UInt8
  deriving DecidableEq, Repr

structure Quaternion where
  i : UInt16
  j : UInt16
  k : UInt16
  real : UInt16
  deriving DecidableEq, Repr

/-- The fields of `BNO08x` that the parsers set. -/
structure Readings where
  timeStamp : UInt32
  accel : Measured
  linAccel : Measured
  gyro : Measured
  gravity : Measured
  magf : Measured
  uncalibGyro : Measured
  bias : Axes
  quat : Quaternion
  quatRadianAccuracy : UInt16
  quatAccuracy : UInt8
  velocityGyro : Axes
  tapDetector : UInt8
  stepCount : UInt16
  stabilityClassifier : UInt8
  activityClassifier : UInt8
  /-- the array that the pointer points to, if it is set -/
  activityConfidences : Option (List UInt8)
  memsRawAccel : Axes
  memsRawGyro : Axes
  memsRawMagf : Axes
  calibrationStatus : UInt8
  /-- the queues of one slot -/
  queueResetReason : Option UInt8
  queueFrsReadData : Option (List UInt8)
  deriving DecidableEq

/-- The static storage, after `BNO08x_init`. -/
def Readings.boot : Readings :=
  let axes : Axes := ⟨0, 0, 0⟩
  let measured : Measured := ⟨axes, 0⟩
  ⟨0, measured, measured, measured, measured, measured, measured, axes, ⟨0, 0, 0, 0⟩, 0, 0, axes, 0,
    0, 0, 0, none, axes, axes, axes, 1, none, none⟩

/-- `status`, `data1` to `data6`. -/
structure Words where
  status : UInt8
  data1 : UInt16
  data2 : UInt16
  data3 : UInt16
  data4 : UInt16
  data5 : UInt16
  data6 : UInt16
  deriving DecidableEq, Repr

def wordAt (body : Block UInt8 300) (low high : Fin 300) : UInt16 := word (body low) (body high)

def readWords (body : Block UInt8 300) (length : Nat) : Words where
  status := body 7 &&& 0x03
  data1 := wordAt body 9 10
  data2 := wordAt body 11 12
  data3 := wordAt body 13 14
  data4 := if (length : Int) - 5 > 9 then wordAt body 15 16 else 0
  data5 := if (length : Int) - 5 > 11 then wordAt body 17 18 else 0
  data6 := if (length : Int) - 5 > 13 then wordAt body 19 20 else 0

def Words.axes (w : Words) : Axes := ⟨w.data1, w.data2, w.data3⟩

/-- The assignments of the case; without the array of confidences the write to it has
no result. -/
def storeReport (device : Readings) (body : Block UInt8 300) (w : Words) :
    ReportId → Option Readings
  | .accelerometer => some { device with accel := ⟨w.axes, w.status⟩ }
  | .linearAcceleration => some { device with linAccel := ⟨w.axes, w.status⟩ }
  | .gyroscope => some { device with gyro := ⟨w.axes, w.status⟩ }
  | .uncalibratedGyro =>
      some { device with
        uncalibGyro := ⟨w.axes, w.status⟩
        bias := ⟨w.data4, w.data5, w.data6⟩ }
  | .magneticField => some { device with magf := ⟨w.axes, w.status⟩ }
  | .tapDetector => some { device with tapDetector := body 9 }
  | .stepCounter => some { device with stepCount := w.data3 }
  | .stabilityClassifier => some { device with stabilityClassifier := body 9 }
  | .personalActivityClassifier =>
      device.activityConfidences.map fun _ =>
        { device with
          activityClassifier := body 10
          activityConfidences := some [body 11, body 12, body 13, body 14, body 15, body 16,
            body 17, body 18, body 19] }
  | .rawAccelerometer => some { device with memsRawAccel := w.axes }
  | .rawGyroscope => some { device with memsRawGyro := w.axes }
  | .rawMagnetometer => some { device with memsRawMagf := w.axes }
  | .commandResponse =>
      some (if body 7 = commandMeCalibrate then { device with calibrationStatus := body 10 }
        else device)
  | .gravity => some { device with gravity := ⟨w.axes, w.status⟩ }
  | .rotationVector | .gameRotationVector | .arvrStabilizedRotationVector
  | .arvrStabilizedGameRotationVector =>
      some { device with
        quatAccuracy := w.status
        quat := ⟨w.data1, w.data2, w.data3, w.data4⟩
        -- also where the report has none
        quatRadianAccuracy := w.data5 }

def timeStamp (body : Block UInt8 300) : UInt32 :=
  (body 4).toUInt32 <<< 24 ||| (body 3).toUInt32 <<< 16 ||| (body 2).toUInt32 <<< 8 |||
    (body 1).toUInt32

/-- The report on the gyro channel, which has no header of its own. -/
def storeGyroReport (device : Readings) (body : Block UInt8 300) : Readings :=
  { device with
    quat := ⟨wordAt body 0 1, wordAt body 2 3, wordAt body 4 5, wordAt body 6 7⟩
    velocityGyro := ⟨wordAt body 8 9, wordAt body 10 11, wordAt body 12 13⟩ }

/-- `SENSOR_REPORT_ID_GYRO_INTEGRATED_ROTATION_VECTOR` -/
def gyroIntegratedCode : UInt8 := 0x2A

/-- The id of the report, 0 if it is not handled, and the device. -/
def parseInputReport (device : Readings) (packet : RxPacket) : Option (UInt8 × Readings) :=
  let length := dataLength packet.header
  let device := { device with timeStamp := timeStamp packet.body }
  if packet.header 2 = Channel.gyro.number then
    some (gyroIntegratedCode, storeGyroReport device packet.body)
  else
    match ReportId.ofCode (packet.body 5) with
    | some id =>
      (storeReport device packet.body (readWords packet.body length) id).map fun device =>
        (packet.body 5, device)
    | none => some (0, device)

def parseCommandReport (device : Readings) (packet : RxPacket) : UInt8 × Readings :=
  if packet.body 0 = ReportId.commandResponse.code then
    (packet.body 0,
      if packet.body 2 = commandMeCalibrate then
        { device with calibrationStatus := packet.body 5 }
      else device)
  else (0, device)

def parseProductIdReport (device : Readings) (packet : RxPacket) : UInt8 × Readings :=
  (1, { device with queueResetReason := xQueueSend device.queueResetReason (packet.body 1) })

def parseFrsReadResponseReport (device : Readings) (packet : RxPacket) : UInt8 × Readings :=
  (1, { device with
    queueFrsReadData := xQueueSend device.queueFrsReadData (List.ofFn packet.body) })

def parsePacket (device : Readings) (packet : RxPacket) : Option (UInt8 × Readings) :=
  if packet.body 0 = 0xF8 then some (parseProductIdReport device packet)
  else if packet.body 0 = 0xF3 then some (parseFrsReadResponseReport device packet)
  else if packet.header 2 = Channel.reports.number ∧ packet.body 0 = 0xFB then
    parseInputReport device packet
  else if packet.header 2 = Channel.control.number then some (parseCommandReport device packet)
  else if packet.header 2 = Channel.gyro.number then parseInputReport device packet
  else some (0, device)

end ShtpReports

end MarkitNode
