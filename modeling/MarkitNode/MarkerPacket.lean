import Mathlib.Tactic.Common

/-!
The data on its way from the IMU to the host: the frame that `app_monitor`
stores and the packet that `app_data_client` builds from it. Floats are only
ever copied, so they are kept as their 32-bit patterns.
-/

namespace MarkitNode

abbrev Float32Bits := UInt32

structure ImuData where
  id : UInt32
  acc : Vector Float32Bits 3
  gyr : Vector Float32Bits 3
  mag : Vector Float32Bits 3
  eul : Vector Float32Bits 3
  quat : Vector Float32Bits 4
  pressure : Float32Bits
  imuTsMs : UInt32
  deriving DecidableEq, Inhabited

structure ImuDgram where
  imu : ImuData
  devTsUs : Int64
  tsfTsUs : Int64
  seq : UInt32
  bufferDelayUs : Int32
  deriving DecidableEq, Inhabited

structure MarkerPacket where
  acc : Vector Float32Bits 3
  gyr : Vector Float32Bits 3
  mag : Vector Float32Bits 3
  quat : Vector Float32Bits 4
  imuTsMs : UInt32
  devTsUs : Int64
  tsfTsUs : Int64
  seq : UInt32
  devDelayUs : Int32
  deriving DecidableEq, Inhabited

/-- `nowUs` is the time of day read while the packet is built. -/
def tagPacket (nowUs : Int64) (imuData : ImuDgram) : MarkerPacket where
  acc := imuData.imu.acc
  gyr := imuData.imu.gyr
  mag := imuData.imu.mag
  quat := imuData.imu.quat
  imuTsMs := imuData.imu.imuTsMs
  devTsUs := imuData.devTsUs
  tsfTsUs := imuData.tsfTsUs
  seq := imuData.seq
  devDelayUs := (nowUs - imuData.devTsUs).toInt32

/-- The packet has the sensor data, the timestamps and the number of the frame. -/
structure Carries (pkt : MarkerPacket) (frame : ImuDgram) : Prop where
  acc : pkt.acc = frame.imu.acc
  gyr : pkt.gyr = frame.imu.gyr
  mag : pkt.mag = frame.imu.mag
  quat : pkt.quat = frame.imu.quat
  imuTsMs : pkt.imuTsMs = frame.imu.imuTsMs
  devTsUs : pkt.devTsUs = frame.devTsUs
  tsfTsUs : pkt.tsfTsUs = frame.tsfTsUs
  seq : pkt.seq = frame.seq

theorem tagPacket_carries (nowUs : Int64) (frame : ImuDgram) :
    Carries (tagPacket nowUs frame) frame :=
  ⟨rfl, rfl, rfl, rfl, rfl, rfl, rfl, rfl⟩

end MarkitNode
