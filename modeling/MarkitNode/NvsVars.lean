import MarkitNode.CNumber
import MarkitNode.CString
import Mathlib.Logic.Function.Basic

/-!
The variables that the device keeps in flash: the table of their names and
types, the functions that find, store and read one, and the load of all of them
at boot. What the functions find in locals they have not set is a parameter, and so
are the calls that write to the flash, whose results the code drops.
-/

namespace MarkitNode

namespace NvsVars

open CString

/-- `CONFIG_VAR_STR_MAX_LEN` -/
abbrev varStrMaxLen : Nat := 64

inductive McuVar
  | wifiSsid
  | wifiPsk
  | dataHost
  | otaHost
  | ntpHost
  | test
  | imuBaud
  | seq
  | targetFps
  deriving DecidableEq, Repr

/-- The types that occur in the table. -/
inductive VarType
  | int32
  | str
  deriving DecidableEq, Repr

namespace McuVar

def name : McuVar → List UInt8
  | .wifiSsid => ascii "WIFI_SSID"
  | .wifiPsk => ascii "WIFI_PSK"
  | .dataHost => ascii "DATA_HOST"
  | .otaHost => ascii "OTA_HOST"
  | .ntpHost => ascii "NTP_HOST"
  | .test => ascii "TEST"
  | .imuBaud => ascii "IMU_BAUD"
  | .seq => ascii "SEQ"
  | .targetFps => ascii "TARGET_FPS"

def type : McuVar → VarType
  | .wifiSsid | .wifiPsk | .dataHost | .otaHost | .ntpHost => .str
  | .test | .imuBaud | .seq | .targetFps => .int32

end McuVar

def gMcuVars : List McuVar :=
  [.wifiSsid, .wifiPsk, .dataHost, .otaHost, .ntpHost, .test, .imuBaud, .seq, .targetFps]

def sysFindVar (name : List UInt8) (len : Nat) : Option McuVar :=
  gMcuVars.find? fun v => strncmpEq name v.name (max v.name.length len)

/-- The table of the flash, by the names of the variables. -/
structure Nvs where
  int32 : McuVar → Option Int
  blob : McuVar → Option (Vector UInt8 varStrMaxLen)

def Nvs.erased : Nvs := ⟨fun _ => none, fun _ => none⟩

/-- `nvs_set_i32` and `nvs_set_blob`, each with the `nvs_commit` that follows: what
the flash holds after the two calls, whether they succeed or not. -/
structure NvsCalls where
  setI32 : Nvs → McuVar → Int → Nvs
  setBlob : Nvs → McuVar → Vector UInt8 varStrMaxLen → Nvs

namespace NvsCalls

/-- Every write succeeds, and the flash holds its value. -/
structure Accepts (calls : NvsCalls) : Prop where
  setI32 : ∀ nvs v n,
    calls.setI32 nvs v n = { nvs with int32 := Function.update nvs.int32 v (some n) }
  setBlob : ∀ nvs v b,
    calls.setBlob nvs v b = { nvs with blob := Function.update nvs.blob v (some b) }

/-- A flash with room for every write. -/
def roomy : NvsCalls where
  setI32 nvs v n := { nvs with int32 := Function.update nvs.int32 v (some n) }
  setBlob nvs v b := { nvs with blob := Function.update nvs.blob v (some b) }

theorem roomy_accepts : roomy.Accepts := ⟨fun _ _ _ => rfl, fun _ _ _ => rfl⟩

end NvsCalls

/-- `value` is the memory from the argument on; `none` if more of it is read. -/
def sysSetNvsVar (calls : NvsCalls) (nvs : Nvs) (v : McuVar) (value : List UInt8) :
    Option Nvs :=
  match v.type with
  | .int32 =>
      if 0 ∈ value then some (calls.setI32 nvs v (CNumber.strtol 10 (text value)).1) else none
  | .str =>
      if h : varStrMaxLen ≤ value.length then
        some (calls.setBlob nvs v ⟨(value.take varStrMaxLen).toArray, by
          rw [List.size_toArray, List.length_take]
          omega⟩)
      else none

/-- What a call of `sys_get_nvs_var` finds in its locals `tmp` and `data`. -/
structure GetStack where
  tmp : Nat
  int32 : Int
  deriving DecidableEq

/-- A variable that is not stored leaves `data` as it was. -/
def sysGetNvsInt32 (nvs : Nvs) (v : McuVar) (stack : GetStack) : Int :=
  (nvs.int32 v).getD stack.int32

/-- `nvs_get_blob` takes `tmp` for the size of the buffer, and copies nothing if
the blob is longer. -/
def sysGetNvsStr (nvs : Nvs) (v : McuVar) (stack : GetStack)
    (valueBuffer : Vector UInt8 varStrMaxLen) : Vector UInt8 varStrMaxLen :=
  match nvs.blob v with
  | some b => if varStrMaxLen ≤ stack.tmp then b else valueBuffer
  | none => valueBuffer

/-! ### The load at boot -/

def zeroStr : Vector UInt8 varStrMaxLen := Vector.replicate varStrMaxLen 0

/-- `sys_load_str_conf` into a target that is still clear; the buffer has been
cleared by the load before. -/
def sysLoadStrConf (nvs : Nvs) (stack : McuVar → GetStack) (v : McuVar)
    (defaultValue : List UInt8) : Vector UInt8 varStrMaxLen :=
  let valueBuffer := sysGetNvsStr nvs v (stack v) zeroStr
  if 0 < (text valueBuffer.toList).length then valueBuffer
  else (memcpy zeroStr defaultValue).getD zeroStr

/-- The fields of `g_mcu` that are kept in flash. -/
structure McuConf where
  wifiSsid : Vector UInt8 varStrMaxLen
  wifiPsk : Vector UInt8 varStrMaxLen
  dataHostIpAddr : Vector UInt8 varStrMaxLen
  ntpHostIpAddr : Vector UInt8 varStrMaxLen
  imuBaud : Int
  seq : Int
  targetFps : Int
  deriving DecidableEq

def confTargetFps : Int := 100
def confMaxFps : Int := 400

def limitFps (fps : Int) : Int :=
  let fps := max fps 0
  let fps := if fps > confMaxFps ∨ fps ≤ 0 then confTargetFps else fps
  min fps confMaxFps

def sysLoadNvsConfiguration (nvs : Nvs) (stack : McuVar → GetStack) : McuConf where
  wifiSsid := sysLoadStrConf nvs stack .wifiSsid (ascii "markit")
  wifiPsk := sysLoadStrConf nvs stack .wifiPsk (ascii "12345678")
  dataHostIpAddr := sysLoadStrConf nvs stack .dataHost (ascii "255.255.255.255")
  ntpHostIpAddr := sysLoadStrConf nvs stack .ntpHost (ascii "")
  imuBaud := max (min (sysGetNvsInt32 nvs .imuBaud (stack .imuBaud)) 921600) 9600
  seq := max (min (sysGetNvsInt32 nvs .seq (stack .seq)) 255) 0
  targetFps := limitFps (sysGetNvsInt32 nvs .targetFps (stack .targetFps))

/-! ### What a store changes -/

section Store

variable (calls : NvsCalls) (nvs : Nvs) {v : McuVar} {value : List UInt8}

theorem sysSetNvsVar_str (hv : v.type = .str) (hlen : varStrMaxLen ≤ value.length) :
    ∃ b : Vector UInt8 varStrMaxLen, b.toList = value.take varStrMaxLen ∧
      sysSetNvsVar calls nvs v value = some (calls.setBlob nvs v b) := by
  refine ⟨⟨(value.take varStrMaxLen).toArray, ?_⟩, rfl, ?_⟩
  · rw [List.size_toArray, List.length_take, Nat.min_eq_left hlen]
  · simp only [sysSetNvsVar, hv, dif_pos hlen]

theorem sysSetNvsVar_int32 (hv : v.type = .int32) (hend : 0 ∈ value) :
    sysSetNvsVar calls nvs v value =
      some (calls.setI32 nvs v (CNumber.strtol 10 (text value)).1) := by
  simp only [sysSetNvsVar, hv, if_pos hend]

end Store

/-! ### Lookup -/

theorem zero_not_mem_name (v : McuVar) : 0 ∉ v.name := by
  cases v <;> decide

theorem name_injective {u v : McuVar} (h : u.name = v.name) : u = v := by
  revert h
  cases u <;> cases v <;> decide

/-- A name that a separator ends is that of the variable found. -/
theorem sysFindVar_iff {name s rest : List UInt8} {c : UInt8} (hname : 0 ∉ name)
    (hc : ∀ u : McuVar, c ∉ u.name) (hs : s ++ [0] = name ++ c :: rest) (v : McuVar) :
    sysFindVar s name.length = some v ↔ v.name = name := by
  have heq : (fun u : McuVar => strncmpEq s u.name (max u.name.length name.length)) =
      fun u => decide (name = u.name) := by
    funext u
    rw [Bool.eq_iff_iff, strncmpEq_iff hname (hc u) hs, decide_eq_true_eq]
  rw [sysFindVar, heq]
  constructor
  · intro h
    have hfound := List.find?_some h
    exact (of_decide_eq_true hfound).symm
  · rintro rfl
    cases v <;> decide

/-- The name of a variable is found whatever separator and text follow it. -/
theorem sysFindVar_name (v : McuVar) {c : UInt8} (hc : ∀ u : McuVar, c ∉ u.name)
    {s rest : List UInt8} (hs : s ++ [0] = v.name ++ c :: rest) :
    sysFindVar s v.name.length = some v :=
  (sysFindVar_iff (zero_not_mem_name v) hc hs v).mpr rfl

end NvsVars

end MarkitNode
