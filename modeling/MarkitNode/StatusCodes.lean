import Mathlib.Tactic.Common

/-!
The status codes that the components share: what their functions return as an
`esp_err_t`, and what the driver of an IMU says of it. An `esp_err_t` is an
integer in which success is 0, so a `bool` that takes one is true for a failure.
-/

namespace MarkitNode

/-- The values of `esp_err_t` that the modelled functions return. -/
inductive EspErr
  | ok
  | fail
  | noMem
  | invalidArg
  | notFound
  deriving DecidableEq, Repr

namespace EspErr

def toInt : EspErr → Int
  | .ok => 0
  | .fail => -1
  | .noMem => 0x101
  | .invalidArg => 0x102
  | .notFound => 0x105

/-- The conversion to `bool` in an assignment. -/
def toBool (e : EspErr) : Bool := e.toInt ≠ 0

@[simp] theorem toBool_ok : toBool .ok = false := rfl

@[simp] theorem toBool_fail : toBool .fail = true := rfl

end EspErr

inductive ImuStatus
  | ready
  | fail
  deriving DecidableEq, Repr

end MarkitNode
