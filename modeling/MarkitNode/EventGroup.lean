import Mathlib.Tactic.Common

/-!
Event groups: a set of flags shared by several tasks. Setting and clearing a
flag are single steps that leave the other flags alone; a wait that clears on
exit returns the whole set and leaves it empty. The events are an arbitrary
type with decidable equality.
-/

namespace MarkitNode

abbrev EventGroup (E : Type*) := E → Bool

namespace EventGroup

variable {E : Type*} [DecidableEq E]

def setBit (g : EventGroup E) (e : E) : EventGroup E := fun x => if x = e then true else g x

def clearBit (g : EventGroup E) (e : E) : EventGroup E := fun x => if x = e then false else g x

def clearAll : EventGroup E := fun _ => false

theorem setBit_apply (g : EventGroup E) (e x : E) :
    g.setBit e x = if x = e then true else g x := rfl

theorem clearBit_apply (g : EventGroup E) (e x : E) :
    g.clearBit e x = if x = e then false else g x := rfl

@[simp] theorem setBit_self (g : EventGroup E) (e : E) : g.setBit e e = true := by
  simp [setBit_apply]

@[simp] theorem clearBit_self (g : EventGroup E) (e : E) : g.clearBit e e = false := by
  simp [clearBit_apply]

@[simp] theorem setBit_of_ne (g : EventGroup E) {e x : E} (h : x ≠ e) :
    g.setBit e x = g x := by
  simp [setBit_apply, h]

@[simp] theorem clearBit_of_ne (g : EventGroup E) {e x : E} (h : x ≠ e) :
    g.clearBit e x = g x := by
  simp [clearBit_apply, h]

omit [DecidableEq E] in
@[simp] theorem clearAll_apply (x : E) : (clearAll : EventGroup E) x = false := rfl

end EventGroup

end MarkitNode
