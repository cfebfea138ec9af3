import Mathlib.Data.Nat.ModEq
import Mathlib.Tactic.Common

/-!
A fixed number of slots that remember the last items of a growing history.
Item number `n` (counted from one) goes to slot `n % size`; once more than
`size` items have been stored the oldest ones are overwritten. `Remembers`
says which items are still where they were put: the newest `size` of them.
-/

namespace MarkitNode.CircularSlots

variable {α : Type*}

/-- The newest `size` items of `history` are still in their slots. -/
def Remembers (size : ℕ) (slots history : List α) : Prop :=
  ∀ k, k < history.length → history.length ≤ k + size →
    slots[(k + 1) % size]? = history[k]?

theorem remembers_nil (size : ℕ) (slots : List α) : Remembers size slots [] := by
  intro k hk
  simp at hk

/-- Two item numbers less than `size` apart never share a slot. -/
theorem slot_ne_of_close {size a b : ℕ} (hab : a < b) (hclose : b < a + size) :
    a % size ≠ b % size := by
  intro heq
  have hdvd : size ∣ b - a := (Nat.modEq_iff_dvd' (n := size) hab.le).mp heq
  have hle : size ≤ b - a := Nat.le_of_dvd (by omega) hdvd
  omega

theorem remembers_push {size : ℕ} {slots history : List α} (hsize : 0 < size)
    (hlen : slots.length = size) (h : Remembers size slots history) (item : α) :
    Remembers size (slots.set ((history.length + 1) % size) item) (history ++ [item]) := by
  intro k hk hwindow
  rw [List.length_append, List.length_singleton] at hk hwindow
  by_cases hlast : k = history.length
  · subst k
    have hslot : (history.length + 1) % size < slots.length := by
      rw [hlen]
      exact Nat.mod_lt _ hsize
    rw [List.getElem?_set_self hslot]
    simp
  · have hold : k < history.length := by omega
    have hne : (history.length + 1) % size ≠ (k + 1) % size :=
      (slot_ne_of_close (by omega) (by omega)).symm
    rw [List.getElem?_set_ne hne, List.getElem?_append_left hold]
    exact h k hold (by omega)

/-- A remembered item can be read back from its slot. -/
theorem remembers_read {size : ℕ} {slots history : List α} (h : Remembers size slots history)
    {k : ℕ} (hk : k < history.length) (hwindow : history.length ≤ k + size) :
    slots[(k + 1) % size]? = some history[k] := by
  rw [h k hk hwindow, List.getElem?_eq_getElem hk]

end MarkitNode.CircularSlots
