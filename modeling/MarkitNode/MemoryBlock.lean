import Mathlib.Data.List.OfFn
import Mathlib.Tactic.Common

/-!
Blocks of memory. A block of `n` cells is a function from its addresses; a run
of cells is read or written only if all of it lies in the block. A block that
is laid out as slots of one width is a list of slots, and a write of one slot
is an update of that list. Arrays of any width may lie in a block, and those that
do not meet do not change each other.
-/

namespace MarkitNode.MemoryBlock

variable {α : Type*} {n w size : ℕ}

abbrev Block (α : Type*) (n : ℕ) := Fin n → α

def readAt (block : Block α n) (ofs w : ℕ) : Option (Block α w) :=
  if h : ofs + w ≤ n then some fun i => block ⟨ofs + i, by omega⟩ else none

def writeAt (block : Block α n) (ofs : ℕ) (src : Block α w) : Option (Block α n) :=
  if ofs + w ≤ n then
    some fun i => if h : ofs ≤ i ∧ i < ofs + w then src ⟨i - ofs, by omega⟩ else block i
  else none

/-- The cell of the source that a cell inside the run is written from. -/
theorem within_sub_lt {ofs w : ℕ} {i : Fin size} (h : ofs ≤ i.val ∧ i.val < ofs + w) :
    i.val - ofs < w := by
  omega

theorem slot_end {k : ℕ} (hk : k < size) (w : ℕ) : k * w + w ≤ size * w := by
  have hmul : (k + 1) * w ≤ size * w := Nat.mul_le_mul_right w hk
  rwa [Nat.succ_mul] at hmul

/-- The cells of slot `k`. -/
def slot (block : Block α (size * w)) (k : Fin size) : Block α w :=
  fun i => block ⟨k * w + i, by have := slot_end k.isLt w; omega⟩

def slots (block : Block α (size * w)) : List (Block α w) := List.ofFn (slot block)

@[simp] theorem length_slots (block : Block α (size * w)) : (slots block).length = size :=
  List.length_ofFn

theorem readAt_slot (block : Block α (size * w)) {k : ℕ} (hk : k < size) :
    readAt block (k * w) w = (slots block)[k]? := by
  unfold slots readAt
  rw [List.getElem?_ofFn, dif_pos hk, dif_pos (slot_end hk w)]
  rfl

/-- Cells of different slots have different addresses. -/
theorem slot_disjoint {j k w i : ℕ} (hi : i < w) :
    k * w ≤ j * w + i ∧ j * w + i < k * w + w ↔ j = k := by
  constructor
  · rintro ⟨hle, hlt⟩
    rcases Nat.lt_trichotomy j k with hjk | hjk | hjk
    · have hmul : (j + 1) * w ≤ k * w := Nat.mul_le_mul_right w hjk
      rw [Nat.succ_mul] at hmul
      omega
    · exact hjk
    · have hmul : (k + 1) * w ≤ j * w := Nat.mul_le_mul_right w hjk
      rw [Nat.succ_mul] at hmul
      omega
  · intro hjk
    rw [hjk]
    omega

theorem writeAt_slot (block : Block α (size * w)) {k : ℕ} (hk : k < size) (src : Block α w) :
    ∃ block', writeAt block (k * w) src = some block' ∧
      slots block' = (slots block).set k src := by
  refine ⟨_, if_pos (slot_end hk w), ?_⟩
  apply List.ext_getElem
  · rw [List.length_set, length_slots, length_slots]
  · intro j hj _
    rw [length_slots] at hj
    rw [List.getElem_set]
    simp only [slots, List.getElem_ofFn]
    funext i
    simp only [slot]
    by_cases hjk : k = j
    · have haddr := (slot_disjoint (j := j) (k := k) i.isLt).mpr hjk.symm
      rw [dif_pos haddr, if_pos hjk]
      have hcell : j * w + i - k * w = i := by
        rw [hjk, Nat.add_sub_cancel_left]
      exact congrArg src (Fin.ext hcell)
    · have haddr := (slot_disjoint (j := j) (k := k) i.isLt).not.mpr (Ne.symm hjk)
      rw [dif_neg haddr, if_neg hjk]
      rfl

section Cells

variable {v : ℕ}

/-- An assignment to the cells from an offset on. -/
def put (mem : Block α size) (ofs : ℕ) (src : Block α w) : Block α size :=
  fun i => if h : ofs ≤ i ∧ i < ofs + w then src ⟨i - ofs, within_sub_lt h⟩ else mem i

/-- The cells from an offset on. -/
def get (mem : Block α size) (ofs : ℕ) (h : ofs + w ≤ size) : Block α w :=
  fun i => mem ⟨ofs + i, by omega⟩

theorem get_congr {mem mem' : Block α size} {ofs : ℕ} (h : ofs + w ≤ size)
    (heq : ∀ i : Fin size, ofs ≤ i → i < ofs + w → mem' i = mem i) :
    (get mem' ofs h : Block α w) = get mem ofs h := by
  funext i
  apply heq
  · exact Nat.le_add_right ofs i
  · exact Nat.add_lt_add_left i.isLt ofs

@[simp] theorem get_put (mem : Block α size) (ofs : ℕ) (src : Block α w)
    (h : ofs + w ≤ size) : get (put mem ofs src) ofs h = src := by
  funext i
  have hin : ofs ≤ ofs + i.val ∧ ofs + i.val < ofs + w := by omega
  simp only [get, put, dif_pos hin, Nat.add_sub_cancel_left]

theorem get_put_other (mem : Block α size) {ofs ofs' : ℕ} (src : Block α v)
    (h : ofs + w ≤ size) (hd : ofs + w ≤ ofs' ∨ ofs' + v ≤ ofs) :
    (get (put mem ofs' src) ofs h : Block α w) = get mem ofs h := by
  apply get_congr
  intro i hle hlt
  rw [put, dif_neg (by omega)]

/-- The bytes at an offset, as an array. -/
def arrayAt (mem : Block α size) (ofs : ℕ) (h : ofs + w ≤ size) : Vector α w :=
  Vector.ofFn (get mem ofs h)

theorem arrayAt_put (mem : Block α size) (ofs : ℕ) (src : Vector α w) (h : ofs + w ≤ size) :
    arrayAt (put mem ofs src.get) ofs h = src := by
  rw [arrayAt, get_put]
  exact Vector.ext fun i hi => Vector.getElem_ofFn hi

theorem arrayAt_put_other (mem : Block α size) {ofs ofs' : ℕ} (src : Block α v)
    (h : ofs + w ≤ size) (hd : ofs + w ≤ ofs' ∨ ofs' + v ≤ ofs) :
    (arrayAt (put mem ofs' src) ofs h : Vector α w) = arrayAt mem ofs h := by
  rw [arrayAt, get_put_other mem src h hd, arrayAt]

end Cells

end MarkitNode.MemoryBlock
