import MarkitNode.CString
import MarkitNode.MemoryBlock
import Mathlib.Data.List.GetD

/-!
C strings in blocks of memory. A copy writes a text and its NUL from an offset
on, whatever lies there; it is defined while it stays in the block. Where it fits
into an array of the block it is a copy to that array.
-/

namespace MarkitNode.TextMemory

open CString MemoryBlock

variable {n : ℕ}

/-- `strcpy` of a text to an offset of a block. -/
def strcpy (mem : Block UInt8 n) (ofs : ℕ) (s : List UInt8) : Option (Block UInt8 n) :=
  writeAt mem ofs (s ++ [0]).get

/-- The memory from an offset on. -/
def bytesFrom (mem : Block UInt8 n) (ofs : ℕ) : List UInt8 := (List.ofFn mem).drop ofs

/-- `strcpy` of the text that begins in `src`. -/
def strcpyFrom (mem : Block UInt8 n) (ofs : ℕ) (src : List UInt8) : Option (Block UInt8 n) :=
  if 0 ∈ src then strcpy mem ofs (text src) else none

variable {mem mem' : Block UInt8 n} {ofs : ℕ} {s : List UInt8}

theorem strcpy_apply (h : strcpy mem ofs s = some mem') (i : Fin n) :
    mem' i = if ofs ≤ i ∧ i < ofs + (s.length + 1) then (s ++ [0]).getD (i - ofs) 0 else mem i := by
  unfold strcpy writeAt at h
  split at h
  · rw [← Option.some.inj h]
    simp only [List.length_append, List.length_singleton]
    by_cases hi : ofs ≤ i ∧ i < ofs + (s.length + 1)
    · rw [dif_pos hi, if_pos hi, List.get_eq_getElem, List.getD_eq_getElem]
    · rw [dif_neg hi, if_neg hi]
  · cases h

theorem strcpy_isSome_iff : (strcpy mem ofs s).isSome ↔ ofs + (s.length + 1) ≤ n := by
  unfold strcpy writeAt
  simp

theorem exists_strcpy (mem : Block UInt8 n) (h : ofs + (s.length + 1) ≤ n) :
    ∃ mem', strcpy mem ofs s = some mem' :=
  Option.isSome_iff_exists.mp (strcpy_isSome_iff.mpr h)

/-- Outside of what it writes a copy changes nothing. -/
theorem strcpy_other (h : strcpy mem ofs s = some mem') {i : Fin n}
    (hi : i < ofs ∨ ofs + (s.length + 1) ≤ i) : mem' i = mem i := by
  rw [strcpy_apply h, if_neg (by omega)]

section Arrays

variable {size w : ℕ}

theorem bytesFrom_take (mem : Block UInt8 size) {ofs : ℕ} (h : ofs + w ≤ size) :
    (bytesFrom mem ofs).take w = (arrayAt mem ofs h).toList := by
  apply List.ext_getElem
  · rw [bytesFrom, List.length_take, List.length_drop, List.length_ofFn, Vector.length_toList]
    omega
  · intro i hi hi'
    simp [bytesFrom, arrayAt, MemoryBlock.get]

theorem text_bytesFrom {mem : Block UInt8 size} {ofs : ℕ} {h : ofs + w ≤ size}
    (hend : 0 ∈ (arrayAt mem ofs h).toList) :
    0 ∈ bytesFrom mem ofs ∧ text (bytesFrom mem ofs) = text (arrayAt mem ofs h).toList := by
  rw [← bytesFrom_take mem h] at hend ⊢
  refine ⟨(List.take_subset _ _) hend, ?_⟩
  have hsplit := text_append hend ((bytesFrom mem ofs).drop w)
  rwa [List.take_append_drop] at hsplit

/-- A copy that stays in an array is one to the array. -/
theorem strcpy_array (mem : Block UInt8 size) {ofs : ℕ} (h : ofs + w ≤ size) {s : List UInt8}
    (hs : s.length < w) :
    ∃ out, memcpy (arrayAt mem ofs h) (s ++ [0]) = some out ∧ 0 ∈ out.toList ∧
      text out.toList = text s ∧ strcpy mem ofs s = some (put mem ofs out.get) := by
  have hlen : (s ++ [0]).length = s.length + 1 := List.length_append
  obtain ⟨out, hout, hend, htext⟩ := memcpy_nul (arrayAt mem ofs h) hs
  obtain ⟨out', hout', hlist⟩ := memcpy_toList (arrayAt mem ofs h)
    (Nat.le_trans (Nat.le_of_eq hlen) hs)
  obtain rfl : out = out' := Option.some.inj (hout.symm.trans hout')
  have hroom : ofs + (s.length + 1) ≤ size := by omega
  obtain ⟨mem', hcopy⟩ := exists_strcpy mem hroom
  refine ⟨out, hout, hend, htext, hcopy.trans (congrArg some ?_)⟩
  funext i
  rw [strcpy_apply hcopy, put]
  by_cases hin : ofs ≤ i.val ∧ i.val < ofs + w
  · have hcell : out[i.val - ofs]? =
        if i.val < ofs + (s.length + 1) then (s ++ [0])[i.val - ofs]? else some (mem i) := by
      rw [← Vector.getElem?_toList, hlist]
      by_cases hlt : i.val < ofs + (s.length + 1)
      · rw [if_pos hlt, List.getElem?_append_left (by omega)]
      · rw [if_neg hlt, List.getElem?_append_right (by omega), List.getElem?_drop, hlen]
        have hat : s.length + 1 + (i.val - ofs - (s.length + 1)) = i.val - ofs := by omega
        have hi : ofs + (i.val - ofs) = i.val := by omega
        simp [hat, arrayAt, MemoryBlock.get, hi, within_sub_lt hin]
    rw [dif_pos hin]
    rw [Vector.getElem?_eq_getElem (within_sub_lt hin)] at hcell
    by_cases hlt : i.val < ofs + (s.length + 1)
    · rw [if_pos hlt] at hcell
      rw [if_pos ⟨hin.1, hlt⟩, List.getD_eq_getElem?_getD, ← hcell]
      rfl
    · rw [if_neg hlt] at hcell
      rw [if_neg (fun hboth => hlt hboth.2)]
      exact (Option.some.inj hcell).symm
  · rw [dif_neg hin, if_neg (by omega)]

end Arrays

end MarkitNode.TextMemory
