import MarkitNode.CMemory
import MarkitNode.VariableTarget

/-!
The lookup of a variable in the text of a request. `sys_find_var` compares the
name up to the longer of the two lengths, and what follows the name there is the
query or the terminator. The text is a memory here, so that it shows how far
`strncmp` looks.
-/

namespace MarkitNode

namespace NvsVars

open CString UrlQuery VariableTarget

/-- The name in the table, as `strncmp` sees it. -/
def nameAt (v : McuVar) (i : Nat) : UInt8 := (v.name[i]?).getD 0

/-- The loop of `sys_find_var`: the entry it returns, and the place behind the last
one it has looked at in `name`. -/
def findVarIn (name : Nat → UInt8) (len : Nat) : List McuVar → Option McuVar × Nat
  | [] => (none, 0)
  | v :: rest =>
      let (diff, place) := strncmpFrom name (nameAt v) (max v.name.length len) 0
      if diff = 0 then (some v, place)
      else
        let (found, last) := findVarIn name len rest
        (found, max place last)

/-- `sys_find_var` on the text at `name`. -/
def sysFindVarAt (name : Nat → UInt8) (len : Nat) : Option McuVar × Nat :=
  findVarIn name len gMcuVars

/-- The name ends where the handlers say: with the string, or before the query. -/
structure NameEnds (name : Nat → UInt8) (len : Nat) : Prop where
  plain : ∀ i < len, name i ≠ 0 ∧ name i ≠ questionMark
  ends : name len = 0 ∨ name len = questionMark

def firstChars (name : Nat → UInt8) (len : Nat) : List UInt8 := (List.range len).map name

section Name

variable {name : Nat → UInt8} {len : Nat}

theorem holds_nameAt (v : McuVar) : Holds (nameAt v) v.name := by
  constructor
  · intro i hi
    rw [nameAt, List.getElem?_eq_getElem hi, Option.getD_some]
  · rw [nameAt, List.getElem?_eq_none (Nat.le_refl _), Option.getD_none]

/-- No name in the table has a character that ends a name. -/
theorem nameAt_plain (v : McuVar) {i : Nat} (hi : i < v.name.length) :
    nameAt v i ≠ 0 ∧ nameAt v i ≠ questionMark := by
  rw [(holds_nameAt v).chars i hi]
  constructor
  · intro h
    exact zero_not_mem_name v (h ▸ List.getElem_mem hi)
  · intro h
    exact questionMark_not_mem_name v (h ▸ List.getElem_mem hi)

theorem firstChars_eq_iff (v : McuVar) :
    v.name = firstChars name len ↔ v.name.length = len ∧ ∀ i < len, name i = nameAt v i := by
  constructor
  · intro h
    have hlength : v.name.length = len := by
      rw [h, firstChars, List.length_map, List.length_range]
    refine ⟨hlength, ?_⟩
    intro i hi
    rw [nameAt, h, firstChars, List.getElem?_map, List.getElem?_range hi, Option.map_some,
      Option.getD_some]
  · rintro ⟨hlength, hsame⟩
    apply List.ext_getElem
    · rw [hlength, firstChars, List.length_map, List.length_range]
    · intro i hi _
      simp only [firstChars, List.getElem_map, List.getElem_range]
      rw [hsame i (by omega), (holds_nameAt v).chars i hi]

/-- Over the longer of the two lengths the texts agree only if the name is whole. -/
theorem strncmp_name_iff (h : NameEnds name len) (v : McuVar) :
    (strncmpFrom name (nameAt v) (max v.name.length len) 0).1 = 0 ↔
      v.name = firstChars name len := by
  rw [firstChars_eq_iff]
  constructor
  · intro hzero
    have hsame : ∀ k < max v.name.length len, k ≤ len → name k = nameAt v k := by
      intro k hk hlen
      exact strncmpFrom_eq_zero hzero (Nat.zero_le k) (by omega)
        (fun j _ hj => (h.plain j (by omega)).1)
    have hlength : v.name.length = len := by
      rcases Nat.lt_trichotomy v.name.length len with hlt | heq | hgt
      · have hend := hsame v.name.length (by omega) (by omega)
        rw [(holds_nameAt v).nul] at hend
        exact absurd hend (h.plain _ hlt).1
      · exact heq
      · have hend := hsame len (by omega) (Nat.le_refl len)
        have hplain := nameAt_plain v hgt
        rw [← hend] at hplain
        rcases h.ends with hnul | hquestion
        · exact absurd hnul hplain.1
        · exact absurd hquestion hplain.2
    exact ⟨hlength, fun i hi => hsame i (by omega) (by omega)⟩
  · rintro ⟨hlength, hsame⟩
    apply strncmpFrom_same
    intro k _ hk
    exact hsame k (by omega)

theorem findVarIn_eq (h : NameEnds name len) (vars : List McuVar) :
    (findVarIn name len vars).1 = vars.find? fun v => v.name = firstChars name len := by
  induction vars with
  | nil => rfl
  | cons v rest ih =>
    have hiff := strncmp_name_iff h v
    rw [findVarIn, List.find?_cons]
    by_cases hname : v.name = firstChars name len
    · simp only [if_pos (hiff.mpr hname), decide_eq_true hname]
    · simp only [if_neg (mt hiff.mp hname), decide_eq_false hname, ih]

theorem findVarIn_reads (vars : List McuVar) :
    ∀ k < (findVarIn name len vars).2, ∀ j < k, name j ≠ 0 := by
  induction vars with
  | nil => exact fun k hk => absurd hk (Nat.not_lt_zero k)
  | cons v rest ih =>
    have hreads := strncmpFrom_reads (a := name) (b := nameAt v) (max v.name.length len) 0
    intro k hk j hj
    simp only [findVarIn] at hk
    split at hk
    · exact hreads k hk j (Nat.zero_le j) hj
    · rcases lt_max_iff.mp hk with hplace | hlast
      · exact hreads k hplace j (Nat.zero_le j) hj
      · exact ih k hlast j hj

theorem mem_gMcuVars (v : McuVar) : v ∈ gMcuVars := by
  cases v <;> decide

/-- The entry of that name is returned, if there is one, and no character behind
the terminator is looked at. -/
theorem sysFindVarAt_finds (h : NameEnds name len) :
    (∀ v, (sysFindVarAt name len).1 = some v ↔ v.name = firstChars name len) ∧
      ((sysFindVarAt name len).1 = none ↔ ∀ v ∈ gMcuVars, v.name ≠ firstChars name len) ∧
      (∀ u v : McuVar, u.name = firstChars name len → v.name = firstChars name len → u = v) ∧
      ∀ k < (sysFindVarAt name len).2, ∀ j < k, name j ≠ 0 := by
  have hunique : ∀ u v : McuVar, u.name = firstChars name len → v.name = firstChars name len →
      u = v := fun u v hu hv => name_injective (hu.trans hv.symm)
  have heq := findVarIn_eq h gMcuVars
  refine ⟨?_, ?_, hunique, findVarIn_reads gMcuVars⟩
  · intro v
    rw [sysFindVarAt, heq]
    constructor
    · intro hfound
      have hname := List.find?_some hfound
      exact of_decide_eq_true hname
    · intro hname
      cases hfound : gMcuVars.find? fun v => v.name = firstChars name len with
      | none =>
        have hnone := List.find?_eq_none.mp hfound v (mem_gMcuVars v)
        exact absurd (decide_eq_true hname) hnone
      | some u =>
        have hu := List.find?_some hfound
        rw [hunique u v (of_decide_eq_true hu) hname]
  · rw [sysFindVarAt, heq, List.find?_eq_none]
    simp only [decide_eq_true_eq, ne_eq]

/-- On a string it is the lookup by lists of characters. -/
theorem sysFindVarAt_holds {s : List UInt8} (hmem : Holds name s) (hs : 0 ∉ s) (len : Nat) :
    (sysFindVarAt name len).1 = sysFindVar s len := by
  have hstep : ∀ vars : List McuVar, (findVarIn name len vars).1 =
      vars.find? fun v => strncmpEq s v.name (max v.name.length len) := by
    intro vars
    induction vars with
    | nil => rfl
    | cons v rest ih =>
      have hiff := strncmpFrom_holds hmem (holds_nameAt v) hs (zero_not_mem_name v)
        (max v.name.length len) (Nat.zero_le _) (Nat.zero_le _)
      rw [List.drop_zero, List.drop_zero] at hiff
      rw [findVarIn, List.find?_cons]
      by_cases hname : strncmpEq s v.name (max v.name.length len)
      · simp only [if_pos (hiff.mpr hname), hname]
      · simp only [if_neg (mt hiff.mp hname), hname, ih]
  exact hstep gMcuVars

end Name

/-- A name, and the query behind it. -/
def seqQuery (i : Nat) : UInt8 := ((ascii "SEQ?value=3")[i]?).getD 0

theorem seqQuery_ends : NameEnds seqQuery 3 := ⟨by decide, Or.inr rfl⟩

theorem sysFindVarAt_seq : (sysFindVarAt seqQuery 3).1 = some .seq :=
  ((sysFindVarAt_finds seqQuery_ends).1 .seq).mpr (by decide)

end NvsVars

end MarkitNode
