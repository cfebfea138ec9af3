import MarkitNode.CString

/-!
C strings in a memory that goes on behind them, for what the library functions
read. `strncmp` compares character by character and stops at the first difference
and at the terminator; here it counts the places it has looked at.
-/

namespace MarkitNode

namespace CString

/-- The terminated string `src` lies at the start of the memory. -/
structure Holds (mem : Nat → UInt8) (src : List UInt8) : Prop where
  chars : ∀ i (h : i < src.length), mem i = src[i]
  nul : mem src.length = 0

theorem exists_holds (src : List UInt8) : ∃ mem, Holds mem src := by
  refine ⟨fun i => (src[i]?).getD 0, ?_, ?_⟩
  · intro i hi
    rw [List.getElem?_eq_getElem hi, Option.getD_some]
  · rw [List.getElem?_eq_none (Nat.le_refl _), Option.getD_none]

/-- `strncmp` from the place `i` on with `left` characters to go: its result, and
the place behind the last one it looks at. -/
def strncmpFrom (a b : Nat → UInt8) : Nat → Nat → Int × Nat
  | 0, i => (0, i)
  | left + 1, i =>
      if a i ≠ b i then ((a i).toNat - (b i).toNat, i + 1)
      else if a i = 0 then (0, i + 1)
      else strncmpFrom a b left (i + 1)

section Strncmp

variable {a b : Nat → UInt8}

theorem toNat_sub_ne_zero {x y : UInt8} (h : x ≠ y) : (x.toNat : Int) - y.toNat ≠ 0 := by
  intro heq
  exact h (UInt8.toNat_inj.mp (by omega))

/-- Nothing behind the first terminator is looked at. -/
theorem strncmpFrom_reads (left i : Nat) :
    ∀ k < (strncmpFrom a b left i).2, ∀ j, i ≤ j → j < k → a j ≠ 0 := by
  induction left generalizing i with
  | zero =>
    intro k hk j hij hjk
    exact absurd hk (by simp only [strncmpFrom]; omega)
  | succ left ih =>
    intro k hk j hij hjk
    rw [strncmpFrom] at hk
    split at hk
    · dsimp only at hk
      omega
    · split at hk
      · dsimp only at hk
        omega
      · rename_i hne
        by_cases hsame : j = i
        · rw [hsame]
          exact hne
        · exact ih (i + 1) k hk j (by omega) hjk

/-- The places from `i` on that are compared hold the same characters. -/
theorem strncmpFrom_eq_zero {left i : Nat} (h : (strncmpFrom a b left i).1 = 0) {k : Nat}
    (hik : i ≤ k) (hk : k < i + left) (hplain : ∀ j, i ≤ j → j < k → a j ≠ 0) : a k = b k := by
  induction left generalizing i with
  | zero => omega
  | succ left ih =>
    rw [strncmpFrom] at h
    split at h
    · rename_i hne
      exact absurd h (toNat_sub_ne_zero hne)
    · rename_i heq
      rw [not_not] at heq
      by_cases hsame : k = i
      · rw [hsame]
        exact heq
      · have hi := hplain i (Nat.le_refl i) (by omega)
        rw [if_neg hi] at h
        exact ih h (by omega) (by omega) (fun j hj hjk => hplain j (by omega) hjk)

theorem strncmpFrom_same {left i : Nat} (h : ∀ k, i ≤ k → k < i + left → a k = b k) :
    (strncmpFrom a b left i).1 = 0 := by
  induction left generalizing i with
  | zero => rfl
  | succ left ih =>
    rw [strncmpFrom, if_neg (not_not.mpr (h i (Nat.le_refl i) (by omega)))]
    split
    · rfl
    · exact ih (fun k hk hlt => h k (by omega) (by omega))

theorem strncmpEq_cons (x y : UInt8) (s t : List UInt8) (n : Nat) :
    strncmpEq (x :: s) (y :: t) (n + 1) = (x == y && strncmpEq s t n) := by
  rw [strncmpEq, strncmpEq, List.cons_append, List.cons_append, List.take_succ_cons,
    List.take_succ_cons]
  rfl

/-- On the strings that the memory holds it finds what `strncmpEq` says. -/
theorem strncmpFrom_holds {s t : List UInt8} (ha : Holds a s) (hb : Holds b t) (hs : 0 ∉ s)
    (ht : 0 ∉ t) (left : Nat) {i : Nat} (his : i ≤ s.length) (hit : i ≤ t.length) :
    (strncmpFrom a b left i).1 = 0 ↔ strncmpEq (s.drop i) (t.drop i) left = true := by
  induction left generalizing i with
  | zero => exact iff_of_true rfl (by simp [strncmpEq])
  | succ left ih =>
    rw [strncmpFrom]
    rcases Nat.lt_or_eq_of_le his with hs' | rfl
    · have hi : a i ≠ 0 := by
        rw [ha.chars i hs']
        exact fun h => hs (h ▸ List.getElem_mem hs')
      rw [List.drop_eq_getElem_cons hs', ← ha.chars i hs']
      rcases Nat.lt_or_eq_of_le hit with ht' | rfl
      · rw [List.drop_eq_getElem_cons ht', ← hb.chars i ht', strncmpEq_cons, Bool.and_eq_true,
          beq_iff_eq]
        by_cases hsame : a i = b i
        · rw [if_neg (not_not.mpr hsame), if_neg hi, ih hs' ht']
          exact (and_iff_right hsame).symm
        · rw [if_pos hsame]
          exact iff_of_false (toNat_sub_ne_zero hsame) (fun h => hsame h.1)
      · have hne : a t.length ≠ b t.length := hb.nul ▸ hi
        rw [if_pos hne, List.drop_length]
        refine iff_of_false (toNat_sub_ne_zero hne) ?_
        simp [strncmpEq, hi]
    · rw [List.drop_length, ha.nul]
      rcases Nat.lt_or_eq_of_le hit with ht' | hend
      · have hi : b s.length ≠ 0 := by
          rw [hb.chars _ ht']
          exact fun h => ht (h ▸ List.getElem_mem ht')
        rw [if_pos (Ne.symm hi), List.drop_eq_getElem_cons ht', ← hb.chars _ ht']
        refine iff_of_false (toNat_sub_ne_zero (Ne.symm hi)) ?_
        simp [strncmpEq, Ne.symm hi]
      · have hnul : b s.length = 0 := hend ▸ hb.nul
        rw [hnul, hend, List.drop_length]
        exact iff_of_true rfl (by simp [strncmpEq])

end Strncmp

end CString

end MarkitNode
