import Mathlib.Algebra.BigOperators.Ring.Finset
import Mathlib.Algebra.Field.Basic
import Mathlib.Data.Fintype.BigOperators
import Mathlib.Order.Interval.Finset.Fin
import Mathlib.Tactic.LinearCombination
import Mathlib.Tactic.Ring

/-!
Systems of linear equations as augmented matrices, whose last column is the right side.
The steps of an elimination keep the solutions, of the system itself and of the one with
zeros on the right; a triangular system is solved from its last row on.
-/

namespace MarkitNode

namespace LinearSystem

variable {K : Type*} [Field K] {m n : ℕ}

/-- The left side of an equation. -/
def lhs (row : Fin (n + 1) → K) (x : Fin n → K) : K := ∑ j, row j.castSucc * x j

/-- A solution, with the right side multiplied by `u`. -/
def Meets (u : K) (M : Fin m → Fin (n + 1) → K) (x : Fin n → K) : Prop :=
  ∀ i, lhs (M i) x = u * M i (Fin.last n)

abbrev Solves (M : Fin m → Fin (n + 1) → K) (x : Fin n → K) : Prop := Meets 1 M x

abbrev Kernel (M : Fin m → Fin (n + 1) → K) (x : Fin n → K) : Prop := Meets 0 M x

/-- There are no two solutions, whatever the right side is. -/
def Regular (M : Fin m → Fin (n + 1) → K) : Prop := ∀ x, Kernel M x → x = 0

/-! ### Steps of an elimination -/

section Steps

variable {M : Fin m → Fin (n + 1) → K} {u : K} {x : Fin n → K}

theorem lhs_add_mul (row row' : Fin (n + 1) → K) (k : K) (x : Fin n → K) :
    lhs (fun c => row c + k * row' c) x = lhs row x + k * lhs row' x := by
  simp only [lhs, Finset.mul_sum, ← Finset.sum_add_distrib]
  exact Finset.sum_congr rfl fun j _ => by ring

theorem lhs_mul (row : Fin (n + 1) → K) (k : K) (x : Fin n → K) :
    lhs (fun c => row c * k) x = k * lhs row x := by
  simp only [lhs, Finset.mul_sum]
  exact Finset.sum_congr rfl fun j _ => by ring

/-- Multiples of one row are added to the others. -/
theorem meets_addMultiples (k : Fin m) {t : Fin m → K} (ht : t k = 0) :
    Meets u (fun r c => M r c + t r * M k c) x ↔ Meets u M x := by
  have hrow (r : Fin m) : lhs (fun c => M r c + t r * M k c) x = lhs (M r) x + t r * lhs (M k) x :=
    lhs_add_mul _ _ _ x
  constructor
  · intro h r
    have hk := (hrow k).symm.trans (h k)
    have hr := (hrow r).symm.trans (h r)
    simp only [ht, zero_mul, add_zero] at hk
    simp only [hk] at hr
    linear_combination hr
  · intro h r
    rw [hrow, h r, h k]
    ring

theorem meets_permute (σ : Equiv.Perm (Fin m)) : Meets u (fun r => M (σ r)) x ↔ Meets u M x :=
  ⟨fun h r => by simpa using h (σ.symm r), fun h r => h (σ r)⟩

theorem meets_scale {t : Fin m → K} (ht : ∀ r, t r ≠ 0) :
    Meets u (fun r c => M r c * t r) x ↔ Meets u M x := by
  have hrow (r : Fin m) : lhs (fun c => M r c * t r) x = t r * lhs (M r) x := lhs_mul _ _ x
  constructor
  · intro h r
    have hr := h r
    rw [hrow] at hr
    exact mul_left_cancel₀ (ht r) (by rw [hr]; ring)
  · intro h r
    rw [hrow, h r]
    ring

end Steps

/-! ### Triangular systems -/

section Triangular

variable {M : Fin n → Fin (n + 1) → K} {u : K} {x y : Fin n → K}

/-- Below the diagonal, the first columns are 0. -/
def Cleared (k : ℕ) (M : Fin n → Fin (n + 1) → K) : Prop :=
  ∀ r c : Fin n, c.val < k → c < r → M r c.castSucc = 0

/-- A row of which nothing is left before the diagonal. -/
theorem lhs_of_cleared {r : Fin n} (h : ∀ c < r, M r c.castSucc = 0) (x : Fin n → K) :
    lhs (M r) x = M r r.castSucc * x r + ∑ c ∈ Finset.Ioi r, M r c.castSucc * x c := by
  have hsplit : lhs (M r) x = ∑ c ∈ Finset.Ici r, M r c.castSucc * x c := by
    refine (Finset.sum_subset (Finset.subset_univ _) fun c _ hc => ?_).symm
    rw [h c (not_le.mp fun hle => hc (Finset.mem_Ici.mpr hle)), zero_mul]
  rw [hsplit, ← Finset.Ioi_insert, Finset.sum_insert (fun h => lt_irrefl r (Finset.mem_Ioi.mp h))]

/-- The solutions of a system with ones on the diagonal, from the last row on. -/
theorem meets_iff_of_ones (h : Cleared n M) (hone : ∀ r, M r r.castSucc = 1) :
    Meets u M x ↔ ∀ r, x r =
      u * M r (Fin.last n) - ∑ c ∈ Finset.Ioi r, M r c.castSucc * x c := by
  refine forall_congr' fun r => ?_
  rw [lhs_of_cleared (fun c hc => h r c c.isLt hc), hone, one_mul, eq_sub_iff_add_eq]

theorem eq_of_backward {b : Fin n → K}
    (hx : ∀ r, x r = b r - ∑ c ∈ Finset.Ioi r, M r c.castSucc * x c)
    (hy : ∀ r, y r = b r - ∑ c ∈ Finset.Ioi r, M r c.castSucc * y c) : x = y := by
  funext r
  induction hd : n - r.val using Nat.strong_induction_on generalizing r with
  | _ d ih =>
    rw [hx r, hy r]
    refine congrArg (b r - ·) (Finset.sum_congr rfl fun c hc => ?_)
    have hlt : r.val < c.val := Fin.lt_def.mp (Finset.mem_Ioi.mp hc)
    rw [ih (n - c.val) (by omega) c rfl]

/-- An entry of the vector counts for its own row, and for those above. -/
theorem lhs_update_self {p : Fin n} (h : ∀ c < p, M p c.castSucc = 0) (x : Fin n → K) (v : K) :
    lhs (M p) (Function.update x p v) =
      M p p.castSucc * v + ∑ c ∈ Finset.Ioi p, M p c.castSucc * x c := by
  rw [lhs_of_cleared h, Function.update_self]
  refine congrArg _ (Finset.sum_congr rfl fun c hc => ?_)
  rw [Function.update_of_ne (Finset.mem_Ioi.mp hc).ne']

theorem lhs_update_below {p r : Fin n} (h : M r p.castSucc = 0) (x : Fin n → K) (v : K) :
    lhs (M r) (Function.update x p v) = lhs (M r) x := by
  refine Finset.sum_congr rfl fun c _ => ?_
  by_cases hc : c = p
  · rw [hc, h, zero_mul, zero_mul]
  · rw [Function.update_of_ne hc]

/-- A column without a pivot has a combination of the columns before it. -/
theorem exists_kernel {k : Fin n} (h : Cleared k.val M) (hpivots : ∀ c < k, M c c.castSucc ≠ 0)
    (hcolumn : ∀ r, k ≤ r → M r k.castSucc = 0) : ∃ x, Kernel M x ∧ x k = 1 := by
  -- the rows from `k - d` on
  have hrows : ∀ d ≤ k.val, ∃ x : Fin n → K, x k = 1 ∧ (∀ c, k < c → x c = 0) ∧
      ∀ r, k.val - d ≤ r.val → r < k → lhs (M r) x = 0 := by
    intro d
    induction d with
    | zero =>
      intro _
      refine ⟨fun c => if c = k then 1 else 0, if_pos rfl, fun c hc => if_neg hc.ne', ?_⟩
      intro r hr hlt
      exact absurd (Fin.lt_def.mp hlt) (by omega)
    | succ d ih =>
      intro hd
      obtain ⟨x, hk, habove, hsolved⟩ := ih (by omega)
      obtain ⟨p, hp⟩ : ∃ p : Fin n, p.val = k.val - (d + 1) := ⟨⟨k.val - (d + 1), by omega⟩, rfl⟩
      have hpk : p < k := Fin.lt_def.mpr (by omega)
      have hzero : ∀ c < p, M p c.castSucc = 0 := fun c hc => h p c (hc.trans hpk) hc
      refine ⟨Function.update x p
        (-(∑ c ∈ Finset.Ioi p, M p c.castSucc * x c) / M p p.castSucc), ?_, ?_, ?_⟩
      · rw [Function.update_of_ne hpk.ne', hk]
      · intro c hc
        rw [Function.update_of_ne (hpk.trans hc).ne', habove c hc]
      · intro r hr hlt
        by_cases hrp : r = p
        · rw [hrp, lhs_update_self hzero, mul_div_cancel₀ _ (hpivots p hpk), neg_add_cancel]
        · have hbelow : p.val < r.val := by
            have := Fin.val_ne_of_ne hrp
            omega
          rw [lhs_update_below (h r p hpk hbelow), hsolved r (by omega) hlt]
  obtain ⟨x, hk, habove, hsolved⟩ := hrows k.val le_rfl
  refine ⟨x, fun r => ?_, hk⟩
  rw [zero_mul]
  rcases lt_or_ge r k with hlt | hge
  · exact hsolved r (by omega) hlt
  · refine Finset.sum_eq_zero fun c _ => ?_
    rcases lt_trichotomy c k with hck | rfl | hck
    · rw [h r c hck (lt_of_lt_of_le hck hge), zero_mul]
    · rw [hcolumn r hge, zero_mul]
    · rw [habove c hck, mul_zero]

end Triangular

end LinearSystem

end MarkitNode
