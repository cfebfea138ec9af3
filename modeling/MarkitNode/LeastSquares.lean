import Mathlib.Algebra.Order.BigOperators.Group.List
import Mathlib.Algebra.Order.Ring.Basic
import Mathlib.Tactic.Linarith
import MarkitNode.LinearSystem

/-!
The method of least squares. An observation is a row whose last entry is the observed
value; a vector that solves the normal equations of the observations has the least sum of
squares, and is the only one with it if these equations are regular.
-/

namespace MarkitNode

namespace LeastSquares

open LinearSystem

variable {K : Type*} [Field K] {n : ℕ}

/-- By how much the observed value is missed. -/
def miss (v : Fin (n + 1) → K) (x : Fin n → K) : K := lhs v x - v (Fin.last n)

def cost (data : List (Fin (n + 1) → K)) (x : Fin n → K) : K :=
  (data.map fun v => miss v x ^ 2).sum

/-- The augmented matrix of the normal equations. -/
def normal (data : List (Fin (n + 1) → K)) : Fin n → Fin (n + 1) → K :=
  fun r c => (data.map fun v => v r.castSucc * v c).sum

theorem lhs_sub (v : Fin (n + 1) → K) (x y : Fin n → K) :
    lhs v (y - x) = lhs v y - lhs v x := by
  simp only [lhs, Pi.sub_apply, mul_sub, Finset.sum_sub_distrib]

theorem lhs_normal (data : List (Fin (n + 1) → K)) (r : Fin n) (x : Fin n → K) :
    lhs (normal data r) x = (data.map fun v => v r.castSucc * lhs v x).sum := by
  induction data with
  | nil => simp [lhs, normal]
  | cons v data ih =>
    have hrow : normal (v :: data) r = fun c => normal data r c + v r.castSucc * v c := by
      funext c
      simp only [normal, List.map_cons, List.sum_cons]
      ring
    rw [hrow, lhs_add_mul, ih, List.map_cons, List.sum_cons, add_comm]

/-- The normal equations say that the misses cancel in each coefficient. -/
theorem solves_normal_iff {data : List (Fin (n + 1) → K)} {x : Fin n → K} :
    Solves (normal data) x ↔ ∀ r : Fin n, (data.map fun v => v r.castSucc * miss v x).sum = 0 := by
  refine forall_congr' fun r => ?_
  have hmiss : (data.map fun v => v r.castSucc * miss v x).sum =
      lhs (normal data r) x - normal data r (Fin.last n) := by
    rw [lhs_normal, normal]
    induction data with
    | nil => simp
    | cons v data ih =>
      rw [List.map_cons, List.sum_cons, ih, miss]
      simp only [List.map_cons, List.sum_cons]
      ring
  rw [hmiss, one_mul, sub_eq_zero]

theorem sum_cross {data : List (Fin (n + 1) → K)} {x : Fin n → K}
    (h : Solves (normal data) x) (d : Fin n → K) :
    (data.map fun v => lhs v d * miss v x).sum = 0 := by
  have hterms : (data.map fun v => lhs v d * miss v x).sum =
      ∑ r, d r * (data.map fun v => v r.castSucc * miss v x).sum := by
    clear h
    induction data with
    | nil => simp
    | cons v data ih =>
      rw [List.map_cons, List.sum_cons, ih, lhs, Finset.sum_mul, ← Finset.sum_add_distrib]
      refine Finset.sum_congr rfl fun r _ => ?_
      rw [List.map_cons, List.sum_cons]
      ring
  rw [hterms]
  exact Finset.sum_eq_zero fun r _ => by rw [solves_normal_iff.mp h r, mul_zero]

/-- Away from a solution the cost grows by the squares of the differences. -/
theorem cost_eq {data : List (Fin (n + 1) → K)} {x : Fin n → K}
    (h : Solves (normal data) x) (y : Fin n → K) :
    cost data y = cost data x + (data.map fun v => lhs v (y - x) ^ 2).sum := by
  have hsplit : cost data y = cost data x + (data.map fun v => lhs v (y - x) ^ 2).sum +
      2 * (data.map fun v => lhs v (y - x) * miss v x).sum := by
    clear h
    induction data with
    | nil => simp [cost]
    | cons v data ih =>
      rw [cost, List.map_cons, List.sum_cons, ← cost, ih]
      simp only [cost, List.map_cons, List.sum_cons, miss, lhs_sub]
      ring
  rw [hsplit, sum_cross h, mul_zero, add_zero]

/-- Observations without an error. -/
theorem solves_of_exact {data : List (Fin (n + 1) → K)} {x : Fin n → K}
    (h : ∀ v ∈ data, miss v x = 0) : Solves (normal data) x := by
  refine solves_normal_iff.mpr fun r => List.sum_eq_zero fun c hc => ?_
  obtain ⟨v, hv, rfl⟩ := List.mem_map.mp hc
  rw [h v hv, mul_zero]

section Ordered

variable [LinearOrder K] [IsStrictOrderedRing K] {data : List (Fin (n + 1) → K)}
  {x y : Fin n → K}

theorem sum_sq_nonneg (f : (Fin (n + 1) → K) → K) (data : List (Fin (n + 1) → K)) :
    0 ≤ (data.map fun v => f v ^ 2).sum :=
  List.sum_nonneg fun c hc => by
    obtain ⟨v, -, rfl⟩ := List.mem_map.mp hc
    exact sq_nonneg _

theorem eq_zero_of_sum_sq {f : (Fin (n + 1) → K) → K}
    (h : (data.map fun v => f v ^ 2).sum ≤ 0) : ∀ v ∈ data, f v = 0 := by
  induction data with
  | nil => exact fun _ hv => by cases hv
  | cons w data ih =>
    rw [List.map_cons, List.sum_cons] at h
    have hrest := sum_sq_nonneg f data
    have hw := sq_nonneg (f w)
    intro v hv
    rcases List.mem_cons.mp hv with rfl | hv
    · exact pow_eq_zero_iff two_ne_zero |>.mp (le_antisymm (by linarith) hw)
    · exact ih (by linarith) v hv

/-- With regular equations, no other vector does as well. -/
theorem eq_of_cost_le (h : Solves (normal data) x) (hregular : Regular (normal data))
    (hle : cost data y ≤ cost data x) : y = x := by
  rw [cost_eq h y] at hle
  have hzero : ∀ v ∈ data, lhs v (y - x) = 0 :=
    eq_zero_of_sum_sq (f := fun v => lhs v (y - x)) (by linarith)
  refine sub_eq_zero.mp (hregular (y - x) fun r => ?_)
  rw [zero_mul, lhs_normal]
  refine List.sum_eq_zero fun c hc => ?_
  obtain ⟨v, hv, rfl⟩ := List.mem_map.mp hc
  rw [hzero v hv, mul_zero]

end Ordered

end LeastSquares

end MarkitNode
