import Mathlib.Algebra.BigOperators.Fin
import Mathlib.Data.Rat.Sqrt
import Mathlib.Tactic.FieldSimp
import MarkitNode.EllipSolve
import MarkitNode.LeastSquares

/-!
What `fit_ellipsoid` makes of the readings since the last reset. Where the elimination
comes through, the coefficients are those with the least sum of squares; for readings that
lie on an ellipsoid these are its own, and the centre and half axes are found again.
-/

namespace MarkitNode

namespace EllipFit

open LinearSystem LeastSquares

section Fit

variable {K : Type*} [Field K]

/-- The rows of the readings. -/
def observations (readings : List (Reading K)) : List (Fin (matrixSize + 1) → K) :=
  readings.map fun reading => observation reading.1 reading.2.1 reading.2.2

theorem collect_eq (ctx : MpuCalCtx K) (readings : List (Reading K)) :
    collect ctx readings = { resetMatrix ctx with
      n := UInt32.ofNat readings.length
      mMatrix := normal (observations readings) } := by
  induction readings using List.reverseRecOn with
  | nil => rfl
  | append_singleton readings reading ih =>
    rw [collect, List.foldl_append, ← collect, ih]
    simp only [List.foldl_cons, List.foldl_nil, addCalData, observations, List.map_append,
      List.map_cons, List.map_nil, List.length_append, List.length_cons, List.length_nil, zero_add,
      UInt32.ofNat_add, UInt32.ofNat_one]
    congr 1
    funext r c
    simp [normal]

end Fit

/-! ### The coefficients -/

section Coefficients

variable {K : Type*} [Field K] [LinearOrder K] {sqrt : K → K} {ctx : MpuCalCtx K}
  {readings : List (Reading K)}

theorem fitEllipsoid_succeeds (h : (fitEllipsoid sqrt ctx).1 = 0) :
    ∃ N, gaussElimination (calDataAverage ctx).mMatrix = .ok N ∧
      (fitEllipsoid sqrt ctx).2.solve = solveMatrix (simplifyRow N) ctx.solve ∧
      (fitEllipsoid sqrt ctx).2.res = ellipsoidOf sqrt (fitEllipsoid sqrt ctx).2.solve := by
  revert h
  rw [fitEllipsoid]
  cases hrun : gaussElimination (calDataAverage ctx).mMatrix with
  | error M =>
    intro h
    change (255 : UInt8) = 0 at h
    exact absurd h (by decide)
  | ok N => exact fun _ => ⟨N, rfl, rfl, rfl⟩

variable [IsStrictOrderedRing K]

/-- The mean has the solutions of the sum, as long as the counter is not back at 0. -/
theorem average_meets (hcount : readings.length % 2 ^ 32 ≠ 0) {u : K}
    {x : Fin matrixSize → K} :
    Meets u (calDataAverage (collect ctx readings)).mMatrix x ↔
      Meets u (normal (observations readings)) x := by
  have hn : (((UInt32.ofNat readings.length).toNat : ℕ) : K) ≠ 0 := by
    rw [Nat.cast_ne_zero]
    simpa using hcount
  simp only [collect_eq, calDataAverage, div_eq_mul_one_div (normal _ _ _)]
  exact meets_scale fun _ => one_div_ne_zero hn

theorem fit_solves (hcount : readings.length % 2 ^ 32 ≠ 0)
    (h : (fitEllipsoid sqrt (collect ctx readings)).1 = 0) :
    Regular (normal (observations readings)) ∧ ∀ x,
      Solves (normal (observations readings)) x ↔
        x = (fitEllipsoid sqrt (collect ctx readings)).2.solve := by
  obtain ⟨N, hrun, hsolve, -⟩ := fitEllipsoid_succeeds h
  have hreduced := reduced_of_gaussElimination hrun
  refine ⟨fun x hx => hreduced.regular x ((average_meets hcount).mpr hx), fun x => ?_⟩
  rw [hsolve, ← hreduced.solves_iff]
  exact (average_meets hcount).symm

/-- The coefficients of a successful fit have a smaller sum of squares than any others. -/
theorem fit_leastSquares (hcount : readings.length % 2 ^ 32 ≠ 0)
    (h : (fitEllipsoid sqrt (collect ctx readings)).1 = 0) :
    ∀ x ≠ (fitEllipsoid sqrt (collect ctx readings)).2.solve,
      cost (observations readings) (fitEllipsoid sqrt (collect ctx readings)).2.solve <
        cost (observations readings) x := by
  obtain ⟨hregular, hsolves⟩ := fit_solves hcount h
  have hfit := (hsolves _).mpr rfl
  intro x hx
  exact lt_of_not_ge fun hle => hx (eq_of_cost_le hfit hregular hle)

/-- Better than the unit sphere. -/
theorem fit_leastSquares_demo :
    cost (observations demoReadings)
        (fitEllipsoid Rat.sqrt (collect demoCtx demoReadings)).2.solve <
      cost (observations demoReadings) ![1, 1, 0, 0, 0, -1] :=
  fit_leastSquares (by decide) (by decide +kernel) _ (by decide +kernel)

end Coefficients

/-! ### Readings on an ellipsoid -/

section Surface

variable {K : Type*} [Field K]

def OnSurface (E : Ellipsoid K) (reading : Reading K) : Prop :=
  ((reading.1 - E.x0) / E.a) ^ 2 + ((reading.2.1 - E.y0) / E.b) ^ 2 +
    ((reading.2.2 - E.z0) / E.c) ^ 2 = 1

instance [DecidableEq K] (E : Ellipsoid K) (reading : Reading K) :
    Decidable (OnSurface E reading) :=
  inferInstanceAs (Decidable (_ = _))

/-- The coefficients of a surface. -/
def coefficientsOf (E : Ellipsoid K) : Fin matrixSize → K :=
  let a := (E.a / E.b) ^ 2
  let b := (E.a / E.c) ^ 2
  ![a, b, -2 * E.x0, -2 * a * E.y0, -2 * b * E.z0,
    E.x0 ^ 2 + a * E.y0 ^ 2 + b * E.z0 ^ 2 - E.a ^ 2]

theorem miss_observation (x y z : K) (solve : Fin matrixSize → K) :
    miss (observation x y z) solve = solve 0 * y ^ 2 + solve 1 * z ^ 2 + solve 2 * x +
      solve 3 * y + solve 4 * z + solve 5 + x ^ 2 := by
  have hsum : lhs (observation x y z) solve = y * y * solve 0 + z * z * solve 1 + x * solve 2 +
      y * solve 3 + z * solve 4 + 1 * solve 5 := Fin.sum_univ_six _
  have hlast : observation x y z (Fin.last matrixSize) = -x * x := rfl
  rw [miss, hsum, hlast]
  ring

theorem miss_onSurface {E : Ellipsoid K} (ha : E.a ≠ 0) (hb : E.b ≠ 0) (hc : E.c ≠ 0)
    {reading : Reading K} (h : OnSurface E reading) :
    miss (observation reading.1 reading.2.1 reading.2.2) (coefficientsOf E) = 0 := by
  have hscaled : (reading.1 - E.x0) ^ 2 + (E.a / E.b) ^ 2 * (reading.2.1 - E.y0) ^ 2 +
      (E.a / E.c) ^ 2 * (reading.2.2 - E.z0) ^ 2 = E.a ^ 2 := by
    have hmul := congrArg (E.a ^ 2 * ·) h
    simp only [mul_one] at hmul
    rw [← hmul]
    field_simp
  rw [miss_observation]
  simp only [coefficientsOf, Matrix.cons_val]
  linear_combination hscaled

/-- From the coefficients back to the centre and the half axes. -/
theorem ellipsoidOf_coefficientsOf [LinearOrder K] [IsStrictOrderedRing K] {sqrt : K → K}
    (hsqrt : ∀ x, 0 ≤ x → sqrt (x * x) = x) {E : Ellipsoid K} (ha : 0 < E.a) (hb : 0 < E.b)
    (hc : 0 < E.c) : ellipsoidOf sqrt (coefficientsOf E) = E := by
  have hy : 2 * (E.a / E.b) ^ 2 ≠ 0 := by positivity
  have hz : 2 * (E.a / E.c) ^ 2 ≠ 0 := by positivity
  have hx0 : -(-2 * E.x0) / 2 = E.x0 := by ring
  have hy0 : -(-2 * (E.a / E.b) ^ 2 * E.y0) / (2 * (E.a / E.b) ^ 2) = E.y0 := by
    rw [div_eq_iff hy]
    ring
  have hz0 : -(-2 * (E.a / E.c) ^ 2 * E.z0) / (2 * (E.a / E.c) ^ 2) = E.z0 := by
    rw [div_eq_iff hz]
    ring
  have haxis : sqrt (E.x0 * E.x0 + (E.a / E.b) ^ 2 * E.y0 * E.y0 +
      (E.a / E.c) ^ 2 * E.z0 * E.z0 - (E.x0 ^ 2 + (E.a / E.b) ^ 2 * E.y0 ^ 2 +
      (E.a / E.c) ^ 2 * E.z0 ^ 2 - E.a ^ 2)) = E.a := by
    rw [← hsqrt E.a ha.le]
    congr 1
    rw [hsqrt E.a ha.le]
    ring
  have hb' : E.a / sqrt ((E.a / E.b) ^ 2) = E.b := by
    rw [pow_two, hsqrt _ (div_nonneg ha.le hb.le), div_div_cancel₀ ha.ne']
  have hc' : E.a / sqrt ((E.a / E.c) ^ 2) = E.c := by
    rw [pow_two, hsqrt _ (div_nonneg ha.le hc.le), div_div_cancel₀ ha.ne']
  simp only [ellipsoidOf, coefficientsOf, Matrix.cons_val, hx0, hy0, hz0, haxis, hb', hc']

/-- Readings of an ellipsoid give it back when the fit succeeds. -/
theorem fit_onEllipsoid [LinearOrder K] [IsStrictOrderedRing K] {sqrt : K → K}
    (hsqrt : ∀ x, 0 ≤ x → sqrt (x * x) = x) {ctx : MpuCalCtx K} {readings : List (Reading K)}
    (hcount : readings.length % 2 ^ 32 ≠ 0) {E : Ellipsoid K} (ha : 0 < E.a) (hb : 0 < E.b)
    (hc : 0 < E.c) (hon : ∀ reading ∈ readings, OnSurface E reading)
    (h : (fitEllipsoid sqrt (collect ctx readings)).1 = 0) :
    (fitEllipsoid sqrt (collect ctx readings)).2.res = E := by
  obtain ⟨N, -, -, hres⟩ := fitEllipsoid_succeeds h
  obtain ⟨-, hsolves⟩ := fit_solves hcount h
  have hexact : ∀ v ∈ observations readings, miss v (coefficientsOf E) = 0 := by
    intro v hv
    obtain ⟨reading, hreading, rfl⟩ := List.mem_map.mp hv
    exact miss_onSurface ha.ne' hb.ne' hc.ne' (hon reading hreading)
  rw [hres, ← (hsolves _).mp (solves_of_exact hexact)]
  exact ellipsoidOf_coefficientsOf hsqrt ha hb hc

theorem fit_onEllipsoid_demo :
    (fitEllipsoid Rat.sqrt (collect demoCtx demoReadings)).2.res = ⟨0, 0, 0, 1, 1, 2⟩ :=
  fit_onEllipsoid (fun x hx => by rw [Rat.sqrt_eq, abs_of_nonneg hx]) (by decide)
    zero_lt_one zero_lt_one zero_lt_two (by decide +kernel) (by decide +kernel)

end Surface

end EllipFit

end MarkitNode
