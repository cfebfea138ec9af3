import Mathlib.Algebra.Quaternion
import Mathlib.LinearAlgebra.Matrix.Determinant.Basic
import Mathlib.LinearAlgebra.Matrix.NonsingularInverse
import Mathlib.Tactic.FinCases
import Mathlib.Tactic.LinearCombination
import Mathlib.Tactic.Ring

/-!
Quaternions and the rotation matrices they stand for, over any commutative ring
in place of the floating-point numbers. The product of the code is that of the
quaternion algebra, and the matrix of a unit quaternion `q` takes the vector `v`
to the vector of `q * v * star q`; what holds of the matrices follows from there.
-/

namespace MarkitNode

namespace Spatial

open Matrix
open scoped Quaternion

variable {K : Type*} [CommRing K]

@[ext] structure Quaternion (K : Type*) where
  w : K
  x : K
  y : K
  z : K

def spatialQuaternionMultiply (q1 q2 : Quaternion K) : Quaternion K where
  w := q1.w * q2.w - q1.x * q2.x - q1.y * q2.y - q1.z * q2.z
  x := q1.w * q2.x + q1.x * q2.w + q1.y * q2.z - q1.z * q2.y
  y := q1.w * q2.y - q1.x * q2.z + q1.y * q2.w + q1.z * q2.x
  z := q1.w * q2.z + q1.x * q2.y - q1.y * q2.x + q1.z * q2.w

def spatialQuaternionToRotationMatrix (q : Quaternion K) : Matrix (Fin 3) (Fin 3) K :=
  let q0 := q.w
  let q1 := q.x
  let q2 := q.y
  let q3 := q.z
  !![1 - 2 * (q2 * q2 + q3 * q3), 2 * (q1 * q2 - q0 * q3), 2 * (q0 * q2 + q1 * q3);
    2 * (q1 * q2 + q0 * q3), 1 - 2 * (q1 * q1 + q3 * q3), 2 * (q2 * q3 - q0 * q1);
    2 * (q1 * q3 - q0 * q2), 2 * (q0 * q1 + q2 * q3), 1 - 2 * (q1 * q1 + q2 * q2)]

namespace Quaternion

def Unit (q : Quaternion K) : Prop := q.w * q.w + q.x * q.x + q.y * q.y + q.z * q.z = 1

def conj (q : Quaternion K) : Quaternion K := ⟨q.w, -q.x, -q.y, -q.z⟩

/-- The element of the quaternion algebra. -/
def toAlgebra (q : Quaternion K) : ℍ[K] := ⟨q.w, q.x, q.y, q.z⟩

@[simp] theorem toAlgebra_re (q : Quaternion K) : q.toAlgebra.re = q.w := rfl
@[simp] theorem toAlgebra_imI (q : Quaternion K) : q.toAlgebra.imI = q.x := rfl
@[simp] theorem toAlgebra_imJ (q : Quaternion K) : q.toAlgebra.imJ = q.y := rfl
@[simp] theorem toAlgebra_imK (q : Quaternion K) : q.toAlgebra.imK = q.z := rfl

end Quaternion

/-- A vector as a quaternion. -/
def pure (v : Fin 3 → K) : ℍ[K] := ⟨0, v 0, v 1, v 2⟩

@[simp] theorem pure_re (v : Fin 3 → K) : (pure v).re = 0 := rfl
@[simp] theorem pure_imI (v : Fin 3 → K) : (pure v).imI = v 0 := rfl
@[simp] theorem pure_imJ (v : Fin 3 → K) : (pure v).imJ = v 1 := rfl
@[simp] theorem pure_imK (v : Fin 3 → K) : (pure v).imK = v 2 := rfl

/-- The matrix with the norm of `q` in place of the ones. -/
def scaledMatrix (q : Quaternion K) : Matrix (Fin 3) (Fin 3) K :=
  !![q.w * q.w + q.x * q.x - q.y * q.y - q.z * q.z, 2 * (q.x * q.y - q.w * q.z),
      2 * (q.w * q.y + q.x * q.z);
    2 * (q.x * q.y + q.w * q.z), q.w * q.w - q.x * q.x + q.y * q.y - q.z * q.z,
      2 * (q.y * q.z - q.w * q.x);
    2 * (q.x * q.z - q.w * q.y), 2 * (q.w * q.x + q.y * q.z),
      q.w * q.w - q.x * q.x - q.y * q.y + q.z * q.z]

theorem pure_injective : Function.Injective (pure (K := K)) := by
  intro u v h
  funext i
  fin_cases i
  · exact congrArg (fun q : ℍ[K] => q.imI) h
  · exact congrArg (fun q : ℍ[K] => q.imJ) h
  · exact congrArg (fun q : ℍ[K] => q.imK) h

theorem toAlgebra_multiply (q1 q2 : Quaternion K) :
    (spatialQuaternionMultiply q1 q2).toAlgebra = q1.toAlgebra * q2.toAlgebra := by
  ext <;> simp [spatialQuaternionMultiply]

theorem unit_iff_normSq (q : Quaternion K) : q.Unit ↔ Quaternion.normSq q.toAlgebra = 1 := by
  rw [Quaternion.normSq_def', Quaternion.Unit]
  simp only [Quaternion.toAlgebra_re, Quaternion.toAlgebra_imI, Quaternion.toAlgebra_imJ,
    Quaternion.toAlgebra_imK, pow_two]

theorem matrix_eq_scaled {q : Quaternion K} (h : q.Unit) :
    spatialQuaternionToRotationMatrix q = scaledMatrix q := by
  rw [Quaternion.Unit] at h
  ext i j
  fin_cases i <;> fin_cases j <;>
    simp [spatialQuaternionToRotationMatrix, scaledMatrix] <;> linear_combination -h

/-- What the matrix does to a vector. -/
theorem pure_mulVec (q : Quaternion K) (v : Fin 3 → K) :
    pure (scaledMatrix q *ᵥ v) = q.toAlgebra * pure v * star q.toAlgebra := by
  ext <;> simp [scaledMatrix, dotProduct, Fin.sum_univ_three] <;> ring

theorem scaledMatrix_multiply (q1 q2 : Quaternion K) :
    scaledMatrix (spatialQuaternionMultiply q1 q2) = scaledMatrix q1 * scaledMatrix q2 := by
  apply Matrix.mulVec_injective
  funext v
  apply pure_injective
  rw [← Matrix.mulVec_mulVec]
  simp only [pure_mulVec, toAlgebra_multiply, star_mul, mul_assoc]

theorem transpose_scaledMatrix (q : Quaternion K) :
    (scaledMatrix q)ᵀ = scaledMatrix q.conj := by
  ext i j
  fin_cases i <;> fin_cases j <;> simp [scaledMatrix, Quaternion.conj] <;> ring

theorem multiply_conj {q : Quaternion K} (h : q.Unit) :
    spatialQuaternionMultiply q q.conj = ⟨1, 0, 0, 0⟩ := by
  rw [Quaternion.Unit] at h
  ext
  · simp only [spatialQuaternionMultiply, Quaternion.conj]
    linear_combination h
  · simp only [spatialQuaternionMultiply, Quaternion.conj]
    ring
  · simp only [spatialQuaternionMultiply, Quaternion.conj]
    ring
  · simp only [spatialQuaternionMultiply, Quaternion.conj]
    ring

theorem scaledMatrix_one : scaledMatrix (⟨1, 0, 0, 0⟩ : Quaternion K) = 1 := by
  ext i j
  fin_cases i <;> fin_cases j <;> simp [scaledMatrix]

theorem det_scaledMatrix (q : Quaternion K) :
    (scaledMatrix q).det = (q.w * q.w + q.x * q.x + q.y * q.y + q.z * q.z) ^ 3 := by
  rw [Matrix.det_fin_three]
  simp only [scaledMatrix, Matrix.of_apply, Matrix.cons_val]
  ring

theorem multiply_unit {q1 q2 : Quaternion K} (h1 : q1.Unit) (h2 : q2.Unit) :
    (spatialQuaternionMultiply q1 q2).Unit := by
  rw [unit_iff_normSq] at h1 h2 ⊢
  rw [toAlgebra_multiply, map_mul, h1, h2, one_mul]

theorem matrix_multiply {q1 q2 : Quaternion K} (h1 : q1.Unit) (h2 : q2.Unit) :
    spatialQuaternionToRotationMatrix (spatialQuaternionMultiply q1 q2) =
      spatialQuaternionToRotationMatrix q1 * spatialQuaternionToRotationMatrix q2 := by
  rw [matrix_eq_scaled h1, matrix_eq_scaled h2, matrix_eq_scaled (multiply_unit h1 h2),
    scaledMatrix_multiply]

theorem matrix_orthogonal {q : Quaternion K} (h : q.Unit) :
    spatialQuaternionToRotationMatrix q * (spatialQuaternionToRotationMatrix q)ᵀ = 1 := by
  rw [matrix_eq_scaled h, transpose_scaledMatrix, ← scaledMatrix_multiply, multiply_conj h,
    scaledMatrix_one]

theorem det_matrix {q : Quaternion K} (h : q.Unit) :
    (spatialQuaternionToRotationMatrix q).det = 1 := by
  rw [matrix_eq_scaled h, det_scaledMatrix, h, one_pow]

/-- The matrix of a unit quaternion `q` takes the vector `v` to that of `q * v * star q`. -/
theorem matrix_mulVec {q : Quaternion K} (h : q.Unit) (v : Fin 3 → K) :
    pure (spatialQuaternionToRotationMatrix q *ᵥ v) =
      q.toAlgebra * pure v * star q.toAlgebra := by
  rw [matrix_eq_scaled h, pure_mulVec]

/-- The matrix of a unit quaternion is a rotation. -/
structure IsRotation (R : Matrix (Fin 3) (Fin 3) K) : Prop where
  transpose_right : R * Rᵀ = 1
  transpose_left : Rᵀ * R = 1
  det : R.det = 1

theorem matrix_isRotation {q : Quaternion K} (h : q.Unit) :
    IsRotation (spatialQuaternionToRotationMatrix q) :=
  ⟨matrix_orthogonal h, mul_eq_one_comm.mp (matrix_orthogonal h), det_matrix h⟩

/-- The two functions go together on the unit quaternions. -/
theorem multiply_rotates {q1 q2 : Quaternion K} (h1 : q1.Unit) (h2 : q2.Unit) :
    (spatialQuaternionMultiply q1 q2).Unit ∧
      spatialQuaternionToRotationMatrix (spatialQuaternionMultiply q1 q2) =
        spatialQuaternionToRotationMatrix q1 * spatialQuaternionToRotationMatrix q2 ∧
      IsRotation (spatialQuaternionToRotationMatrix q1) ∧
      IsRotation (spatialQuaternionToRotationMatrix q2) ∧
      IsRotation (spatialQuaternionToRotationMatrix (spatialQuaternionMultiply q1 q2)) :=
  ⟨multiply_unit h1 h2, matrix_multiply h1 h2, matrix_isRotation h1, matrix_isRotation h2,
    matrix_isRotation (multiply_unit h1 h2)⟩

/-- `3 + 4 i` and `1 + 2 i + 2 j`, scaled to the norm 1. -/
theorem multiply_rotates_fractions :
    IsRotation (spatialQuaternionToRotationMatrix (spatialQuaternionMultiply
      (⟨3 / 5, 4 / 5, 0, 0⟩ : Quaternion ℚ) ⟨1 / 3, 2 / 3, 2 / 3, 0⟩)) := by
  have h1 : Quaternion.Unit (⟨3 / 5, 4 / 5, 0, 0⟩ : Quaternion ℚ) := by
    norm_num [Quaternion.Unit]
  have h2 : Quaternion.Unit (⟨1 / 3, 2 / 3, 2 / 3, 0⟩ : Quaternion ℚ) := by
    norm_num [Quaternion.Unit]
  exact (multiply_rotates h1 h2).2.2.2.2

end Spatial

end MarkitNode
