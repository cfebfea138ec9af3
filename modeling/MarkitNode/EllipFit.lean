import Mathlib.Algebra.Order.Field.Basic
import Mathlib.Algebra.Order.Ring.Rat
import Mathlib.Data.Fin.VecNotation
import MarkitNode.LinearSystem

/-!
The fit of an ellipsoid to the readings of the accelerometer, in `tests/ellip.c`. The
readings are summed up in an augmented matrix of six rows, which is reduced by rows and
solved from the last one on. Numbers are those of an ordered field, without rounding.
-/

namespace MarkitNode

namespace EllipFit

open LinearSystem

/-- `MATRIX_SIZE` -/
abbrev matrixSize : ℕ := 6

/-- The coefficients are known by their numbers. -/
scoped instance coefficients : NeZero matrixSize := ⟨Nat.succ_ne_zero 5⟩

/-- The formulas have the number 2. -/
scoped instance atLeastTwo : Nat.AtLeastTwo 2 := ⟨Nat.le_refl 2⟩

inductive MpuCalStatus
  | succeed
  | ready
  | failed
  deriving DecidableEq, Repr

/-- `res_X0` to `res_C` -/
structure Ellipsoid (K : Type*) where
  x0 : K
  y0 : K
  z0 : K
  a : K
  b : K
  c : K

structure MpuCalCtx (K : Type*) where
  n : UInt32
  mMatrix : Fin matrixSize → Fin (matrixSize + 1) → K
  solve : Fin matrixSize → K
  status : MpuCalStatus
  res : Ellipsoid K

section Elimination

variable {K : Type*} [Field K] [LinearOrder K] {n : ℕ}

/-- The rows below, in the order of the loops. -/
def below (k : Fin n) : List (Fin n) := (List.finRange n).filter (k < ·)

/-- `Abs(x) < Abs(y)`. The macro has no parentheses around it, so that this is
`x < 0 ? -x : ((x < y) < 0 ? -y : y)`. -/
def absLess (x y : K) : Bool :=
  if x < 0 then -x ≠ 0
  else if (if x < y then (1 : Int) else 0) < 0 then -y ≠ 0
  else y ≠ 0

def swapRow1Row2 (M : Fin n → Fin (n + 1) → K) (row1 row2 : Fin n) : Fin n → Fin (n + 1) → K :=
  fun r => M (Equiv.swap row1 row2 r)

def rowMultiK (M : Fin n → Fin (n + 1) → K) (k : K) (row : Fin n) : Fin n → Fin (n + 1) → K :=
  Function.update M row fun column => M row column * k

def row2AddRow1K (M : Fin n → Fin (n + 1) → K) (k : K) (row1 row2 : Fin n) :
    Fin n → Fin (n + 1) → K :=
  Function.update M row2 fun column => M row2 column + k * M row1 column

/-- One row of `sort_rows`. -/
def sortRow (k : Fin n) (M : Fin n → Fin (n + 1) → K) (row : Fin n) : Fin n → Fin (n + 1) → K :=
  if absLess (M k k.castSucc) (M row k.castSucc) then swapRow1Row2 M k row else M

def sortRows (M : Fin n → Fin (n + 1) → K) (k : Fin n) : Fin n → Fin (n + 1) → K :=
  (below k).foldl (sortRow k) M

/-- The inner loop of `gauss_elimination`. -/
def clearBelow (M : Fin n → Fin (n + 1) → K) (cnt : Fin n) : Fin n → Fin (n + 1) → K :=
  (below cnt).foldl
    (fun M row => row2AddRow1K M (-M row cnt.castSucc / M cnt cnt.castSucc) cnt row) M

/-- The outer loop; with an error the matrix stays as it is by then. -/
def gaussLoop : List (Fin n) → (Fin n → Fin (n + 1) → K) →
    Except (Fin n → Fin (n + 1) → K) (Fin n → Fin (n + 1) → K)
  | [], M => .ok M
  | cnt :: rest, M =>
      if sortRows M cnt cnt cnt.castSucc = 0 then .error (sortRows M cnt)
      else gaussLoop rest (clearBelow (sortRows M cnt) cnt)

def gaussElimination (M : Fin n → Fin (n + 1) → K) :
    Except (Fin n → Fin (n + 1) → K) (Fin n → Fin (n + 1) → K) :=
  gaussLoop (List.finRange n) M

def simplifyRow (M : Fin n → Fin (n + 1) → K) : Fin n → Fin (n + 1) → K :=
  (List.finRange n).foldl (fun M row => rowMultiK M (1 / M row row.castSucc) row) M

/-- One row of `solve_matrix`. -/
def solveRow (M : Fin n → Fin (n + 1) → K) (solve : Fin n → K) (row : Fin n) : Fin n → K :=
  (below row).reverse.foldl
    (fun solve column => Function.update solve row
      (solve row - M row column.castSucc * solve column))
    (Function.update solve row (M row (Fin.last n)))

def solveMatrix (M : Fin n → Fin (n + 1) → K) (solve : Fin n → K) : Fin n → K :=
  (List.finRange n).reverse.foldl (solveRow M) solve

end Elimination

section Fit

variable {K : Type*} [Field K] [LinearOrder K]

def resetMatrix (ctx : MpuCalCtx K) : MpuCalCtx K :=
  { ctx with n := 0, mMatrix := fun _ _ => 0, solve := fun _ => 0, status := .ready }

/-- `V` -/
def observation (x y z : K) : Fin (matrixSize + 1) → K := ![y * y, z * z, x, y, z, 1, -x * x]

def addCalData (ctx : MpuCalCtx K) (x y z : K) : MpuCalCtx K :=
  { ctx with
    n := ctx.n + 1
    mMatrix := fun row column =>
      ctx.mMatrix row column + observation x y z row.castSucc * observation x y z column }

def calDataAverage (ctx : MpuCalCtx K) : MpuCalCtx K :=
  { ctx with mMatrix := fun row column => ctx.mMatrix row column / (ctx.n.toNat : K) }

/-- The centre and the half axes for the coefficients of a surface. -/
def ellipsoidOf (sqrt : K → K) (solve : Fin matrixSize → K) : Ellipsoid K :=
  let a := solve 0
  let b := solve 1
  let c := solve 2
  let d := solve 3
  let e := solve 4
  let f := solve 5
  let x0 := -c / 2
  let y0 := -d / (2 * a)
  let z0 := -e / (2 * b)
  let axis := sqrt (x0 * x0 + a * y0 * y0 + b * z0 * z0 - f)
  ⟨x0, y0, z0, axis, axis / sqrt a, axis / sqrt b⟩

/-- `sqrt` is the one of the C library. -/
def fitEllipsoid (sqrt : K → K) (ctx : MpuCalCtx K) : UInt8 × MpuCalCtx K :=
  let ctx := calDataAverage ctx
  match gaussElimination ctx.mMatrix with
  | .error M => (255, { ctx with mMatrix := M, status := .failed })
  | .ok M =>
      let M := simplifyRow M
      let solve := solveMatrix M ctx.solve
      (0, { ctx with
        mMatrix := M, solve := solve, status := .succeed, res := ellipsoidOf sqrt solve })

abbrev Reading (K : Type*) := K × K × K

/-- The matrix is reset, and the readings are added one by one. -/
def collect (ctx : MpuCalCtx K) (readings : List (Reading K)) : MpuCalCtx K :=
  readings.foldl (fun ctx reading => addCalData ctx reading.1 reading.2.1 reading.2.2)
    (resetMatrix ctx)

end Fit

section Demo

def demoCtx : MpuCalCtx ℚ :=
  ⟨0, fun _ _ => 0, fun _ => 0, .ready, ⟨0, 0, 0, 0, 0, 0⟩⟩

/-- The readings of `demo`. -/
def demoReadings : List (Reading ℚ) :=
  [(0, 0, 2), (0, 1, 0), (1, 0, 0), (-1, 0, 0), (0, -1, 0), (0, 0, -2)]

end Demo

end EllipFit

end MarkitNode
