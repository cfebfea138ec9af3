import Mathlib.Algebra.Group.End
import Mathlib.Data.List.FinRange
import MarkitNode.EllipFit

/-!
The elimination of `tests/ellip.c` as far as it comes through. Each of its loops has a
closed form, by which it keeps the solutions of the system; what is left at the end has
one solution, and `solve_matrix` finds it. The order into which `sort_rows` brings the
rows does not matter for this.
-/

namespace MarkitNode

namespace EllipFit

open LinearSystem

variable {K : Type*} [Field K] {n : ℕ}

theorem mem_below {k r : Fin n} : r ∈ below k ↔ k < r := by
  rw [below, List.mem_filter, decide_eq_true_eq]
  exact and_iff_right (List.mem_finRange r)

theorem nodup_below (k : Fin n) : (below k).Nodup := (List.nodup_finRange n).filter _

/-! ### The loops -/

section Loops

variable (M : Fin n → Fin (n + 1) → K)

/-- `sort_rows` only exchanges rows from the diagonal on. -/
theorem sortRows_permutes [LinearOrder K] (k : Fin n) :
    ∃ σ : Equiv.Perm (Fin n), (∀ r < k, σ r = r) ∧ sortRows M k = fun r => M (σ r) := by
  have hloop : ∀ rows : List (Fin n), (∀ r ∈ rows, k < r) → ∀ N : Fin n → Fin (n + 1) → K,
      ∃ σ : Equiv.Perm (Fin n), (∀ r < k, σ r = r) ∧
        rows.foldl (sortRow k) N = fun r => N (σ r) := by
    intro rows
    induction rows with
    | nil => exact fun _ N => ⟨1, fun _ _ => rfl, rfl⟩
    | cons row rows ih =>
      intro hrows N
      have hlt := hrows row List.mem_cons_self
      have hrest : ∀ r ∈ rows, k < r := fun r hr => hrows r (List.mem_cons_of_mem _ hr)
      rw [List.foldl_cons, sortRow]
      split_ifs
      · obtain ⟨σ, hσ, heq⟩ := ih hrest (swapRow1Row2 N k row)
        refine ⟨Equiv.swap k row * σ, fun r hr => ?_, heq⟩
        rw [Equiv.Perm.mul_apply, hσ r hr,
          Equiv.swap_apply_of_ne_of_ne hr.ne (hr.trans hlt).ne]
      · exact ih hrest N
  exact hloop _ (fun _ => mem_below.mp) M

/-- Every row below gets its multiple of the pivot's row. -/
theorem clearBelow_eq (k : Fin n) :
    clearBelow M k = fun r c =>
      M r c + (if k < r then -M r k.castSucc / M k k.castSucc else 0) * M k c := by
  have hloop : ∀ rows : List (Fin n), rows.Nodup → k ∉ rows → ∀ N : Fin n → Fin (n + 1) → K,
      rows.foldl (fun M row => row2AddRow1K M (-M row k.castSucc / M k k.castSucc) k row) N =
        fun r c => N r c + (if r ∈ rows then -N r k.castSucc / N k k.castSucc else 0) * N k c := by
    intro rows
    induction rows with
    | nil =>
      intro _ _ N
      simp
    | cons row rows ih =>
      intro hnodup hk N
      obtain ⟨hrow, hrest⟩ := List.nodup_cons.mp hnodup
      obtain ⟨hne, hk⟩ := not_or.mp (mt List.mem_cons.mpr hk)
      rw [List.foldl_cons, ih hrest hk]
      funext r c
      have hpivot : row2AddRow1K N (-N row k.castSucc / N k k.castSucc) k row k = N k :=
        Function.update_of_ne hne _ _
      by_cases hr : r = row
      · subst hr
        rw [if_neg hrow, zero_mul, add_zero, if_pos List.mem_cons_self, row2AddRow1K,
          Function.update_self]
      · have hsame : row2AddRow1K N (-N row k.castSucc / N k k.castSucc) k row r = N r :=
          Function.update_of_ne hr _ _
        rw [hsame, hpivot]
        simp only [List.mem_cons, hr, false_or]
  rw [clearBelow, hloop _ (nodup_below k) (fun h => lt_irrefl k (mem_below.mp h))]
  simp only [mem_below]

theorem simplifyRow_eq : simplifyRow M = fun r c => M r c * (1 / M r r.castSucc) := by
  have hloop : ∀ rows : List (Fin n), rows.Nodup → ∀ N : Fin n → Fin (n + 1) → K,
      rows.foldl (fun M row => rowMultiK M (1 / M row row.castSucc) row) N =
        fun r c => if r ∈ rows then N r c * (1 / N r r.castSucc) else N r c := by
    intro rows
    induction rows with
    | nil =>
      intro _ N
      simp
    | cons row rows ih =>
      intro hnodup N
      obtain ⟨hrow, hrest⟩ := List.nodup_cons.mp hnodup
      rw [List.foldl_cons, ih hrest]
      funext r c
      by_cases hr : r = row
      · subst hr
        rw [if_neg hrow, if_pos List.mem_cons_self, rowMultiK, Function.update_self]
      · have hsame : rowMultiK N (1 / N row row.castSucc) row r = N r :=
          Function.update_of_ne hr _ _
        rw [hsame]
        simp only [List.mem_cons, hr, false_or]
  rw [simplifyRow, hloop _ (List.nodup_finRange n)]
  simp only [List.mem_finRange, if_true]

end Loops

/-! ### Back substitution -/

section Back

variable (M : Fin n → Fin (n + 1) → K)

theorem solveRow_eq (solve : Fin n → K) (row : Fin n) :
    solveRow M solve row = Function.update solve row
      (M row (Fin.last n) - ∑ c ∈ Finset.Ioi row, M row c.castSucc * solve c) := by
  have hloop : ∀ columns : List (Fin n), row ∉ columns → ∀ (s : Fin n → K) (v : K),
      columns.foldl (fun solve column => Function.update solve row
        (solve row - M row column.castSucc * solve column)) (Function.update s row v) =
      Function.update s row (v - (columns.map fun c => M row c.castSucc * s c).sum) := by
    intro columns
    induction columns with
    | nil => simp
    | cons column columns ih =>
      intro hrow s v
      obtain ⟨hne, hrow⟩ := not_or.mp (mt List.mem_cons.mpr hrow)
      rw [List.foldl_cons, Function.update_self, Function.update_of_ne (Ne.symm hne),
        Function.update_idem, ih hrow, List.map_cons, List.sum_cons, sub_sub]
  have hself : row ∉ (below row).reverse := fun h =>
    lt_irrefl row (mem_below.mp (List.mem_reverse.mp h))
  have hsum : ((below row).reverse.map fun c => M row c.castSucc * solve c).sum =
      ∑ c ∈ Finset.Ioi row, M row c.castSucc * solve c := by
    rw [List.map_reverse, List.sum_reverse, ← List.sum_toFinset _ (nodup_below row)]
    refine Finset.sum_congr ?_ fun _ _ => rfl
    ext c
    rw [List.mem_toFinset, mem_below, Finset.mem_Ioi]
  rw [solveRow, hloop _ hself, hsum]

/-- Each row is solved when the rows below it are. -/
theorem solveMatrix_backward (solve : Fin n → K) (r : Fin n) :
    solveMatrix M solve r = M r (Fin.last n) -
      ∑ c ∈ Finset.Ioi r, M r c.castSucc * solveMatrix M solve c := by
  have hloop : ∀ rows : List (Fin n), rows.Pairwise (· < ·) →
      (∀ r ∈ rows, ∀ c, r < c → c ∈ rows) → ∀ r ∈ rows,
      rows.foldr (fun row s => solveRow M s row) solve r = M r (Fin.last n) -
        ∑ c ∈ Finset.Ioi r, M r c.castSucc *
          rows.foldr (fun row s => solveRow M s row) solve c := by
    intro rows
    induction rows with
    | nil => exact fun _ _ _ hr => by cases hr
    | cons row rows ih =>
      intro hsorted hclosed r hr
      obtain ⟨hfirst, hsorted⟩ := List.pairwise_cons.mp hsorted
      rw [List.foldr_cons, solveRow_eq]
      have hother : ∀ c, row < c → ∀ v : K, Function.update
          (rows.foldr (fun row s => solveRow M s row) solve) row v c =
          rows.foldr (fun row s => solveRow M s row) solve c :=
        fun c hc v => Function.update_of_ne hc.ne' _ _
      rcases List.mem_cons.mp hr with rfl | hr
      · rw [Function.update_self]
        refine congrArg _ (Finset.sum_congr rfl fun c hc => ?_)
        rw [hother c (Finset.mem_Ioi.mp hc)]
      · rw [hother r (hfirst r hr), ih hsorted (fun r hr c hc => ?_) r hr]
        · refine congrArg _ (Finset.sum_congr rfl fun c hc => ?_)
          rw [hother c ((hfirst r hr).trans (Finset.mem_Ioi.mp hc))]
        · have hrow := (hfirst r hr).trans hc
          exact (List.mem_cons.mp (hclosed r (List.mem_cons_of_mem _ hr) c hc)).resolve_left
            hrow.ne'
  rw [solveMatrix, List.foldl_reverse]
  exact hloop _ (List.pairwise_lt_finRange n) (fun _ _ c _ => List.mem_finRange c) r
    (List.mem_finRange r)

end Back

/-! ### The elimination -/

section Elimination

variable {M N N' : Fin n → Fin (n + 1) → K}

/-- After the steps for the columns before `k`. -/
structure Reduced (M : Fin n → Fin (n + 1) → K) (k : ℕ) (N : Fin n → Fin (n + 1) → K) : Prop where
  cleared : Cleared k N
  pivots : ∀ r : Fin n, r.val < k → N r r.castSucc ≠ 0
  meets : ∀ u x, Meets u N x ↔ Meets u M x

theorem Reduced.sorted [LinearOrder K] {k : Fin n} (h : Reduced M k N) :
    Reduced M k (sortRows N k) := by
  obtain ⟨σ, hσ, heq⟩ := sortRows_permutes N k
  rw [heq]
  refine ⟨fun r c hc hr => ?_, fun r hr => ?_, fun u x => ?_⟩
  · refine h.cleared (σ r) c hc (lt_of_not_ge fun hle => ?_)
    -- a row before the diagonal is in its place
    have hfixed := σ.injective (hσ (σ r) (hle.trans_lt hc))
    rw [hfixed] at hle
    exact absurd hr hle.not_gt
  · rw [hσ r hr]
    exact h.pivots r hr
  · rw [meets_permute]
    exact h.meets u x

theorem Reduced.step {k : Fin n} (h : Reduced M k N) (hpivot : N k k.castSucc ≠ 0) :
    Reduced M (k + 1) (clearBelow N k) := by
  rw [clearBelow_eq]
  refine ⟨fun r c hc hr => ?_, fun r hr => ?_, fun u x => ?_⟩
  · by_cases hck : c = k
    · subst hck
      rw [if_pos hr, div_mul_cancel₀ _ hpivot, add_neg_cancel]
    · have hlt : c < k := Fin.lt_def.mpr (by have := Fin.val_ne_of_ne hck; omega)
      rw [h.cleared r c hlt hr, h.cleared k c hlt hlt, mul_zero, add_zero]
  · rw [if_neg (Fin.lt_def.not.mpr (by omega)), zero_mul, add_zero]
    by_cases hrk : r = k
    · rw [hrk]
      exact hpivot
    · exact h.pivots r (by have := Fin.val_ne_of_ne hrk; omega)
  · rw [meets_addMultiples k (if_neg (lt_irrefl k))]
    exact h.meets u x

theorem reduced_zero (M : Fin n → Fin (n + 1) → K) : Reduced M 0 M :=
  ⟨fun _ _ hc => absurd hc (Nat.not_lt_zero _), fun _ hr => absurd hr (Nat.not_lt_zero _),
    fun _ _ => Iff.rfl⟩

theorem Reduced.run [LinearOrder K] {k : ℕ} (hk : k ≤ n) (h : Reduced M k N)
    (hrun : gaussLoop ((List.finRange n).drop k) N = .ok N') : Reduced M n N' := by
  induction hd : n - k generalizing k N with
  | zero =>
    obtain rfl : k = n := by omega
    rw [List.drop_of_length_le (by simp)] at hrun
    obtain rfl := Except.ok.inj hrun
    exact h
  | succ d ih =>
    have hlt : k < (List.finRange n).length := by
      rw [List.length_finRange]
      omega
    have hkn : k < n := by omega
    rw [List.drop_eq_getElem_cons hlt, List.getElem_finRange] at hrun
    simp only [gaussLoop] at hrun
    split_ifs at hrun with hpivot
    exact ih (k := k + 1) hkn ((h.sorted (k := ⟨k, hkn⟩)).step hpivot) hrun (by omega)

theorem reduced_of_gaussElimination [LinearOrder K] (h : gaussElimination M = .ok N) :
    Reduced M n N :=
  (reduced_zero M).run (Nat.zero_le n) h

end Elimination

section Solve

variable {M N : Fin n → Fin (n + 1) → K}

/-- With ones on the diagonal, `solve_matrix` finds the only solution. -/
theorem Reduced.meets_iff (h : Reduced M n N) {u : K} {x : Fin n → K} :
    Meets u M x ↔ ∀ r, x r = u * simplifyRow N r (Fin.last n) -
      ∑ c ∈ Finset.Ioi r, simplifyRow N r c.castSucc * x c := by
  have hpivots (r : Fin n) : N r r.castSucc ≠ 0 := h.pivots r r.isLt
  rw [← h.meets, ← meets_scale (t := fun r => 1 / N r r.castSucc)
    fun r => one_div_ne_zero (hpivots r), ← simplifyRow_eq]
  refine meets_iff_of_ones (fun r c hc hr => ?_) fun r => ?_
  · simp only [simplifyRow_eq, h.cleared r c hc hr, zero_mul]
  · simp only [simplifyRow_eq, mul_one_div_cancel (hpivots r)]

theorem Reduced.solves_iff (h : Reduced M n N) (solve : Fin n → K) {x : Fin n → K} :
    Solves M x ↔ x = solveMatrix (simplifyRow N) solve := by
  simp only [Solves, h.meets_iff, one_mul]
  constructor
  · exact fun hx => eq_of_backward hx (solveMatrix_backward _ solve)
  · rintro rfl
    exact solveMatrix_backward _ solve

theorem Reduced.regular (h : Reduced M n N) : Regular M := fun x hx => by
  refine eq_of_backward (M := simplifyRow N) (b := fun _ => 0) (fun r => ?_) fun r => ?_
  · rw [h.meets_iff.mp hx r, zero_mul]
  · simp

end Solve

end EllipFit

end MarkitNode
