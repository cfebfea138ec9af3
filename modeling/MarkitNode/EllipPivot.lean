import MarkitNode.EllipCalibration

/-!
When the elimination of `tests/ellip.c` comes through. Its rows are sorted by a comparison
that does not compare absolute values: a row is also given up for a zero if its own entry
is negative. An elimination that fails has either a system with several solutions or a
step that loses its pivot in this way.
-/

namespace MarkitNode

namespace EllipFit

open LinearSystem LeastSquares

variable {K : Type*} [Field K] [LinearOrder K] {n : ℕ}

/-! ### The choice of a pivot -/

section Pivot

variable {M : Fin n → Fin (n + 1) → K} {k : Fin n}

theorem sortRow_eq_of_lt {row r : Fin n} (hk : k < row) (hr : row < r) :
    sortRow k M row r = M r := by
  rw [sortRow]
  split_ifs
  · rw [swapRow1Row2, Equiv.swap_apply_of_ne_of_ne (hk.trans hr).ne' hr.ne']
  · rfl

theorem sortRows_eq_of_lt {rows : List (Fin n)} {r : Fin n}
    (h : ∀ row ∈ rows, k < row ∧ row < r) : rows.foldl (sortRow k) M r = M r := by
  induction rows generalizing M with
  | nil => rfl
  | cons row rows ih =>
    obtain ⟨hk, hr⟩ := h row List.mem_cons_self
    rw [List.foldl_cons, ih fun row hrow => h row (List.mem_cons_of_mem _ hrow),
      sortRow_eq_of_lt hk hr]

theorem absLess_iff [IsStrictOrderedRing K] {x y : K} :
    absLess x y = true ↔ x < 0 ∨ y ≠ 0 := by
  have hless : ¬ (if x < y then (1 : Int) else 0) < 0 := by split_ifs <;> decide
  rw [absLess, if_neg hless]
  split_ifs with hx
  · simp [hx, hx.ne]
  · simp [hx]

variable [IsStrictOrderedRing K]

theorem sortRow_pivot (row : Fin n) : sortRow k M row k k.castSucc =
    if M k k.castSucc < 0 ∨ M row k.castSucc ≠ 0 then M row k.castSucc else M k k.castSucc := by
  rw [sortRow]
  simp only [absLess_iff]
  split_ifs
  · rw [swapRow1Row2, Equiv.swap_apply_left]
  · rfl

theorem sortRow_nonpos {row : Fin n} : sortRow k M row k k.castSucc ≤ 0 ↔
    M row k.castSucc ≤ 0 ∧ (M row k.castSucc = 0 → M k k.castSucc ≤ 0) := by
  rw [sortRow_pivot]
  split_ifs with h
  · refine ⟨fun hle => ⟨hle, fun hzero => ?_⟩, And.left⟩
    exact (h.resolve_right fun hne => hne hzero).le
  · obtain ⟨-, hzero⟩ := not_or.mp h
    rw [not_not.mp hzero]
    simp

theorem sortRow_eq_zero {row : Fin n} : sortRow k M row k k.castSucc = 0 ↔
    M row k.castSucc = 0 ∧ M k k.castSucc ≤ 0 := by
  rw [sortRow_pivot]
  split_ifs with h
  · refine ⟨fun hzero => ⟨hzero, ?_⟩, And.left⟩
    exact (h.resolve_right fun hne => hne hzero).le
  · obtain ⟨hpos, hzero⟩ := not_or.mp h
    rw [not_not.mp hzero]
    simp [le_antisymm_iff, not_lt.mp hpos]

/-- The last row with an entry of its own decides on the sign of the pivot. -/
theorem sortRows_nonpos (rows : List (Fin n)) (hrows : (k :: rows).Pairwise (· < ·)) :
    rows.foldl (sortRow k) M k k.castSucc ≤ 0 ↔ ∀ r ∈ k :: rows,
      (∀ r' ∈ k :: rows, r < r' → M r' k.castSucc = 0) → M r k.castSucc ≤ 0 := by
  induction rows using List.reverseRecOn with
  | nil => simp
  | append_singleton rows row ih =>
    rw [← List.cons_append, List.pairwise_append] at hrows
    obtain ⟨hsorted, -, hlast⟩ := hrows
    have hbelow : ∀ r ∈ k :: rows, r < row := fun r hr => hlast r hr row (List.mem_singleton_self _)
    have hkept : rows.foldl (sortRow k) M row = M row := sortRows_eq_of_lt fun r hr =>
      ⟨(List.pairwise_cons.mp hsorted).1 r hr, hbelow r (List.mem_cons_of_mem _ hr)⟩
    rw [List.foldl_append, List.foldl_cons, List.foldl_nil, sortRow_nonpos, hkept, ih hsorted]
    simp only [← List.cons_append, List.mem_append, List.mem_singleton]
    constructor
    · rintro ⟨hle, hearlier⟩ r (hr | rfl) hzero
      · refine hearlier (hzero row (.inr rfl) (hbelow r hr)) r hr fun r' hr' => hzero r' (.inl hr')
      · exact hle
    · intro h
      refine ⟨h row (.inr rfl) ?_, fun hzero r hr hrest => h r (.inl hr) ?_⟩
      · rintro r' (hr' | rfl) hlt
        · exact absurd hlt (hbelow r' hr').not_gt
        · exact absurd hlt (lt_irrefl _)
      · rintro r' (hr' | rfl) hlt
        · exact hrest r' hr' hlt
        · exact hzero

end Pivot

/-- The last entry of the column is negative, and zeros follow. -/
def Misled (M : Fin n → Fin (n + 1) → K) (k : Fin n) : Prop :=
  ∃ r, k ≤ r ∧ M r k.castSucc < 0 ∧ (∃ r', r < r') ∧ ∀ r', r < r' → M r' k.castSucc = 0

section Misled

variable {M : Fin n → Fin (n + 1) → K} {k : Fin n}

theorem mem_cons_below {r : Fin n} : r ∈ k :: below k ↔ k ≤ r := by
  rw [List.mem_cons, mem_below, le_iff_eq_or_lt, eq_comm]

theorem pairwise_cons_below (k : Fin n) : (k :: below k).Pairwise (· < ·) :=
  List.pairwise_cons.mpr ⟨fun _ => mem_below.mp, (List.pairwise_lt_finRange n).filter _⟩

theorem exists_lastEntry (h : ¬ ∀ r, k ≤ r → M r k.castSucc = 0) :
    ∃ r, k ≤ r ∧ M r k.castSucc ≠ 0 ∧ ∀ r', r < r' → M r' k.castSucc = 0 := by
  obtain ⟨r, hr⟩ := not_forall.mp h
  obtain ⟨hkr, hne⟩ := Classical.not_imp.mp hr
  obtain ⟨last, ⟨hklast, hlast⟩, hmax⟩ := wellFounded_gt.has_min
    {r | k ≤ r ∧ M r k.castSucc ≠ 0} ⟨r, hkr, hne⟩
  refine ⟨last, hklast, hlast, fun r' hlt => ?_⟩
  by_contra hentry
  exact hmax r' ⟨hklast.trans hlt.le, hentry⟩ hlt

/-- There is no pivot if there is no entry, or if the sort is misled. -/
theorem sortRows_eq_zero [IsStrictOrderedRing K] : sortRows M k k k.castSucc = 0 ↔
    (∀ r, k ≤ r → M r k.castSucc = 0) ∨ Misled M k := by
  have hmem : ∀ r, r ∈ k :: below k ↔ k ≤ r := fun r => mem_cons_below
  have hsorted := pairwise_cons_below k
  rw [sortRows]
  revert hmem hsorted
  induction below k using List.reverseRecOn with
  | nil =>
    intro hmem _
    have hlast : ∀ r, k ≤ r → r = k := fun r hr => List.mem_singleton.mp ((hmem r).mpr hr)
    constructor
    · exact fun hzero => .inl fun r hr => by rw [hlast r hr]; exact hzero
    · rintro (hzero | ⟨r, hr, -, ⟨r', hlt⟩, -⟩)
      · exact hzero k le_rfl
      · exact absurd hlt (by rw [hlast r hr, hlast r' (hr.trans hlt.le)]; exact lt_irrefl k)
  | append_singleton rows row _ =>
    intro hmem hsorted
    rw [← List.cons_append] at hmem hsorted
    obtain ⟨hfirst, -, hlast⟩ := List.pairwise_append.mp hsorted
    have hbelow : ∀ r ∈ k :: rows, r < row := fun r hr => hlast r hr row (List.mem_singleton_self _)
    have hsplit : ∀ r, k ≤ r → r ∈ k :: rows ∨ r = row := fun r hr =>
      (List.mem_append.mp ((hmem r).mpr hr)).imp_right List.mem_singleton.mp
    have hkept : rows.foldl (sortRow k) M row = M row := sortRows_eq_of_lt fun r hr =>
      ⟨(List.pairwise_cons.mp hfirst).1 r hr, hbelow r (List.mem_cons_of_mem _ hr)⟩
    rw [List.foldl_append, List.foldl_cons, List.foldl_nil, sortRow_eq_zero, hkept,
      sortRows_nonpos rows hfirst]
    constructor
    · rintro ⟨hzero, hle⟩
      refine or_iff_not_imp_left.mpr fun hentries => ?_
      obtain ⟨r, hkr, hne, hrest⟩ := exists_lastEntry hentries
      rcases hsplit r hkr with hr | rfl
      · exact ⟨r, hkr, lt_of_le_of_ne (hle r hr fun r' _ => hrest r') hne, ⟨row, hbelow r hr⟩,
          hrest⟩
      · exact absurd hzero hne
    · have hrowk : k ≤ row := (hmem row).mp (List.mem_append_right _ (List.mem_singleton_self _))
      rintro (hzero | ⟨r, hkr, hneg, ⟨r', hlt⟩, hrest⟩)
      · refine ⟨hzero row hrowk, fun r hr _ => (hzero r ?_).le⟩
        exact (hmem r).mp (List.mem_append_left _ hr)
      · have hr : r < row := by
          rcases hsplit r' (hkr.trans hlt.le) with hr' | rfl
          · exact hlt.trans (hbelow r' hr')
          · exact hlt
        refine ⟨hrest row hr, fun r₂ hr₂ hlater => ?_⟩
        rcases lt_trichotomy r₂ r with hcmp | rfl | hcmp
        · have hrmem := (hsplit r hkr).resolve_right hr.ne
          exact absurd (hlater r hrmem hcmp) hneg.ne
        · exact hneg.le
        · exact (hrest r₂ hcmp).le

end Misled

/-! ### Runs -/

/-- The matrix before the step for column `k`, when there are pivots before it. -/
def beforeStep (M : Fin n → Fin (n + 1) → K) (k : ℕ) : Fin n → Fin (n + 1) → K :=
  ((List.finRange n).take k).foldl (fun M cnt => clearBelow (sortRows M cnt) cnt) M

section Runs

variable {M : Fin n → Fin (n + 1) → K}

theorem gaussLoop_succeeds (rows : List (Fin n)) (M : Fin n → Fin (n + 1) → K) :
    (∃ N, gaussLoop rows M = .ok N) ↔ ∀ k (hk : k < rows.length),
      sortRows ((rows.take k).foldl (fun M cnt => clearBelow (sortRows M cnt) cnt) M)
        rows[k] rows[k] rows[k].castSucc ≠ 0 := by
  induction rows generalizing M with
  | nil => exact ⟨fun _ _ hk => absurd hk (Nat.not_lt_zero _), fun _ => ⟨M, rfl⟩⟩
  | cons cnt rows ih =>
    rw [gaussLoop]
    constructor
    · rintro ⟨N, hrun⟩ k hk
      split_ifs at hrun with hpivot
      cases k with
      | zero => exact hpivot
      | succ k => exact (ih _).mp ⟨N, hrun⟩ k (Nat.lt_of_succ_lt_succ hk)
    · intro h
      have hpivot : sortRows M cnt cnt cnt.castSucc ≠ 0 := h 0 (Nat.succ_pos _)
      rw [if_neg hpivot]
      exact (ih _).mpr fun k hk => h (k + 1) (Nat.succ_lt_succ hk)

theorem gaussElimination_succeeds : (∃ N, gaussElimination M = .ok N) ↔
    ∀ k : Fin n, sortRows (beforeStep M k) k k k.castSucc ≠ 0 := by
  rw [gaussElimination, gaussLoop_succeeds]
  simp only [List.length_finRange, List.getElem_finRange, beforeStep]
  exact ⟨fun h k => h k k.isLt, fun h k hk => h ⟨k, hk⟩⟩

theorem beforeStep_succ (k : Fin n) :
    beforeStep M (k + 1) = clearBelow (sortRows (beforeStep M k) k) k := by
  have hk : k.val < (List.finRange n).length := by
    rw [List.length_finRange]
    exact k.isLt
  rw [beforeStep, List.take_succ_eq_append_getElem hk, List.foldl_append, ← beforeStep,
    List.getElem_finRange]
  rfl

theorem reduced_beforeStep {k : ℕ} (hk : k ≤ n)
    (h : ∀ c : Fin n, c.val < k → sortRows (beforeStep M c) c c c.castSucc ≠ 0) :
    Reduced M k (beforeStep M k) := by
  induction k with
  | zero => exact reduced_zero M
  | succ k ih =>
    have hreduced := ih (by omega) fun c hc => h c (by omega)
    have hpivot := h ⟨k, hk⟩ (Nat.lt_succ_self k)
    rw [beforeStep_succ ⟨k, hk⟩]
    exact (hreduced.sorted (k := ⟨k, hk⟩)).step hpivot

variable [IsStrictOrderedRing K]

/-- The elimination comes through if the solutions are unique and no step is misled. -/
theorem gaussElimination_succeeds_iff : (∃ N, gaussElimination M = .ok N) ↔
    Regular M ∧ ∀ k : Fin n, ¬ Misled (beforeStep M k) k := by
  constructor
  · rintro ⟨N, hrun⟩
    refine ⟨(reduced_of_gaussElimination hrun).regular, fun k hmisled => ?_⟩
    exact gaussElimination_succeeds.mp ⟨N, hrun⟩ k (sortRows_eq_zero.mpr (.inr hmisled))
  · rintro ⟨hregular, hsound⟩
    rw [gaussElimination_succeeds]
    intro k
    induction hd : k.val using Nat.strong_induction_on generalizing k with
    | _ d ih =>
      subst hd
      intro hzero
      have hreduced : Reduced M k (beforeStep M k) :=
        reduced_beforeStep k.isLt.le fun c hc => ih c (by omega) c rfl
      rcases sortRows_eq_zero.mp hzero with hcolumn | hmisled
      · obtain ⟨x, hx, hk⟩ := exists_kernel hreduced.cleared
          (fun c hc => hreduced.pivots c hc) hcolumn
        have hxzero := hregular x ((hreduced.meets 0 x).mp hx)
        rw [hxzero] at hk
        exact zero_ne_one hk
      · exact hsound k hmisled

/-- A fit succeeds if the readings have one best surface and no step is misled. -/
theorem fit_succeeds_iff {sqrt : K → K} {ctx : MpuCalCtx K} {readings : List (Reading K)}
    (hcount : readings.length % 2 ^ 32 ≠ 0) :
    (fitEllipsoid sqrt (collect ctx readings)).1 = 0 ↔
      Regular (normal (observations readings)) ∧
        ∀ k : Fin matrixSize,
          ¬ Misled (beforeStep (calDataAverage (collect ctx readings)).mMatrix k) k := by
  have hregular : Regular (calDataAverage (collect ctx readings)).mMatrix ↔
      Regular (normal (observations readings)) :=
    forall_congr' fun x => imp_congr (average_meets hcount) Iff.rfl
  rw [← hregular, ← gaussElimination_succeeds_iff]
  constructor
  · intro h
    obtain ⟨N, hrun, -⟩ := fitEllipsoid_succeeds h
    exact ⟨N, hrun⟩
  · rintro ⟨N, hrun⟩
    rw [fitEllipsoid, hrun]

/-- The readings of `demo`, moved by 1 along the first axis. -/
def movedReadings : List (Reading ℚ) :=
  demoReadings.map fun reading => (reading.1 + 1, reading.2)

theorem fit_succeeds_iff_moved :
    ¬ (Regular (normal (observations movedReadings)) ∧ ∀ k : Fin matrixSize,
      ¬ Misled (beforeStep (calDataAverage (collect demoCtx movedReadings)).mMatrix k) k) := by
  intro h
  have hfit : (fitEllipsoid Rat.sqrt (collect demoCtx movedReadings)).1 = 0 :=
    (fit_succeeds_iff (by decide)).mpr h
  revert hfit
  decide +kernel

end Runs

end EllipFit

end MarkitNode
