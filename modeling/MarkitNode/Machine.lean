import Mathlib.Tactic.Common

/-!
Labelled machines and the runs they take. A machine has a set of initial
states and a partial step function: `step s a` is the state after label `a`,
or `none` where `a` is not enabled in `s`. Runs are lists of labels, so that a
concrete run can be evaluated; reachability under a condition on the steps is
the inductive closure used for invariants. `Reach.invariant` packages the one
induction every safety result needs, and `reach_of_exec` turns an evaluated
run into a reachability proof.
-/

namespace MarkitNode

structure Machine (S A : Type*) where
  Init : S → Prop
  step : S → A → Option S

namespace Machine

variable {S A : Type*} (M : Machine S A)

/-- States reached from an initial one by steps that all meet `ok`. -/
inductive Reach (ok : S → A → Prop) : S → Prop
  | init {s : S} : M.Init s → Reach ok s
  | step {s t : S} {a : A} : Reach ok s → ok s a → M.step s a = some t → Reach ok t

/-- No condition on the steps. -/
def anyStep : S → A → Prop := fun _ _ => True

def exec : S → List A → Option S
  | s, [] => some s
  | s, a :: rest =>
      match M.step s a with
      | none => none
      | some t => exec t rest

/-- Every step the run takes from `s` meets `ok` in the state it is taken in. -/
def Along (ok : S → A → Prop) : S → List A → Prop
  | _, [] => True
  | s, a :: rest => ok s a ∧
      match M.step s a with
      | none => True
      | some t => Along ok t rest

instance decidableAlong (ok : S → A → Prop) [∀ s a, Decidable (ok s a)] :
    ∀ (s : S) (run : List A), Decidable (M.Along ok s run)
  | _, [] => inferInstanceAs (Decidable True)
  | s, a :: rest =>
      match h : M.step s a with
      | none => decidable_of_iff (ok s a) (by simp [Along, h])
      | some t =>
          have := decidableAlong ok t rest
          decidable_of_iff (ok s a ∧ M.Along ok t rest) (by simp [Along, h])

instance decidableAnyStep (s : S) (a : A) : Decidable (anyStep s a) :=
  inferInstanceAs (Decidable True)

variable {M}

@[simp] theorem along_nil (ok : S → A → Prop) (s : S) : M.Along ok s [] := trivial

theorem exec_cons_of_step {s t : S} {a : A} (h : M.step s a = some t) (rest : List A) :
    M.exec s (a :: rest) = M.exec t rest := by
  simp only [exec, h]

theorem exec_cons_eq_some {s u : S} {a : A} {rest : List A}
    (h : M.exec s (a :: rest) = some u) :
    ∃ t, M.step s a = some t ∧ M.exec t rest = some u := by
  cases hs : M.step s a with
  | none => simp [exec, hs] at h
  | some t =>
    refine ⟨t, rfl, ?_⟩
    simpa only [exec, hs] using h

theorem exec_append_eq_some {s u : S} {run rest : List A}
    (h : M.exec s (run ++ rest) = some u) :
    ∃ t, M.exec s run = some t ∧ M.exec t rest = some u := by
  induction run generalizing s with
  | nil => exact ⟨s, rfl, h⟩
  | cons a run ih =>
    obtain ⟨t, ht, hrest⟩ := exec_cons_eq_some h
    obtain ⟨v, hv, hu⟩ := ih hrest
    exact ⟨v, (exec_cons_of_step ht run).trans hv, hu⟩

theorem exec_append {s t u : S} {run rest : List A} (h : M.exec s run = some t)
    (hrest : M.exec t rest = some u) : M.exec s (run ++ rest) = some u := by
  induction run generalizing s with
  | nil =>
    cases Option.some.inj h
    exact hrest
  | cons a run ih =>
    obtain ⟨v, hv, hrun⟩ := exec_cons_eq_some h
    exact (exec_cons_of_step hv (run ++ rest)).trans (ih hrun)

theorem along_cons_of_step {ok : S → A → Prop} {s t : S} {a : A}
    (h : M.step s a = some t) (rest : List A) :
    M.Along ok s (a :: rest) ↔ ok s a ∧ M.Along ok t rest := by
  simp only [Along, h]

theorem along_singleton {ok : S → A → Prop} {s : S} {a : A} : M.Along ok s [a] ↔ ok s a := by
  cases hs : M.step s a <;> simp [Along, hs]

theorem along_anyStep (s : S) (run : List A) : M.Along anyStep s run := by
  induction run generalizing s with
  | nil => trivial
  | cons a rest ih =>
    refine ⟨trivial, ?_⟩
    cases hs : M.step s a with
    | none => trivial
    | some t => exact ih t

theorem Along.mono {ok ok' : S → A → Prop} (hle : ∀ s a, ok s a → ok' s a) {s : S} {run : List A}
    (h : M.Along ok s run) : M.Along ok' s run := by
  induction run generalizing s with
  | nil => trivial
  | cons a rest ih =>
    refine ⟨hle s a h.1, ?_⟩
    cases hs : M.step s a with
    | none => trivial
    | some t => exact ih ((along_cons_of_step hs rest).mp h).2

theorem back_of_exec {B : S → Prop} (hback : ∀ s a t, M.step s a = some t → B t → B s)
    {s t : S} {run : List A} (hrun : M.exec s run = some t) (hB : B t) : B s := by
  induction run generalizing s with
  | nil =>
    cases Option.some.inj hrun
    exact hB
  | cons a rest ih =>
    obtain ⟨u, hu, hrest⟩ := exec_cons_eq_some hrun
    exact hback s a u hu (ih hrest)

/-- When each step keeps `P` exactly if it meets `ok`, a whole run keeps `P`
exactly if all of its steps do. `B` is a bound on the last state that earlier
states inherit. -/
theorem exec_iff_along {I B P : S → Prop} {ok : S → A → Prop}
    (hback : ∀ s a t, M.step s a = some t → B t → B s)
    (hstep : ∀ s a t, I s → B t → M.step s a = some t → I t ∧ (P t ↔ P s ∧ ok s a))
    {s t : S} {run : List A} (hI : I s) (hrun : M.exec s run = some t) (hB : B t) :
    P t ↔ P s ∧ M.Along ok s run := by
  induction run generalizing s with
  | nil =>
    cases Option.some.inj hrun
    simp
  | cons a rest ih =>
    obtain ⟨u, hu, hrest⟩ := exec_cons_eq_some hrun
    obtain ⟨hIu, hPu⟩ := hstep s a u hI (back_of_exec hback hrest hB) hu
    rw [ih hIu hrest, hPu, along_cons_of_step hu, and_assoc]

variable (M) in
/-- `P` holds in every state the run passes, the first and the last included. -/
def Throughout (P : S → Prop) : S → List A → Prop
  | s, [] => P s
  | s, a :: rest => P s ∧
      match M.step s a with
      | none => True
      | some t => Throughout P t rest

theorem throughout_cons_of_step {P : S → Prop} {s t : S} {a : A} (h : M.step s a = some t)
    (rest : List A) : M.Throughout P s (a :: rest) ↔ P s ∧ M.Throughout P t rest := by
  simp only [Throughout, h]

theorem Throughout.head {P : S → Prop} {s : S} {run : List A} (h : M.Throughout P s run) :
    P s := by
  cases run with
  | nil => exact h
  | cons a rest => exact h.1

/-- When the steps that meet `ok` keep an invariant that gives `P`, and every
other step breaks `P` at once, `P` holds throughout exactly the runs all of
whose steps meet `ok`. `J` holds whatever the steps are. -/
theorem throughout_iff_along {J I P : S → Prop} {ok : S → A → Prop}
    (hJ : ∀ s a t, J s → M.step s a = some t → J t)
    (hkeep : ∀ s a t, J s → I s → ok s a → M.step s a = some t → I t)
    (hbreak : ∀ s a t, J s → I s → ¬ ok s a → M.step s a = some t → ¬ P t)
    (hP : ∀ s, J s → I s → P s)
    {s t : S} {run : List A} (hs : J s) (hI : I s) (hrun : M.exec s run = some t) :
    M.Throughout P s run ↔ M.Along ok s run := by
  induction run generalizing s with
  | nil => exact ⟨fun _ => trivial, fun _ => hP s hs hI⟩
  | cons a rest ih =>
    obtain ⟨u, hu, hrest⟩ := exec_cons_eq_some hrun
    rw [throughout_cons_of_step hu, along_cons_of_step hu]
    constructor
    · rintro ⟨_, hall⟩
      have hok : ok s a := by
        by_contra hbad
        exact hbreak s a u hs hI hbad hu hall.head
      exact ⟨hok, (ih (hJ s a u hs hu) (hkeep s a u hs hI hok hu) hrest).mp hall⟩
    · rintro ⟨hok, halong⟩
      exact ⟨hP s hs hI,
        (ih (hJ s a u hs hu) (hkeep s a u hs hI hok hu) hrest).mpr halong⟩

namespace Reach

variable {ok ok' : S → A → Prop}

/-- What holds initially and is kept by every allowed step holds of every
state the machine reaches. -/
theorem invariant {I : S → Prop} (hinit : ∀ s, M.Init s → I s)
    (hstep : ∀ s a t, I s → ok s a → M.step s a = some t → I t) {s : S}
    (h : M.Reach ok s) : I s := by
  induction h with
  | init h0 => exact hinit _ h0
  | step _ hok hs ih => exact hstep _ _ _ ih hok hs

/-- An invariant may build on one that is already known. -/
theorem invariant_of {J I : S → Prop} (hJ : ∀ s, M.Reach ok s → J s)
    (hinit : ∀ s, M.Init s → I s)
    (hstep : ∀ s a t, J s → I s → ok s a → M.step s a = some t → I t) {s : S}
    (h : M.Reach ok s) : I s := by
  induction h with
  | init h0 => exact hinit _ h0
  | step hs hok ht ih => exact hstep _ _ _ (hJ _ hs) ih hok ht

theorem exec {s t : S} (h : M.Reach ok s) {run : List A} (hok : M.Along ok s run)
    (hrun : M.exec s run = some t) : M.Reach ok t := by
  induction run generalizing s with
  | nil =>
    cases Option.some.inj hrun
    exact h
  | cons a rest ih =>
    obtain ⟨u, hu, hrest⟩ := exec_cons_eq_some hrun
    obtain ⟨ha, halong⟩ := (along_cons_of_step hu rest).mp hok
    exact ih (h.step ha hu) halong hrest

end Reach

/-- An evaluated run whose steps meet the condition reaches its last state. -/
theorem reach_of_exec {ok : S → A → Prop} {s t : S} {run : List A} (h0 : M.Init s)
    (hok : M.Along ok s run) (hrun : M.exec s run = some t) : M.Reach ok t :=
  (Reach.init h0).exec hok hrun

end Machine

end MarkitNode
