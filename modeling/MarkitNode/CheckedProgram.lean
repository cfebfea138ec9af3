import Mathlib.Tactic.Common

/-!
Programs whose calls may fail and whose checked calls abort on failure. A
program reads the outcomes of its calls from an environment, updates a state,
and either returns or aborts; an abort keeps the state it happened in. `Meets`
is the rule for straight-line code: it returns exactly if its checks pass.
-/

namespace MarkitNode

abbrev CheckedProgram (E S : Type) := ReaderT E (EStateM Unit S)

namespace CheckedProgram

variable {E S A B : Type}

/-- Abort unless the call has succeeded. -/
def errorCheck (ok : Bool) : CheckedProgram E S Unit :=
  fun _ s => if ok then .ok () s else .error () s

def update (f : S → S) : CheckedProgram E S Unit := fun _ s => .ok () (f s)

def outcome (f : E → A) : CheckedProgram E S A := fun env s => .ok (f env) s

/-- The program returns exactly if `checks`, with a result as in `post`, and
aborts otherwise, in a state as in `stop`. -/
def Meets (prog : CheckedProgram E S A) (env : E) (s : S) (checks : Prop)
    (post : A → S → Prop) (stop : S → Prop) : Prop :=
  match prog env s with
  | .ok a t => checks ∧ post a t
  | .error _ t => ¬ checks ∧ stop t

variable {env : E} {s : S} {checks checks' : Prop} {stop : S → Prop}

theorem bind_apply (prog : CheckedProgram E S A) (next : A → CheckedProgram E S B) (env : E)
    (s : S) : (prog >>= next) env s =
      match prog env s with
      | .ok a t => next a env t
      | .error e t => .error e t := by
  change (EStateM.bind (prog env) fun a => next a env) s = _
  rw [EStateM.bind]
  cases prog env s <;> rfl

theorem bind_ok {prog : CheckedProgram E S A} {next : A → CheckedProgram E S B} {a : A} {t : S}
    (h : prog env s = .ok a t) : (prog >>= next) env s = next a env t := by
  simp only [bind_apply, h]

theorem bind_error {prog : CheckedProgram E S A} {next : A → CheckedProgram E S B} {t : S}
    (h : prog env s = .error () t) : (prog >>= next) env s = .error () t := by
  simp only [bind_apply, h]

theorem meets_ok {prog : CheckedProgram E S A} {post : A → S → Prop} {a : A} {t : S}
    (h : prog env s = .ok a t) (hpost : post a t) : Meets prog env s True post stop := by
  simpa only [Meets, h] using ⟨trivial, hpost⟩

theorem meets_bind {prog : CheckedProgram E S A} {next : A → CheckedProgram E S B}
    {mid : A → S → Prop} {post : B → S → Prop} (h : Meets prog env s checks mid stop)
    (hnext : ∀ a t, mid a t → Meets (next a) env t checks' post stop) :
    Meets (prog >>= next) env s (checks ∧ checks') post stop := by
  cases hprog : prog env s with
  | ok a t =>
    simp only [Meets, hprog] at h
    have hrest := hnext a t h.2
    simp only [Meets, bind_ok hprog] at hrest ⊢
    cases hval : next a env t with
    | ok b u =>
      simp only [hval] at hrest
      exact ⟨⟨h.1, hrest.1⟩, hrest.2⟩
    | error _ u =>
      simp only [hval] at hrest
      exact ⟨fun hall => hrest.1 hall.2, hrest.2⟩
  | error _ t =>
    simp only [Meets, hprog] at h
    simp only [Meets, bind_error hprog]
    exact ⟨fun hall => h.1 hall.1, h.2⟩

/-- A step that cannot abort. -/
theorem meets_after {prog : CheckedProgram E S A} {next : A → CheckedProgram E S B}
    {post : B → S → Prop} {a : A} {t : S} (h : prog env s = .ok a t)
    (hnext : Meets (next a) env t checks post stop) :
    Meets (prog >>= next) env s checks post stop := by
  simpa only [Meets, bind_ok h] using hnext

theorem meets_errorCheck (ok : Bool) (hstop : stop s) :
    Meets (errorCheck ok) env s (ok = true) (fun _ t => t = s) stop := by
  cases ok with
  | false => exact ⟨nofun, hstop⟩
  | true => exact ⟨rfl, rfl⟩

/-- A checked step that leaves the state alone. -/
theorem meets_checked {prog : CheckedProgram E S Unit} {next : Unit → CheckedProgram E S B}
    {post : B → S → Prop} (h : Meets prog env s checks (fun _ t => t = s) stop)
    (hnext : Meets (next ()) env s checks' post stop) :
    Meets (prog >>= next) env s (checks ∧ checks') post stop := by
  refine meets_bind h ?_
  rintro _ t rfl
  exact hnext

/-- What follows cannot abort. -/
theorem meets_bind_ok {prog : CheckedProgram E S A} {next : A → CheckedProgram E S B}
    {mid : A → S → Prop} {post : B → S → Prop} (h : Meets prog env s checks mid stop)
    (hnext : ∀ a t, mid a t → ∃ b u, next a env t = .ok b u ∧ post b u) :
    Meets (prog >>= next) env s checks post stop := by
  have hall : Meets (prog >>= next) env s (checks ∧ True) post stop := by
    refine meets_bind h fun a t hmid => ?_
    obtain ⟨b, u, hok, hpost⟩ := hnext a t hmid
    exact meets_ok hok hpost
  simpa only [and_true] using hall

theorem meets_checked_last {prog : CheckedProgram E S Unit} {next : Unit → CheckedProgram E S B}
    {post : B → S → Prop} {b : B} {t : S} (h : Meets prog env s checks (fun _ t => t = s) stop)
    (hnext : next () env s = .ok b t) (hpost : post b t) :
    Meets (prog >>= next) env s checks post stop := by
  refine meets_bind_ok h ?_
  rintro _ _ rfl
  exact ⟨b, t, hnext, hpost⟩

theorem meets_congr {prog : CheckedProgram E S A} {post : A → S → Prop}
    (h : Meets prog env s checks post stop) (hiff : checks ↔ checks') :
    Meets prog env s checks' post stop := by
  rwa [propext hiff] at h

section Moves

variable {V : Type} {view : S → V} {f g : V → V}

/-- Whenever the program returns, it has changed the view of the state by `f`. -/
def Moves (view : S → V) (prog : CheckedProgram E S A) (f : V → V) : Prop :=
  ∀ ⦃env s a t⦄, prog env s = .ok a t → view t = f (view s)

theorem moves_bind {prog : CheckedProgram E S A} {next : A → CheckedProgram E S B}
    (h : Moves view prog f) (hnext : ∀ a, Moves view (next a) g) :
    Moves view (prog >>= next) fun v => g (f v) := by
  intro env s b u hrun
  cases hprog : prog env s with
  | ok a t =>
    rw [bind_ok hprog] at hrun
    rw [hnext a hrun, h hprog]
  | error _ t => simp only [bind_error hprog, reduceCtorEq] at hrun

theorem moves_then {prog : CheckedProgram E S A} {next : A → CheckedProgram E S B}
    (h : Moves view prog fun v => v) (hnext : ∀ a, Moves view (next a) g) :
    Moves view (prog >>= next) g :=
  moves_bind h hnext

theorem moves_update {u : S → S} (h : ∀ s, view (u s) = f (view s)) :
    Moves (E := E) view (update u) f := by
  intro env s _ t hrun
  cases hrun
  exact h s

theorem moves_outcome (r : E → A) : Moves view (outcome (S := S) r) fun v => v := by
  intro env s a t hrun
  cases hrun
  rfl

theorem moves_errorCheck (ok : E → S → Bool) :
    Moves view (fun env s => errorCheck (ok env s) env s) fun v => v := by
  intro env s _ t hrun
  cases hok : ok env s with
  | false => simp only [errorCheck, hok, Bool.false_eq_true, if_false, reduceCtorEq] at hrun
  | true =>
    simp only [errorCheck, hok, if_true] at hrun
    cases hrun
    rfl

end Moves

end CheckedProgram

end MarkitNode
