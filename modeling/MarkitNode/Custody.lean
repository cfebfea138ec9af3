import Mathlib.Data.List.Induction
import Mathlib.Tactic.Common

/-!
Handles that one owner acquires, uses and releases, as the list of these events.
`follow` reads the list with the handle that is held, and stops at an event that
is out of order. A list that it reads to the end never has two handles open, and
no event of it concerns a handle that is not open.
-/

namespace MarkitNode

namespace Custody

variable {H : Type*} [DecidableEq H]

inductive Event (H : Type*)
  | acquire (h : H)
  | use (h : H)
  | release (h : H)
  deriving DecidableEq, Repr

/-- What is held after an event, if the event is in order. -/
def handle : Option H → Event H → Option (Option H)
  | none, .acquire h => some (some h)
  | some g, .use h => if g = h then some (some g) else none
  | some g, .release h => if g = h then some none else none
  | _, _ => none

def follow : Option H → List (Event H) → Option (Option H)
  | held, [] => some held
  | held, e :: rest => (handle held e).bind fun next => follow next rest

/-- The events are in order from the start on and leave `held`. -/
def Orderly (log : List (Event H)) (held : Option H) : Prop := follow none log = some held

/-- The handles that are open after the events, in whatever order they come. -/
def openHandles (log : List (Event H)) : List H :=
  log.foldl (fun held e =>
    match e with
    | .acquire h => h :: held
    | .use _ => held
    | .release h => held.erase h) []

/-- One handle is open at a time, and only an open handle is used or released. -/
structure Proper (log : List (Event H)) : Prop where
  single : ∀ before after, log = before ++ after → (openHandles before).length ≤ 1
  use_open : ∀ before h after, log = before ++ .use h :: after → h ∈ openHandles before
  release_open : ∀ before h after, log = before ++ .release h :: after → h ∈ openHandles before

/-- All that an event in order can do. -/
theorem handle_cases {held next : Option H} {e : Event H} (h : handle held e = some next) :
    (∃ g, e = .acquire g ∧ held = none ∧ next = some g) ∨
    (∃ g, e = .use g ∧ held = some g ∧ next = some g) ∨
    (∃ g, e = .release g ∧ held = some g ∧ next = none) := by
  cases held with
  | none =>
    cases e with
    | acquire g => exact Or.inl ⟨g, rfl, rfl, (Option.some.inj h).symm⟩
    | use g => cases h
    | release g => cases h
  | some g =>
    cases e with
    | acquire g' => cases h
    | use g' =>
      rw [handle] at h
      split at h
      · rename_i hsame
        exact Or.inr (Or.inl ⟨g, by rw [hsame], rfl, (Option.some.inj h).symm⟩)
      · cases h
    | release g' =>
      rw [handle] at h
      split at h
      · rename_i hsame
        exact Or.inr (Or.inr ⟨g, by rw [hsame], rfl, (Option.some.inj h).symm⟩)
      · cases h

theorem follow_cons {held next : Option H} {e : Event H} {rest : List (Event H)}
    (h : follow held (e :: rest) = some next) :
    ∃ mid, handle held e = some mid ∧ follow mid rest = some next :=
  Option.bind_eq_some_iff.mp h

theorem follow_append (held : Option H) (before after : List (Event H)) :
    follow held (before ++ after) = (follow held before).bind fun mid => follow mid after := by
  induction before generalizing held with
  | nil => rfl
  | cons e rest ih =>
    rw [List.cons_append, follow, follow, Option.bind_assoc]
    congr 1
    funext next
    exact ih next

theorem orderly_nil : Orderly ([] : List (Event H)) none := rfl

section Steps

variable {log : List (Event H)} {held : Option H} {h : H}

theorem Orderly.append (ho : Orderly log held) {after : List (Event H)} {next : Option H}
    (hafter : follow held after = some next) : Orderly (log ++ after) next := by
  rw [Orderly, follow_append, ho]
  exact hafter

theorem Orderly.acquire (ho : Orderly log none) (h : H) :
    Orderly (log ++ [.acquire h]) (some h) := ho.append rfl

theorem Orderly.use (ho : Orderly log (some h)) : Orderly (log ++ [.use h]) (some h) := by
  apply ho.append
  simp [follow, handle]

theorem Orderly.release (ho : Orderly log (some h)) : Orderly (log ++ [.release h]) none := by
  apply ho.append
  simp [follow, handle]

theorem Orderly.split {before after : List (Event H)} (ho : Orderly (before ++ after) held) :
    ∃ mid, Orderly before mid ∧ follow mid after = some held := by
  rw [Orderly, follow_append] at ho
  exact Option.bind_eq_some_iff.mp ho

theorem openHandles_snoc (log : List (Event H)) (e : Event H) :
    openHandles (log ++ [e]) =
      match e with
      | .acquire h => h :: openHandles log
      | .use _ => openHandles log
      | .release h => (openHandles log).erase h := by
  rw [openHandles, List.foldl_append]
  rfl

/-- What the reader of the list holds is what is open. -/
theorem Orderly.openHandles_eq (ho : Orderly log held) : openHandles log = held.toList := by
  induction log using List.reverseRecOn generalizing held with
  | nil =>
    cases Option.some.inj ho
    rfl
  | append_singleton init e ih =>
    obtain ⟨mid, hinit, hlast⟩ := ho.split
    obtain ⟨after, hafter, hend⟩ := follow_cons hlast
    cases Option.some.inj hend
    rw [openHandles_snoc, ih hinit]
    rcases handle_cases hafter with ⟨g, rfl, rfl, rfl⟩ | ⟨g, rfl, rfl, rfl⟩ | ⟨g, rfl, rfl, rfl⟩
    · rfl
    · rfl
    · simp

theorem Orderly.proper (ho : Orderly log held) : Proper log := by
  have hevent : ∀ before e after, log = before ++ e :: after →
      ∃ mid next, openHandles before = mid.toList ∧ handle mid e = some next := by
    intro before e after heq
    rw [heq] at ho
    obtain ⟨mid, hbefore, hrest⟩ := ho.split
    obtain ⟨next, hnext, _⟩ := follow_cons hrest
    exact ⟨mid, next, hbefore.openHandles_eq, hnext⟩
  constructor
  · intro before after heq
    rw [heq] at ho
    obtain ⟨mid, hbefore, _⟩ := ho.split
    rw [hbefore.openHandles_eq]
    cases mid with
    | none => exact Nat.zero_le 1
    | some g => exact Nat.le_refl 1
  · intro before h after heq
    obtain ⟨mid, next, hopen, hnext⟩ := hevent before (.use h) after heq
    rw [hopen]
    rcases handle_cases hnext with ⟨g, ⟨⟩, rfl, rfl⟩ | ⟨g, ⟨⟩, rfl, rfl⟩ | ⟨g, ⟨⟩, rfl, rfl⟩
    exact List.mem_singleton_self h
  · intro before h after heq
    obtain ⟨mid, next, hopen, hnext⟩ := hevent before (.release h) after heq
    rw [hopen]
    rcases handle_cases hnext with ⟨g, ⟨⟩, rfl, rfl⟩ | ⟨g, ⟨⟩, rfl, rfl⟩ | ⟨g, ⟨⟩, rfl, rfl⟩
    exact List.mem_singleton_self h

end Steps

end Custody

end MarkitNode
