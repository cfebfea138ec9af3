import Mathlib.Algebra.Group.Nat.Defs
import Mathlib.Data.List.Chain
import Mathlib.Tactic.Common

/-!
The presses of the button. `button_fn_isr_handler` does not read the line: an
edge begins a press if none is being timed, and ends it otherwise. The edges are
given by the ticks since the start of the scheduler, of which the handler sees
the last 32 bits. A line that is held while the handler is installed, as after a
wake by the button, begins with the end of a press.
-/

namespace MarkitNode

namespace ButtonPresses

/-- `button_state_t` -/
inductive ButtonState
  | idle
  | pressed
  | released
  deriving DecidableEq, Repr

/-- `button_event_t` -/
inductive ButtonEvent
  | none
  | click
  | longPress
  deriving DecidableEq, Repr

structure Button where
  /-- what has been sent to the queue, once there is one -/
  buttonEventQueue : Option (List ButtonEvent)
  buttonState : ButtonState
  pressTimestamp : UInt32
  releaseTimestamp : UInt32
  deriving DecidableEq

/-- The `switch` of the handler. -/
def takeEdge (s : Button) (tickCount : UInt32) : Button :=
  match s.buttonState with
  | .idle => { s with buttonState := .pressed, pressTimestamp := tickCount }
  | .released | .pressed => { s with buttonState := .released, releaseTimestamp := tickCount }

/-- The static variables when `sys_init_buttons` has installed the handler. -/
def sysInitButtons : Button := ⟨some [], .idle, 0, 0⟩

section Handler

variable (longPressDuration : UInt32)

/-- `longPressDuration` is `CONFIG_LONG_PRESS_DURATION`, in ticks. -/
def buttonFnIsrHandler (s : Button) (tickCount : UInt32) : Button :=
  let s := takeEdge s tickCount
  if s.buttonState = .released then
    let ev := if longPressDuration < s.releaseTimestamp - s.pressTimestamp then .longPress
      else .click
    { s with buttonEventQueue := s.buttonEventQueue.map (· ++ [ev]), buttonState := .idle }
  else s

/-! ### Edges and presses -/

/-- The handler, and the intervals that it has measured. -/
structure Watch where
  button : Button
  began : Nat
  measured : List (Nat × Nat)

def Watch.init : Watch := ⟨sysInitButtons, 0, []⟩

/-- The handler runs on an edge. -/
def edge (w : Watch) (tick : Nat) : Watch :=
  let button := buttonFnIsrHandler longPressDuration w.button (UInt32.ofNat tick)
  if w.button.buttonState = .idle then { w with button := button, began := tick }
  else { w with button := button, measured := w.measured ++ [(w.began, tick)] }

def run (w : Watch) (edges : List Nat) : Watch := edges.foldl (edge longPressDuration) w

/-- Every other edge with the next one. -/
def pairs : List Nat → List (Nat × Nat)
  | start :: stop :: rest => (start, stop) :: pairs rest
  | _ => []

/-- The completed presses whose beginning is among the edges. -/
def presses (held : Bool) (edges : List Nat) : List (Nat × Nat) :=
  if held then pairs edges.tail else pairs edges

def eventOf (press : Nat × Nat) : ButtonEvent :=
  if longPressDuration.toNat < press.2 - press.1 then .longPress else .click

/-- The line does not stay at a level for 2^32 ticks. -/
def Timed (edges : List Nat) : Prop :=
  List.IsChain (fun start stop => start ≤ stop ∧ stop < start + 2 ^ 32) edges

/-- After every edge, one event has been sent for each press so far, and nothing
but presses has been measured. -/
def Follows (held : Bool) (edges : List Nat) : Prop :=
  ∀ past, past <+: edges →
    (run longPressDuration .init past).button.buttonEventQueue =
        some ((presses held past).map (eventOf longPressDuration)) ∧
      ∀ interval ∈ (run longPressDuration .init past).measured, interval ∈ presses held past

/-! ### What the handler measures -/

/-- The subtraction of the time stamps does not mind the wrap of the counter. -/
theorem toNat_elapsed {start stop : Nat} (h : start ≤ stop) (hlt : stop < start + 2 ^ 32) :
    (UInt32.ofNat stop - UInt32.ofNat start).toNat = stop - start := by
  rw [UInt32.toNat_sub, UInt32.toNat_ofNat', UInt32.toNat_ofNat']
  omega

theorem edge_idle {w : Watch} (h : w.button.buttonState = .idle) (tick : Nat) :
    edge longPressDuration w tick =
      { w with
        button := { w.button with
          buttonState := .pressed
          pressTimestamp := UInt32.ofNat tick }
        began := tick } := by
  simp [edge, buttonFnIsrHandler, takeEdge, h]

theorem edge_pressed {w : Watch} (h : w.button.buttonState = .pressed)
    (hstamp : w.button.pressTimestamp = UInt32.ofNat w.began) (tick : Nat)
    (hle : w.began ≤ tick) (hlt : tick < w.began + 2 ^ 32) :
    edge longPressDuration w tick =
      { w with
        button := { w.button with
          buttonEventQueue := w.button.buttonEventQueue.map
            (· ++ [eventOf longPressDuration (w.began, tick)])
          buttonState := .idle
          releaseTimestamp := UInt32.ofNat tick }
        measured := w.measured ++ [(w.began, tick)] } := by
  have hlong : longPressDuration < UInt32.ofNat tick - UInt32.ofNat w.began ↔
      longPressDuration.toNat < tick - w.began := by
    rw [UInt32.lt_iff_toNat_lt, toNat_elapsed hle hlt]
  simp [edge, buttonFnIsrHandler, takeEdge, h, hstamp, eventOf, hlong]

/-- From rest the handler takes the edges two by two. -/
theorem run_idle {edges : List Nat} (htimed : Timed edges) {w : Watch}
    {queue : List ButtonEvent} (h : w.button.buttonState = .idle)
    (hqueue : w.button.buttonEventQueue = some queue) :
    (run longPressDuration w edges).button.buttonEventQueue =
        some (queue ++ (pairs edges).map (eventOf longPressDuration)) ∧
      (run longPressDuration w edges).measured = w.measured ++ pairs edges := by
  induction edges using pairs.induct generalizing w queue with
  | case1 start stop rest ih =>
    obtain ⟨⟨hle, hlt⟩, hrest⟩ := List.isChain_cons_cons.mp htimed
    have hpress := edge_idle longPressDuration h start
    have hrelease := edge_pressed longPressDuration (w := edge longPressDuration w start)
      (by rw [hpress]) (by rw [hpress]) stop (by rw [hpress]; exact hle) (by rw [hpress]; exact hlt)
    have hsent : (edge longPressDuration (edge longPressDuration w start)
        stop).button.buttonEventQueue =
          some (queue ++ [eventOf longPressDuration (start, stop)]) := by
      rw [hrelease, hpress]
      simp [hqueue]
    obtain ⟨hevents, hmeasured⟩ := ih hrest.tail (by rw [hrelease]) hsent
    rw [run] at hevents hmeasured
    rw [pairs, run, List.foldl_cons, List.foldl_cons]
    constructor
    · rw [hevents, List.map_cons, List.append_assoc, List.singleton_append]
    · rw [hmeasured, hrelease, hpress]
      simp
  | case2 edges hshort =>
    match edges, hshort with
    | [], _ => simp [run, pairs, hqueue]
    | [start], _ => simp [run, pairs, edge_idle longPressDuration h, hqueue]
    | start :: stop :: rest, hshort => exact absurd rfl (hshort start stop rest)

/-- The handler reports the presses of a line that is not held at first. -/
theorem run_init {edges : List Nat} (htimed : Timed edges) :
    (run longPressDuration .init edges).button.buttonEventQueue =
        some ((presses false edges).map (eventOf longPressDuration)) ∧
      (run longPressDuration .init edges).measured = presses false edges := by
  have hrest : Watch.init.button.buttonEventQueue = some [] := rfl
  exact run_idle longPressDuration htimed rfl hrest

/-- The events are those of the presses exactly where the line is not held at
first, or does not move more than once. -/
theorem follows_iff {held : Bool} {edges : List Nat} (htimed : Timed edges) :
    Follows longPressDuration held edges ↔ held = false ∨ edges.length ≤ 1 := by
  constructor
  · intro hall
    by_contra hbad
    push Not at hbad
    obtain ⟨hheld, hlen⟩ := hbad
    rw [ne_eq, Bool.not_eq_false] at hheld
    have hpast : edges.take 2 <+: edges := List.take_prefix 2 edges
    have htimedPast : Timed (edges.take 2) := List.IsChain.prefix htimed hpast
    have hsent := (hall _ hpast).1
    rw [(run_init longPressDuration htimedPast).1, Option.some.injEq] at hsent
    have hcount := congrArg List.length hsent
    rw [hheld] at hcount
    match edges, hlen with
    | start :: stop :: rest, _ => simp [presses, pairs] at hcount
  · intro hok past hpast
    have htimedPast : Timed past := List.IsChain.prefix htimed hpast
    have hrun := run_init longPressDuration htimedPast
    have hsame : presses held past = presses false past := by
      rcases hok with rfl | hlen
      · rfl
      · have hshort := Nat.le_trans hpast.length_le hlen
        match past, hshort with
        | [], _ => cases held <;> rfl
        | [start], _ => cases held <;> rfl
    rw [hsame]
    refine ⟨hrun.1, ?_⟩
    intro interval hmem
    rw [hrun.2] at hmem
    exact hmem

end Handler

/-- Two presses, the second across the wrap of the counter. -/
theorem follows_two_presses :
    Follows 100 false [4294967000, 4294967050, 4294967200, 4294967400] :=
  (follows_iff 100 (by simp [Timed])).mpr (Or.inl rfl)

/-- The button is released after the installation and pressed again 5 s later. -/
theorem release_after_wake :
    ¬ ∀ longPressDuration held edges, Timed edges →
      Follows longPressDuration held edges := by
  intro h
  have htimed : Timed [50, 550] := by simp [Timed]
  have hsent := (h 100 true [50, 550] htimed _ (List.prefix_refl _)).1
  revert hsent
  decide +kernel

end ButtonPresses

end MarkitNode
