import MarkitNode.ButtonPresses

/-!
What the presses of the button make the device do. `button_daemon` takes the events of the
handler off the queue; behind a click it waits for another event and drops it, whatever it
is. A long press cannot be dropped in this way as long as the daemon is not late, since it
lasts longer than the daemon waits.
-/

namespace MarkitNode

namespace ButtonActions

open ButtonPresses

/-- An event, the tick at which the handler sent it, and the tick at which the daemon has
it from the queue. -/
structure Receipt where
  ev : ButtonEvent
  arrived : Nat
  taken : Nat
  deriving DecidableEq

inductive Action
  /-- `sys_set_operation_mode(!g_mcu.state.active)` -/
  | setOperationMode
  | enterDeepSleep
  deriving DecidableEq, Repr

section Daemon

variable (doubleClickDuration : Nat)

/-- `doubleClickDuration` is `CONFIG_DOUBLE_CLICK_DURATION`, in ticks. -/
def buttonDaemon : List Receipt → List Action
  | [] => []
  | [r] =>
      match r.ev with
      | .none => []
      | .click => [.setOperationMode]
      | .longPress => [.enterDeepSleep]
  | r :: next :: rest =>
      match r.ev with
      | .none => buttonDaemon (next :: rest)
      | .click =>
          if next.arrived ≤ r.taken + doubleClickDuration then buttonDaemon rest
          else .setOperationMode :: buttonDaemon (next :: rest)
      | .longPress => [.enterDeepSleep]

/-- The clicks that are not half of a double click. -/
def singleClicks : List Receipt → List Action
  | [] => []
  | [_] => [.setOperationMode]
  | r :: next :: rest =>
      if next.arrived ≤ r.taken + doubleClickDuration then singleClicks rest
      else .setOperationMode :: singleClicks (next :: rest)

/-- No long press comes while the daemon waits behind the event before it. -/
def LongPressApart : List Receipt → Prop :=
  List.IsChain fun r next => next.ev = .longPress → r.taken + doubleClickDuration < next.arrived

variable {doubleClickDuration}

theorem buttonDaemon_apart {receipts : List Receipt}
    (happart : LongPressApart doubleClickDuration receipts)
    (hevents : ∀ r ∈ receipts, r.ev ≠ .none) :
    buttonDaemon doubleClickDuration receipts =
      singleClicks doubleClickDuration (receipts.takeWhile (·.ev = .click)) ++
        if ∃ r ∈ receipts, r.ev = .longPress then [.enterDeepSleep] else [] := by
  induction receipts using buttonDaemon.induct doubleClickDuration with
  | case1 => rfl
  | case2 r h => exact absurd h (hevents r List.mem_cons_self)
  | case3 r h => simp [buttonDaemon, singleClicks, h]
  | case4 r h => simp [buttonDaemon, singleClicks, h]
  | case5 r next rest h ih => exact absurd h (hevents r List.mem_cons_self)
  | case6 r next rest h hsoon ih =>
    obtain ⟨hlong, hchain⟩ := List.isChain_cons_cons.mp happart
    -- the event that is dropped is a click
    have hnext : next.ev = .click := by
      cases hev : next.ev with
      | none => exact absurd hev (hevents next (by simp))
      | click => rfl
      | longPress => exact absurd (hlong hev) (Nat.not_lt.mpr hsoon)
    rw [buttonDaemon, h]
    simp only [if_pos hsoon]
    rw [ih hchain.tail fun r hr => hevents r (by simp [hr])]
    simp [singleClicks, h, hnext, hsoon]
  | case7 r next rest h hlate ih =>
    have hrest := ih happart.tail fun r hr => hevents r (List.mem_cons_of_mem _ hr)
    have hsingle : singleClicks doubleClickDuration
        (r :: (next :: rest).takeWhile (·.ev = .click)) =
        .setOperationMode :: singleClicks doubleClickDuration
          ((next :: rest).takeWhile (·.ev = .click)) := by
      by_cases hnext : next.ev = .click
      · rw [List.takeWhile_cons_of_pos (by simp [hnext]), singleClicks, if_neg hlate]
      · rw [List.takeWhile_cons_of_neg (by simp [hnext])]
        rfl
    have hclick : (r :: next :: rest).takeWhile (·.ev = .click) =
        r :: (next :: rest).takeWhile (·.ev = .click) :=
      List.takeWhile_cons_of_pos (by simp [h])
    rw [buttonDaemon, h]
    simp only [if_neg hlate]
    rw [hrest, hclick, hsingle, List.cons_append]
    simp [h]
  | case8 r next rest h => simp [buttonDaemon, singleClicks, h]

end Daemon

/-! ### Presses -/

section Presses

variable (longPressDuration : UInt32)

/-- The queue holds the events of the presses, and the daemon is not later than `delay`. -/
structure Received (edges : List Nat) (delay : Nat) (receipts : List Receipt) : Prop where
  events : (run longPressDuration .init edges).button.buttonEventQueue =
    some (receipts.map (·.ev))
  arrived : receipts.map (·.arrived) = (presses false edges).map Prod.snd
  taken : ∀ r ∈ receipts, r.taken ≤ r.arrived + delay

variable {longPressDuration} {edges : List Nat} {delay doubleClickDuration : Nat}
  {receipts : List Receipt}

/-- A press begins after the end of the press before it. -/
theorem pairs_isChain (htimed : Timed edges) :
    (pairs edges).IsChain fun press next => press.2 ≤ next.1 := by
  induction edges using pairs.induct with
  | case1 start stop rest ih =>
    obtain ⟨-, hrest⟩ := List.isChain_cons_cons.mp htimed
    rw [pairs]
    cases rest with
    | nil => exact List.isChain_singleton _
    | cons start' rest =>
      cases rest with
      | nil => exact List.isChain_singleton _
      | cons stop' rest =>
        obtain ⟨⟨hle, -⟩, -⟩ := List.isChain_cons_cons.mp hrest
        exact List.isChain_cons_cons.mpr ⟨hle, ih hrest.tail⟩
  | case2 edges hshort =>
    cases edges with
    | nil => exact List.isChain_nil
    | cons start edges =>
      cases edges with
      | nil => exact List.isChain_nil
      | cons stop rest => exact absurd rfl (hshort start stop rest)

theorem Received.eq (htimed : Timed edges) (h : Received longPressDuration edges delay receipts) :
    receipts.map (fun r => (r.ev, r.arrived)) =
      (presses false edges).map fun press => (eventOf longPressDuration press, press.2) := by
  have hevents := h.events
  rw [(run_init longPressDuration htimed).1, Option.some.injEq] at hevents
  have hleft : receipts.map (fun r => (r.ev, r.arrived)) =
      (receipts.map (·.ev)).zip (receipts.map (·.arrived)) := by
    rw [List.zip_map']
  rw [hleft, ← hevents, h.arrived, List.zip_map']

/-- A long press is longer than the daemon waits. -/
theorem Received.apart (htimed : Timed edges)
    (h : Received longPressDuration edges delay receipts)
    (hdelay : delay + doubleClickDuration ≤ longPressDuration.toNat) :
    LongPressApart doubleClickDuration receipts := by
  have hevents : (receipts.map fun r => (r.ev, r.arrived)).IsChain fun r next =>
      next.1 = .longPress → r.2 + longPressDuration.toNat < next.2 := by
    rw [h.eq htimed]
    refine List.isChain_map_of_isChain _ (fun press next hle hlong => ?_) (pairs_isChain htimed)
    have hduration : longPressDuration.toNat < next.2 - next.1 := by
      by_contra hshort
      rw [eventOf, if_neg hshort] at hlong
      cases hlong
    dsimp only
    omega
  rw [List.isChain_map] at hevents
  refine hevents.imp_of_mem_imp fun r next hr hnext hlong hev => ?_
  have htaken := h.taken r hr
  have harrived := hlong hev
  omega

/-- A long press puts the device to sleep, and before the first one each click that is not
half of a double click changes the mode once. -/
theorem buttonDaemon_presses (htimed : Timed edges)
    (h : Received longPressDuration edges delay receipts)
    (hdelay : delay + doubleClickDuration ≤ longPressDuration.toNat) :
    buttonDaemon doubleClickDuration receipts =
      singleClicks doubleClickDuration (receipts.takeWhile (·.ev = .click)) ++
        if ∃ press ∈ presses false edges, longPressDuration.toNat < press.2 - press.1
        then [.enterDeepSleep] else [] := by
  have hmem : ∀ ev, (∃ r ∈ receipts, r.ev = ev) ↔
      ∃ press ∈ presses false edges, eventOf longPressDuration press = ev := by
    intro ev
    have heq := congrArg (fun l => ev ∈ l.map Prod.fst) (h.eq htimed)
    simpa using heq
  have hnone : ∀ r ∈ receipts, r.ev ≠ .none := by
    intro r hr hev
    obtain ⟨press, -, hpress⟩ := (hmem _).mp ⟨r, hr, hev⟩
    unfold eventOf at hpress
    split at hpress <;> cases hpress
  have hlong : (∃ r ∈ receipts, r.ev = .longPress) ↔
      ∃ press ∈ presses false edges, longPressDuration.toNat < press.2 - press.1 := by
    rw [hmem]
    refine exists_congr fun press => and_congr_right fun _ => ?_
    unfold eventOf
    split <;> simp_all
  rw [buttonDaemon_apart (h.apart htimed hdelay) hnone]
  simp only [hlong]

/-- Two clicks, a double click and a long press. -/
theorem buttonDaemon_presses_fivePresses :
    buttonDaemon 50 [⟨.click, 110, 110⟩, ⟨.click, 210, 215⟩, ⟨.click, 310, 310⟩,
      ⟨.click, 340, 342⟩, ⟨.longPress, 500, 520⟩] =
      [.setOperationMode, .setOperationMode, .enterDeepSleep] := by
  have htimed : Timed [100, 110, 200, 210, 300, 310, 330, 340, 360, 500] := by simp [Timed]
  have hreceived : Received 100 [100, 110, 200, 210, 300, 310, 330, 340, 360, 500] 50
      [⟨.click, 110, 110⟩, ⟨.click, 210, 215⟩, ⟨.click, 310, 310⟩, ⟨.click, 340, 342⟩,
        ⟨.longPress, 500, 520⟩] := ⟨by decide +kernel, by decide, by decide⟩
  rw [buttonDaemon_presses htimed hreceived (by decide)]
  decide

end Presses

end ButtonActions

end MarkitNode
