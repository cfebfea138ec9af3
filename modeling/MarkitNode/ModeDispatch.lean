import MarkitNode.SystemLoop

/-!
The part of `app_system_loop` that carries mode changes and updates, seen from
the tasks that control the device: whether a mode change is pending or taken
by the current pass, whether an update has been asked for, how far the pass
is in its update section, and the events on their way. Every step of the loop
is one of eight steps of this view.
-/

namespace MarkitNode.ModeDispatch

open SystemLoop

/-- The update section between its post and the return of `sys_ota_perform`. -/
inductive OtaPhase
  | out
  | inactive
  | modeChange
  | perform
  deriving DecidableEq, Repr

structure View where
  pending : Bool
  inHand : Bool
  otaRequested : Bool
  phase : OtaPhase
  queue : List SysEventType

/-- The mode change that the pass has still to post. -/
def modeInHand (l : Loop) : Bool :=
  match l.pc with
  | .postModeChange => true
  | .waitBits | .getLedStatus | .readLedManual | .setLedStatus | .postLedStatus => false
  | _ => l.bits .modeChange

/-- The update that the pass has still to post. -/
def otaInHand (l : Loop) : Bool :=
  match l.pc with
  | .postOta => true
  | .postTimeSync | .postDiscovery | .getReconnect | .setReconnect | .postReconnect =>
      l.bits .otaTriggered
  | _ => false

def phaseOf : LoopPc → OtaPhase
  | .otaInactive => .inactive
  | .otaModeChange => .modeChange
  | .otaPerform => .perform
  | _ => .out

def view (b : Bus) (l : Loop) : View where
  pending := b.sysEvents .modeChange
  inHand := modeInHand l
  otaRequested := b.sysEvents .otaTriggered || otaInHand l
  phase := phaseOf l.pc
  queue := b.queue

/-- What a step of the loop can do to the view, and its effect elsewhere. -/
inductive Step (v : View) : View → LoopEffect → Prop
  | stay : Step v v .none
  | take : v.inHand = false → v.phase = .out →
      Step v { v with pending := false, inHand := v.pending } .none
  | postMode : v.inHand = true → v.phase = .out →
      Step v { v with inHand := false, queue := v.queue ++ [.modeChange] } .none
  | postOta (again : Bool) : v.otaRequested = true → v.phase = .out →
      Step v { v with otaRequested := again, phase := .inactive, queue := v.queue ++ [.ota] } .none
  | postOther (e : SysEventType) : e ≠ .modeChange → e ≠ .ota → v.phase = .out →
      Step v { v with queue := v.queue ++ [e] } .none
  | setInactive : v.phase = .inactive → Step v { v with phase := .modeChange } .setInactive
  | raise : v.phase = .modeChange → Step v { v with pending := true, phase := .perform } .none
  | failed : v.phase = .perform → Step v { v with phase := .out } .otaFailed

section Sections

variable (b : Bus) (bits : EventGroup SysEvent)

theorem view_modeSection :
    view b ⟨modeSection bits, bits⟩ = view b ⟨.postPowerMgmt, bits⟩ := by
  unfold modeSection
  split
  · next h => simp [view, modeInHand, otaInHand, phaseOf, h]
  · next h => simp [view, modeInHand, otaInHand, phaseOf, h]

theorem view_powerSection :
    view b ⟨powerSection bits, bits⟩ = view b ⟨.postPowerMgmt, bits⟩ := by
  unfold powerSection
  split
  · rfl
  · exact view_modeSection b bits

theorem view_otaSection :
    view b ⟨otaSection bits, bits⟩ = view b ⟨.postTimeSync, bits⟩ := by
  unfold otaSection
  split
  · next h => simp [view, modeInHand, otaInHand, phaseOf, h]
  · next h =>
    rw [view_powerSection]
    simp [view, modeInHand, otaInHand, phaseOf, h]

theorem view_wifiSection :
    view b ⟨wifiSection bits, bits⟩ = view b ⟨.postTimeSync, bits⟩ := by
  unfold wifiSection
  split
  · rfl
  · exact view_otaSection b bits

theorem view_startSection :
    view b ⟨startSection bits, bits⟩ = view b ⟨.postTimeSync, bits⟩ := by
  unfold startSection
  split
  · rfl
  · exact view_wifiSection b bits

theorem view_setModeChange (l : Loop) :
    view (b.setSysEvent .modeChange) l = { view b l with pending := true } := by
  simp [view, Bus.setSysEvent]

theorem view_setOtaTriggered (l : Loop) :
    view (b.setSysEvent .otaTriggered) l = { view b l with otaRequested := true } := by
  simp [view, Bus.setSysEvent]

theorem view_setSysEvent {e : SysEvent} (l : Loop) (hm : e ≠ .modeChange)
    (ho : e ≠ .otaTriggered) : view (b.setSysEvent e) l = view b l := by
  simp [view, Bus.setSysEvent, hm.symm, ho.symm]

theorem view_append (e : SysEventType) (l : Loop) : view { b with queue := b.queue ++ [e] } l =
    { view b l with queue := (view b l).queue ++ [e] } := rfl

theorem view_post {b b' : Bus} {e : SysEventType} (l : Loop) (h : b.post e = some b') :
    view b' l = { view b l with queue := (view b l).queue ++ [e] } := by
  rw [Bus.post_eq_some h]
  rfl

end Sections

/-- Posting an event of no concern leaves the rest of the view as it is. -/
theorem step_of_post {b : Bus} {l next : Loop} {e : SysEventType} (hm : e ≠ .modeChange)
    (ho : e ≠ .ota) (hphase : (view b l).phase = .out) (hview : view b next = view b l) :
    Step (view b l) (view { b with queue := b.queue ++ [e] } next) .none := by
  rw [view_append, hview]
  exact .postOther e hm ho hphase

theorem step_of_posts {b : Bus} {bits : EventGroup SysEvent} {pc next : LoopPc}
    {e : SysEventType} (h : Posts bits pc e next) :
    Step (view b ⟨pc, bits⟩) (view { b with queue := b.queue ++ [e] } ⟨next, bits⟩) .none := by
  cases h with
  | discovery => exact step_of_post (by decide) (by decide) rfl (view_wifiSection b bits)
  | wifiReconnect => exact step_of_post (by decide) (by decide) rfl (view_otaSection b bits)
  | powerMgmt => exact step_of_post (by decide) (by decide) rfl (view_modeSection b bits)
  | timeSync | ledStatus => exact step_of_post (by decide) (by decide) rfl rfl
  | ota =>
    rw [view_append]
    exact .postOta _ (by simp [view, otaInHand]) rfl
  | modeChange =>
    rw [view_append]
    exact .postMode rfl rfl

/-- Every step of the loop is a step of the view. -/
theorem loopStep_view {ledManual : Bool} {b b' : Bus} {l l' : Loop} {eff : LoopEffect}
    (h : loopStep ledManual b l = some (b', l', eff)) :
    Step (view b l) (view b' l') eff := by
  cases loopStep_cases h with
  | @take bits _ =>
    have hview : view { b with sysEvents := EventGroup.clearAll }
        ⟨startSection b.sysEvents, b.sysEvents⟩ =
          { view b ⟨.waitBits, bits⟩ with
            pending := false, inHand := (view b ⟨.waitBits, bits⟩).pending } := by
      rw [view_startSection]
      simp [view, modeInHand, otaInHand, phaseOf]
    rw [hview]
    exact .take rfl rfl
  | post hpost _ => exact step_of_posts hpost
  | move hmove =>
    cases hmove with
    | reconnectScheduled _ =>
      rw [view_otaSection]
      exact .stay
    | setInactive => exact .setInactive rfl
    | otaFailed =>
      rw [view_powerSection]
      exact .failed rfl
    | reconnectFree | ledScheduled | ledFree | ledManual | ledAuto => exact .stay
  | setReconnect | setLedStatus => exact .stay
  | setModeChange =>
    rw [view_setModeChange]
    exact .raise rfl

/-- A mode change is on its way to the handlers; `callers` are about to ask for one. -/
inductive Awaited (v : View) (callers : ℕ) : Prop
  | calling : 0 < callers → Awaited v callers
  | pending : v.pending = true → Awaited v callers
  | inHand : v.inHand = true → Awaited v callers
  | queued : .modeChange ∈ v.queue → Awaited v callers

section Awaited

variable {v v' : View} {callers : ℕ}

theorem awaited_iff : Awaited v callers ↔
    0 < callers ∨ v.pending = true ∨ v.inHand = true ∨ .modeChange ∈ v.queue := by
  constructor
  · intro h
    cases h with
    | calling hc => exact Or.inl hc
    | pending hp => exact Or.inr (Or.inl hp)
    | inHand hi => exact Or.inr (Or.inr (Or.inl hi))
    | queued hq => exact Or.inr (Or.inr (Or.inr hq))
  · rintro (hc | hp | hi | hq)
    · exact .calling hc
    · exact .pending hp
    · exact .inHand hi
    · exact .queued hq

instance (v : View) (callers : ℕ) : Decidable (Awaited v callers) :=
  decidable_of_iff' _ awaited_iff

theorem awaited_congr (h : Awaited v callers) (hpending : v'.pending = v.pending)
    (hhand : v'.inHand = v.inHand) (hqueue : v'.queue = v.queue) : Awaited v' callers := by
  cases h with
  | calling hc => exact .calling hc
  | pending hp => exact .pending (hpending.trans hp)
  | inHand hi => exact .inHand (hhand.trans hi)
  | queued hq => exact .queued (hqueue ▸ hq)

theorem awaited_append (h : Awaited v callers) (e : SysEventType) :
    Awaited { v with queue := v.queue ++ [e] } callers := by
  cases h with
  | calling hc => exact .calling hc
  | pending hp => exact .pending hp
  | inHand hi => exact .inHand hi
  | queued hq => exact .queued (List.mem_append_left _ hq)

theorem awaited_pop {e : SysEventType} {rest : List SysEventType} (h : Awaited v callers)
    (hqueue : v.queue = e :: rest) (he : e ≠ .modeChange) :
    Awaited { v with queue := rest } callers := by
  cases h with
  | calling hc => exact .calling hc
  | pending hp => exact .pending hp
  | inHand hi => exact .inHand hi
  | queued hq =>
    rw [hqueue, List.mem_cons] at hq
    exact .queued (hq.resolve_left he.symm)

theorem awaited_view {eff : LoopEffect} (h : Awaited v callers) (hstep : Step v v' eff) :
    Awaited v' callers := by
  cases hstep with
  | stay => exact h
  | take hhand _ =>
    cases h with
    | calling hc => exact .calling hc
    | pending hp => exact .inHand hp
    | inHand hi => exact absurd hi (by rw [hhand]; exact nofun)
    | queued hq => exact .queued hq
  | postMode _ _ => exact .queued (List.mem_append_right _ (List.mem_singleton.mpr rfl))
  | postOta again _ _ => exact awaited_congr (awaited_append h .ota) rfl rfl rfl
  | postOther e _ _ _ => exact awaited_append h e
  | setInactive _ => exact awaited_congr h rfl rfl rfl
  | raise _ => exact .pending rfl
  | failed _ => exact awaited_congr h rfl rfl rfl

end Awaited

end MarkitNode.ModeDispatch
