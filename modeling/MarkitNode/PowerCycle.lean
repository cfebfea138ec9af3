import MarkitNode.NodeControl

/-!
Deep sleep and the boots that follow it. Any task may enter deep sleep, while
the others go on until the chip is off; only the power-management context
outlives it. A wake by button finds the device as a cold boot leaves it
exactly if `no_sleep` was clear when the chip went off, or if another task had
overwritten the sleep state by then, which makes the wake a restart.
-/

namespace MarkitNode.PowerCycle

open SystemLoop NodeControl PowerMgmt

/-- `sleepers` counts the tasks in `power_mgmt_on_enter_deep_sleep` that have
written the state and not started the sleep yet. -/
inductive Device
  | running (n : Node) (sleepers : ℕ)
  | asleep (ctx : PowerMgmtCtx)

inductive Label
  | node (a : NodeControl.Label)
  /-- `app_power_save` stops the radios, and later returns to standby. -/
  | powerSave
  | motion
  | enterDeepSleep
  | deepSleepStart
  | wakeButton
  | wakeTimer
  /-- `esp_restart` -/
  | restart

/-- RAM as after a cold boot, the context as given. -/
def bootNode (ctx : PowerMgmtCtx) : Node := { coldStandby with ctx := ctx }

def coldBoot : Device := .running coldStandby 0

/-- `init` of `app_main.c` from `power_mgmt_init` on; `byButton` is the cause that
`power_mgmt_wake_up_handler` finds. -/
def wake (ctx : PowerMgmtCtx) (byButton : Bool) : Device :=
  let ctx := powerMgmtInit ctx
  match ctx.state with
  | .waken =>
      if byButton then .running (bootNode (standbyCtx ctx)) 0 else .asleep (deepSleepCtx ctx)
  | .unknown => coldBoot
  | _ => .running (bootNode (standbyCtx ctx)) 0

def step : Device → Label → Option Device
  | .running n sleepers, .node a => (NodeControl.step n a).map (.running · sleepers)
  | .running n sleepers, .powerSave => some (.running { n with ctx := powerSaveCtx n.ctx } sleepers)
  | .running n sleepers, .motion => some (.running { n with ctx := standbyCtx n.ctx } sleepers)
  | .running n sleepers, .enterDeepSleep =>
      some (.running { n with ctx := deepSleepCtx n.ctx } (sleepers + 1))
  | .running n sleepers, .deepSleepStart => if sleepers = 0 then none else some (.asleep n.ctx)
  | .running _ _, .restart => some coldBoot
  | .running _ _, _ => none
  | .asleep ctx, .wakeButton => some (wake ctx true)
  | .asleep ctx, .wakeTimer => some (wake ctx false)
  | .asleep _, _ => none

def machine : Machine Device Label where
  Init d := d = coldBoot
  step := step

/-- The context of a device, asleep or not. -/
def Device.ctx : Device → PowerMgmtCtx
  | .running n _ => n.ctx
  | .asleep ctx => ctx

section Booted

theorem node_booted {s t : Node} {a : NodeControl.Label} (h : Booted s.ctx)
    (hstep : NodeControl.step s a = some t) : Booted t.ctx := by
  cases a with
  | loop ledManual =>
    obtain ⟨eff, -, ht⟩ := loop_cases hstep
    have hctx : t.ctx = (applyEffect s eff).ctx := by rw [ht]
    rw [hctx]
    cases eff with
    | none => exact h
    | setInactive => exact h
    | otaFailed => exact h.setNoSleep false
  | handler =>
    cases hpc : s.handler with
    | idle =>
      obtain ⟨e, rest, -, -, ht⟩ := idle_cases hpc hstep
      rw [ht]
      exact h
    | _ =>
      simp only [NodeControl.step, handlerStep, hpc] at hstep
      cases hstep
      first
        | exact h
        | exact h.activeCtx
        | exact h.standbyCtx
        | exact h.setNoSleep _
        | exact h.powerUpdateCtx
  | write active =>
    cases hstep
    exact h
  | setBit =>
    obtain ⟨-, -, ht⟩ := setBit_cases hstep
    rw [ht]
    exact h
  | debugEnable =>
    rw [debugEnable_cases hstep]
    exact h
  | debugDisable =>
    rw [debugDisable_cases hstep]
    exact h
  | debug =>
    rcases debug_cases hstep with ⟨-, ht⟩ | ⟨-, ht⟩
    · rw [ht]
      exact h.setNoSleep true
    · rw [ht]
      exact h.setNoSleep false
  | raise e =>
    obtain ⟨-, -, ht⟩ := raise_cases hstep
    rw [ht]
    exact h
  | timer e =>
    obtain ⟨-, -, -, ht⟩ := timer_cases hstep
    rw [ht]
    exact h

theorem coldBoot_booted : Booted coldBoot.ctx := Booted.powerMgmtInit_zero.standbyCtx

theorem wake_of_deepSleep {ctx : PowerMgmtCtx} (h : Booted ctx) (hstate : ctx.state = .deepSleep)
    (byButton : Bool) : wake ctx byButton =
      if byButton then .running (bootNode (standbyCtx (powerMgmtInit ctx))) 0
      else .asleep (deepSleepCtx (powerMgmtInit ctx)) := by
  have hwaken : (powerMgmtInit ctx).state = .waken := by rw [h.powerMgmtInit_eq, if_pos hstate]
  simp only [wake, hwaken]

theorem wake_of_overwritten {ctx : PowerMgmtCtx} (h : Booted ctx) (hstate : ctx.state ≠ .deepSleep)
    (byButton : Bool) : wake ctx byButton = coldBoot := by
  have hunknown : (powerMgmtInit ctx).state = .unknown := by
    rw [h.powerMgmtInit_eq, if_neg hstate]
  simp only [wake, hunknown]

theorem wake_booted {ctx : PowerMgmtCtx} (h : Booted ctx) (byButton : Bool) :
    Booted (wake ctx byButton).ctx := by
  by_cases hstate : ctx.state = .deepSleep
  · rw [wake_of_deepSleep h hstate]
    cases byButton with
    | false => exact h.powerMgmtInit.deepSleepCtx
    | true => exact h.powerMgmtInit.standbyCtx
  · rw [wake_of_overwritten h hstate]
    exact coldBoot_booted

theorem step_booted {d d' : Device} {a : Label} (h : Booted d.ctx) (hstep : step d a = some d') :
    Booted d'.ctx := by
  cases d with
  | running n sleepers =>
    cases a with
    | node a =>
      obtain ⟨n', hn, rfl⟩ := Option.map_eq_some_iff.mp hstep
      exact node_booted h hn
    | powerSave =>
      cases hstep
      exact h.powerSaveCtx
    | motion =>
      cases hstep
      exact h.standbyCtx
    | enterDeepSleep =>
      cases hstep
      exact h.deepSleepCtx
    | deepSleepStart =>
      simp only [step] at hstep
      split at hstep <;> cases hstep
      exact h
    | restart =>
      cases hstep
      exact coldBoot_booted
    | wakeButton => cases hstep
    | wakeTimer => cases hstep
  | asleep ctx =>
    cases a with
    | wakeButton =>
      cases hstep
      exact wake_booted h true
    | wakeTimer =>
      cases hstep
      exact wake_booted h false
    | _ => cases hstep

theorem reach_booted {ok : Device → Label → Prop} {d : Device} (h : machine.Reach ok d) :
    Booted d.ctx := by
  refine h.invariant (I := fun d => Booted d.ctx) ?_ ?_
  · rintro d rfl
    exact coldBoot_booted
  · intro d a d' hd _ hstep
    exact step_booted hd hstep

end Booted

/-- The volatile fields of the context are those of a cold boot in standby. -/
def LikeColdBoot : Device → Prop
  | .running n _ => n.ctx.state = .standby ∧
      n.ctx.peripheralState = coldStandby.ctx.peripheralState ∧
      n.ctx.noSleep = coldStandby.ctx.noSleep
  | .asleep _ => False

theorem coldBoot_likeColdBoot : LikeColdBoot coldBoot := ⟨rfl, rfl, rfl⟩

theorem standby_flags {ctx : PowerMgmtCtx} (h : Booted ctx) :
    (standbyCtx ctx).peripheralState = coldStandby.ctx.peripheralState := by
  rw [standbyCtx, h.mode]
  rfl

theorem wake_likeColdBoot_iff {ctx : PowerMgmtCtx}
    (h : machine.Reach Machine.anyStep (.asleep ctx)) :
    LikeColdBoot (wake ctx true) ↔ ctx.noSleep = false ∨ ctx.state ≠ .deepSleep := by
  have hbooted : Booted ctx := reach_booted h
  by_cases hstate : ctx.state = .deepSleep
  · have hsleep : (powerMgmtInit ctx).noSleep = ctx.noSleep := by rw [hbooted.powerMgmtInit_eq]
    rw [wake_of_deepSleep hbooted hstate, if_pos rfl, or_iff_left (not_not_intro hstate)]
    constructor
    · intro hlike
      exact hsleep.symm.trans hlike.2.2
    · intro hclear
      exact ⟨rfl, standby_flags hbooted.powerMgmtInit, hsleep.trans hclear⟩
  · rw [wake_of_overwritten hbooted hstate]
    exact iff_of_true coldBoot_likeColdBoot (Or.inr hstate)

/-- A long press in standby. -/
def pressInStandby : List Label := [.enterDeepSleep, .deepSleepStart]

theorem wake_likeColdBoot_pressInStandby :
    ∃ ctx, machine.exec coldBoot pressInStandby = some (.asleep ctx) ∧
      (LikeColdBoot (wake ctx true) ↔ ctx.noSleep = false ∨ ctx.state ≠ .deepSleep) :=
  ⟨_, rfl, wake_likeColdBoot_iff
    (Machine.reach_of_exec rfl (Machine.along_anyStep coldBoot pressInStandby) rfl)⟩

/-- A long press during a session. -/
def pressInSession : List Label := firstSession.map .node ++ pressInStandby

theorem noSleep_survives :
    ∃ ctx, machine.Reach Machine.anyStep (.asleep ctx) ∧ ¬ LikeColdBoot (wake ctx true) := by
  refine ⟨_, Machine.reach_of_exec rfl (Machine.along_anyStep coldBoot pressInSession) rfl, ?_⟩
  intro h
  exact absurd h.2.2 (by decide)

end MarkitNode.PowerCycle
