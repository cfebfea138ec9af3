import MarkitNode.Machine
import MarkitNode.PowerMgmt

/-!
The timer that sends an idle device to deep sleep, against the clock. The timer runs for
300 s and is started again by each REST request, by each entry of standby, and every 20 s
by the power management event as long as the device is active or not to sleep. Time goes
by in ticks; events wait in the queue of the event loop, and know for how long.
-/

namespace MarkitNode

namespace SleepTimer

open PowerMgmt

inductive SysEvent
  | powerMgmt
  | modeChange
  | ota
  deriving DecidableEq, Repr

/-- `CONFIG_POWER_MGMT_DURATION_S`, in ticks -/
def powerMgmtDuration (tickRateHz : ℕ) : ℕ := 20 * tickRateHz

/-- `CONFIG_POWER_SAVE_TIMEOUT_S`, in ticks -/
def powerSaveTimeout (tickRateHz : ℕ) : ℕ := 300 * tickRateHz

/-- The handle, `none` for the null pointer: the ticks that are left, `none` if the timer
does not run. -/
abbrev PowerSaveTimer := Option (Option ℕ)

structure State where
  /-- `g_mcu.state.active` -/
  active : Bool
  /-- `EV_SYS_MODE_CHANGE` -/
  modeChangeBit : Bool
  /-- the events of the loop, with the ticks they have waited -/
  queue : List (SysEvent × ℕ)
  ctx : PowerMgmtCtx
  powerSaveTimer : PowerSaveTimer
  /-- what is left of the period of `power_mgmt_timer` -/
  powerMgmtLeft : ℕ
  /-- the context in which the power save timer ran out -/
  slept : Option PowerMgmtCtx
  deriving DecidableEq, Repr

inductive RestRequest
  | mode (active : Bool)
  | debug (enable : Bool)
  | other
  deriving DecidableEq, Repr

inductive Label
  | tick
  /-- `sys_set_operation_mode`, from the button -/
  | setMode (active : Bool)
  | rest (request : RestRequest)
  /-- the turn of `app_system_loop` for the mode bit -/
  | systemLoop
  /-- the turn of `app_system_loop` for an update -/
  | otaTriggered
  /-- the end of `sys_ota_perform` -/
  | otaFailed
  /-- the event loop runs `sys_power_mgmt_handler` on the first event -/
  | handle
  deriving DecidableEq, Repr

section Timers

variable (tickRateHz : ℕ)

/-- The timer is created and started, or started again. -/
def armPowerSaveTimer (_ : PowerSaveTimer) : PowerSaveTimer :=
  some (some (powerSaveTimeout tickRateHz))

def disarmPowerSaveTimer (_ : PowerSaveTimer) : PowerSaveTimer := none

def resetPowerSaveTimer (timer : PowerSaveTimer) : PowerSaveTimer :=
  timer.map fun _ => some (powerSaveTimeout tickRateHz)

/-- The timer of `sys_power_mgmt_handler` on a change of the power mode. -/
def transitionTimer (c : PowerMgmtCtx) (timer : PowerSaveTimer) : PowerSaveTimer :=
  if c.nextMode ≠ c.mode then
    match c.nextMode with
    | .performance => disarmPowerSaveTimer timer
    | .normal | .lowEnergy => armPowerSaveTimer tickRateHz timer
  else timer

def sysPowerMgmtHandler (s : State) : SysEvent → State
  | .powerMgmt =>
      let timer := transitionTimer tickRateHz s.ctx s.powerSaveTimer
      let ctx := powerUpdateCtx s.ctx
      { s with
        ctx := ctx
        powerSaveTimer :=
          match ctx.state with
          | .standby => if ctx.noSleep then resetPowerSaveTimer tickRateHz timer else timer
          | .active => resetPowerSaveTimer tickRateHz timer
          | _ => timer }
  | .modeChange =>
      if s.active then { s with ctx := { activeCtx s.ctx with noSleep := true } }
      else
        { s with
          ctx := { standbyCtx s.ctx with noSleep := false }
          powerSaveTimer :=
            if s.ctx.mode ≠ .performance then armPowerSaveTimer tickRateHz s.powerSaveTimer
            else disarmPowerSaveTimer s.powerSaveTimer }
  | .ota => { s with ctx := { s.ctx with noSleep := true } }

/-- The handlers begin with `reset_power_save_timer`. -/
def restHandler (s : State) (request : RestRequest) : State :=
  let s := { s with powerSaveTimer := resetPowerSaveTimer tickRateHz s.powerSaveTimer }
  match request with
  | .mode active => { s with active := active, modeChangeBit := true }
  | .debug enable => { s with ctx := { s.ctx with noSleep := enable } }
  | .other => s

/-- `power_mgmt_timer_cb`, when the period is over. -/
def powerMgmtTick (s : State) : State :=
  if s.powerMgmtLeft ≤ 1 then
    { s with
      powerMgmtLeft := powerMgmtDuration tickRateHz
      queue := if s.ctx.state ≠ .save then s.queue ++ [(.powerMgmt, 0)] else s.queue }
  else { s with powerMgmtLeft := s.powerMgmtLeft - 1 }

end Timers

/-- `power_mgmt_handle_transition`, when the timer runs out. -/
def powerSaveTick (s : State) : State :=
  match s.powerSaveTimer with
  | some (some left) =>
      if left ≤ 1 then
        { s with
          powerSaveTimer := some none
          slept := some s.ctx
          ctx := deepSleepCtx s.ctx }
      else { s with powerSaveTimer := some (some (left - 1)) }
  | _ => s

def waitTick (s : State) : State :=
  { s with queue := s.queue.map fun e => (e.1, e.2 + 1) }

/-- One tick for the events and both timers. -/
def clockTick (tickRateHz : ℕ) (s : State) : State :=
  powerSaveTick (powerMgmtTick tickRateHz (waitTick s))

def step (tickRateHz : ℕ) (s : State) : Label → Option State
  | .tick =>
      if s.slept.isSome then none
      else some (clockTick tickRateHz s)
  | .setMode active =>
      if s.slept.isSome then none else some { s with active := active, modeChangeBit := true }
  | .rest request => if s.slept.isSome then none else some (restHandler tickRateHz s request)
  | .systemLoop =>
      if s.slept.isSome ∨ s.modeChangeBit = false then none
      else some { s with modeChangeBit := false, queue := s.queue ++ [(.modeChange, 0)] }
  | .otaTriggered =>
      if s.slept.isSome then none
      else some { s with
        queue := s.queue ++ [(.ota, 0)]
        active := false
        modeChangeBit := true }
  | .otaFailed =>
      if s.slept.isSome then none else some { s with ctx := { s.ctx with noSleep := false } }
  | .handle =>
      if s.slept.isSome then none
      else match s.queue with
        | [] => none
        | e :: rest => some (sysPowerMgmtHandler tickRateHz { s with queue := rest } e.1)

/-- The device is active, or in standby and not to sleep. -/
def Wanted (c : PowerMgmtCtx) : Prop :=
  c.state = .active ∨ c.state = .standby ∧ c.noSleep = true

instance (c : PowerMgmtCtx) : Decidable (Wanted c) := inferInstanceAs (Decidable (_ ∨ _))

/-- From the first entry of standby on, with any power mode. If `no_sleep` has survived a
deep sleep, the device is wanted at once, and the timer has just been started. -/
def machine (tickRateHz : ℕ) : Machine State Label where
  Init s := s.slept = none ∧ s.queue = [] ∧
    (Wanted s.ctx → ∀ left, s.powerSaveTimer = some (some left) →
      left = powerSaveTimeout tickRateHz) ∧
    (∀ left, s.powerSaveTimer = some (some left) → 0 < left) ∧
    0 < s.powerMgmtLeft ∧ s.powerMgmtLeft ≤ powerMgmtDuration tickRateHz
  step := step tickRateHz

/-! ### The conditions -/

/-- The event loop handles each power management event before it has waited `delay`. -/
def Prompt (delay : ℕ) (s : State) : Label → Prop
  | .tick => ∀ e ∈ s.queue, e.1 = .powerMgmt → e.2 < delay
  | _ => True

/-- The timer does not run out before the next power management event is handled. -/
def InTime (delay : ℕ) (s : State) : Prop :=
  ∀ left, s.powerSaveTimer = some (some left) →
    (∃ e ∈ s.queue, e.1 = .powerMgmt ∧ delay - e.2 < left) ∨ s.powerMgmtLeft + delay < left

/-- An event that makes the device wanted comes in time. -/
def EntersInTime (tickRateHz delay : ℕ) (s : State) (a : Label) : Prop :=
  a = .handle → ¬ Wanted s.ctx → ∀ t ∈ step tickRateHz s a, Wanted t.ctx → InTime delay t

section Decidable

variable (tickRateHz delay : ℕ) (s : State)

instance : DecidablePred (Prompt delay s)
  | .tick => inferInstanceAs (Decidable (∀ e ∈ s.queue, e.1 = .powerMgmt → e.2 < delay))
  | .setMode _ | .rest _ | .systemLoop | .otaTriggered | .otaFailed | .handle =>
      inferInstanceAs (Decidable True)

instance : Decidable (InTime delay s) :=
  decidable_of_iff (∀ left ∈ s.powerSaveTimer.join,
    (∃ e ∈ s.queue, e.1 = .powerMgmt ∧ delay - e.2 < left) ∨ s.powerMgmtLeft + delay < left)
    (by simp only [InTime, Option.mem_def, Option.join_eq_some_iff])

instance (a : Label) : Decidable (EntersInTime tickRateHz delay s a) :=
  inferInstanceAs (Decidable (_ → _ → _))

end Decidable

/-! ### A tick -/

section Tick

variable (tickRateHz : ℕ) {delay : ℕ} {s : State}

theorem powerMgmtTick_due (h : s.powerMgmtLeft ≤ 1) :
    powerMgmtTick tickRateHz s = { s with
      powerMgmtLeft := powerMgmtDuration tickRateHz
      queue := if s.ctx.state ≠ .save then s.queue ++ [(.powerMgmt, 0)] else s.queue } :=
  if_pos h

theorem powerMgmtTick_running (h : ¬ s.powerMgmtLeft ≤ 1) :
    powerMgmtTick tickRateHz s = { s with powerMgmtLeft := s.powerMgmtLeft - 1 } :=
  if_neg h

theorem powerSaveTick_due {left : ℕ} (htimer : s.powerSaveTimer = some (some left))
    (h : left ≤ 1) :
    powerSaveTick s =
      { s with powerSaveTimer := some none, slept := some s.ctx, ctx := deepSleepCtx s.ctx } := by
  rw [powerSaveTick, htimer]
  exact if_pos h

theorem powerSaveTick_running {left : ℕ} (htimer : s.powerSaveTimer = some (some left))
    (h : ¬ left ≤ 1) :
    powerSaveTick s = { s with powerSaveTimer := some (some (left - 1)) } := by
  rw [powerSaveTick, htimer]
  exact if_neg h

theorem powerSaveTick_stopped (h : ∀ left, s.powerSaveTimer ≠ some (some left)) :
    powerSaveTick s = s := by
  rw [powerSaveTick]
  split
  · rename_i left htimer
    exact absurd htimer (h left)
  · rfl

theorem powerMgmtTick_kept : (powerMgmtTick tickRateHz s).ctx = s.ctx ∧
    (powerMgmtTick tickRateHz s).powerSaveTimer = s.powerSaveTimer ∧
    (powerMgmtTick tickRateHz s).slept = s.slept := by
  by_cases h : s.powerMgmtLeft ≤ 1
  · rw [powerMgmtTick_due _ h]
    exact ⟨rfl, rfl, rfl⟩
  · rw [powerMgmtTick_running _ h]
    exact ⟨rfl, rfl, rfl⟩

theorem powerMgmtTick_left (hrate : 0 < tickRateHz)
    (hle : s.powerMgmtLeft ≤ powerMgmtDuration tickRateHz) :
    0 < (powerMgmtTick tickRateHz s).powerMgmtLeft ∧
      (powerMgmtTick tickRateHz s).powerMgmtLeft ≤ powerMgmtDuration tickRateHz := by
  have hpos : 0 < powerMgmtDuration tickRateHz := Nat.mul_pos (by omega) hrate
  by_cases h : s.powerMgmtLeft ≤ 1
  · rw [powerMgmtTick_due _ h]
    exact ⟨hpos, Nat.le_refl _⟩
  · rw [powerMgmtTick_running _ h]
    constructor
    · change 0 < s.powerMgmtLeft - 1
      omega
    · change s.powerMgmtLeft - 1 ≤ _
      omega

theorem powerSaveTick_left :
    (powerSaveTick s).powerMgmtLeft = s.powerMgmtLeft ∧ (powerSaveTick s).queue = s.queue := by
  unfold powerSaveTick
  split
  · split_ifs <;> exact ⟨rfl, rfl⟩
  · exact ⟨rfl, rfl⟩

/-- The time until the next event is handled, with the timer's time, is the same or a tick
less a tick later. -/
theorem inTime_wait (h : InTime delay s) (hprompt : Prompt delay s .tick)
    (hstate : s.ctx.state ≠ .save) (hpos : 0 < s.powerMgmtLeft) {left : ℕ}
    (htimer : s.powerSaveTimer = some (some left)) :
    1 < left ∧
      ((∃ e ∈ (powerMgmtTick tickRateHz (waitTick s)).queue,
          e.1 = .powerMgmt ∧ delay - e.2 < left - 1) ∨
        (powerMgmtTick tickRateHz (waitTick s)).powerMgmtLeft + delay < left - 1) := by
  by_cases hdue : s.powerMgmtLeft ≤ 1
  · rw [powerMgmtTick_due _ (show (waitTick s).powerMgmtLeft ≤ 1 from hdue),
      if_pos (show (waitTick s).ctx.state ≠ .save from hstate)]
    rcases h left htimer with ⟨e, he, htype, hlt⟩ | hlt
    · have hage := hprompt e he htype
      have hmem : (e.1, e.2 + 1) ∈ (waitTick s).queue := List.mem_map_of_mem he
      exact ⟨by omega, .inl ⟨_, List.mem_append_left _ hmem, htype, by dsimp only; omega⟩⟩
    · refine ⟨by omega, .inl ⟨(.powerMgmt, 0), ?_, rfl, by dsimp only; omega⟩⟩
      exact List.mem_append_right _ (List.mem_singleton_self _)
  · rw [powerMgmtTick_running _ (show ¬ (waitTick s).powerMgmtLeft ≤ 1 from hdue)]
    rcases h left htimer with ⟨e, he, htype, hlt⟩ | hlt
    · have hage := hprompt e he htype
      have hmem : (e.1, e.2 + 1) ∈ (waitTick s).queue := List.mem_map_of_mem he
      exact ⟨by omega, .inl ⟨_, hmem, htype, by dsimp only; omega⟩⟩
    · refine ⟨by omega, .inr ?_⟩
      change s.powerMgmtLeft - 1 + delay < left - 1
      omega

/-- In time, a tick does not put the device to sleep, and what follows is in time. -/
theorem tick_inTime (h : InTime delay s) (hprompt : Prompt delay s .tick)
    (hstate : s.ctx.state ≠ .save) (hpos : 0 < s.powerMgmtLeft) :
    (clockTick tickRateHz s).ctx = s.ctx ∧
      (clockTick tickRateHz s).slept = s.slept ∧
      InTime delay (clockTick tickRateHz s) := by
  obtain ⟨hctx, htimer, hslept⟩ := powerMgmtTick_kept tickRateHz (s := waitTick s)
  by_cases hrunning : ∃ left, s.powerSaveTimer = some (some left)
  · obtain ⟨left, hleft⟩ := hrunning
    obtain ⟨hlt, hnext⟩ := inTime_wait tickRateHz h hprompt hstate hpos hleft
    rw [clockTick, powerSaveTick_running (htimer.trans hleft) (by omega)]
    refine ⟨hctx, hslept, fun left' hleft' => ?_⟩
    obtain rfl := Option.some.inj (Option.some.inj hleft')
    exact hnext
  · have hstopped : ∀ left,
        (powerMgmtTick tickRateHz (waitTick s)).powerSaveTimer ≠ some (some left) :=
      fun left hleft => hrunning ⟨left, htimer.symm.trans hleft⟩
    rw [clockTick, powerSaveTick_stopped hstopped]
    exact ⟨hctx, hslept, fun left hleft => absurd hleft (hstopped left)⟩

end Tick

/-! ### The invariant -/

/-- The device that is wanted is in time, and the one that sleeps is not wanted. -/
structure Inv (tickRateHz delay : ℕ) (s : State) : Prop where
  left_pos : 0 < s.powerMgmtLeft
  left_le : s.powerMgmtLeft ≤ powerMgmtDuration tickRateHz
  awake : s.slept = none → Wanted s.ctx → InTime delay s
  asleep : ∀ c, s.slept = some c → ¬ Wanted c

section Steps

variable {tickRateHz delay : ℕ} {s t : State}

theorem wanted_not_save {c : PowerMgmtCtx} (h : Wanted c) : c.state ≠ .save := by
  rcases h with h | ⟨h, -⟩ <;> simp [h]

/-- A timer that was just started lasts until the next event is handled. -/
theorem inTime_full (hdelay : powerMgmtDuration tickRateHz + delay < powerSaveTimeout tickRateHz)
    (hle : s.powerMgmtLeft ≤ powerMgmtDuration tickRateHz)
    (h : ∀ left, s.powerSaveTimer = some (some left) → left = powerSaveTimeout tickRateHz) :
    InTime delay s := by
  intro left hleft
  rw [h left hleft]
  exact .inr (by omega)

theorem reset_full {timer : PowerSaveTimer} {left : ℕ}
    (h : resetPowerSaveTimer tickRateHz timer = some (some left)) :
    left = powerSaveTimeout tickRateHz := by
  obtain ⟨_, -, hleft⟩ := Option.map_eq_some_iff.mp h
  exact (Option.some.inj hleft).symm

theorem Inv.tick (hrate : 0 < tickRateHz) (h : Inv tickRateHz delay s) (hslept : s.slept = none)
    (hprompt : Prompt delay s .tick) :
    Inv tickRateHz delay (clockTick tickRateHz s) := by
  obtain ⟨hpos, hle⟩ := powerMgmtTick_left tickRateHz (s := waitTick s) hrate h.left_le
  obtain ⟨hleft, -⟩ := powerSaveTick_left (s := powerMgmtTick tickRateHz (waitTick s))
  by_cases hwanted : Wanted s.ctx
  · obtain ⟨hctx, hkept, hin⟩ := tick_inTime tickRateHz (h.awake hslept hwanted) hprompt
      (wanted_not_save hwanted) h.left_pos
    exact ⟨hleft ▸ hpos, hleft ▸ hle, fun _ _ => hin, fun c hc => h.asleep c (hkept ▸ hc)⟩
  · obtain ⟨hctx, -, hkept⟩ := powerMgmtTick_kept tickRateHz (s := waitTick s)
    have hidle : ¬ Wanted (powerMgmtTick tickRateHz (waitTick s)).ctx := by
      rw [hctx]
      exact hwanted
    refine ⟨hleft ▸ hpos, hleft ▸ hle, fun hawake hw => ?_, fun c hc => ?_⟩
    · revert hawake hw
      unfold clockTick powerSaveTick
      split
      · split_ifs
        · exact fun hawake => by cases hawake
        · exact fun _ hw => absurd hw hidle
      · exact fun _ hw => absurd hw hidle
    · revert hc
      unfold clockTick powerSaveTick
      split
      · split_ifs
        · rintro hc
          obtain rfl := Option.some.inj hc
          exact hidle
        · exact fun hc => h.asleep c (hkept ▸ hc)
      · exact fun hc => h.asleep c (hkept ▸ hc)

/-- More events, or fewer of another kind, change nothing. -/
theorem InTime.of_queue (h : InTime delay s) (htimer : t.powerSaveTimer = s.powerSaveTimer)
    (hleft : t.powerMgmtLeft = s.powerMgmtLeft)
    (hqueue : ∀ e ∈ s.queue, e.1 = .powerMgmt → e ∈ t.queue) : InTime delay t := by
  intro left hrunning
  rw [hleft]
  rcases h left (htimer.symm.trans hrunning) with ⟨e, he, htype, hlt⟩ | hlt
  · exact .inl ⟨e, hqueue e he htype, htype, hlt⟩
  · exact .inr hlt

theorem handler_kept (tickRateHz : ℕ) (s : State) (e : SysEvent) :
    (sysPowerMgmtHandler tickRateHz s e).powerMgmtLeft = s.powerMgmtLeft ∧
      (sysPowerMgmtHandler tickRateHz s e).slept = s.slept ∧
      (sysPowerMgmtHandler tickRateHz s e).queue = s.queue := by
  cases e with
  | powerMgmt => exact ⟨rfl, rfl, rfl⟩
  | modeChange =>
    rw [sysPowerMgmtHandler]
    split_ifs <;> exact ⟨rfl, rfl, rfl⟩
  | ota => exact ⟨rfl, rfl, rfl⟩

/-- For a wanted device the event starts the timer again. -/
theorem powerMgmt_full (hwanted : Wanted s.ctx) {left : ℕ}
    (h : (sysPowerMgmtHandler tickRateHz s .powerMgmt).powerSaveTimer = some (some left)) :
    left = powerSaveTimeout tickRateHz := by
  simp only [sysPowerMgmtHandler, powerUpdateCtx_state, powerUpdateCtx_noSleep] at h
  rcases hwanted with hactive | ⟨hstandby, hnoSleep⟩
  · rw [hactive] at h
    exact reset_full h
  · simp only [hstandby, hnoSleep, if_true] at h
    exact reset_full h

/-- An event of another kind leaves the timer as it is for a device that stays wanted. -/
theorem otherEvent_timer {e : SysEvent} (he : e ≠ .powerMgmt)
    (hwanted : Wanted (sysPowerMgmtHandler tickRateHz s e).ctx) :
    (sysPowerMgmtHandler tickRateHz s e).powerSaveTimer = s.powerSaveTimer := by
  cases e with
  | powerMgmt => exact absurd rfl he
  | modeChange =>
    by_cases hactive : s.active = true
    · rw [sysPowerMgmtHandler, if_pos hactive]
    · rw [sysPowerMgmtHandler, if_neg hactive] at hwanted
      rcases hwanted with hstate | ⟨-, hnoSleep⟩
      · cases hstate
      · cases hnoSleep
  | ota => rfl

theorem Inv.handle (hdelay : powerMgmtDuration tickRateHz + delay < powerSaveTimeout tickRateHz)
    (h : Inv tickRateHz delay s) (hslept : s.slept = none) {e : SysEvent × ℕ}
    {rest : List (SysEvent × ℕ)} (hqueue : s.queue = e :: rest)
    (henters : ¬ Wanted s.ctx →
      Wanted (sysPowerMgmtHandler tickRateHz { s with queue := rest } e.1).ctx →
        InTime delay (sysPowerMgmtHandler tickRateHz { s with queue := rest } e.1)) :
    Inv tickRateHz delay (sysPowerMgmtHandler tickRateHz { s with queue := rest } e.1) := by
  obtain ⟨hleft, hkept, hrest⟩ := handler_kept tickRateHz { s with queue := rest } e.1
  have hle := h.left_le
  refine ⟨by rw [hleft]; exact h.left_pos, by rw [hleft]; exact hle, fun _ hwanted => ?_,
    fun c hc => h.asleep c (hkept ▸ hc)⟩
  by_cases hbefore : Wanted s.ctx
  · by_cases htype : e.1 = .powerMgmt
    · rw [htype] at hleft ⊢
      exact inTime_full hdelay (by rw [hleft]; exact hle) fun left => powerMgmt_full hbefore
    · refine (h.awake hslept hbefore).of_queue (otherEvent_timer htype hwanted) hleft ?_
      intro e' he' htype'
      rw [hqueue] at he'
      rcases List.mem_cons.mp he' with rfl | he'
      · exact absurd htype' htype
      · rw [hrest]
        exact he'
  · exact henters hbefore hwanted

theorem Inv.rest (hdelay : powerMgmtDuration tickRateHz + delay < powerSaveTimeout tickRateHz)
    (h : Inv tickRateHz delay s) (request : RestRequest) :
    Inv tickRateHz delay (restHandler tickRateHz s request) := by
  have hkept : (restHandler tickRateHz s request).powerMgmtLeft = s.powerMgmtLeft ∧
      (restHandler tickRateHz s request).slept = s.slept ∧
      (restHandler tickRateHz s request).powerSaveTimer =
        resetPowerSaveTimer tickRateHz s.powerSaveTimer := by
    cases request <;> exact ⟨rfl, rfl, rfl⟩
  obtain ⟨hleft, hasleep, htimer⟩ := hkept
  refine ⟨hleft ▸ h.left_pos, hleft ▸ h.left_le, fun _ _ => ?_,
    fun c hc => h.asleep c (hasleep ▸ hc)⟩
  exact inTime_full hdelay (hleft ▸ h.left_le) fun left hrunning =>
    reset_full (htimer.symm.trans hrunning)

/-- A device that sleeps takes no step. -/
theorem awake_of_step {a : Label} (h : step tickRateHz s a = some t) :
    s.slept.isSome = false := by
  cases hs : s.slept with
  | none => rfl
  | some c => cases a <;> simp [step, hs] at h

theorem Inv.step (hrate : 0 < tickRateHz)
    (hdelay : powerMgmtDuration tickRateHz + delay < powerSaveTimeout tickRateHz)
    (h : Inv tickRateHz delay s) {a : Label}
    (hok : Prompt delay s a ∧ EntersInTime tickRateHz delay s a)
    (hstep : step tickRateHz s a = some t) : Inv tickRateHz delay t := by
  have hon := awake_of_step hstep
  have hslept : s.slept = none := Option.not_isSome_iff_eq_none.mp (by simp [hon])
  have honly : ¬ s.slept.isSome = true := by simp [hon]
  cases a with
  | tick =>
    simp only [SleepTimer.step, if_neg honly, Option.some.injEq] at hstep
    obtain rfl := hstep
    exact h.tick hrate hslept hok.1
  | setMode active =>
    simp only [SleepTimer.step, if_neg honly, Option.some.injEq] at hstep
    obtain rfl := hstep
    refine ⟨h.left_pos, h.left_le, fun hawake hwanted => ?_, h.asleep⟩
    exact (h.awake hawake hwanted).of_queue rfl rfl fun e he _ => he
  | rest request =>
    simp only [SleepTimer.step, if_neg honly, Option.some.injEq] at hstep
    obtain rfl := hstep
    exact h.rest hdelay request
  | systemLoop =>
    simp only [SleepTimer.step] at hstep
    split_ifs at hstep
    obtain rfl := Option.some.inj hstep
    refine ⟨h.left_pos, h.left_le, fun hawake hwanted => ?_, h.asleep⟩
    exact (h.awake hawake hwanted).of_queue rfl rfl fun e he _ => List.mem_append_left _ he
  | otaTriggered =>
    simp only [SleepTimer.step, if_neg honly, Option.some.injEq] at hstep
    obtain rfl := hstep
    refine ⟨h.left_pos, h.left_le, fun hawake hwanted => ?_, h.asleep⟩
    exact (h.awake hawake hwanted).of_queue rfl rfl fun e he _ => List.mem_append_left _ he
  | otaFailed =>
    simp only [SleepTimer.step, if_neg honly, Option.some.injEq] at hstep
    obtain rfl := hstep
    refine ⟨h.left_pos, h.left_le, fun hawake hwanted => ?_, h.asleep⟩
    have hbefore : Wanted s.ctx := by
      rcases hwanted with hactive | ⟨-, hnoSleep⟩
      · exact .inl hactive
      · cases hnoSleep
    exact (h.awake hawake hbefore).of_queue rfl rfl fun e he _ => he
  | handle =>
    have henters := hok.2 rfl
    simp only [SleepTimer.step, if_neg honly] at hstep henters
    split at hstep
    · cases hstep
    · rename_i e rest hqueue
      obtain rfl := Option.some.inj hstep
      rw [hqueue] at henters
      exact h.handle hdelay hslept hqueue fun hbefore hwanted => henters hbefore _ rfl hwanted

end Steps

/-- If the power management events are handled in time, and the timer has that much time left
whenever the device becomes wanted, it never runs out on a device that is wanted. -/
theorem slept_unwanted {tickRateHz delay : ℕ} (hrate : 0 < tickRateHz)
    (hdelay : powerMgmtDuration tickRateHz + delay < powerSaveTimeout tickRateHz) {s : State}
    (h : (machine tickRateHz).Reach
      (fun s a => Prompt delay s a ∧ EntersInTime tickRateHz delay s a) s) :
    ∀ c, s.slept = some c → ¬ Wanted c := by
  have hinv : Inv tickRateHz delay s := by
    refine Machine.Reach.invariant ?_ (fun s a t hs hok ht => hs.step hrate hdelay hok ht) h
    rintro s ⟨hslept, -, hstarted, -, hpos, hle⟩
    refine ⟨hpos, hle, fun _ hwanted left hleft => Or.inr ?_, fun c hc => ?_⟩
    · rw [hstarted hwanted left hleft]
      omega
    · rw [hslept] at hc
      cases hc
  exact hinv.asleep

/-- In standby since the boot, with both timers just started; one tick is a second. -/
def idle : State where
  active := false
  modeChangeBit := false
  queue := []
  ctx := standbyCtx (powerMgmtInit .zero)
  powerSaveTimer := armPowerSaveTimer 1 none
  powerMgmtLeft := powerMgmtDuration 1
  slept := none

theorem init_idle : (machine 1).Init idle := by
  refine ⟨rfl, rfl, fun hwanted => absurd hwanted (by decide), fun left hleft => ?_, by decide,
    by decide⟩
  obtain rfl := Option.some.inj (Option.some.inj hleft)
  decide

/-- A session that a request starts after 290 s, and 30 s of it. -/
def restSession : List Label :=
  (List.replicate 14 (List.replicate 20 Label.tick ++ [.handle])).flatten ++
    List.replicate 10 .tick ++ [.rest (.mode true), .systemLoop, .handle] ++
    List.replicate 10 .tick ++ [.handle] ++ List.replicate 20 .tick

theorem slept_unwanted_restSession : ∃ s, (machine 1).exec idle restSession = some s ∧
    ∀ c, s.slept = some c → ¬ Wanted c := by
  have hsome : ((machine 1).exec idle restSession).isSome := by decide +kernel
  obtain ⟨s, hs⟩ := Option.isSome_iff_exists.mp hsome
  have halong : (machine 1).Along (fun s a => Prompt 5 s a ∧ EntersInTime 1 5 s a) idle
      restSession := by decide +kernel
  exact ⟨s, hs, slept_unwanted (by decide) (by decide)
    (Machine.reach_of_exec init_idle halong hs)⟩

end SleepTimer

end MarkitNode
