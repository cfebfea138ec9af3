import MarkitNode.SleepTimer

/-!
Devices that are late for the timer of `SleepTimer`. If the clock alone can put a wanted
device to sleep, although its events are handled in time, the device was not in time when
it became wanted; a click on the button after a long pause is such a case.
-/

namespace MarkitNode

namespace SleepTimer

section Late

variable {tickRateHz delay : ℕ} {s t : State}

def TimeLeft (timer : PowerSaveTimer) : Prop := ∀ left, timer = some (some left) → 0 < left

theorem timeLeft_reset (hrate : 0 < tickRateHz) (timer : PowerSaveTimer) :
    TimeLeft (resetPowerSaveTimer tickRateHz timer) := by
  intro left hleft
  rw [reset_full hleft]
  exact Nat.mul_pos (by omega) hrate

theorem timeLeft_arm (hrate : 0 < tickRateHz) (timer : PowerSaveTimer) :
    TimeLeft (armPowerSaveTimer tickRateHz timer) := by
  intro left hleft
  obtain rfl := Option.some.inj (Option.some.inj hleft)
  exact Nat.mul_pos (by omega) hrate

theorem timeLeft_disarm (timer : PowerSaveTimer) : TimeLeft (disarmPowerSaveTimer timer) :=
  fun _ h => by cases h

theorem timeLeft_handler (hrate : 0 < tickRateHz) (h : TimeLeft s.powerSaveTimer) (e : SysEvent) :
    TimeLeft (sysPowerMgmtHandler tickRateHz s e).powerSaveTimer := by
  have htransition : TimeLeft (transitionTimer tickRateHz s.ctx s.powerSaveTimer) := by
    unfold transitionTimer
    split
    · split
      · exact timeLeft_disarm _
      · exact timeLeft_arm hrate _
      · exact timeLeft_arm hrate _
    · exact h
  cases e with
  | powerMgmt =>
    simp only [sysPowerMgmtHandler]
    split
    · split
      · exact timeLeft_reset hrate _
      · exact htransition
    · exact timeLeft_reset hrate _
    · exact htransition
  | modeChange =>
    by_cases hactive : s.active = true
    · rw [sysPowerMgmtHandler, if_pos hactive]
      exact h
    · rw [sysPowerMgmtHandler, if_neg hactive]
      by_cases hmode : s.ctx.mode ≠ .performance
      · simp only [if_pos hmode]
        exact timeLeft_arm hrate _
      · simp only [if_neg hmode]
        exact timeLeft_disarm _
  | ota => exact h

theorem timeLeft_powerSaveTick (h : TimeLeft s.powerSaveTimer) :
    TimeLeft (powerSaveTick s).powerSaveTimer := by
  by_cases hrunning : ∃ left, s.powerSaveTimer = some (some left)
  · obtain ⟨left, hleft⟩ := hrunning
    by_cases hdue : left ≤ 1
    · rw [powerSaveTick_due hleft hdue]
      exact fun _ h => by cases h
    · rw [powerSaveTick_running hleft hdue]
      intro left' hleft'
      obtain rfl := Option.some.inj (Option.some.inj hleft')
      omega
  · rw [powerSaveTick_stopped fun left hleft => hrunning ⟨left, hleft⟩]
    exact h

/-- The timers that run have time left. -/
theorem timersRun (hrate : 0 < tickRateHz) (h : (machine tickRateHz).Reach Machine.anyStep s) :
    TimeLeft s.powerSaveTimer ∧ 0 < s.powerMgmtLeft ∧
      s.powerMgmtLeft ≤ powerMgmtDuration tickRateHz := by
  refine Machine.Reach.invariant (I := fun s => TimeLeft s.powerSaveTimer ∧ 0 < s.powerMgmtLeft ∧
    s.powerMgmtLeft ≤ powerMgmtDuration tickRateHz) ?_ ?_ h
  · rintro s ⟨-, -, -, htimer, hpos, hle⟩
    exact ⟨htimer, hpos, hle⟩
  rintro s a t ⟨htimer, hpos, hle⟩ - (hstep : step tickRateHz s a = some t)
  have honly : ¬ s.slept.isSome = true := by simp [awake_of_step hstep]
  cases a with
  | tick =>
    simp only [step, if_neg honly, Option.some.injEq] at hstep
    obtain rfl := hstep
    obtain ⟨hleft, -⟩ := powerSaveTick_left (s := powerMgmtTick tickRateHz (waitTick s))
    obtain ⟨-, hsave, -⟩ := powerMgmtTick_kept tickRateHz (s := waitTick s)
    rw [clockTick, hleft]
    refine ⟨timeLeft_powerSaveTick ?_, powerMgmtTick_left tickRateHz hrate hle⟩
    rw [hsave]
    exact htimer
  | rest request =>
    simp only [step, if_neg honly, Option.some.injEq] at hstep
    obtain rfl := hstep
    cases request <;> exact ⟨timeLeft_reset hrate _, hpos, hle⟩
  | handle =>
    simp only [step, if_neg honly] at hstep
    split at hstep
    · cases hstep
    · rename_i e rest _
      obtain rfl := Option.some.inj hstep
      obtain ⟨hleft, -, -⟩ := handler_kept tickRateHz { s with queue := rest } e.1
      rw [hleft]
      exact ⟨timeLeft_handler (s := { s with queue := rest }) hrate htimer e.1, hpos, hle⟩
  | systemLoop =>
    simp only [step] at hstep
    split_ifs at hstep
    obtain rfl := Option.some.inj hstep
    exact ⟨htimer, hpos, hle⟩
  | setMode active | otaTriggered | otaFailed =>
    simp only [step, if_neg honly, Option.some.injEq] at hstep
    obtain rfl := hstep
    exact ⟨htimer, hpos, hle⟩

/-- No event comes before the timer runs out. -/
structure TooLate (delay left : ℕ) (s : State) : Prop where
  timer : s.powerSaveTimer = some (some left)
  queued : ∀ e ∈ s.queue, e.1 = .powerMgmt → left ≤ delay - e.2
  posted : left ≤ s.powerMgmtLeft + delay

theorem TooLate.tick (tickRateHz : ℕ) {left : ℕ} (h : TooLate delay (left + 2) s) :
    TooLate delay (left + 1) (clockTick tickRateHz s) ∧
      (clockTick tickRateHz s).slept = s.slept := by
  obtain ⟨-, htimer, hkept⟩ := powerMgmtTick_kept tickRateHz (s := waitTick s)
  have hwaited : ∀ e ∈ (waitTick s).queue, e.1 = .powerMgmt → left + 1 ≤ delay - e.2 := by
    intro e he htype
    obtain ⟨e, he', rfl⟩ := List.mem_map.mp he
    have hbefore := h.queued e he' htype
    dsimp only
    omega
  rw [clockTick, powerSaveTick_running (htimer.trans h.timer) (by omega)]
  refine ⟨?_, hkept⟩
  have hposted := h.posted
  by_cases hdue : s.powerMgmtLeft ≤ 1
  · rw [powerMgmtTick_due _ (show (waitTick s).powerMgmtLeft ≤ 1 from hdue)]
    refine ⟨rfl, fun e he htype => ?_, by dsimp only; omega⟩
    split_ifs at he
    · rcases List.mem_append.mp he with he | he
      · exact hwaited e he htype
      · obtain rfl := List.mem_singleton.mp he
        dsimp only
        omega
    · exact hwaited e he htype
  · rw [powerMgmtTick_running _ (show ¬ (waitTick s).powerMgmtLeft ≤ 1 from hdue)]
    refine ⟨rfl, hwaited, ?_⟩
    change left + 1 ≤ s.powerMgmtLeft - 1 + delay
    omega

theorem step_tick (h : s.slept = none) :
    (machine tickRateHz).step s .tick = some (clockTick tickRateHz s) := by
  change step tickRateHz s .tick = _
  rw [step, if_neg (by simp [h])]

/-- The clock alone puts a device to sleep that is too late. -/
theorem TooLate.sleeps (tickRateHz : ℕ) {left : ℕ} (h : TooLate delay (left + 1) s)
    (hslept : s.slept = none) :
    ∃ ticks t, (machine tickRateHz).exec s (List.replicate ticks .tick) = some t ∧
      (machine tickRateHz).Along (Prompt delay) s (List.replicate ticks .tick) ∧
      t.slept.isSome := by
  have hprompt : ∀ {left : ℕ} {s : State}, TooLate delay (left + 1) s → Prompt delay s .tick := by
    intro left s h e he htype
    have hlate := h.queued e he htype
    omega
  induction left generalizing s with
  | zero =>
    obtain ⟨-, htimer, -⟩ := powerMgmtTick_kept tickRateHz (s := waitTick s)
    refine ⟨1, clockTick tickRateHz s, ?_, Machine.along_singleton.mpr (hprompt h), ?_⟩
    · rw [List.replicate_one, Machine.exec_cons_of_step (step_tick hslept)]
      rfl
    · rw [clockTick, powerSaveTick_due (htimer.trans h.timer) (Nat.le_refl 1)]
      rfl
  | succ left ih =>
    obtain ⟨hnext, hkept⟩ := h.tick tickRateHz
    obtain ⟨ticks, t, hrun, halong, hsleeps⟩ := ih hnext (hkept.trans hslept)
    refine ⟨ticks + 1, t, ?_, ?_, hsleeps⟩
    · rw [List.replicate_succ, Machine.exec_cons_of_step (step_tick hslept)]
      exact hrun
    · rw [List.replicate_succ, Machine.along_cons_of_step (step_tick hslept)]
      exact ⟨hprompt h, halong⟩

theorem InTime.ticks (hrate : 0 < tickRateHz) (h : InTime delay s) (hslept : s.slept = none)
    (hwanted : Wanted s.ctx) (hpos : 0 < s.powerMgmtLeft)
    (hle : s.powerMgmtLeft ≤ powerMgmtDuration tickRateHz) {ticks : ℕ}
    (hrun : (machine tickRateHz).exec s (List.replicate ticks .tick) = some t)
    (halong : (machine tickRateHz).Along (Prompt delay) s (List.replicate ticks .tick)) :
    t.slept = none := by
  induction ticks generalizing s with
  | zero =>
    obtain rfl := Option.some.inj hrun
    exact hslept
  | succ ticks ih =>
    rw [List.replicate_succ] at hrun halong
    rw [Machine.exec_cons_of_step (step_tick hslept)] at hrun
    rw [Machine.along_cons_of_step (step_tick hslept)] at halong
    obtain ⟨hctx, hkept, hin⟩ :=
      tick_inTime tickRateHz h halong.1 (wanted_not_save hwanted) hpos
    obtain ⟨hpos', hle'⟩ := powerMgmtTick_left tickRateHz (s := waitTick s) hrate hle
    obtain ⟨hleft, -⟩ := powerSaveTick_left (s := powerMgmtTick tickRateHz (waitTick s))
    exact ih hin (hkept.trans hslept) (hctx ▸ hwanted) (hleft ▸ hpos') (hleft ▸ hle') hrun
      halong.2

/-- A wanted device is in time exactly if the clock alone cannot put it to sleep while its
events are handled in time. -/
theorem inTime_iff (hrate : 0 < tickRateHz) (h : (machine tickRateHz).Reach Machine.anyStep s)
    (hslept : s.slept = none) (hwanted : Wanted s.ctx) :
    InTime delay s ↔ ∀ ticks t,
      (machine tickRateHz).exec s (List.replicate ticks .tick) = some t →
      (machine tickRateHz).Along (Prompt delay) s (List.replicate ticks .tick) →
      t.slept = none := by
  obtain ⟨htimer, hpos, hle⟩ := timersRun hrate h
  constructor
  · intro hin ticks t hrun halong
    exact hin.ticks hrate hslept hwanted hpos hle hrun halong
  · intro hsafe left hleft
    by_contra hlate
    obtain ⟨hqueued, hposted⟩ := not_or.mp hlate
    obtain ⟨left, rfl⟩ := Nat.exists_eq_succ_of_ne_zero (Nat.ne_of_gt (htimer left hleft))
    have htoo : TooLate delay (left + 1) s :=
      ⟨hleft, fun e he htype => Nat.not_lt.mp fun hlt => hqueued ⟨e, he, htype, hlt⟩,
        Nat.not_lt.mp hposted⟩
    obtain ⟨ticks, t, hrun, halong, hsleeps⟩ := htoo.sleeps tickRateHz hslept
    rw [hsafe ticks t hrun halong] at hsleeps
    cases hsleeps

end Late

/-- A pause of 290 s, then a click. -/
def lateClick : List Label :=
  (List.replicate 14 (List.replicate 20 Label.tick ++ [.handle])).flatten ++
    List.replicate 10 .tick ++ [.setMode true, .systemLoop, .handle]

theorem inTime_iff_lateClick : ∃ s, (machine 1).exec idle lateClick = some s ∧
    s.ctx.state = .active ∧ ¬ ∀ ticks t,
      (machine 1).exec s (List.replicate ticks .tick) = some t →
      (machine 1).Along (Prompt 5) s (List.replicate ticks .tick) → t.slept = none := by
  have hrun : ((machine 1).exec idle lateClick).map (fun s =>
      (s.slept, s.ctx.state, decide (InTime 5 s))) = some (none, .active, false) := by
    decide +kernel
  obtain ⟨s, hs, hfields⟩ := Option.map_eq_some_iff.mp hrun
  obtain ⟨hslept, hrest⟩ := Prod.mk.inj hfields
  obtain ⟨hactive, hlate⟩ := Prod.mk.inj hrest
  have hreach := Machine.reach_of_exec init_idle (Machine.along_anyStep idle lateClick) hs
  exact ⟨s, hs, hactive, fun hsafe => of_decide_eq_false hlate
    ((inTime_iff (by decide) hreach hslept (.inl hactive)).mpr hsafe)⟩

end SleepTimer

end MarkitNode
