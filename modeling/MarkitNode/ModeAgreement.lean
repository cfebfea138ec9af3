import MarkitNode.NodeControl

/-!
Mode changes without debug toggles and updates. Changes coalesce in one event
bit and the two handlers read the flag separately, but a handler that has read
an old value always finds another change awaited. Once none is, the mux, the
power state and `no_sleep` all follow `g_mcu.state.active`.
-/

namespace MarkitNode.ModeAgreement

open SystemLoop ModeDispatch NodeControl PowerMgmt

/-- No update is asked for, posted or run, and no debug toggle is half done. -/
structure ModeRun (s : Node) : Prop where
  notRequested : s.view.otaRequested = false
  phase : s.view.phase = .out
  notQueued : .ota ∉ s.view.queue
  notHandled : s.handler ≠ .otaNoSleep
  debug : s.debug = .idle

/-- Mux, power state and `no_sleep` follow the flag. -/
structure Settled (active : Bool) (mux : ImuMux) (ctx : PowerMgmtCtx) : Prop where
  mux : mux = muxFor active
  power : ctx.state = powerFor active
  noSleep : ctx.noSleep = active

/-- How far the handlers have brought the device to the mode they have read. -/
def Following (active : Bool) (mux : ImuMux) (ctx : PowerMgmtCtx) : HandlerPc → Prop
  | .readMode => True
  | .writeMux read => read = active
  | .readPower => mux = muxFor active
  | .enterActive => mux = muxFor active ∧ active = true
  | .setNoSleep => mux = muxFor active ∧ active = true ∧ ctx.state = .active
  | .enterStandby => mux = muxFor active ∧ active = false
  | .clearNoSleep => mux = muxFor active ∧ active = false ∧ ctx.state = .standby
  | .idle | .otaNoSleep | .powerUpdate | .other _ => Settled active mux ctx

/-- Another mode change is awaited or the handlers follow the flag. -/
def Tracked (s : Node) : Prop :=
  Awaited s.view s.callers ∨ Following s.active s.mux s.ctx s.handler

theorem following_iff_settled {active : Bool} {mux : ImuMux} {ctx : PowerMgmtCtx}
    {handler : HandlerPc} (hmode : handlesMode handler = false) :
    Following active mux ctx handler ↔ Settled active mux ctx := by
  cases handler <;> first | exact Iff.rfl | cases hmode

/-- What the handlers do next brings the device further. -/
theorem following_busy {s t : Node} (h : Following s.active s.mux s.ctx s.handler)
    (hbusy : s.handler ≠ .idle) (hota : s.handler ≠ .otaNoSleep)
    (hstep : handlerStep s = some t) : Following t.active t.mux t.ctx t.handler := by
  cases hpc : s.handler with
  | idle => exact absurd hpc hbusy
  | otaNoSleep => exact absurd hpc hota
  | readMode =>
    simp only [handlerStep, hpc] at hstep
    cases hstep
    rfl
  | writeMux read =>
    simp only [handlerStep, hpc, Following] at h hstep
    cases hstep
    rw [h]
    rfl
  | readPower =>
    simp only [handlerStep, hpc, Following] at h hstep
    cases hstep
    cases hactive : s.active with
    | false => exact ⟨by rwa [← hactive], rfl⟩
    | true => exact ⟨by rwa [← hactive], rfl⟩
  | enterActive =>
    simp only [handlerStep, hpc, Following] at h hstep
    cases hstep
    exact ⟨h.1, h.2, rfl⟩
  | setNoSleep =>
    simp only [handlerStep, hpc, Following] at h hstep
    cases hstep
    obtain ⟨hmux, hactive, hpower⟩ := h
    exact ⟨hmux, hpower.trans (congrArg powerFor hactive.symm), hactive.symm⟩
  | enterStandby =>
    simp only [handlerStep, hpc, Following] at h hstep
    cases hstep
    exact ⟨h.1, h.2, rfl⟩
  | clearNoSleep =>
    simp only [handlerStep, hpc, Following] at h hstep
    cases hstep
    obtain ⟨hmux, hactive, hpower⟩ := h
    exact ⟨hmux, hpower.trans (congrArg powerFor hactive.symm), hactive.symm⟩
  | powerUpdate =>
    simp only [handlerStep, hpc, Following] at h hstep
    cases hstep
    exact ⟨h.mux, (powerUpdateCtx_state _).trans h.power,
      (powerUpdateCtx_noSleep _).trans h.noSleep⟩
  | other e =>
    simp only [handlerStep, hpc, Following] at h hstep
    cases hstep
    exact h

section Steps

variable {s t : Node} {a : Label}

theorem loop_plain {v v' : View} {eff : LoopEffect} (hrequested : v.otaRequested = false)
    (hphase : v.phase = .out) (hqueue : .ota ∉ v.queue) (hstep : Step v v' eff) :
    eff = .none ∧ v'.otaRequested = false ∧ v'.phase = .out ∧ .ota ∉ v'.queue := by
  cases hstep with
  | stay => exact ⟨rfl, hrequested, hphase, hqueue⟩
  | take _ _ => exact ⟨rfl, hrequested, hphase, hqueue⟩
  | postMode _ _ => exact ⟨rfl, hrequested, hphase, by simp [hqueue]⟩
  | postOta again hreq _ => rw [hrequested] at hreq; cases hreq
  | postOther e _ he _ => exact ⟨rfl, hrequested, hphase, by simp [hqueue, he.symm]⟩
  | setInactive h => rw [hphase] at h; cases h
  | raise h => rw [hphase] at h; cases h
  | failed h => rw [hphase] at h; cases h

theorem modeRun_step (h : ModeRun s) (hok : modeOnly s a) (hstep : step s a = some t) :
    ModeRun t := by
  obtain ⟨hrequested, hphase, hqueue, hhandled, hdebug⟩ := h
  cases a with
  | loop ledManual =>
    obtain ⟨eff, hview, ht⟩ := loop_cases hstep
    obtain ⟨rfl, hrequested, hphase, hqueue⟩ := loop_plain hrequested hphase hqueue hview
    exact ⟨hrequested, hphase, hqueue, by rwa [ht], by rwa [ht]⟩
  | handler =>
    by_cases hidle : s.handler = .idle
    · obtain ⟨e, rest, hpop, hview, ht⟩ := idle_cases hidle hstep
      rw [hpop, List.mem_cons, not_or] at hqueue
      refine ⟨by rwa [hview], by rwa [hview], by rw [hview]; exact hqueue.2, ?_, by rwa [ht]⟩
      rw [ht]
      exact fun hota => hqueue.1 (dispatch_eq_otaNoSleep.mp hota).symm
    · obtain ⟨hview, ht, hnext⟩ := busy_cases hidle hstep
      refine ⟨by rwa [hview], by rwa [hview], by rwa [hview], ?_, by rwa [ht]⟩
      intro hota
      rw [hota] at hnext
      rcases hnext with hnext | ⟨-, hnext⟩ <;> cases hnext
  | write active =>
    cases hstep
    exact ⟨hrequested, hphase, hqueue, hhandled, hdebug⟩
  | setBit =>
    obtain ⟨_, hview, ht⟩ := setBit_cases hstep
    exact ⟨by rwa [hview], by rwa [hview], by rwa [hview], by rwa [ht], by rwa [ht]⟩
  | debugEnable => cases hok
  | debugDisable => cases hok
  | debug => simp only [step, debugStep, hdebug, reduceCtorEq] at hstep
  | raise e =>
    obtain ⟨-, hview, ht⟩ := raise_cases hstep
    have hview := hview (by rintro rfl; cases hok)
    exact ⟨by rwa [hview], by rwa [hview], by rwa [hview], by rwa [ht], by rwa [ht]⟩
  | timer e =>
    obtain ⟨-, he, hview, ht⟩ := timer_cases hstep
    exact ⟨by rwa [hview], by rwa [hview], by rw [hview]; simp [hqueue, he.symm], by rwa [ht],
      by rwa [ht]⟩

/-- A device that follows its mode does so until another change is awaited. -/
theorem following_step (hmode : ModeRun s) (h : Following s.active s.mux s.ctx s.handler)
    (hok : modeOnly s a) (hstep : step s a = some t) : Tracked t := by
  cases a with
  | loop ledManual =>
    obtain ⟨eff, hview, ht⟩ := loop_cases hstep
    obtain ⟨rfl, -⟩ := loop_plain hmode.notRequested hmode.phase hmode.notQueued hview
    rw [ht]
    exact Or.inr h
  | handler =>
    refine Or.inr ?_
    by_cases hidle : s.handler = .idle
    · obtain ⟨e, rest, hpop, -, ht⟩ := idle_cases hidle hstep
      rw [hidle] at h
      rw [ht]
      cases e with
      | modeChange => trivial
      | _ => exact h
    · exact following_busy h hidle hmode.notHandled hstep
  | write active =>
    cases hstep
    exact Or.inl (.calling (Nat.succ_pos _))
  | setBit =>
    obtain ⟨_, hview, _⟩ := setBit_cases hstep
    exact Or.inl (.pending (by rw [hview]))
  | debugEnable => cases hok
  | debugDisable => cases hok
  | debug => simp only [step, debugStep, hmode.debug, reduceCtorEq] at hstep
  | raise e =>
    obtain ⟨-, -, ht⟩ := raise_cases hstep
    rw [ht]
    exact Or.inr h
  | timer e =>
    obtain ⟨-, -, -, ht⟩ := timer_cases hstep
    rw [ht]
    exact Or.inr h

end Steps

theorem coldStandby_modeRun : ModeRun coldStandby where
  notRequested := rfl
  phase := rfl
  notQueued := nofun
  notHandled := nofun
  debug := rfl

theorem reach_modeRun {s : Node} (h : machine.Reach modeOnly s) : ModeRun s := by
  refine h.invariant ?_ ?_
  · rintro s rfl
    exact coldStandby_modeRun
  · intro s a t hs hok hstep
    exact modeRun_step hs hok hstep

theorem reach_tracked {s : Node} (h : machine.Reach modeOnly s) : Tracked s := by
  refine h.invariant_of (fun s hs => reach_modeRun hs) ?_ ?_
  · rintro s rfl
    exact Or.inr ⟨rfl, rfl, rfl⟩
  · intro s a t hmode hs hok hstep
    rcases hs with hawaited | hfollowing
    · rcases awaited_step hawaited hstep with hawaited | hread
      · exact Or.inl hawaited
      · exact Or.inr (by rw [hread]; trivial)
    · exact following_step hmode hfollowing hok hstep

/-- No caller is between its two steps, the event bit is clear, no mode change
is queued and no handler of one is running. -/
structure Quiet (s : Node) : Prop where
  callers : s.callers = 0
  pending : s.bus.sysEvents .modeChange = false
  queued : .modeChange ∉ s.bus.queue
  handler : handlesMode s.handler = false

theorem settled_of_quiet {s : Node} (h : machine.Reach modeOnly s) (hquiet : Quiet s)
    (hloop : modeInHand s.loop = false) : Settled s.active s.mux s.ctx := by
  have hfollowing := (reach_tracked h).resolve_left fun ha => by
    cases ha with
    | calling hc => exact absurd hc (by rw [hquiet.callers]; exact Nat.lt_irrefl 0)
    | pending hp => exact Bool.false_ne_true (hquiet.pending.symm.trans hp)
    | inHand hi => exact Bool.false_ne_true (hloop.symm.trans hi)
    | queued hq => exact hquiet.queued hq
  exact (following_iff_settled hquiet.handler).mp hfollowing

theorem settled_of_quiet_firstSession :
    ∃ s, machine.exec coldStandby firstSession = some s ∧ s.active = true ∧
      Settled s.active s.mux s.ctx := by
  have halong : machine.Along modeOnly coldStandby firstSession := by decide
  exact ⟨_, rfl, rfl, settled_of_quiet (Machine.reach_of_exec rfl halong rfl)
    ⟨rfl, rfl, by decide, rfl⟩ rfl⟩

/-- The loop has taken the event bit and has not posted the event yet. -/
def changeTaken : List Label := [.write true, .setBit, .loop false]

theorem not_settled_changeTaken :
    ∃ s, machine.Reach modeOnly s ∧ Quiet s ∧ ¬ Settled s.active s.mux s.ctx := by
  have halong : machine.Along modeOnly coldStandby changeTaken := by decide
  refine ⟨_, Machine.reach_of_exec rfl halong rfl, ⟨rfl, rfl, by decide, rfl⟩, ?_⟩
  intro h
  cases h.mux

end MarkitNode.ModeAgreement
