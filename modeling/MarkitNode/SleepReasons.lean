import MarkitNode.NodeControl

/-!
`no_sleep` and the three reasons to set it: an active session, the debug mux
and a running update. Each reason sets the one flag and its end clears it,
whatever the others say. `KeepsAwake` names the clearings that do no harm: in
runs that clear the flag in no other way, every reason that lasts has it set.
-/

namespace MarkitNode.SleepReasons

open SystemLoop ModeDispatch NodeControl PowerMgmt

/-- A mode-change or update event is queued. -/
def EventQueued (v : View) : Prop := .modeChange ∈ v.queue ∨ .ota ∈ v.queue

/-- A mode-change or update event is being handled. -/
def handlesEvent (handler : HandlerPc) : Prop :=
  handlesMode handler = true ∨ handler = .otaNoSleep

/-- From the handling of the update event until `sys_ota_perform` returns. -/
structure OtaRunning (v : View) (handler : HandlerPc) : Prop where
  phase : v.phase ≠ .out
  notQueued : .ota ∉ v.queue
  notHandled : handler ≠ .otaNoSleep

instance (v : View) : Decidable (EventQueued v) := inferInstanceAs (Decidable (_ ∨ _))

instance (handler : HandlerPc) : Decidable (handlesEvent handler) :=
  inferInstanceAs (Decidable (_ ∨ _))

instance (v : View) (handler : HandlerPc) : Decidable (OtaRunning v handler) :=
  decidable_of_iff (v.phase ≠ .out ∧ .ota ∉ v.queue ∧ handler ≠ .otaNoSleep)
    ⟨fun h => ⟨h.1, h.2.1, h.2.2⟩, fun h => ⟨h.1, h.2, h.3⟩⟩

/-- The condition on the three places that clear `no_sleep`. The toggle must
not clear it during an update, nor for an active device unless a mode change
is under way; the other two must not clear it while the mux is in debug mode,
unless the flag is about to be set again or another event decides. -/
def KeepsAwake (s : Node) : Label → Prop
  | .debug => s.debug = .disabling →
      ¬ OtaRunning s.view s.handler ∧
        (s.active = true → Awaited s.view s.callers ∨ handlesMode s.handler = true)
  | .handler => s.handler = .clearNoSleep → s.mux = .debug →
      s.debug = .enabling ∨ EventQueued s.view
  | .loop _ => s.view.phase = .perform → s.mux = .debug →
      s.debug = .enabling ∨ EventQueued s.view ∨ handlesEvent s.handler
  | _ => True

instance (s : Node) : DecidablePred (KeepsAwake s)
  | .debug | .handler | .loop _ => inferInstanceAs (Decidable (_ → _))
  | .write _ | .setBit | .debugEnable | .debugDisable | .raise _
  | .timer _ => inferInstanceAs (Decidable True)

/-- The running handler leaves an active device awake when it is done. -/
def AwakeSoon (noSleep : Bool) : HandlerPc → Prop
  | .readMode | .writeMux _ | .readPower | .enterActive | .setNoSleep => True
  | .enterStandby | .clearNoSleep => False
  | .idle | .otaNoSleep | .powerUpdate | .other _ => noSleep = true

/-- In the update section no mode change will be handled after the update. -/
structure OtaLast (v : View) (handler : HandlerPc) : Prop where
  queued : v.phase ≠ .out → ∀ back, .modeChange :: back <:+ v.queue → .ota ∈ back
  handled : v.phase ≠ .out → handlesMode handler = true → .ota ∈ v.queue
  pending : v.phase = .perform → v.pending = true

section OtaLast

variable {v v' : View} {handler : HandlerPc}

theorem suffix_of_append {e : SysEventType} {back queue : List SysEventType}
    (h : .modeChange :: back <:+ queue ++ [e]) (he : e ≠ .modeChange) :
    ∃ front, back = front ++ [e] ∧ .modeChange :: front <:+ queue := by
  rcases List.suffix_concat_iff.mp h with hnil | ⟨front, heq, hfront⟩
  · cases hnil
  · cases front with
    | nil =>
      simp only [List.nil_append, List.cons.injEq] at heq
      exact absurd heq.1.symm he
    | cons first front =>
      simp only [List.cons_append, List.cons.injEq] at heq
      obtain ⟨rfl, rfl⟩ := heq
      exact ⟨front, rfl, hfront⟩

theorem otaLast_append (h : OtaLast v handler) {e : SysEventType} (he : e ≠ .modeChange) :
    OtaLast { v with queue := v.queue ++ [e] } handler where
  queued hphase back hback := by
    obtain ⟨front, rfl, hfront⟩ := suffix_of_append hback he
    exact List.mem_append_left _ (h.queued hphase front hfront)
  handled hphase hmode := List.mem_append_left _ (h.handled hphase hmode)
  pending := h.pending

theorem otaLast_view {eff : LoopEffect} (h : OtaLast v handler) (hstep : Step v v' eff) :
    OtaLast v' handler := by
  cases hstep with
  | stay => exact h
  | take _ hout =>
    exact ⟨h.queued, h.handled, fun hphase => by rw [hout] at hphase; cases hphase⟩
  | postMode _ hout =>
    exact ⟨fun hphase => absurd hout hphase, fun hphase => absurd hout hphase, h.pending⟩
  | postOta again _ hout =>
    refine ⟨fun _ back hback => ?_, fun _ _ => by simp, nofun⟩
    obtain ⟨front, rfl, -⟩ := suffix_of_append hback (by decide)
    exact List.mem_append_right _ (List.mem_singleton.mpr rfl)
  | postOther e he _ _ => exact otaLast_append h he
  | setInactive hin =>
    exact ⟨fun _ => h.queued (by rw [hin]; decide), fun _ => h.handled (by rw [hin]; decide), nofun⟩
  | raise hin =>
    exact ⟨fun _ => h.queued (by rw [hin]; decide), fun _ => h.handled (by rw [hin]; decide),
      fun _ => rfl⟩
  | failed _ => exact ⟨fun hphase => absurd rfl hphase, fun hphase => absurd rfl hphase, nofun⟩

theorem otaLast_congr {handler' : HandlerPc} (h : OtaLast v handler)
    (hmode : handlesMode handler' = true → handlesMode handler = true) : OtaLast v handler' :=
  ⟨h.queued, fun hphase hhandles => h.handled hphase (hmode hhandles), h.pending⟩

theorem otaLast_pop {e : SysEventType} {rest : List SysEventType} (h : OtaLast v handler)
    (hqueue : v.queue = e :: rest) : OtaLast { v with queue := rest } (dispatch e) := by
  refine ⟨fun hphase back hback => ?_, fun hphase hmode => ?_, h.pending⟩
  · refine h.queued hphase back (hback.trans ?_)
    rw [hqueue]
    exact List.suffix_cons e rest
  · have hall : .modeChange :: rest = v.queue := by
      rw [hqueue, handlesMode_dispatch.mp hmode]
    exact h.queued hphase rest ⟨[], hall⟩

end OtaLast

section Steps

variable {s t : Node} {a : Label}

theorem otaLast_step (h : OtaLast s.view s.handler) (hstep : step s a = some t) :
    OtaLast t.view t.handler := by
  cases a with
  | loop ledManual =>
    obtain ⟨eff, hview, ht⟩ := loop_cases hstep
    have hhandler : t.handler = s.handler := by
      rw [ht]
      cases eff <;> rfl
    rw [hhandler]
    exact otaLast_view h hview
  | handler =>
    by_cases hidle : s.handler = .idle
    · obtain ⟨e, rest, hqueue, hview, ht⟩ := idle_cases hidle hstep
      rw [hview, ht]
      exact otaLast_pop h hqueue
    · obtain ⟨hview, -, hnext⟩ := busy_cases hidle hstep
      rw [hview]
      refine otaLast_congr h fun hmode => ?_
      rcases hnext with hnext | hnext
      · rw [hnext] at hmode
        cases hmode
      · exact hnext.1
  | write active =>
    cases hstep
    exact h
  | setBit =>
    obtain ⟨_, hview, ht⟩ := setBit_cases hstep
    rw [hview, ht]
    exact ⟨h.queued, h.handled, fun _ => rfl⟩
  | debugEnable =>
    rw [debugEnable_cases hstep]
    exact h
  | debugDisable =>
    rw [debugDisable_cases hstep]
    exact h
  | debug =>
    rcases debug_cases hstep with ⟨-, ht⟩ | ⟨-, ht⟩ <;> (rw [ht]; exact h)
  | raise e =>
    obtain ⟨⟨requested, hview⟩, -, ht⟩ := raise_cases hstep
    rw [ht] at hview ⊢
    rw [hview]
    exact ⟨h.queued, h.handled, h.pending⟩
  | timer e =>
    obtain ⟨he, -, hview, ht⟩ := timer_cases hstep
    rw [ht] at hview ⊢
    rw [hview]
    exact otaLast_append h he

end Steps

theorem reach_otaLast {ok : Node → Label → Prop} {s : Node} (h : machine.Reach ok s) :
    OtaLast s.view s.handler := by
  refine h.invariant (I := fun s => OtaLast s.view s.handler) ?_ ?_
  · rintro s rfl
    exact ⟨fun hphase => absurd rfl hphase, fun hphase => absurd rfl hphase, nofun⟩
  · intro s a t hs _ hstep
    exact otaLast_step hs hstep

/-- Whatever is a reason to stay awake has the flag set, or a step is coming
that decides about it. -/
structure Awake (s : Node) : Prop where
  active : s.active = true → Awaited s.view s.callers ∨ AwakeSoon s.ctx.noSleep s.handler
  debug : s.mux = .debug →
    s.ctx.noSleep = true ∨ s.debug = .enabling ∨ EventQueued s.view ∨ handlesEvent s.handler
  disabling : s.debug = .disabling → s.mux ≠ .debug
  ota : OtaRunning s.view s.handler → s.ctx.noSleep = true

section Views

variable {v v' : View} {handler : HandlerPc} {eff : LoopEffect}

theorem eventQueued_append (h : EventQueued v) (e : SysEventType) :
    EventQueued { v with queue := v.queue ++ [e] } :=
  h.imp (List.mem_append_left _) (List.mem_append_left _)

theorem eventQueued_view (h : EventQueued v) (hstep : Step v v' eff) : EventQueued v' := by
  cases hstep with
  | postMode _ _ => exact eventQueued_append h _
  | postOta _ _ _ => exact eventQueued_append h _
  | postOther e _ _ _ => exact eventQueued_append h e
  | _ => exact h

theorem otaRunning_of_append {e : SysEventType}
    (h : OtaRunning { v with queue := v.queue ++ [e] } handler) : OtaRunning v handler :=
  ⟨h.phase, fun hmem => h.notQueued (List.mem_append_left _ hmem), h.notHandled⟩

theorem otaRunning_view (h : OtaRunning v' handler) (hstep : Step v v' eff) :
    OtaRunning v handler := by
  cases hstep with
  | stay => exact h
  | take _ _ => exact ⟨h.phase, h.notQueued, h.notHandled⟩
  | postMode _ hout => exact absurd hout h.phase
  | postOta _ _ _ => exact absurd (List.mem_append_right _ (List.mem_singleton.mpr rfl)) h.notQueued
  | postOther e _ _ _ => exact otaRunning_of_append h
  | setInactive hin => exact ⟨by rw [hin]; decide, h.notQueued, h.notHandled⟩
  | raise hin => exact ⟨by rw [hin]; decide, h.notQueued, h.notHandled⟩
  | failed _ => exact absurd rfl h.phase

theorem phase_of_otaFailed (hstep : Step v v' .otaFailed) :
    v.phase = .perform ∧ v'.phase = .out := by
  cases hstep with
  | failed hperform => exact ⟨hperform, rfl⟩

theorem awakeSoon_true {noSleep : Bool} (h : AwakeSoon noSleep handler) :
    AwakeSoon true handler := by
  cases handler <;> trivial

theorem awakeSoon_of_handlesMode {noSleep noSleep' : Bool} (h : AwakeSoon noSleep handler)
    (hmode : handlesMode handler = true) : AwakeSoon noSleep' handler := by
  cases handler <;> first | exact h | cases hmode

end Views

section Steps

variable {s t : Node} {a : Label}

/-- Steps that leave the device itself alone and lose no event. -/
theorem awake_frame (h : Awake s) (hactive : t.active = s.active) (hmux : t.mux = s.mux)
    (hctx : t.ctx = s.ctx) (hhandler : t.handler = s.handler) (hdebug : t.debug = s.debug)
    (hawaited : Awaited s.view s.callers → Awaited t.view t.callers)
    (hevent : EventQueued s.view → EventQueued t.view)
    (hota : OtaRunning t.view s.handler → OtaRunning s.view s.handler) : Awake t where
  active ha := by
    rw [hctx, hhandler]
    exact (h.active (hactive.symm.trans ha)).imp_left hawaited
  debug hm := by
    rw [hctx, hhandler, hdebug]
    exact (h.debug (hmux.symm.trans hm)).imp_right (Or.imp_right (Or.imp_left hevent))
  disabling hd := by
    rw [hmux]
    exact h.disabling (hdebug.symm.trans hd)
  ota hr := by
    rw [hctx]
    rw [hhandler] at hr
    exact h.ota (hota hr)

theorem awake_loop {ledManual : Bool} (h : Awake s) (hlast : OtaLast s.view s.handler)
    (hok : KeepsAwake s (.loop ledManual)) (hstep : step s (.loop ledManual) = some t) :
    Awake t := by
  obtain ⟨eff, hview, ht⟩ := loop_cases hstep
  have hcallers : t.callers = s.callers := by
    rw [ht]
    exact applyEffect_callers s eff
  have hawaited : Awaited s.view s.callers → Awaited t.view t.callers := by
    rw [hcallers]
    exact fun ha => awaited_view ha hview
  have hevent := fun he : EventQueued s.view => eventQueued_view he hview
  cases eff with
  | none =>
    refine awake_frame h ?_ ?_ ?_ ?_ ?_ hawaited hevent fun hr => otaRunning_view hr hview
    all_goals rw [ht]; rfl
  | setInactive =>
    have hidle : Awake { s with active := false } := ⟨nofun, h.debug, h.disabling, h.ota⟩
    refine awake_frame hidle ?_ ?_ ?_ ?_ ?_ hawaited hevent fun hr => otaRunning_view hr hview
    all_goals rw [ht]; rfl
  | otaFailed =>
    have hctx : t.ctx = { s.ctx with noSleep := false } := by rw [ht]; rfl
    have hmux : t.mux = s.mux := by rw [ht]; rfl
    have hhandler : t.handler = s.handler := by rw [ht]; rfl
    have hdebug : t.debug = s.debug := by rw [ht]; rfl
    obtain ⟨hperform, hout⟩ := phase_of_otaFailed hview
    refine ⟨fun _ => Or.inl (hawaited (.pending (hlast.pending hperform))), fun hm => ?_, ?_,
      fun hr => absurd hout hr.phase⟩
    · rw [hdebug, hhandler]
      have hnext := hok hperform (hmux.symm.trans hm)
      exact Or.inr (hnext.imp_right (Or.imp_left hevent))
    · rw [hdebug, hmux]
      exact h.disabling

theorem awake_pop (h : Awake s) (hidle : s.handler = .idle) (hstep : handlerStep s = some t) :
    Awake t := by
  obtain ⟨e, rest, hqueue, hview, ht⟩ := idle_cases hidle hstep
  have hawaited : Awaited s.view s.callers → Awaited t.view t.callers ∨ t.handler = .readMode :=
    fun ha => awaited_step (a := .handler) ha hstep
  rw [ht] at hview hawaited ⊢
  have hactive := h.active
  have hdebug := h.debug
  rw [hidle] at hactive hdebug
  refine ⟨fun ha => ?_, fun hm => ?_, h.disabling, fun hr => ?_⟩
  · rcases hactive ha with ha | hsoon
    · refine (hawaited ha).imp_right fun hread => ?_
      rw [show dispatch e = .readMode from hread]
      trivial
    · refine Or.inr ?_
      cases e with
      | modeChange => trivial
      | _ => exact hsoon
  · refine (hdebug hm).imp_right (Or.imp_right fun hnext => ?_)
    rcases hnext with hnext | hnext
    · rw [EventQueued, hqueue, List.mem_cons, List.mem_cons] at hnext
      rw [hview]
      by_cases hmode : e = .modeChange
      · exact Or.inr (Or.inl (handlesMode_dispatch.mpr hmode))
      · by_cases hota : e = .ota
        · exact Or.inr (Or.inr (dispatch_eq_otaNoSleep.mpr hota))
        · exact Or.inl (hnext.imp (Or.resolve_left · (Ne.symm hmode))
            (Or.resolve_left · (Ne.symm hota)))
    · rcases hnext with hnext | hnext <;> cases hnext
  · rw [hview] at hr
    refine h.ota ⟨hr.phase, ?_, by rw [hidle]; nofun⟩
    rw [hqueue, List.mem_cons, not_or]
    exact ⟨fun hota => hr.notHandled (dispatch_eq_otaNoSleep.mpr hota.symm), hr.notQueued⟩

theorem awake_busy (h : Awake s) (hlast : OtaLast s.view s.handler) (hok : KeepsAwake s .handler)
    (hbusy : s.handler ≠ .idle) (hstep : handlerStep s = some t) : Awake t := by
  have hota {handler : HandlerPc} (hne : s.handler ≠ .otaNoSleep) (hr : OtaRunning s.view handler) :
      s.ctx.noSleep = true := h.ota ⟨hr.phase, hr.notQueued, hne⟩
  obtain ⟨hactive, hdebug, hdisabling, -⟩ := h
  cases hpc : s.handler with
  | idle => exact absurd hpc hbusy
  | readMode =>
    simp only [handlerStep, hpc] at hstep
    cases hstep
    exact ⟨fun ha => (hactive ha).imp_right fun _ => trivial,
      fun _ => Or.inr (Or.inr (Or.inr (Or.inl rfl))), hdisabling, hota (by simp [hpc])⟩
  | writeMux active =>
    simp only [handlerStep, hpc] at hstep
    cases hstep
    have hmux : muxFor active ≠ .debug := by cases active <;> (intro h; cases h)
    exact ⟨fun ha => (hactive ha).imp_right fun _ => trivial, fun hm => absurd hm hmux,
      fun _ => hmux, hota (by simp [hpc])⟩
  | readPower =>
    cases hon : s.active with
    | false =>
      simp only [handlerStep, hpc, hon, Bool.false_eq_true, if_false] at hstep
      cases hstep
      exact ⟨by simp, fun _ => Or.inr (Or.inr (Or.inr (Or.inl rfl))), hdisabling,
        hota (by simp [hpc])⟩
    | true =>
      simp only [handlerStep, hpc, hon, if_true] at hstep
      cases hstep
      exact ⟨fun _ => Or.inr trivial, fun _ => Or.inr (Or.inr (Or.inr (Or.inl rfl))), hdisabling,
        hota (by simp [hpc])⟩
  | enterActive =>
    simp only [handlerStep, hpc] at hstep
    cases hstep
    exact ⟨fun ha => (hactive ha).imp_right fun _ => trivial,
      fun _ => Or.inr (Or.inr (Or.inr (Or.inl rfl))), hdisabling, hota (by simp [hpc])⟩
  | enterStandby =>
    simp only [handlerStep, hpc] at hstep
    cases hstep
    rw [hpc] at hactive
    exact ⟨hactive, fun _ => Or.inr (Or.inr (Or.inr (Or.inl rfl))), hdisabling,
      hota (by simp [hpc])⟩
  | setNoSleep | otaNoSleep =>
    simp only [handlerStep, hpc] at hstep
    cases hstep
    exact ⟨fun _ => Or.inr rfl, fun _ => Or.inl rfl, hdisabling, fun _ => rfl⟩
  | clearNoSleep =>
    simp only [handlerStep, hpc] at hstep
    cases hstep
    rw [hpc] at hactive
    refine ⟨fun ha => Or.inl ((hactive ha).resolve_right id), fun hm => ?_, hdisabling,
      fun hr => ?_⟩
    · exact Or.inr ((hok hpc hm).imp_right Or.inl)
    · exact absurd (hlast.handled hr.phase (by rw [hpc]; rfl)) hr.notQueued
  | powerUpdate =>
    simp only [handlerStep, hpc] at hstep
    cases hstep
    rw [hpc] at hactive hdebug
    have hsleep := powerUpdateCtx_noSleep s.ctx
    refine ⟨fun ha => (hactive ha).imp_right hsleep.trans, fun hm => ?_, hdisabling,
      fun hr => hsleep.trans (hota (by simp [hpc]) hr)⟩
    exact (hdebug hm).imp hsleep.trans (Or.imp_right (Or.imp_right
      (by simp [handlesEvent, handlesMode])))
  | other e =>
    simp only [handlerStep, hpc] at hstep
    cases hstep
    rw [hpc] at hactive hdebug
    have hdone : Awake { s with handler := .idle } :=
      ⟨hactive, fun hm => (hdebug hm).imp_right (Or.imp_right (Or.imp_right
        (by simp [handlesEvent, handlesMode]))), hdisabling, hota (by simp [hpc])⟩
    have hview : Node.view { s with bus := finish s.bus e, handler := .idle } = s.view :=
      view_finish s e
    refine awake_frame hdone rfl rfl rfl rfl rfl ?_ ?_ ?_
    all_goals rw [hview]; exact id

theorem awake_step (h : Awake s) (hlast : OtaLast s.view s.handler) (hok : KeepsAwake s a)
    (hstep : step s a = some t) : Awake t := by
  cases a with
  | loop ledManual => exact awake_loop h hlast hok hstep
  | handler =>
    by_cases hidle : s.handler = .idle
    · exact awake_pop h hidle hstep
    · exact awake_busy h hlast hok hidle hstep
  | write active =>
    cases hstep
    exact ⟨fun _ => Or.inl (.calling (Nat.succ_pos _)), h.debug, h.disabling, h.ota⟩
  | setBit =>
    obtain ⟨_, hview, ht⟩ := setBit_cases hstep
    refine awake_frame h (by rw [ht]) (by rw [ht]) (by rw [ht]) (by rw [ht]) (by rw [ht]) ?_ ?_ ?_
    · exact fun _ => .pending (by rw [hview])
    · rw [hview]
      exact id
    · rw [hview]
      exact fun hr => ⟨hr.phase, hr.notQueued, hr.notHandled⟩
  | debugEnable =>
    rw [debugEnable_cases hstep]
    exact ⟨h.active, fun _ => Or.inr (Or.inl rfl), nofun, h.ota⟩
  | debugDisable =>
    rw [debugDisable_cases hstep]
    exact ⟨h.active, nofun, fun _ => nofun, h.ota⟩
  | debug =>
    rcases debug_cases hstep with ⟨-, ht⟩ | ⟨hdis, ht⟩
    · rw [ht]
      exact ⟨fun ha => (h.active ha).imp_right awakeSoon_true, fun _ => Or.inl rfl, nofun,
        fun _ => rfl⟩
    · obtain ⟨hota, hactive⟩ := hok hdis
      rw [ht]
      refine ⟨fun ha => ?_, fun hm => absurd hm (h.disabling hdis), nofun,
        fun hr => absurd hr hota⟩
      rcases h.active ha with hawaited | hsoon
      · exact Or.inl hawaited
      · exact (hactive ha).imp_right (awakeSoon_of_handlesMode hsoon)
  | raise e =>
    obtain ⟨⟨requested, hview⟩, -, ht⟩ := raise_cases hstep
    have hcallers : t.callers = s.callers := by rw [ht]
    refine awake_frame h (by rw [ht]) (by rw [ht]) (by rw [ht]) (by rw [ht]) (by rw [ht]) ?_ ?_ ?_
    · rw [hcallers, hview]
      exact fun ha => awaited_congr ha rfl rfl rfl
    · rw [hview]
      exact id
    · rw [hview]
      exact fun hr => ⟨hr.phase, hr.notQueued, hr.notHandled⟩
  | timer e =>
    obtain ⟨-, -, hview, ht⟩ := timer_cases hstep
    have hcallers : t.callers = s.callers := by rw [ht]
    refine awake_frame h (by rw [ht]) (by rw [ht]) (by rw [ht]) (by rw [ht]) (by rw [ht]) ?_ ?_ ?_
    · rw [hview, hcallers]
      exact fun ha => awaited_append ha e
    · rw [hview]
      exact fun he => eventQueued_append he e
    · rw [hview]
      exact otaRunning_of_append

end Steps

theorem reach_awake {s : Node} (h : machine.Reach KeepsAwake s) : Awake s := by
  refine h.invariant_of (fun s hs => reach_otaLast hs) ?_ ?_
  · rintro s rfl
    exact ⟨nofun, nofun, nofun, fun hr => absurd rfl hr.phase⟩
  · intro s a t hlast hs hok hstep
    exact awake_step hs hlast hok hstep

/-- Every reason to stay awake has `no_sleep` set. For the session, a mode
change is pending from the write of the flag to the end of the handlers; for
the other two, an event that is queued or handled. -/
structure KeptAwake (s : Node) : Prop where
  session : s.active = true → ¬ Awaited s.view s.callers → handlesMode s.handler = false →
    s.ctx.noSleep = true
  debug : s.mux = .debug → s.debug ≠ .enabling → ¬ EventQueued s.view →
    ¬ handlesEvent s.handler → s.ctx.noSleep = true
  ota : OtaRunning s.view s.handler → s.ctx.noSleep = true

theorem noSleep_of_awakeSoon {noSleep : Bool} {handler : HandlerPc} (h : AwakeSoon noSleep handler)
    (hmode : handlesMode handler = false) : noSleep = true := by
  cases handler <;> first | exact h | cases hmode

theorem keptAwake {s : Node} (h : machine.Reach KeepsAwake s) : KeptAwake s := by
  obtain ⟨hactive, hdebug, -, hota⟩ := reach_awake h
  refine ⟨fun ha hquiet hmode => ?_, fun hm hidle hqueue hhandler => ?_, hota⟩
  · exact noSleep_of_awakeSoon ((hactive ha).resolve_left hquiet) hmode
  · rcases hdebug hm with hsleep | henabling | hqueued | hhandles
    · exact hsleep
    · exact absurd henabling hidle
    · exact absurd hqueued hqueue
    · exact absurd hhandles hhandler

/-- The condition is no stronger than needed: a step that does not meet it
leaves a reason without the flag at once. -/
theorem keepsAwake_of_keptAwake {s t : Node} {a : Label} (hstep : step s a = some t)
    (h : KeptAwake t) : KeepsAwake s a := by
  cases a with
  | debug =>
    intro hdis
    simp only [step, debugStep, hdis] at hstep
    cases hstep
    refine ⟨fun hr => absurd (h.ota hr) (fun hx => by cases hx), fun ha => ?_⟩
    by_contra hnot
    rw [not_or, Bool.not_eq_true] at hnot
    exact absurd (h.session ha hnot.1 hnot.2) (fun hx => by cases hx)
  | handler =>
    intro hclear hm
    simp only [step, handlerStep, hclear] at hstep
    cases hstep
    by_contra hnot
    rw [not_or] at hnot
    exact absurd (h.debug hm hnot.1 hnot.2 (by simp [handlesEvent, handlesMode]))
      (fun hx => by cases hx)
  | loop ledManual =>
    intro hperform hm
    have hpc : s.loop.pc = .otaPerform := by
      cases hpc : s.loop.pc <;> first | rfl | simp [Node.view, view, phaseOf, hpc] at hperform
    simp only [step, loopStep, hpc, Option.map_some] at hstep
    cases hstep
    by_contra hnot
    rw [not_or, not_or] at hnot
    exact absurd (h.debug hm hnot.1 hnot.2.1 hnot.2.2) (fun hx => by cases hx)
  | _ => trivial

/-- An update starts while the debug mux is on. -/
def updateInDebug : List Label :=
  [.debugEnable, .debug, .raise .otaTriggered] ++ loops 5 ++ handles 4

theorem keptAwake_updateInDebug :
    ∃ s, machine.exec coldStandby updateInDebug = some s ∧ s.mux = .debug ∧
      OtaRunning s.view s.handler ∧ KeptAwake s := by
  have halong : machine.Along KeepsAwake coldStandby updateInDebug := by decide
  exact ⟨_, rfl, rfl, by decide, keptAwake (Machine.reach_of_exec rfl halong rfl)⟩

/-- The debug mux is switched off while a session is active. -/
def debugEndsInSession : List Label := firstSession ++ [.debugDisable, .debug]

theorem sleeps_in_session :
    ∃ s, machine.Reach Machine.anyStep s ∧ s.active = true ∧ s.ctx.noSleep = false ∧
      ¬ Awaited s.view s.callers ∧ ¬ EventQueued s.view ∧ s.handler = .idle ∧
      s.debug = .idle ∧ s.view.phase = .out ∧ ¬ KeptAwake s := by
  refine ⟨_, Machine.reach_of_exec rfl (Machine.along_anyStep coldStandby debugEndsInSession) rfl,
    rfl, rfl, by decide, by decide, rfl, rfl, rfl, ?_⟩
  intro h
  exact absurd (h.session rfl (by decide) rfl) (by decide)

end MarkitNode.SleepReasons
