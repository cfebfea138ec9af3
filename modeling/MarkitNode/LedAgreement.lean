import MarkitNode.LedTasks

/-!
When the LED shows the state of the device. A change of a field raises an event
and so a pass of the loop, but the pass drops the LED event while
`EV_TASK_LED_STATUS` is set, which the handler clears last. The LED is right
again after every change as long as no dropped event was needed: the handler it
relied on had not read a field that has changed since.
-/

namespace MarkitNode.LedAgreement

open SystemLoop LedTasks

def target (s : Leds) : LedStatus :=
  getTargetLedStatus s.wifiConnected s.ntpSynced s.discoveryCompleted s.active

/-- What the LED shows once the handler is done, if no field changes until then. -/
def shown (s : Leds) : LedStatus :=
  match s.handler with
  | .readWifi => target s
  | .readNtp => getTargetLedStatus true s.ntpSynced s.discoveryCompleted s.active
  | .readDiscovery => getTargetLedStatus true true s.discoveryCompleted s.active
  | .readActive => getTargetLedStatus true true true s.active
  | .compare target => target
  | .setLed target => target
  | _ => s.ledStatus

/-- The event-loop task is in `sys_led_status_handler`. -/
def handlingLed : HandlerPc → Bool
  | .readWifi | .readNtp | .readDiscovery | .readActive | .compare _ | .setLed _ | .clearLed => true
  | _ => false

/-- A handler has written a field and not raised its event yet. -/
def owesEvent : HandlerPc → Bool
  | .setDisconnected | .setConnected | .setFail | .setDiscovered => true
  | _ => false

/-- A system event is pending, or a task is about to raise the one for a field
it has written. -/
def eventDue (s : Leds) : Bool :=
  waitMask.any s.bus.sysEvents || !s.owed.isEmpty || owesEvent s.handler ||
    s.http == .setStatusChanged

/-- The LED is right, or will be. -/
inductive Due (s : Leds) : Prop
  | manual : s.ledManual = true → Due s
  | event : eventDue s = true → Due s
  | pass : s.loop.pc ≠ .waitBits → Due s
  | queued : .ledStatus ∈ s.bus.queue → Due s
  | shown : shown s = target s → Due s

/-- The loop does not drop the LED event while the handler it relies on has read
a field that has changed since, unless another pass is due anyway. -/
def DropsSafely (s : Leds) (a : Label) : Prop :=
  a = .loop → s.loop.pc = .getLedStatus → s.bus.taskEvents .ledStatus = true →
    handlingLed s.handler = true → shown s ≠ target s → s.ledManual = true ∨ eventDue s = true

instance (s : Leds) (a : Label) : Decidable (DropsSafely s a) :=
  inferInstanceAs (Decidable (_ → _ → _ → _ → _ → _))

structure Tracked (s : Leds) : Prop where
  due : Due s
  /-- The guard is set from the post of the event to the end of its handler. -/
  guard : s.bus.taskEvents .ledStatus = true →
    s.loop.pc = .postLedStatus ∨ .ledStatus ∈ s.bus.queue ∨ handlingLed s.handler = true
  off : s.http = .turnOff → s.ledManual = true
  /-- The bit that the reconnect handler clears is not the only one pending. -/
  fail : s.handler = .clearFail → s.bus.sysEvents .wifiFail = true →
    s.bus.sysEvents .wifiConnected = true
  owed : .wifiFail ∉ s.owed

/-- What a step of the loop can do, as far as the LED is concerned. -/
inductive LoopView (ledManual : Bool) (b : Bus) (l : Loop) : Bus → Loop → LoopEffect → Prop
  | take {l' : Loop} : l.pc = .waitBits → l'.pc ≠ .waitBits →
      LoopView ledManual b l { b with sysEvents := EventGroup.clearAll } l' .none
  | pass {b' : Bus} {l' : Loop} {eff : LoopEffect} : l.pc ≠ .postLedStatus → l'.pc ≠ .waitBits →
      b'.sysEvents .wifiFail = b.sysEvents .wifiFail →
      b'.sysEvents .wifiConnected = b.sysEvents .wifiConnected →
      b'.taskEvents .ledStatus = b.taskEvents .ledStatus → b.queue ⊆ b'.queue →
      LoopView ledManual b l b' l' eff
  | drop : l.pc = .getLedStatus → b.taskEvents .ledStatus = true →
      LoopView ledManual b l b { l with pc := .waitBits } .none
  | manual : l.pc = .readLedManual → ledManual = true →
      LoopView ledManual b l b { l with pc := .waitBits } .none
  | set : LoopView ledManual b l (b.setTaskEvent .ledStatus) { l with pc := .postLedStatus } .none
  | post : l.pc = .postLedStatus →
      LoopView ledManual b l { b with queue := b.queue ++ [.ledStatus] }
        { l with pc := .waitBits } .none

theorem startSection_passes (bits : EventGroup SysEvent) : startSection bits ≠ .waitBits := by
  unfold startSection wifiSection otaSection powerSection modeSection
  repeat' split
  all_goals decide

theorem wifiSection_passes (bits : EventGroup SysEvent) : wifiSection bits ≠ .waitBits := by
  unfold wifiSection otaSection powerSection modeSection
  repeat' split
  all_goals decide

theorem otaSection_passes (bits : EventGroup SysEvent) : otaSection bits ≠ .waitBits := by
  unfold otaSection powerSection modeSection
  repeat' split
  all_goals decide

theorem powerSection_passes (bits : EventGroup SysEvent) : powerSection bits ≠ .waitBits := by
  unfold powerSection modeSection
  repeat' split
  all_goals decide

theorem modeSection_passes (bits : EventGroup SysEvent) : modeSection bits ≠ .waitBits := by
  unfold modeSection
  split
  all_goals decide

section Loop

variable {ledManual : Bool} {b b' : Bus} {l l' : Loop} {eff : LoopEffect}

/-- A step that leaves the bus as it is. -/
theorem view_of_move {next : LoopPc} (hpc : l.pc ≠ .postLedStatus) (hnext : next ≠ .waitBits) :
    LoopView ledManual b l b { l with pc := next } eff :=
  .pass hpc hnext rfl rfl rfl (List.Subset.refl _)

/-- A pass goes on behind a post, the last one apart. -/
theorem view_of_posts {bits : EventGroup SysEvent} {pc next : LoopPc} {e : SysEventType}
    (h : Posts bits pc e next) :
    LoopView ledManual b ⟨pc, bits⟩ { b with queue := b.queue ++ [e] } ⟨next, bits⟩ .none := by
  have hqueue : b.queue ⊆ b.queue ++ [e] := List.subset_append_left _ _
  cases h with
  | timeSync | ota | modeChange => exact .pass (by simp) (by simp) rfl rfl rfl hqueue
  | discovery => exact .pass (by simp) (wifiSection_passes bits) rfl rfl rfl hqueue
  | wifiReconnect => exact .pass (by simp) (otaSection_passes bits) rfl rfl rfl hqueue
  | powerMgmt => exact .pass (by simp) (modeSection_passes bits) rfl rfl rfl hqueue
  | ledStatus => exact .post rfl

theorem loopStep_view (h : loopStep ledManual b l = some (b', l', eff)) :
    LoopView ledManual b l b' l' eff := by
  cases loopStep_cases h with
  | take _ => exact .take rfl (startSection_passes b.sysEvents)
  | post hpost _ => exact view_of_posts hpost
  | @move bits _ _ _ hmove =>
    cases hmove with
    | reconnectScheduled _ => exact view_of_move (by simp) (otaSection_passes bits)
    | otaFailed => exact view_of_move (by simp) (powerSection_passes bits)
    | ledScheduled hguard => exact .drop rfl hguard
    | ledManual hmanual => exact .manual rfl hmanual
    | reconnectFree | setInactive | ledFree | ledAuto => exact view_of_move (by simp) (by simp)
  | setReconnect =>
    refine .pass (by simp) (by simp) rfl rfl ?_ (List.Subset.refl _)
    exact EventGroup.setBit_of_ne (e := .wifiReconnect) (x := .ledStatus) b.taskEvents (by decide)
  | setLedStatus => exact .set
  | setModeChange =>
    refine .pass (by simp) (by simp) ?_ ?_ rfl (List.Subset.refl _)
    · exact EventGroup.setBit_of_ne (e := .modeChange) (x := .wifiFail) b.sysEvents (by decide)
    · exact EventGroup.setBit_of_ne (e := .modeChange) (x := .wifiConnected) b.sysEvents (by decide)

end Loop

theorem mem_waitMask (e : SysEvent) : e ∈ waitMask := by
  cases e <;> decide

theorem eventDue_iff {s : Leds} : eventDue s = true ↔
    (∃ e, s.bus.sysEvents e = true) ∨ s.owed ≠ [] ∨ owesEvent s.handler = true ∨
      s.http = .setStatusChanged := by
  have hmask : waitMask.any s.bus.sysEvents = true ↔ ∃ e, s.bus.sysEvents e = true := by
    rw [List.any_eq_true]
    constructor
    · rintro ⟨e, _, he⟩
      exact ⟨e, he⟩
    · rintro ⟨e, he⟩
      exact ⟨e, mem_waitMask e, he⟩
  have howed : (!s.owed.isEmpty) = true ↔ s.owed ≠ [] := by
    cases s.owed <;> simp
  simp only [eventDue, Bool.or_eq_true, hmask, howed, beq_iff_eq, or_assoc]

theorem eventDue_of_pending {s : Leds} (e : SysEvent) (h : s.bus.sysEvents e = true) :
    eventDue s = true :=
  eventDue_iff.mpr (Or.inl ⟨e, h⟩)

theorem setSysEvent_pending (b : Bus) (e : SysEvent) :
    (b.setSysEvent e).sysEvents e = true :=
  EventGroup.setBit_self b.sysEvents e

theorem setSysEvent_keeps (b : Bus) (e : SysEvent) {x : SysEvent} (h : b.sysEvents x = true) :
    (b.setSysEvent e).sysEvents x = true := by
  by_cases hx : x = e
  · rw [hx]
    exact setSysEvent_pending b e
  · exact (EventGroup.setBit_of_ne b.sysEvents hx).trans h

theorem applyEffect_handler (s : Leds) (eff : LoopEffect) :
    (applyEffect s eff).handler = s.handler ∧ (applyEffect s eff).http = s.http ∧
      (applyEffect s eff).ledManual = s.ledManual ∧ (applyEffect s eff).owed = s.owed := by
  cases eff <;> exact ⟨rfl, rfl, rfl, rfl⟩

theorem loop_tracked {s t : Leds} (h : Tracked s) (hok : DropsSafely s .loop)
    (hstep : step s .loop = some t) : Tracked t := by
  obtain ⟨⟨b', l', eff⟩, hloop, rfl⟩ := Option.map_eq_some_iff.mp hstep
  obtain ⟨hhandler, hhttp, hmanual, howed⟩ := applyEffect_handler s eff
  have hoff : (applyEffect s eff).http = .turnOff → (applyEffect s eff).ledManual = true := by
    rw [hhttp, hmanual]
    exact h.off
  have hfree : .wifiFail ∉ (applyEffect s eff).owed := by
    rw [howed]
    exact h.owed
  cases loopStep_view hloop with
  | take hwait hpass =>
    refine ⟨.pass hpass, ?_, hoff, ?_, hfree⟩
    · intro hguard
      rcases h.guard hguard with hpc | hqueue
      · rw [hwait] at hpc
        cases hpc
      · exact Or.inr hqueue
    · intro _ hfail
      cases hfail
  | pass hpost hpass hfail hconn htask hqueue =>
    refine ⟨.pass hpass, ?_, hoff, ?_, hfree⟩
    · intro hguard
      rw [htask] at hguard
      rcases h.guard hguard with hpc | hq | hled
      · exact absurd hpc hpost
      · exact Or.inr (Or.inl (hqueue hq))
      · exact Or.inr (Or.inr (hhandler ▸ hled))
    · intro hclear hset
      rw [hfail] at hset
      exact hconn.trans (h.fail (hhandler ▸ hclear) hset)
  | drop hpc hguard =>
    have hrelied := (h.guard hguard).resolve_left (by rw [hpc]; exact nofun)
    refine ⟨?_, fun _ => Or.inr hrelied, h.off, h.fail, h.owed⟩
    rcases hrelied with hq | hled
    · exact .queued hq
    · by_cases hshown : shown s = target s
      · exact .shown hshown
      · rcases hok rfl hpc hguard hled hshown with hm | he
        · exact .manual hm
        · exact .event he
  | manual hpc hm =>
    refine ⟨.manual hm, ?_, h.off, h.fail, h.owed⟩
    intro hguard
    exact Or.inr ((h.guard hguard).resolve_left (by rw [hpc]; exact nofun))
  | set => exact ⟨.pass nofun, fun _ => Or.inl rfl, h.off, h.fail, h.owed⟩
  | post hpc =>
    have hqueue : .ledStatus ∈ s.bus.queue ++ [.ledStatus] :=
      List.mem_append_right _ (List.mem_singleton.mpr rfl)
    exact ⟨.queued hqueue, fun _ => Or.inr (Or.inl hqueue), h.off, h.fail, h.owed⟩

/-! ### The event-loop task -/

theorem owesEvent_dispatch (e : SysEventType) : owesEvent (dispatch e) = false := by
  cases e <;> rfl

theorem eventDue_congr {s t : Leds} (hsys : t.bus.sysEvents = s.bus.sysEvents)
    (howed : t.owed = s.owed) (hhandler : owesEvent t.handler = owesEvent s.handler)
    (hhttp : t.http = s.http) : eventDue t = eventDue s := by
  simp only [eventDue, hsys, howed, hhandler, hhttp]

/-- A step that leaves the events and the loop alone. -/
theorem due_move {s t : Leds} (h : Due s) (hmanual : t.ledManual = s.ledManual)
    (hevent : eventDue t = eventDue s) (hloop : t.loop = s.loop)
    (hqueue : t.bus.queue = s.bus.queue) (hshown : shown s = target s → shown t = target t) :
    Due t := by
  cases h with
  | manual h => exact .manual (hmanual.trans h)
  | event h => exact .event (hevent.trans h)
  | pass h => exact .pass (by rw [hloop]; exact h)
  | queued h => exact .queued (by rw [hqueue]; exact h)
  | shown h => exact .shown (hshown h)

theorem pop_due {s : Leds} {e : SysEventType} {rest : List SysEventType} (h : Due s)
    (hidle : s.handler = .idle) (hqueue : s.bus.queue = e :: rest) :
    Due { s with bus := { s.bus with queue := rest }, handler := dispatch e } := by
  by_cases he : e = .ledStatus
  · subst he
    exact .shown rfl
  · have hshown : shown { s with bus := { s.bus with queue := rest }, handler := dispatch e } =
        shown s := by
      cases e <;> simp_all [shown, dispatch]
    have hevent : eventDue { s with bus := { s.bus with queue := rest }, handler := dispatch e } =
        eventDue s :=
      eventDue_congr rfl rfl (by rw [owesEvent_dispatch, hidle]; rfl) rfl
    cases h with
    | manual h => exact .manual h
    | event h => exact .event (hevent.trans h)
    | pass h => exact .pass h
    | queued h =>
      rw [hqueue] at h
      exact .queued (List.mem_of_ne_of_mem (Ne.symm he) h)
    | shown h => exact .shown (hshown.trans h)

theorem clearFail_due {s : Leds} (h : Tracked s) (hclear : s.handler = .clearFail) :
    Due { s with bus := s.bus.clearSysEvent .wifiFail, handler := .finish .wifiReconnect } := by
  cases h.due with
  | manual h => exact .manual h
  | event hevent =>
    refine .event (eventDue_iff.mpr ?_)
    rcases eventDue_iff.mp hevent with ⟨e, he⟩ | howed | howes | hhttp
    · have hconn : ∃ x, x ≠ .wifiFail ∧ s.bus.sysEvents x = true := by
        by_cases hfail : e = .wifiFail
        · exact ⟨.wifiConnected, by decide, h.fail hclear (hfail ▸ he)⟩
        · exact ⟨e, hfail, he⟩
      obtain ⟨x, hx, hset⟩ := hconn
      exact Or.inl ⟨x, (EventGroup.clearBit_of_ne s.bus.sysEvents hx).trans hset⟩
    · exact Or.inr (Or.inl howed)
    · rw [hclear] at howes
      cases howes
    · exact Or.inr (Or.inr (Or.inr hhttp))
  | pass h => exact .pass h
  | queued h => exact .queued h
  | shown hshown =>
    have hsame : shown s = s.ledStatus := by simp only [shown, hclear]
    exact .shown (hsame.symm.trans hshown)

/-- The handler goes on without touching anything else. -/
theorem goOn_due {s : Leds} {pc : HandlerPc} (h : Due s) (howes : owesEvent s.handler = false)
    (hnext : owesEvent pc = false)
    (hshown : shown s = target s → shown { s with handler := pc } = target s) :
    Due { s with handler := pc } :=
  due_move h rfl (eventDue_congr rfl rfl (hnext.trans howes.symm) rfl) rfl rfl hshown

/-- The LED handler goes on and what it will show stays the same. -/
theorem led_due {s t : Leds} {success : Bool} (h : Due s) (hled : handlingLed s.handler = true)
    (hstep : handlerStep s success = some t) : Due t := by
  have howes : owesEvent s.handler = false := by
    cases hpc : s.handler <;> simp_all [handlingLed, owesEvent]
  cases hpc : s.handler <;> simp only [hpc, handlingLed, Bool.false_eq_true] at hled
  case readWifi =>
    simp only [handlerStep, hpc, Option.some.injEq] at hstep
    subst hstep
    apply goOn_due h howes
    · cases s.wifiConnected <;> rfl
    · cases hw : s.wifiConnected <;> simp [shown, target, getTargetLedStatus, hw]
  case readNtp =>
    simp only [handlerStep, hpc, Option.some.injEq] at hstep
    subst hstep
    apply goOn_due h howes
    · cases s.ntpSynced <;> rfl
    · cases hn : s.ntpSynced <;> simp [shown, hpc, target, getTargetLedStatus, hn]
  case readDiscovery =>
    simp only [handlerStep, hpc, Option.some.injEq] at hstep
    subst hstep
    apply goOn_due h howes
    · cases s.discoveryCompleted <;> rfl
    · cases hd : s.discoveryCompleted <;> simp [shown, hpc, target, getTargetLedStatus, hd]
  case readActive =>
    simp only [handlerStep, hpc, Option.some.injEq] at hstep
    subst hstep
    apply goOn_due h howes rfl
    simp [shown, hpc, target, getTargetLedStatus]
  case compare wanted =>
    simp only [handlerStep, hpc, Option.some.injEq] at hstep
    subst hstep
    by_cases hsame : wanted = s.ledStatus
    · rw [if_pos hsame]
      apply goOn_due h howes rfl
      simp [shown, hpc, hsame]
    · rw [if_neg hsame]
      apply goOn_due h howes rfl
      simp [shown, hpc]
  case setLed wanted =>
    simp only [handlerStep, hpc, Option.some.injEq] at hstep
    subst hstep
    refine due_move h rfl (eventDue_congr rfl rfl howes.symm rfl) rfl rfl ?_
    simp [shown, hpc, target]
  case clearLed =>
    simp only [handlerStep, hpc, Option.some.injEq] at hstep
    subst hstep
    refine due_move h rfl (eventDue_congr rfl rfl howes.symm rfl) rfl rfl ?_
    simp [shown, hpc, target]

theorem finish_bus (b : Bus) (e : SysEventType) :
    (NodeControl.finish b e).sysEvents = b.sysEvents ∧
      (NodeControl.finish b e).queue = b.queue ∧
      ((NodeControl.finish b e).taskEvents .ledStatus = true →
        b.taskEvents .ledStatus = true) := by
  cases e <;> simp [NodeControl.finish, SystemLoop.taskGuard, Bus.clearTaskEvent]

/-- The other handlers: a field that is written leaves its event to be raised. -/
theorem other_due {s t : Leds} {success : Bool} (h : Tracked s)
    (hled : handlingLed s.handler = false) (hstep : handlerStep s success = some t) : Due t := by
  cases hpc : s.handler <;> simp only [hpc, handlingLed, Bool.true_eq_false] at hled
  case idle =>
    simp only [handlerStep, hpc] at hstep
    split at hstep
    · cases hstep
    · rename_i e rest hqueue
      cases hstep
      exact pop_due h.due hpc hqueue
  case markDisconnected =>
    simp only [handlerStep, hpc, Option.some.injEq] at hstep
    subst hstep
    exact .event (eventDue_iff.mpr (Or.inr (Or.inr (Or.inl rfl))))
  case setDisconnected =>
    simp only [handlerStep, hpc, Option.some.injEq] at hstep
    subst hstep
    exact .event (eventDue_of_pending .wifiDisconnected (setSysEvent_pending s.bus _))
  case connecting =>
    simp only [handlerStep, hpc] at hstep
    split at hstep <;> cases hstep <;>
      exact .event (eventDue_iff.mpr (Or.inr (Or.inr (Or.inl rfl))))
  case setConnected =>
    simp only [handlerStep, hpc, Option.some.injEq] at hstep
    subst hstep
    exact .event (eventDue_of_pending .wifiConnected (setSysEvent_pending s.bus _))
  case clearFail =>
    simp only [handlerStep, hpc, Option.some.injEq] at hstep
    subst hstep
    exact clearFail_due h hpc
  case setFail =>
    simp only [handlerStep, hpc, Option.some.injEq] at hstep
    subst hstep
    exact .event (eventDue_of_pending .wifiFail (setSysEvent_pending s.bus _))
  case readCompleted =>
    simp only [handlerStep, hpc, Option.some.injEq] at hstep
    subst hstep
    apply goOn_due h.due (by rw [hpc]; rfl)
    · cases s.discoveryCompleted <;> rfl
    · cases s.discoveryCompleted <;> simp [shown, hpc]
  case awaitReply =>
    simp only [handlerStep, hpc] at hstep
    split at hstep
    · cases hstep
      exact .event (eventDue_iff.mpr (Or.inr (Or.inr (Or.inl rfl))))
    · cases hstep
      exact goOn_due h.due (by rw [hpc]; rfl) rfl (by simp [shown, hpc])
  case setDiscovered =>
    simp only [handlerStep, hpc, Option.some.injEq] at hstep
    subst hstep
    exact .event (eventDue_of_pending .discoveryCompleted (setSysEvent_pending s.bus _))
  case finish e =>
    simp only [handlerStep, hpc, Option.some.injEq] at hstep
    subst hstep
    obtain ⟨hsys, hqueue, _⟩ := finish_bus s.bus e
    refine due_move h.due rfl (eventDue_congr hsys rfl (by rw [hpc]; rfl) rfl) rfl hqueue ?_
    simp [shown, hpc, target]

/-- Handlers other than the LED's own leave its guard and its event alone. -/
theorem other_keeps {s t : Leds} {success : Bool} (hidle : s.handler ≠ .idle)
    (hled : handlingLed s.handler = false) (hstep : handlerStep s success = some t) :
    t.loop = s.loop ∧ t.bus.queue = s.bus.queue ∧
      (t.bus.taskEvents .ledStatus = true → s.bus.taskEvents .ledStatus = true) := by
  cases hpc : s.handler <;> simp only [hpc, handlingLed, Bool.true_eq_false] at hled
  case idle => exact absurd hpc hidle
  case finish e =>
    simp only [handlerStep, hpc, Option.some.injEq] at hstep
    subst hstep
    exact ⟨rfl, (finish_bus s.bus e).2.1, (finish_bus s.bus e).2.2⟩
  all_goals
    simp only [handlerStep, hpc] at hstep
    try split at hstep
    all_goals
      cases hstep
      exact ⟨rfl, rfl, id⟩

/-- The LED handler holds the guard until it clears it. -/
theorem led_holds {s t : Leds} {success : Bool} (hled : handlingLed s.handler = true)
    (hstep : handlerStep s success = some t) (hguard : t.bus.taskEvents .ledStatus = true) :
    handlingLed t.handler = true := by
  cases hpc : s.handler <;> simp only [hpc, handlingLed, Bool.false_eq_true] at hled
  case clearLed =>
    simp only [handlerStep, hpc, Option.some.injEq] at hstep
    subst hstep
    have hclear := EventGroup.clearBit_self s.bus.taskEvents .ledStatus
    exact absurd (hguard.symm.trans hclear) (by decide)
  all_goals
    simp only [handlerStep, hpc, Option.some.injEq] at hstep
    subst hstep
    first
      | rfl
      | exact (apply_ite handlingLed _ _ _).trans (ite_self true)

theorem handler_guard {s t : Leds} {success : Bool} (h : Tracked s)
    (hstep : handlerStep s success = some t) (hguard : t.bus.taskEvents .ledStatus = true) :
    t.loop.pc = .postLedStatus ∨ .ledStatus ∈ t.bus.queue ∨ handlingLed t.handler = true := by
  by_cases hled : handlingLed s.handler = true
  · exact Or.inr (Or.inr (led_holds hled hstep hguard))
  · rw [Bool.not_eq_true] at hled
    by_cases hidle : s.handler = .idle
    · simp only [handlerStep, hidle] at hstep
      split at hstep
      · cases hstep
      · rename_i e rest hqueue
        cases hstep
        rcases h.guard hguard with hpc | hq | hhandling
        · exact Or.inl hpc
        · rw [hqueue] at hq
          rcases List.mem_cons.mp hq with rfl | hq
          · exact Or.inr (Or.inr rfl)
          · exact Or.inr (Or.inl hq)
        · rw [hled] at hhandling
          cases hhandling
    · obtain ⟨hloop, hqueue, htask⟩ := other_keeps hidle hled hstep
      rw [hloop, hqueue]
      rcases h.guard (htask hguard) with hpc | hq | hhandling
      · exact Or.inl hpc
      · exact Or.inr (Or.inl hq)
      · rw [hled] at hhandling
        cases hhandling

/-- Only `EV_SYS_WIFI_CONNECTED` leads to the clearing of `EV_SYS_WIFI_FAIL`. -/
theorem handler_fail {s t : Leds} {success : Bool} (hstep : handlerStep s success = some t)
    (hclear : t.handler = .clearFail) : t.bus.sysEvents .wifiConnected = true := by
  cases hpc : s.handler <;> simp only [handlerStep, hpc] at hstep
  case setConnected =>
    cases hstep
    exact setSysEvent_pending s.bus .wifiConnected
  case idle =>
    split at hstep
    · cases hstep
    · rename_i e rest _
      cases hstep
      cases e <;> cases hclear
  all_goals
    try split at hstep
    all_goals
      cases hstep
      cases hclear

theorem handler_off {s t : Leds} {success : Bool} (hstep : handlerStep s success = some t) :
    t.http = s.http ∧ t.ledManual = s.ledManual ∧ t.owed = s.owed := by
  cases hpc : s.handler <;> simp only [handlerStep, hpc] at hstep
  all_goals
    try split at hstep
    all_goals
      cases hstep
      try exact ⟨rfl, rfl, rfl⟩

theorem handler_tracked {s t : Leds} {success : Bool} (h : Tracked s)
    (hstep : handlerStep s success = some t) : Tracked t := by
  obtain ⟨hhttp, hmanual, howed⟩ := handler_off hstep
  refine ⟨?_, handler_guard h hstep, ?_, ?_, ?_⟩
  · by_cases hled : handlingLed s.handler = true
    · exact led_due h.due hled hstep
    · exact other_due h (by simpa using hled) hstep
  · rw [hhttp, hmanual]
    exact h.off
  · intro hclear _
    exact handler_fail hstep hclear
  · rw [howed]
    exact h.owed

/-- A task raises an event, and may give up a debt for it. -/
theorem raise_tracked {s : Leds} (h : Tracked s) {e : SysEvent} (he : e ≠ .wifiFail)
    {http : HttpPc} (hhttp : http = .turnOff → s.ledManual = true) {owed : List SysEvent}
    (howed : .wifiFail ∉ owed) :
    Tracked { s with bus := s.bus.setSysEvent e, http := http, owed := owed } where
  due := .event (eventDue_of_pending e (setSysEvent_pending s.bus e))
  guard := h.guard
  off := hhttp
  fail hclear hfail := by
    have hsame := EventGroup.setBit_of_ne s.bus.sysEvents he.symm
    exact setSysEvent_keeps s.bus e (h.fail hclear (hsame.symm.trans hfail))
  owed := howed

theorem timer_tracked {s : Leds} (h : Tracked s) (e : SysEventType) :
    Tracked { s with bus := { s.bus with queue := s.bus.queue ++ [e] } } where
  due := by
    cases h.due with
    | manual h => exact .manual h
    | event h => exact .event h
    | pass h => exact .pass h
    | queued h => exact .queued (List.mem_append_left _ h)
    | shown h => exact .shown h
  guard hguard := by
    rcases h.guard hguard with hpc | hq | hled
    · exact Or.inl hpc
    · exact Or.inr (Or.inl (List.mem_append_left _ hq))
    · exact Or.inr (Or.inr hled)
  off := h.off
  fail := h.fail
  owed := h.owed

/-- A field has been written by a task that owes its event. -/
theorem owe_tracked {s t : Leds} (h : Tracked s) {e : SysEvent} (he : e ≠ .wifiFail)
    (howed : t.owed = s.owed ++ [e]) (hbus : t.bus = s.bus) (hloop : t.loop = s.loop)
    (hhandler : t.handler = s.handler) (hhttp : t.http = s.http)
    (hmanual : t.ledManual = s.ledManual) : Tracked t where
  due := .event (eventDue_iff.mpr (Or.inr (Or.inl (by simp [howed]))))
  guard := by
    rw [hbus, hloop, hhandler]
    exact h.guard
  off := by
    rw [hhttp, hmanual]
    exact h.off
  fail := by
    rw [hbus, hhandler]
    exact h.fail
  owed := by
    rw [howed, List.mem_append, List.mem_singleton]
    rintro (hold | hnew)
    · exact h.owed hold
    · exact he hnew.symm

theorem step_tracked {s t : Leds} {a : Label} (h : Tracked s) (hok : DropsSafely s a)
    (hstep : step s a = some t) : Tracked t := by
  cases a with
  | loop => exact loop_tracked h hok hstep
  | handler success => exact handler_tracked h hstep
  | timeSynced =>
    cases hstep
    exact owe_tracked h (e := .ntpSynced) (by decide) rfl rfl rfl rfl rfl rfl
  | setMode active =>
    cases hstep
    exact owe_tracked h (e := .modeChange) (by decide) rfl rfl rfl rfl rfl rfl
  | raiseOwed e =>
    simp only [step, Option.ite_none_right_eq_some, Option.some.injEq] at hstep
    obtain ⟨hmem, rfl⟩ := hstep
    refine raise_tracked h ?_ h.off fun hfail => h.owed (List.mem_of_mem_erase hfail)
    rintro rfl
    exact h.owed hmem
  | httpAuto =>
    simp only [step, Option.ite_none_right_eq_some, Option.some.injEq] at hstep
    obtain ⟨_, rfl⟩ := hstep
    exact ⟨.event (eventDue_iff.mpr (Or.inr (Or.inr (Or.inr rfl)))), h.guard, nofun, h.fail,
      h.owed⟩
  | httpManual =>
    simp only [step, Option.ite_none_right_eq_some, Option.some.injEq] at hstep
    obtain ⟨_, rfl⟩ := hstep
    exact ⟨.manual rfl, h.guard, nofun, h.fail, h.owed⟩
  | httpOff =>
    simp only [step, Option.ite_none_right_eq_some, Option.some.injEq] at hstep
    obtain ⟨_, rfl⟩ := hstep
    exact ⟨.manual rfl, h.guard, fun _ => rfl, h.fail, h.owed⟩
  | http =>
    simp only [step] at hstep
    split at hstep
    · cases hstep
    · cases hstep
      refine raise_tracked h (e := .ledStatusChanged) (by decide) ?_ h.owed
      intro hoff
      cases hoff
    · rename_i hoff
      cases hstep
      exact ⟨.manual (h.off hoff), h.guard, nofun, h.fail, h.owed⟩
  | raise e =>
    simp only [step, Option.ite_none_left_eq_some, Option.some.injEq] at hstep
    obtain ⟨hfail, rfl⟩ := hstep
    exact raise_tracked h hfail h.off h.owed
  | timer e =>
    simp only [step, Option.ite_none_right_eq_some] at hstep
    obtain ⟨b, hpost, rfl⟩ := Option.map_eq_some_iff.mp hstep.2
    rw [Bus.post_eq_some hpost]
    exact timer_tracked h e

theorem boot_tracked (ledStatus : LedStatus) : Tracked (boot ledStatus) where
  due := .event rfl
  guard := nofun
  off := nofun
  fail := nofun
  owed := List.not_mem_nil

theorem reach_tracked {s : Leds} (h : machine.Reach DropsSafely s) : Tracked s := by
  refine h.invariant ?_ ?_
  · rintro s ⟨ledStatus, rfl⟩
    exact boot_tracked ledStatus
  · intro s a t hs hok hstep
    exact step_tracked hs hok hstep

/-- Nothing about the LED is pending, queued, under way or owed. -/
structure Quiet (s : Leds) : Prop where
  bits : ∀ e, s.bus.sysEvents e = false
  loop : s.loop.pc = .waitBits
  queue : .ledStatus ∉ s.bus.queue
  handler : handlingLed s.handler = false
  writer : owesEvent s.handler = false
  http : s.http ≠ .setStatusChanged
  owed : s.owed = []

def Agrees (s : Leds) : Prop := Quiet s → s.ledManual = false → s.ledStatus = target s

/-- In automatic mode the LED shows the state of the device whenever nothing is
pending, as long as no LED event is dropped that the handler could not replace. -/
theorem led_agrees {s : Leds} (h : machine.Reach DropsSafely s) : Agrees s := by
  intro hquiet hauto
  cases (reach_tracked h).due with
  | manual hm =>
    rw [hauto] at hm
    cases hm
  | event he =>
    rcases eventDue_iff.mp he with ⟨e, hset⟩ | howed | howes | hhttp
    · rw [hquiet.bits e] at hset
      cases hset
    · exact absurd hquiet.owed howed
    · rw [hquiet.writer] at howes
      cases howes
    · exact absurd hhttp hquiet.http
  | pass hpc => exact absurd hquiet.loop hpc
  | queued hq => exact absurd hq hquiet.queue
  | shown hshown =>
    have hstatus : shown s = s.ledStatus := by
      have hled := hquiet.handler
      cases hpc : s.handler <;> simp_all [shown, handlingLed]
    exact hstatus.symm.trans hshown

def loops (n : ℕ) : List Label := List.replicate n .loop

def handles (n : ℕ) : List Label := List.replicate n (.handler true)

/-- The device connects, syncs its time, finds its host and shows that it is ready. -/
def becomesReady : List Label :=
  loops 8 ++ handles 3 ++ loops 3 ++ handles 4 ++ loops 4 ++ handles 6 ++
    [.handler true, .timeSynced, .raiseOwed .ntpSynced, .handler true] ++ handles 5 ++ loops 5

/-- The mode changes after the LED handler has read it and before the handler
clears its guard. -/
def modeMissed : List Label :=
  becomesReady ++ handles 5 ++ [.setMode true, .raiseOwed .modeChange] ++ loops 3 ++ handles 5

theorem led_disagrees : ¬ ∀ s, machine.Reach Machine.anyStep s → Agrees s := by
  intro h
  have hreach := Machine.reach_of_exec (M := machine) ⟨.fastFlash, rfl⟩
    (Machine.along_anyStep (boot .fastFlash) modeMissed) rfl
  have hquiet := h _ hreach ⟨fun _ => rfl, rfl, List.not_mem_nil, rfl, rfl, nofun, rfl⟩ rfl
  cases hquiet

/-- The mode changes when the LED handler is done. -/
def modeShown : List Label :=
  becomesReady ++ handles 8 ++ [.setMode true, .raiseOwed .modeChange] ++ loops 6 ++ handles 10

theorem led_agrees_modeShown :
    ∃ s, machine.exec (boot .fastFlash) modeShown = some s ∧ s.ledStatus = .on ∧ Agrees s := by
  have halong : machine.Along DropsSafely (boot .fastFlash) modeShown := by decide +kernel
  exact ⟨_, rfl, rfl, led_agrees (Machine.reach_of_exec ⟨.fastFlash, rfl⟩ halong rfl)⟩

end MarkitNode.LedAgreement
