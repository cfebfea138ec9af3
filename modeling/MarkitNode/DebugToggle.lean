import MarkitNode.NodeControl
import MarkitNode.UrlLookup

/-!
A debug session: the mux is set to `IMU_MUX_DEBUG` by one toggle request and
taken out of it by another. The value before is not kept, and the second request
always writes `IMU_MUX_IDLE`; the description of the debug flow has the mux go
back to `IMU_MUX_STREAM`.
-/

namespace MarkitNode.DebugToggle

open ModeDispatch NodeControl SystemLoop UrlQuery

/-- `mode` of `imu_debug_toggle_handler`: its buffer after the lookup. -/
def modeOf (uri : List UInt8) : List UInt8 :=
  match parseUrlKvPair uri KvRead.imuDebugToggle.key
      (Vector.replicate KvRead.imuDebugToggle.size 0) with
  | some (.ok value) => CString.text value.toList
  | _ => []

/-- The first step of `imu_debug_toggle_handler`, if the request is accepted. -/
def imuDebugToggle (uri : List UInt8) : Option Label :=
  if modeOf uri = CString.ascii "enable" then some .debugEnable
  else if modeOf uri = CString.ascii "disable" then some .debugDisable
  else none

theorem modeOf_gets {uri w : List UInt8} (h : Gets .imuDebugToggle uri w) : modeOf uri = w := by
  obtain ⟨value, hparse, htext⟩ := h
  rw [modeOf, hparse]
  exact htext

theorem imuDebugToggle_enable {uri : List UInt8}
    (h : Gets .imuDebugToggle uri (CString.ascii "enable")) :
    imuDebugToggle uri = some .debugEnable := by
  rw [imuDebugToggle, modeOf_gets h, if_pos rfl]

theorem imuDebugToggle_disable {uri : List UInt8}
    (h : Gets .imuDebugToggle uri (CString.ascii "disable")) :
    imuDebugToggle uri = some .debugDisable := by
  rw [imuDebugToggle, modeOf_gets h, if_neg (by decide), if_pos rfl]

/-- Neither a caller of `sys_set_operation_mode` nor an update. -/
def keepsMode : Label → Bool
  | .write _ | .raise .otaTriggered => false
  | _ => true

def isToggle : Label → Bool
  | .debugEnable | .debugDisable => true
  | _ => false

/-- No mode change is pending: none is awaited, no handler of one is running,
and no update is about to ask for one. -/
structure Undisturbed (s : Node) : Prop where
  notAwaited : ¬ Awaited s.view s.callers
  notHandled : handlesMode s.handler = false
  notRequested : s.view.otaRequested = false
  phase : s.view.phase = .out ∨ s.view.phase = .perform

/-- A step of the loop starts no mode change of its own. -/
theorem undisturbed_view {v v' : View} {callers : ℕ} {eff : LoopEffect}
    (hawaited : ¬ Awaited v callers) (hrequested : v.otaRequested = false)
    (hphase : v.phase = .out ∨ v.phase = .perform) (hstep : Step v v' eff) :
    ¬ Awaited v' callers ∧ v'.otaRequested = false ∧
      (v'.phase = .out ∨ v'.phase = .perform) := by
  rw [awaited_iff] at hawaited
  push Not at hawaited
  obtain ⟨hcallers, hpending, hinHand, hqueue⟩ := hawaited
  rw [awaited_iff]
  push Not
  cases hstep with
  | stay => exact ⟨⟨hcallers, hpending, hinHand, hqueue⟩, hrequested, hphase⟩
  | take _ _ => exact ⟨⟨hcallers, nofun, hpending, hqueue⟩, hrequested, hphase⟩
  | postMode hhand _ => exact absurd hhand hinHand
  | postOta again hreq _ =>
    rw [hrequested] at hreq
    cases hreq
  | postOther e he _ _ =>
    refine ⟨⟨hcallers, hpending, hinHand, ?_⟩, hrequested, hphase⟩
    simp [hqueue, he.symm]
  | setInactive hinactive => simp [hinactive] at hphase
  | raise hraise => simp [hraise] at hphase
  | failed _ => exact ⟨⟨hcallers, hpending, hinHand, hqueue⟩, hrequested, Or.inl rfl⟩

theorem applyEffect_mux (s : Node) (eff : LoopEffect) : (applyEffect s eff).mux = s.mux := by
  cases eff <;> rfl

theorem applyEffect_handler (s : Node) (eff : LoopEffect) :
    (applyEffect s eff).handler = s.handler := by
  cases eff <;> rfl

section Steps

variable {s t : Node} {a : Label}

theorem Undisturbed.congr (h : Undisturbed s) (hview : t.view = s.view)
    (hcallers : t.callers = s.callers) (hhandler : t.handler = s.handler) : Undisturbed t := by
  constructor
  · rw [hview, hcallers]
    exact h.notAwaited
  · rw [hhandler]
    exact h.notHandled
  · rw [hview]
    exact h.notRequested
  · rw [hview]
    exact h.phase

/-- The handlers of the other events leave the mux alone. -/
theorem handler_undisturbed (h : Undisturbed s) (hstep : handlerStep s = some t) :
    Undisturbed t ∧ t.mux = s.mux := by
  obtain ⟨hawaited, hhandled, hrequested, hphase⟩ := h
  by_cases hidle : s.handler = .idle
  · obtain ⟨e, rest, hqueue, hview, ht⟩ := idle_cases hidle hstep
    have hcallers : t.callers = s.callers := by rw [ht]
    have hmux : t.mux = s.mux := by rw [ht]
    rw [awaited_iff] at hawaited
    push Not at hawaited
    obtain ⟨hnone, hpending, hinHand, hnotQueued⟩ := hawaited
    rw [hqueue, List.mem_cons, not_or] at hnotQueued
    refine ⟨⟨?_, ?_, by rwa [hview], by rwa [hview]⟩, hmux⟩
    · rw [hview, hcallers, awaited_iff]
      push Not
      exact ⟨hnone, hpending, hinHand, hnotQueued.2⟩
    · rw [ht, ← Bool.not_eq_true, handlesMode_dispatch]
      exact hnotQueued.1 ∘ Eq.symm
  · obtain ⟨hview, ht, hnext⟩ := busy_cases hidle hstep
    have hdone : t.handler = .idle := by
      rcases hnext with hdone | ⟨hmode, _⟩
      · exact hdone
      · rw [hhandled] at hmode
        cases hmode
    have hcallers : t.callers = s.callers := by rw [ht]
    refine ⟨⟨by rwa [hview, hcallers], by rw [hdone]; rfl, by rwa [hview], by rwa [hview]⟩, ?_⟩
    cases hpc : s.handler with
    | idle => exact absurd hpc hidle
    | otaNoSleep | powerUpdate | other _ =>
      simp only [handlerStep, hpc] at hstep
      cases hstep
      rfl
    | _ =>
      rw [hpc] at hhandled
      cases hhandled

/-- While no mode change is asked for, only a toggle writes the mux. -/
theorem step_undisturbed (h : Undisturbed s) (ha : keepsMode a = true)
    (hstep : step s a = some t) :
    Undisturbed t ∧ (isToggle a = false → t.mux = s.mux) := by
  cases a with
  | loop ledManual =>
    obtain ⟨eff, hview, ht⟩ := loop_cases hstep
    obtain ⟨hawaited, hrequested, hphase⟩ :=
      undisturbed_view h.notAwaited h.notRequested h.phase hview
    have hcallers : t.callers = s.callers := by
      rw [ht]
      exact applyEffect_callers s eff
    have hhandler : t.handler = s.handler := by
      rw [ht]
      exact applyEffect_handler s eff
    refine ⟨⟨by rwa [hcallers], by rw [hhandler]; exact h.notHandled, hrequested, hphase⟩, ?_⟩
    intro _
    rw [ht]
    exact applyEffect_mux s eff
  | handler =>
    obtain ⟨hkept, hmux⟩ := handler_undisturbed h hstep
    exact ⟨hkept, fun _ => hmux⟩
  | write active => cases ha
  | setBit =>
    obtain ⟨hcallers, _⟩ := setBit_cases hstep
    exact absurd (.calling hcallers) h.notAwaited
  | debugEnable =>
    rw [debugEnable_cases hstep]
    exact ⟨h.congr rfl rfl rfl, nofun⟩
  | debugDisable =>
    rw [debugDisable_cases hstep]
    exact ⟨h.congr rfl rfl rfl, nofun⟩
  | debug =>
    rcases debug_cases hstep with ⟨_, ht⟩ | ⟨_, ht⟩
    · rw [ht]
      exact ⟨h.congr rfl rfl rfl, fun _ => rfl⟩
    · rw [ht]
      exact ⟨h.congr rfl rfl rfl, fun _ => rfl⟩
  | raise e =>
    obtain ⟨_, hview, ht⟩ := raise_cases hstep
    have hview := hview (by rintro rfl; cases ha)
    exact ⟨h.congr hview (by rw [ht]) (by rw [ht]), fun _ => by rw [ht]⟩
  | timer e =>
    obtain ⟨he, _, hview, ht⟩ := timer_cases hstep
    have hcallers : t.callers = s.callers := by rw [ht]
    refine ⟨⟨?_, by rw [ht]; exact h.notHandled, ?_, ?_⟩, fun _ => by rw [ht]⟩
    · have hnone := h.notAwaited
      rw [awaited_iff] at hnone
      rw [hcallers, hview, awaited_iff]
      simpa [he.symm] using hnone
    · rw [hview]
      exact h.notRequested
    · rw [hview]
      exact h.phase

/-- The same for a whole run. -/
theorem exec_undisturbed {run : List Label} (h : Undisturbed s)
    (hrun : ∀ a ∈ run, keepsMode a = true) (hexec : machine.exec s run = some t) :
    Undisturbed t ∧ ((∀ a ∈ run, isToggle a = false) → t.mux = s.mux) := by
  induction run generalizing s with
  | nil =>
    cases Option.some.inj hexec
    exact ⟨h, fun _ => rfl⟩
  | cons a rest ih =>
    obtain ⟨u, hu, hrest⟩ := Machine.exec_cons_eq_some hexec
    obtain ⟨hkept, hmux⟩ := step_undisturbed h (hrun a List.mem_cons_self) hu
    obtain ⟨hend, hendMux⟩ := ih hkept (fun b hb => hrun b (List.mem_cons_of_mem a hb)) hrest
    refine ⟨hend, ?_⟩
    intro htoggle
    rw [hendMux fun b hb => htoggle b (List.mem_cons_of_mem a hb)]
    exact hmux (htoggle a List.mem_cons_self)

/-- A toggle that enables, and later one that disables, restore the mux exactly
where it was idle before them. -/
theorem toggle_restores_iff (h : Undisturbed s) {mid rest : List Label}
    (hmid : ∀ a ∈ mid, keepsMode a = true)
    (hrest : ∀ a ∈ rest, keepsMode a = true ∧ isToggle a = false)
    (hexec : machine.exec s (.debugEnable :: (mid ++ .debugDisable :: rest)) = some t) :
    t.mux = s.mux ↔ s.mux = .idle := by
  obtain ⟨enabled, henable, hmidExec⟩ := Machine.exec_cons_eq_some hexec
  obtain ⟨between, hbetween, hdisableExec⟩ := Machine.exec_append_eq_some hmidExec
  obtain ⟨disabled, hdisable, hrestExec⟩ := Machine.exec_cons_eq_some hdisableExec
  have henabled := (step_undisturbed (a := .debugEnable) h rfl henable).1
  have hmidKept := (exec_undisturbed henabled hmid hbetween).1
  have hdisabled := (step_undisturbed (a := .debugDisable) hmidKept rfl hdisable).1
  have hend := (exec_undisturbed hdisabled (fun a ha => (hrest a ha).1) hrestExec).2
    fun a ha => (hrest a ha).2
  have hidle : disabled.mux = .idle := by rw [debugDisable_cases hdisable]
  rw [hend, hidle]
  exact eq_comm

end Steps

def enableUri : List UInt8 := CString.ascii "/v1/imu/debug/toggle?state=enable"

def disableUri : List UInt8 := CString.ascii "/v1/imu/debug/toggle?state=disable"

/-- The device boots, is debugged, and stays idle. -/
theorem toggle_restores_coldStandby :
    ∃ t, machine.exec coldStandby
        (.debugEnable :: ([.debug, .raise .ledStatusChanged] ++ .debugDisable :: [.debug])) =
          some t ∧ (t.mux = coldStandby.mux ↔ coldStandby.mux = .idle) := by
  obtain ⟨t, hexec⟩ : ∃ t, machine.exec coldStandby
      (.debugEnable :: ([.debug, .raise .ledStatusChanged] ++ .debugDisable :: [.debug])) =
        some t := ⟨_, rfl⟩
  refine ⟨t, hexec, ?_⟩
  refine toggle_restores_iff ⟨by decide, rfl, rfl, Or.inl rfl⟩ ?_ ?_ hexec
  · decide
  · decide

/-- A device that streams is left idle. -/
theorem stream_not_restored :
    ¬ ∀ (s t : Node) (on off : Label) (mid : List Label),
      machine.Reach Machine.anyStep s → s.mux = .idle ∨ s.mux = .stream → Undisturbed s →
        imuDebugToggle enableUri = some on → imuDebugToggle disableUri = some off →
          (∀ a ∈ mid, keepsMode a = true) →
            machine.exec s (on :: (mid ++ [off, .debug])) = some t → t.mux = s.mux := by
  intro h
  obtain ⟨s, hs, hmux, hundisturbed⟩ : ∃ s, machine.exec coldStandby firstSession = some s ∧
      s.mux = .stream ∧ Undisturbed s :=
    ⟨_, rfl, rfl, ⟨by decide, rfl, rfl, Or.inl rfl⟩⟩
  have hreach : machine.Reach Machine.anyStep s :=
    Machine.reach_of_exec rfl (Machine.along_anyStep _ firstSession) hs
  obtain ⟨t, ht, hidle⟩ : ∃ t, machine.exec s [.debugEnable, .debug, .debugDisable, .debug] =
      some t ∧ t.mux = .idle := by
    cases hs
    exact ⟨_, rfl, rfl⟩
  have hon : imuDebugToggle enableUri = some .debugEnable := by decide +kernel
  have hoff : imuDebugToggle disableUri = some .debugDisable := by decide +kernel
  have hrestored := h s t .debugEnable .debugDisable [.debug] hreach (Or.inr hmux) hundisturbed
    hon hoff (by decide) ht
  rw [hidle, hmux] at hrestored
  cases hrestored

end MarkitNode.DebugToggle
