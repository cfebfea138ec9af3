import MarkitNode.Machine
import MarkitNode.ModeDispatch
import MarkitNode.PowerMgmt

/-!
The tasks that decide whether the device streams and whether it may sleep: the
callers of `sys_set_operation_mode`, `app_system_loop`, the event-loop task
with the two handlers of `SYSTEM_MODE_CHANGE_EVENT`, and the HTTP server's
debug toggle. Each label is one step of one task. Calls that start or stop a
peripheral are taken to succeed, so that entering a power state is the step
that leaves its context behind.
-/

namespace MarkitNode.NodeControl

open SystemLoop PowerMgmt

/-- `imu_mux_t` -/
inductive ImuMux
  | idle
  | stream
  | debug
  deriving DecidableEq, Repr

/-- What the event-loop task does next. -/
inductive HandlerPc
  | idle
  /-- `sys_mode_change_handler` reads `g_mcu.state.active`. -/
  | readMode
  | writeMux (active : Bool)
  /-- `sys_power_mgmt_handler` reads it once more. -/
  | readPower
  | enterActive
  | setNoSleep
  | enterStandby
  | clearNoSleep
  | otaNoSleep
  | powerUpdate
  /-- Running the handler of another event. -/
  | other (e : SysEventType)
  deriving DecidableEq, Repr

/-- `imu_debug_toggle_handler` between its write of the mux and that of `no_sleep`. -/
inductive DebugPc
  | idle
  | enabling
  | disabling
  deriving DecidableEq, Repr

/-- `callers` counts the calls of `sys_set_operation_mode` that have written
the flag and not set the event bit yet. -/
structure Node where
  bus : Bus
  loop : Loop
  active : Bool
  mux : ImuMux
  ctx : PowerMgmtCtx
  callers : ℕ
  handler : HandlerPc
  debug : DebugPc

inductive Label
  | loop (ledManual : Bool)
  /-- The event-loop task takes an event or goes on with its handler. -/
  | handler
  /-- The two steps of `sys_set_operation_mode`. -/
  | write (active : Bool)
  | setBit
  | debugEnable
  | debugDisable
  /-- The toggle handler writes `no_sleep`. -/
  | debug
  /-- Another task raises a system event. -/
  | raise (e : SysEvent)
  /-- A timer posts an event of its own. -/
  | timer (e : SysEventType)
  deriving DecidableEq, Repr

/-- The handlers registered for an event, by their first step. -/
def dispatch : SysEventType → HandlerPc
  | .modeChange => .readMode
  | .ota => .otaNoSleep
  | .powerMgmt => .powerUpdate
  | e => .other e

def finish (b : Bus) (e : SysEventType) : Bus :=
  match taskGuard e with
  | none => b
  | some g => b.clearTaskEvent g

def muxFor (active : Bool) : ImuMux := if active then .stream else .idle

def powerFor (active : Bool) : PowerMgmtState := if active then .active else .standby

def setNoSleep (s : Node) (noSleep : Bool) : Node :=
  { s with ctx := { s.ctx with noSleep := noSleep } }

def handlerStep (s : Node) : Option Node :=
  match s.handler with
  | .idle =>
      match s.bus.queue with
      | [] => none
      | e :: rest => some { s with bus := { s.bus with queue := rest }, handler := dispatch e }
  | .readMode => some { s with handler := .writeMux s.active }
  | .writeMux active => some { s with mux := muxFor active, handler := .readPower }
  | .readPower => some { s with handler := if s.active then .enterActive else .enterStandby }
  | .enterActive => some { s with ctx := activeCtx s.ctx, handler := .setNoSleep }
  | .setNoSleep => some { setNoSleep s true with handler := .idle }
  | .enterStandby => some { s with ctx := standbyCtx s.ctx, handler := .clearNoSleep }
  | .clearNoSleep => some { setNoSleep s false with handler := .idle }
  | .otaNoSleep => some { setNoSleep s true with handler := .idle }
  | .powerUpdate => some { s with ctx := powerUpdateCtx s.ctx, handler := .idle }
  | .other e => some { s with bus := finish s.bus e, handler := .idle }

/-- What the loop does besides its bus operations. -/
def applyEffect (s : Node) : LoopEffect → Node
  | .none => s
  | .setInactive => { s with active := false }
  | .otaFailed => setNoSleep s false

def debugStep (s : Node) : Option Node :=
  match s.debug with
  | .idle => none
  | .enabling => some { setNoSleep s true with debug := .idle }
  | .disabling => some { setNoSleep s false with debug := .idle }

def step (s : Node) : Label → Option Node
  | .loop ledManual =>
      (loopStep ledManual s.bus s.loop).map fun r =>
        { applyEffect s r.2.2 with bus := r.1, loop := r.2.1 }
  | .handler => handlerStep s
  | .write active => some { s with active := active, callers := s.callers + 1 }
  | .setBit =>
      if s.callers = 0 then none
      else some { s with bus := s.bus.setSysEvent .modeChange, callers := s.callers - 1 }
  | .debugEnable =>
      if s.debug = .idle then some { s with mux := .debug, debug := .enabling } else none
  | .debugDisable =>
      if s.debug = .idle then some { s with mux := .idle, debug := .disabling } else none
  | .debug => debugStep s
  | .raise e =>
      if e = .modeChange then none else some { s with bus := s.bus.setSysEvent e }
  | .timer e =>
      if isTimerEvent e then (s.bus.post e).map fun b => { s with bus := b } else none

/-- A device that has booted from power-off, right after the first standby. -/
def coldStandby : Node where
  bus := Bus.init
  loop := Loop.init
  active := false
  mux := .idle
  ctx := standbyCtx (powerMgmtInit .zero)
  callers := 0
  handler := .idle
  debug := .idle

def machine : Machine Node Label where
  Init s := s = coldStandby
  step := step

def Node.view (s : Node) : ModeDispatch.View := ModeDispatch.view s.bus s.loop

/-- Neither a debug toggle nor an update is asked for. -/
def isModeLabel : Label → Bool
  | .debugEnable | .debugDisable | .raise .otaTriggered => false
  | _ => true

def modeOnly (_ : Node) (a : Label) : Prop := isModeLabel a = true

instance (s : Node) (a : Label) : Decidable (modeOnly s a) :=
  inferInstanceAs (Decidable (isModeLabel a = true))

/-- `sys_mode_change_handler` or, after it, `sys_power_mgmt_handler` is running
for a mode change. -/
def handlesMode : HandlerPc → Bool
  | .readMode | .writeMux _ | .readPower | .enterActive | .setNoSleep | .enterStandby
  | .clearNoSleep => true
  | _ => false

section View

open ModeDispatch

variable {s t : Node}

/-- A step of the loop is a step of its view; all else is the effect. -/
theorem loop_cases {ledManual : Bool} (h : step s (.loop ledManual) = some t) :
    ∃ eff, Step s.view t.view eff ∧
      t = { applyEffect s eff with bus := t.bus, loop := t.loop } := by
  obtain ⟨⟨b, l, eff⟩, hloop, rfl⟩ := Option.map_eq_some_iff.mp h
  exact ⟨eff, loopStep_view hloop, rfl⟩

theorem setBit_cases (h : step s .setBit = some t) :
    0 < s.callers ∧ t.view = { s.view with pending := true } ∧
      t = { s with bus := t.bus, callers := s.callers - 1 } := by
  simp only [step] at h
  split at h
  · cases h
  · next hcallers =>
    cases Option.some.inj h
    exact ⟨Nat.pos_of_ne_zero hcallers, view_setModeChange s.bus s.loop, rfl⟩

theorem debugEnable_cases (h : step s .debugEnable = some t) :
    t = { s with mux := .debug, debug := .enabling } := by
  simp only [step] at h
  split at h <;> cases h
  rfl

theorem debugDisable_cases (h : step s .debugDisable = some t) :
    t = { s with mux := .idle, debug := .disabling } := by
  simp only [step] at h
  split at h <;> cases h
  rfl

theorem debug_cases (h : step s .debug = some t) :
    s.debug = .enabling ∧ t = { setNoSleep s true with debug := .idle } ∨
      s.debug = .disabling ∧ t = { setNoSleep s false with debug := .idle } := by
  simp only [step, debugStep] at h
  split at h
  · cases h
  · next henabling =>
    cases h
    exact Or.inl ⟨henabling, rfl⟩
  · next hdisabling =>
    cases h
    exact Or.inr ⟨hdisabling, rfl⟩

theorem raise_cases {e : SysEvent} (h : step s (.raise e) = some t) :
    (∃ requested, t.view = { s.view with otaRequested := requested }) ∧
      (e ≠ .otaTriggered → t.view = s.view) ∧ t = { s with bus := t.bus } := by
  simp only [step] at h
  split at h
  · cases h
  · next he =>
    cases Option.some.inj h
    by_cases hota : e = .otaTriggered
    · subst hota
      exact ⟨⟨true, view_setOtaTriggered s.bus s.loop⟩, fun hne => absurd rfl hne, rfl⟩
    · have hview := view_setSysEvent s.bus s.loop he hota
      exact ⟨⟨s.view.otaRequested, hview⟩, fun _ => hview, rfl⟩

theorem timer_cases {e : SysEventType} (h : step s (.timer e) = some t) :
    e ≠ .modeChange ∧ e ≠ .ota ∧ t.view = { s.view with queue := s.view.queue ++ [e] } ∧
      t = { s with bus := t.bus } := by
  simp only [step] at h
  split at h
  · next he =>
    obtain ⟨b, hpost, rfl⟩ := Option.map_eq_some_iff.mp h
    refine ⟨?_, ?_, view_post s.loop hpost, rfl⟩
    · rintro rfl
      cases he
    · rintro rfl
      cases he
  · cases h

/-- The event-loop task takes the next event. -/
theorem idle_cases (hidle : s.handler = .idle) (h : handlerStep s = some t) :
    ∃ e rest, s.view.queue = e :: rest ∧ t.view = { s.view with queue := rest } ∧
      t = { s with bus := t.bus, handler := dispatch e } := by
  simp only [handlerStep, hidle] at h
  cases hqueue : s.bus.queue with
  | nil => simp only [hqueue, reduceCtorEq] at h
  | cons e rest =>
    simp only [hqueue] at h
    cases Option.some.inj h
    exact ⟨e, rest, hqueue, rfl, rfl⟩

theorem view_finish (s : Node) (e : SysEventType) :
    ModeDispatch.view (finish s.bus e) s.loop = s.view := by
  unfold finish
  split <;> rfl

/-- Past its first step a handler leaves the loop and the callers alone. It
ends, or goes on with the mode change it is handling. -/
theorem busy_cases (hbusy : s.handler ≠ .idle) (h : handlerStep s = some t) :
    t.view = s.view ∧
      t = { s with bus := t.bus, mux := t.mux, ctx := t.ctx, handler := t.handler } ∧
      (t.handler = .idle ∨ handlesMode s.handler = true ∧ handlesMode t.handler = true) := by
  cases hpc : s.handler with
  | idle => exact absurd hpc hbusy
  | other e =>
    simp only [handlerStep, hpc] at h
    cases h
    exact ⟨view_finish s e, rfl, Or.inl rfl⟩
  | readPower =>
    simp only [handlerStep, hpc] at h
    cases h
    refine ⟨rfl, rfl, Or.inr ⟨rfl, ?_⟩⟩
    cases s.active <;> rfl
  | readMode | writeMux _ | enterActive | enterStandby =>
    simp only [handlerStep, hpc] at h
    cases h
    exact ⟨rfl, rfl, Or.inr ⟨rfl, rfl⟩⟩
  | setNoSleep | clearNoSleep | otaNoSleep | powerUpdate =>
    simp only [handlerStep, hpc] at h
    cases h
    exact ⟨rfl, rfl, Or.inl rfl⟩

theorem dispatch_eq_otaNoSleep {e : SysEventType} : dispatch e = .otaNoSleep ↔ e = .ota := by
  cases e <;> simp [dispatch]

theorem handlesMode_dispatch {e : SysEventType} :
    handlesMode (dispatch e) = true ↔ e = .modeChange := by
  cases e <;> simp [dispatch, handlesMode]

theorem applyEffect_callers (s : Node) (eff : LoopEffect) :
    (applyEffect s eff).callers = s.callers := by
  cases eff <;> rfl

/-- A mode change that is awaited stays so until the handlers start on it. -/
theorem awaited_step {a : Label} (h : Awaited s.view s.callers) (hstep : step s a = some t) :
    Awaited t.view t.callers ∨ t.handler = .readMode := by
  cases a with
  | loop ledManual =>
    obtain ⟨eff, hview, ht⟩ := loop_cases hstep
    have hcallers : t.callers = s.callers := by
      rw [ht]
      exact applyEffect_callers s eff
    rw [hcallers]
    exact Or.inl (awaited_view h hview)
  | handler =>
    by_cases hidle : s.handler = .idle
    · obtain ⟨e, rest, hqueue, hview, ht⟩ := idle_cases hidle hstep
      by_cases he : e = .modeChange
      · rw [ht, he]
        exact Or.inr rfl
      · rw [hview, ht]
        exact Or.inl (awaited_pop h hqueue he)
    · obtain ⟨hview, ht, -⟩ := busy_cases hidle hstep
      rw [hview, ht]
      exact Or.inl h
  | write active =>
    cases hstep
    exact Or.inl (.calling (Nat.succ_pos _))
  | setBit =>
    obtain ⟨_, hview, _⟩ := setBit_cases hstep
    exact Or.inl (.pending (by rw [hview]))
  | debugEnable =>
    rw [debugEnable_cases hstep]
    exact Or.inl h
  | debugDisable =>
    rw [debugDisable_cases hstep]
    exact Or.inl h
  | debug =>
    rcases debug_cases hstep with ⟨-, ht⟩ | ⟨-, ht⟩ <;> (rw [ht]; exact Or.inl h)
  | raise e =>
    obtain ⟨⟨requested, hview⟩, -, ht⟩ := raise_cases hstep
    have hcallers : t.callers = s.callers := by rw [ht]
    rw [hcallers, hview]
    exact Or.inl (awaited_congr h rfl rfl rfl)
  | timer e =>
    obtain ⟨-, -, hview, ht⟩ := timer_cases hstep
    have hcallers : t.callers = s.callers := by rw [ht]
    rw [hcallers, hview]
    exact Or.inl (awaited_append h e)

end View

section Runs

def loops (n : ℕ) : List Label := List.replicate n (.loop false)

def handles (n : ℕ) : List Label := List.replicate n .handler

/-- The first caller starts a session and the handlers follow. -/
def firstSession : List Label := [.write true, .setBit] ++ loops 5 ++ handles 8

end Runs

end MarkitNode.NodeControl
