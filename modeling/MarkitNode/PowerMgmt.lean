import Mathlib.Tactic.Common

/-!
The power-management context that survives deep sleep, and what the functions
of `power_mgmt.c` write to it. Each transition is given here as the context it
leaves behind once all the peripheral calls it makes have returned.
-/

namespace MarkitNode.PowerMgmt

inductive PowerMgmtState
  | unknown
  | normalBoot
  | standby
  | active
  | save
  | deepSleep
  | waken
  deriving DecidableEq, Repr

inductive PowerMode
  | performance
  | normal
  | lowEnergy
  deriving DecidableEq, Repr

structure PowerPeripheralState where
  wifiInitialized : Bool
  bleEnabled : Bool
  imuInitialized : Bool
  ledInitialized : Bool
  buttonInitialized : Bool
  controllerInitialized : Bool
  deriving DecidableEq, Repr

/-- `memset(&g_power_mgmt_ctx.peripheral_state, 0, sizeof(power_peripheral_state_t))` -/
def PowerPeripheralState.zero : PowerPeripheralState := ⟨false, false, false, false, false, false⟩

structure PowerMgmtCtx where
  initialized : Bool
  state : PowerMgmtState
  mode : PowerMode
  nextMode : PowerMode
  bootCount : ℕ
  peripheralState : PowerPeripheralState
  noSleep : Bool
  deriving DecidableEq, Repr

/-- RTC memory as the loader initialises it. -/
def PowerMgmtCtx.zero : PowerMgmtCtx where
  initialized := false
  state := .normalBoot
  mode := .performance
  nextMode := .performance
  bootCount := 0
  peripheralState := .zero
  noSleep := false

def powerMgmtInit (c : PowerMgmtCtx) : PowerMgmtCtx :=
  let c := { c with bootCount := c.bootCount + 1 }
  if c.initialized then
    if c.state = .deepSleep then
      { c with state := .waken, nextMode := c.mode, peripheralState := .zero }
    else
      { c with state := .unknown, peripheralState := .zero }
  else
    { c with
      initialized := true
      state := .normalBoot
      mode := .normal
      nextMode := .normal
      peripheralState := .zero }

theorem powerMgmtInit_peripheralState (c : PowerMgmtCtx) :
    (powerMgmtInit c).peripheralState = .zero := by
  unfold powerMgmtInit
  by_cases hinit : c.initialized = true
  · by_cases hstate : c.state = .deepSleep
    · simp [hinit, hstate]
    · simp [hinit, hstate]
  · simp [hinit]

/-- `power_mgmt_on_enter_standby` -/
def standbyCtx (c : PowerMgmtCtx) : PowerMgmtCtx :=
  { c with
    state := .standby
    peripheralState :=
      { wifiInitialized := true
        bleEnabled := c.mode ≠ .lowEnergy
        imuInitialized := true
        ledInitialized := true
        buttonInitialized := true
        controllerInitialized := true } }

/-- `power_mgmt_on_enter_active` -/
def activeCtx (c : PowerMgmtCtx) : PowerMgmtCtx :=
  { c with
    state := .active
    peripheralState := { c.peripheralState with bleEnabled := false } }

/-- `power_mgmt_on_enter_power_save` -/
def powerSaveCtx (c : PowerMgmtCtx) : PowerMgmtCtx :=
  { c with
    state := .save
    peripheralState :=
      { c.peripheralState with
        bleEnabled := false
        wifiInitialized := false
        controllerInitialized := false } }

/-- `sys_power_mgmt_handler` on `SYSTEM_POWER_MGMT_EVENT`; the timers it arms
or resets are not part of the context. -/
def powerUpdateCtx (c : PowerMgmtCtx) : PowerMgmtCtx :=
  if c.nextMode ≠ c.mode then
    match c.nextMode with
    | .performance => { c with mode := .performance }
    | .normal => { c with mode := .normal }
    | .lowEnergy =>
        { c with
          mode := .lowEnergy
          peripheralState := { c.peripheralState with bleEnabled := false } }
  else c

theorem powerUpdateCtx_state (c : PowerMgmtCtx) : (powerUpdateCtx c).state = c.state := by
  unfold powerUpdateCtx
  split
  · split <;> rfl
  · rfl

theorem powerUpdateCtx_noSleep (c : PowerMgmtCtx) : (powerUpdateCtx c).noSleep = c.noSleep := by
  unfold powerUpdateCtx
  split
  · split <;> rfl
  · rfl

/-- The last write of `power_mgmt_on_enter_deep_sleep`. -/
def deepSleepCtx (c : PowerMgmtCtx) : PowerMgmtCtx := { c with state := .deepSleep }

/-- The context belongs to a device that has booted and was never asked to
change its power mode: no code writes `next_mode` but `power_mgmt_init`. -/
structure Booted (c : PowerMgmtCtx) : Prop where
  initialized : c.initialized = true
  mode : c.mode = .normal
  nextMode : c.nextMode = .normal

namespace Booted

variable {c : PowerMgmtCtx}

theorem powerMgmtInit_zero : Booted (powerMgmtInit .zero) := ⟨rfl, rfl, rfl⟩

theorem standbyCtx (h : Booted c) : Booted (standbyCtx c) := ⟨h.1, h.2, h.3⟩

theorem activeCtx (h : Booted c) : Booted (activeCtx c) := ⟨h.1, h.2, h.3⟩

theorem powerSaveCtx (h : Booted c) : Booted (powerSaveCtx c) := ⟨h.1, h.2, h.3⟩

theorem deepSleepCtx (h : Booted c) : Booted (deepSleepCtx c) := ⟨h.1, h.2, h.3⟩

theorem setNoSleep (h : Booted c) (b : Bool) : Booted { c with noSleep := b } :=
  ⟨h.1, h.2, h.3⟩

theorem powerUpdateCtx_eq (h : Booted c) : powerUpdateCtx c = c := by
  simp [powerUpdateCtx, h.mode, h.nextMode]

theorem powerUpdateCtx (h : Booted c) : Booted (powerUpdateCtx c) := by
  rwa [h.powerUpdateCtx_eq]

/-- A boot that finds the context initialised. -/
theorem powerMgmtInit_eq (h : Booted c) : PowerMgmt.powerMgmtInit c =
    { c with
      state := if c.state = .deepSleep then .waken else .unknown
      bootCount := c.bootCount + 1
      peripheralState := .zero } := by
  have hnext : c.nextMode = c.mode := h.nextMode.trans h.mode.symm
  by_cases hstate : c.state = .deepSleep
  · simp only [PowerMgmt.powerMgmtInit, h.initialized, hstate, if_true, ← hnext]
  · simp only [PowerMgmt.powerMgmtInit, h.initialized, hstate, if_true, if_false]

theorem powerMgmtInit (h : Booted c) : Booted (powerMgmtInit c) := by
  rw [h.powerMgmtInit_eq]
  exact ⟨h.1, h.2, h.3⟩

end Booted

end MarkitNode.PowerMgmt
