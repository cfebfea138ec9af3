import MarkitNode.CheckedProgram
import MarkitNode.PowerMgmt

/-!
The peripherals behind the flags of the power-management context. A transition
is the calls it makes, with every outcome that is not ignored decided by the
environment; `ESP_ERROR_CHECK` aborts. The platform keeps the real state of
each one-shot resource and remembers whether one was ever brought up twice or
taken down while it was not up.
-/

namespace MarkitNode.Peripherals

open PowerMgmt CheckedProgram

/-- Calls whose outcome matters, each made at most once in a transition. -/
inductive Call
  | eventLoopCreateDefault
  | adcNewUnit
  | adcConfigChannel
  | adcCaliCreateScheme
  | adcRead
  | adcCaliRawToVoltage
  | timerCreate
  | uartDriverInstall
  | uartParamConfig
  | uartSetPin
  | gpioIsrHandlerAdd
  | imuConfig
  | imuToggle
  | nimblePortInit
  | gattSvrInit
  | nimblePortStop
  | nimblePortDeinit
  | wifiInit
  | wifiHandlerRegister
  | ipHandlerRegister
  | wifiSetMode
  | wifiHandlerUnregister
  | ipHandlerUnregister
  | wifiStop
  | wifiDeinit
  | restContextAlloc
  | httpdStart
  | httpdStop
  deriving DecidableEq, Repr

abbrev Outcomes := Call → Bool

inductive ImuSensor
  | hi229
  | bno08x
  deriving DecidableEq, Repr

/-- `blePort` is NimBLE initialised, `bleHost` its host task running. -/
structure Hardware where
  buttons : Bool
  ledTimer : Bool
  imu : Bool
  imuEnabled : Bool
  blePort : Bool
  bleHost : Bool
  wifiDriver : Bool
  httpServer : Bool
  adcUnit : Bool
  deriving DecidableEq, Repr

/-- What the flags should say. -/
def Hardware.flags (hw : Hardware) : PowerPeripheralState where
  wifiInitialized := hw.wifiDriver
  bleEnabled := hw.bleHost
  imuInitialized := hw.imu
  ledInitialized := hw.ledTimer
  buttonInitialized := hw.buttons
  controllerInitialized := hw.httpServer

structure Platform where
  ctx : PowerMgmtCtx
  hw : Hardware
  misused : Bool
  deriving DecidableEq, Repr

/-- A chip that has just been powered. -/
def Platform.off : Platform where
  ctx := .zero
  hw := ⟨false, false, false, false, false, false, false, false, false⟩
  misused := false

def Platform.FlagsMatch (p : Platform) : Prop := p.ctx.peripheralState = p.hw.flags

abbrev Prog := CheckedProgram Outcomes Platform

def note (wrong : Hardware → Bool) : Prog Unit :=
  update fun p => { p with misused := p.misused || wrong p.hw }

def setHw (f : Hardware → Hardware) : Prog Unit := update fun p => { p with hw := f p.hw }

def setFlags (f : PowerPeripheralState → PowerPeripheralState) : Prog Unit :=
  update fun p => { p with ctx := { p.ctx with peripheralState := f p.ctx.peripheralState } }

def check (c : Call) : Prog Unit := fun o p => errorCheck (o c) o p

/-- `prog` runs only if the outcome is good; nothing aborts otherwise. -/
def ifOutcome (good : Outcomes → Bool) (prog : Prog Unit) : Prog Unit :=
  fun o p => if good o then prog o p else .ok () p

/-- A checked call that cannot succeed on a resource in use. -/
def failIf (inUse : Hardware → Bool) : Prog Unit := fun o p => errorCheck (!inUse p.hw) o p

/-- `adc_oneshot_new_unit` fails on a unit that is in use. -/
def batteryMspInit : Prog Unit := do
  note fun hw => hw.adcUnit
  failIf fun hw => hw.adcUnit
  check .adcNewUnit
  setHw fun hw => { hw with adcUnit := true }
  check .adcConfigChannel
  let caliEnable ← outcome fun o => o .adcCaliCreateScheme
  check .adcRead
  ifOutcome (fun _ => caliEnable) (check .adcCaliRawToVoltage)

/-- `nimble_port_init` fails on a running port. -/
def blehrStartSrv : Prog Unit := do
  note fun hw => hw.blePort
  failIf fun hw => hw.blePort
  check .nimblePortInit
  setHw fun hw => { hw with blePort := true }
  check .gattSvrInit
  setHw fun hw => { hw with bleHost := true }
  setFlags fun f => { f with bleEnabled := true }

def blehrStopSrv : Prog Unit := do
  note fun hw => !hw.bleHost
  ifOutcome (fun o => o .nimblePortStop) do
    setHw fun hw => { hw with bleHost := false }
    ifOutcome (fun o => o .nimblePortDeinit) do
      setHw fun hw => { hw with blePort := false }
  setFlags fun f => { f with bleEnabled := false }

def sysWifiMspInit : Prog Unit := do
  note fun hw => hw.wifiDriver
  check .wifiInit
  setHw fun hw => { hw with wifiDriver := true }
  check .wifiHandlerRegister
  check .ipHandlerRegister
  check .wifiSetMode

def sysWifiMspDeinit : Prog Unit := do
  note fun hw => !hw.wifiDriver
  check .wifiHandlerUnregister
  check .ipHandlerUnregister
  check .wifiStop
  check .wifiDeinit
  setHw fun hw => { hw with wifiDriver := false }

/-- A server that does not start is a `NULL` handle. -/
def restControllerStart : Prog Unit := do
  note fun hw => hw.httpServer
  ifOutcome (fun o => o .restContextAlloc && o .httpdStart) do
    setHw fun hw => { hw with httpServer := true }

def restControllerStop : Prog Unit := do
  note fun hw => !hw.httpServer
  ifOutcome (fun o => o .httpdStop) do
    setHw fun hw => { hw with httpServer := false }

/-- No result of the calls is looked at. -/
def sysInitButtons : Prog Unit := do
  note fun hw => hw.buttons
  setHw fun hw => { hw with buttons := true }

def blinkMspInit : Prog Unit := do
  note fun hw => hw.ledTimer
  check .timerCreate
  setHw fun hw => { hw with ledTimer := true }

def imuInterfaceInit : ImuSensor → Prog Unit
  | .hi229 => do
      note fun hw => hw.imu
      check .uartDriverInstall
      check .uartParamConfig
      check .uartSetPin
      setHw fun hw => { hw with imu := true, imuEnabled := true }
  | .bno08x => do
      note fun hw => hw.imu
      check .gpioIsrHandlerAdd
      let configured ← outcome fun o => o .imuConfig
      setHw fun hw => { hw with imu := true, imuEnabled := configured }

/-- `g_imu.toggle(g_imu.p_imu, true)`; the HI229 driver cannot fail here. -/
def imuEnable : ImuSensor → Prog Unit
  | .hi229 => setHw fun hw => { hw with imuEnabled := true }
  | .bno08x => do
      let ok ← outcome fun o => o .imuToggle
      setHw fun hw => { hw with imuEnabled := hw.imuEnabled || ok }

/-- `if (!g_power_mgmt_ctx.peripheral_state.flag) { prog }` -/
def unlessFlag (flag : PowerPeripheralState → Bool) (prog : Prog Unit) : Prog Unit :=
  fun o p => if flag p.ctx.peripheralState then .ok () p else prog o p

/-- `if (g_power_mgmt_ctx.peripheral_state.flag) { prog }` -/
def ifFlag (flag : PowerPeripheralState → Bool) (prog : Prog Unit) : Prog Unit :=
  unlessFlag (fun f => !flag f) prog

def standbyImu (sensor : ImuSensor) : Prog Unit := fun o p =>
  if p.ctx.peripheralState.imuInitialized then
    if p.hw.imuEnabled then .ok () p else imuEnable sensor o p
  else (do
    imuInterfaceInit sensor
    setFlags fun f => { f with imuInitialized := true }) o p

def standbyBle : Prog Unit := fun o p =>
  if p.ctx.peripheralState.bleEnabled = false ∧ p.ctx.mode ≠ .lowEnergy then blehrStartSrv o p
  else if p.ctx.mode = .lowEnergy then blehrStopSrv o p
  else .ok () p

/-- `power_mgmt_on_enter_standby` up to the battery measurement. -/
def standbyPeripherals (sensor : ImuSensor) : Prog Unit := do
  unlessFlag (fun f => f.buttonInitialized) do
    sysInitButtons
    setFlags fun f => { f with buttonInitialized := true }
  unlessFlag (fun f => f.ledInitialized) do
    blinkMspInit
    setFlags fun f => { f with ledInitialized := true }
  standbyImu sensor
  standbyBle
  unlessFlag (fun f => f.wifiInitialized) do
    sysWifiMspInit
    setFlags fun f => { f with wifiInitialized := true }
  unlessFlag (fun f => f.controllerInitialized) do
    restControllerStart
    setFlags fun f => { f with controllerInitialized := true }

def powerMgmtOnEnterStandby (sensor : ImuSensor) : Prog Unit := do
  standbyPeripherals sensor
  batteryMspInit
  update fun p => { p with ctx := { p.ctx with state := .standby } }

def powerMgmtOnEnterActive : Prog Unit := do
  ifFlag (fun f => f.bleEnabled) blehrStopSrv
  update fun p => { p with ctx := { p.ctx with state := .active } }

def powerMgmtOnEnterPowerSave : Prog Unit := do
  ifFlag (fun f => f.bleEnabled) blehrStopSrv
  ifFlag (fun f => f.wifiInitialized) do
    sysWifiMspDeinit
    setFlags fun f => { f with wifiInitialized := false }
  ifFlag (fun f => f.controllerInitialized) do
    restControllerStop
    setFlags fun f => { f with controllerInitialized := false }
  update fun p => { p with ctx := { p.ctx with state := .save } }

def sysInitChip : Prog Unit := do
  check .eventLoopCreateDefault
  batteryMspInit

inductive Transition
  | standby
  | active
  | powerSave
  deriving DecidableEq, Repr

def Transition.enter (sensor : ImuSensor) : Transition → Prog Unit
  | .standby => powerMgmtOnEnterStandby sensor
  | .active => powerMgmtOnEnterActive
  | .powerSave => powerMgmtOnEnterPowerSave

/-- Runs with the outcomes of transition number `k`. -/
def stage (k : ℕ) (prog : Prog Unit) : CheckedProgram (ℕ → Outcomes) Platform Unit :=
  fun env p => prog (env k) p

def boot (sensor : ImuSensor) : CheckedProgram (ℕ → Outcomes) Platform Unit := do
  stage 0 sysInitChip
  update fun p => { p with ctx := powerMgmtInit p.ctx }
  stage 1 (powerMgmtOnEnterStandby sensor)

def enterAll (sensor : ImuSensor) : ℕ → List Transition →
    CheckedProgram (ℕ → Outcomes) Platform Unit
  | _, [] => pure ()
  | k, t :: rest => do
      stage k (t.enter sensor)
      enterAll sensor (k + 1) rest

def run (sensor : ImuSensor) (transitions : List Transition) :
    CheckedProgram (ℕ → Outcomes) Platform Unit := do
  boot sensor
  enterAll sensor 2 transitions

end MarkitNode.Peripherals
