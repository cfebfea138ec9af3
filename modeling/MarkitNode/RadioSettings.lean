import MarkitNode.Machine
import MarkitNode.PowerMgmt

/-!
The radio against the power state. The entry functions of `power_mgmt.c` ask the
Wi-Fi driver for a power-saving mode and a transmission power and do not look at
the results; the driver takes the first only once it is initialised, the second
only while it is started, and forgets both when it is deinitialised.
-/

namespace MarkitNode.RadioSettings

open PowerMgmt

/-- `wifi_ps_type_t` -/
inductive WifiPs
  | none
  | minModem
  | maxModem
  deriving DecidableEq, Repr

/-- What the driver starts with after `esp_wifi_init`. -/
structure Defaults where
  ps : WifiPs
  maxTxPower : Int

structure Radio where
  initialized : Bool
  started : Bool
  ps : WifiPs
  maxTxPower : Int
  deriving DecidableEq, Repr

namespace Radio

/-- `esp_wifi_init` -/
def init (driver : Defaults) : Radio := ⟨true, false, driver.ps, driver.maxTxPower⟩

/-- `esp_wifi_set_ps` -/
def setPs (r : Radio) (ps : WifiPs) : Radio := if r.initialized then { r with ps := ps } else r

/-- `esp_wifi_set_max_tx_power` -/
def setMaxTxPower (r : Radio) (power : Int) : Radio :=
  if r.started then { r with maxTxPower := power } else r

/-- `esp_wifi_stop` -/
def stop (r : Radio) : Radio := { r with started := false }

/-- `esp_wifi_deinit` -/
def deinit (r : Radio) : Radio := { r with initialized := false, started := false }

end Radio

/-- `CONFIG_NORMAL_TX_POWER` -/
def normalTxPower : Int := 34

/-- `CONFIG_MAX_TX_POWER` -/
def maxTxPower : Int := 68

/-- `bleHost` is the host task of NimBLE. -/
structure Device where
  ctx : PowerMgmtCtx
  radio : Radio
  bleHost : Bool

/-- `blehr_start_srv`; `nimble_port_init` fails while the host is running. -/
def blehrStartSrv (s : Device) : Option Device :=
  if s.bleHost then none else some { s with bleHost := true }

/-- `blehr_stop_srv`; `stopped` is the outcome of `nimble_port_stop`. -/
def blehrStopSrv (s : Device) (stopped : Bool) : Device :=
  { s with bleHost := s.bleHost && !stopped }

def standbyBle (s : Device) (stopped : Bool) : Option Device :=
  if s.ctx.peripheralState.bleEnabled = false ∧ s.ctx.mode ≠ .lowEnergy then
    blehrStartSrv { s with radio := s.radio.setPs .maxModem }
  else if s.ctx.mode = .lowEnergy then some (blehrStopSrv s stopped)
  else some s

def standbyWifi (driver : Defaults) (s : Device) : Device :=
  if s.ctx.peripheralState.wifiInitialized then s else { s with radio := .init driver }

/-- `power_mgmt_on_enter_standby` as far as the radio goes. -/
def powerMgmtOnEnterStandby (driver : Defaults) (s : Device) (stopped : Bool) : Option Device :=
  (standbyBle s stopped).map fun s =>
    let s := standbyWifi driver s
    { s with radio := s.radio.setMaxTxPower normalTxPower, ctx := standbyCtx s.ctx }

def powerMgmtOnEnterActive (s : Device) (stopped : Bool) : Device :=
  let s := { s with radio := s.radio.setMaxTxPower maxTxPower }
  let s := if s.ctx.peripheralState.bleEnabled then
      let s := blehrStopSrv s stopped
      { s with radio := s.radio.setPs .none }
    else s
  { s with ctx := activeCtx s.ctx }

def powerMgmtOnEnterPowerSave (s : Device) (stopped : Bool) : Device :=
  let s := if s.ctx.peripheralState.bleEnabled then blehrStopSrv s stopped else s
  let s := if s.ctx.peripheralState.wifiInitialized then
      { s with radio := s.radio.stop.deinit }
    else s
  { s with ctx := powerSaveCtx s.ctx }

inductive Label
  | enterStandby (stopped : Bool)
  | enterActive (stopped : Bool)
  | enterPowerSave (stopped : Bool)
  /-- `sys_wifi_try_disconnect` and `sys_wifi_try_connect` of a reconnect -/
  | wifiStop
  | wifiStart
  deriving DecidableEq, Repr

/-- A call that fails under `ESP_ERROR_CHECK` aborts. -/
def step (driver : Defaults) (s : Device) : Label → Option Device
  | .enterStandby stopped => powerMgmtOnEnterStandby driver s stopped
  | .enterActive stopped => some (powerMgmtOnEnterActive s stopped)
  | .enterPowerSave stopped => some (powerMgmtOnEnterPowerSave s stopped)
  | .wifiStop => some { s with radio := s.radio.stop }
  | .wifiStart =>
      if s.radio.initialized then some { s with radio := { s.radio with started := true } }
      else none

/-- A boot, from power-off or from sleep, before the first standby. -/
def boot (driver : Defaults) (c : PowerMgmtCtx) : Device where
  ctx := powerMgmtInit c
  radio := ⟨false, false, driver.ps, driver.maxTxPower⟩
  bleHost := false

def machine (driver : Defaults) : Machine Device Label where
  Init s := ∃ c, (c = .zero ∨ Booted c) ∧ s = boot driver c
  step := step driver

/-- The radio is as the power state asks for. -/
structure Suits (s : Device) : Prop where
  active : s.ctx.state = .active →
    s.bleHost = false ∧ s.radio.ps = .none ∧ s.radio.maxTxPower = maxTxPower
  standby : s.ctx.state = .standby → s.bleHost = true →
    s.radio.ps = .maxModem ∧ s.radio.maxTxPower = normalTxPower

def SuitsWhenStarted (s : Device) : Prop := s.radio.started = true → Suits s

/-- What holds in every run: the flags tell what is up, and an initialised
driver belongs to one of the two states that use it. -/
structure Tracked (s : Device) : Prop where
  mode : Booted s.ctx
  wifi : s.radio.initialized = s.ctx.peripheralState.wifiInitialized
  ble : s.ctx.peripheralState.bleEnabled = true → s.bleHost = true
  started : s.radio.started = true → s.radio.initialized = true
  state : s.radio.initialized = true →
    s.ctx.state = .standby ∧ s.ctx.peripheralState.bleEnabled = true ∨ s.ctx.state = .active

namespace Radio

variable (r : Radio)

@[simp] theorem setPs_initialized (ps : WifiPs) :
    (r.setPs ps).initialized = r.initialized := by
  unfold setPs
  split <;> rfl

@[simp] theorem setPs_started (ps : WifiPs) : (r.setPs ps).started = r.started := by
  unfold setPs
  split <;> rfl

@[simp] theorem setPs_maxTxPower (ps : WifiPs) : (r.setPs ps).maxTxPower = r.maxTxPower := by
  unfold setPs
  split <;> rfl

@[simp] theorem setMaxTxPower_initialized (power : Int) :
    (r.setMaxTxPower power).initialized = r.initialized := by
  unfold setMaxTxPower
  split <;> rfl

@[simp] theorem setMaxTxPower_started (power : Int) :
    (r.setMaxTxPower power).started = r.started := by
  unfold setMaxTxPower
  split <;> rfl

@[simp] theorem setMaxTxPower_ps (power : Int) : (r.setMaxTxPower power).ps = r.ps := by
  unfold setMaxTxPower
  split <;> rfl

/-- A power that is set while the station is stopped is lost. -/
theorem setMaxTxPower_stopped {r : Radio} (h : r.started = false) (power : Int) :
    r.setMaxTxPower power = r := by
  rw [setMaxTxPower, if_neg (by simp [h])]

theorem setMaxTxPower_running {r : Radio} (h : r.started = true) (power : Int) :
    (r.setMaxTxPower power).maxTxPower = power := by
  rw [setMaxTxPower, if_pos h]

theorem setPs_running {r : Radio} (h : r.initialized = true) (ps : WifiPs) :
    (r.setPs ps).ps = ps := by
  rw [setPs, if_pos h]

end Radio

section Steps

variable {driver : Defaults} {s t : Device}

/-- In the mode of a booted device a standby entry leaves the host running. -/
theorem standbyBle_cases (h : Tracked s) {stopped : Bool} (hble : standbyBle s stopped = some t) :
    t.bleHost = true ∧ t.ctx = s.ctx ∧
      (s.ctx.peripheralState.bleEnabled = false ∧ s.bleHost = false ∧
          t.radio = s.radio.setPs .maxModem ∨
        s.ctx.peripheralState.bleEnabled = true ∧ t.radio = s.radio) := by
  unfold standbyBle at hble
  have hmode : s.ctx.mode ≠ .lowEnergy := by
    rw [h.mode.mode]
    nofun
  cases hflag : s.ctx.peripheralState.bleEnabled with
  | false =>
    rw [if_pos ⟨hflag, hmode⟩, blehrStartSrv] at hble
    by_cases hhost : s.bleHost = true
    · rw [if_pos hhost] at hble
      cases hble
    · rw [if_neg hhost] at hble
      cases hble
      exact ⟨rfl, rfl, Or.inl ⟨rfl, (Bool.not_eq_true _).mp hhost, rfl⟩⟩
  | true =>
    rw [if_neg (by simp [hflag]), if_neg hmode] at hble
    cases hble
    exact ⟨h.ble hflag, rfl, Or.inr ⟨rfl, rfl⟩⟩

/-- What a standby entry leaves behind. -/
theorem enterStandby_cases (h : Tracked s) {stopped : Bool}
    (hstep : powerMgmtOnEnterStandby driver s stopped = some t) :
    t.bleHost = true ∧ t.ctx = standbyCtx s.ctx ∧
      (s.radio.initialized = false ∧ t.radio = .init driver ∨
        s.radio.initialized = true ∧
          (s.ctx.peripheralState.bleEnabled = false ∧
              t.radio = (s.radio.setPs .maxModem).setMaxTxPower normalTxPower ∨
            s.ctx.peripheralState.bleEnabled = true ∧
              t.radio = s.radio.setMaxTxPower normalTxPower)) := by
  obtain ⟨u, hble, rfl⟩ := Option.map_eq_some_iff.mp hstep
  obtain ⟨hhost, hctx, hradio⟩ := standbyBle_cases h hble
  cases hinit : s.radio.initialized with
  | false =>
    have hflag : ¬ u.ctx.peripheralState.wifiInitialized = true := by
      rw [hctx, ← h.wifi, hinit]
      nofun
    have hwifi : standbyWifi driver u = { u with radio := .init driver } := if_neg hflag
    rw [hwifi]
    dsimp only
    refine ⟨hhost, congrArg standbyCtx hctx, Or.inl ⟨rfl, ?_⟩⟩
    exact Radio.setMaxTxPower_stopped rfl normalTxPower
  | true =>
    have hflag : u.ctx.peripheralState.wifiInitialized = true := by
      rw [hctx, ← h.wifi, hinit]
    have hwifi : standbyWifi driver u = u := if_pos hflag
    rw [hwifi]
    dsimp only
    refine ⟨hhost, congrArg standbyCtx hctx, Or.inr ⟨rfl, ?_⟩⟩
    rcases hradio with ⟨hoff, _, hradio⟩ | ⟨hon, hradio⟩
    · exact Or.inl ⟨hoff, by rw [hradio]⟩
    · exact Or.inr ⟨hon, by rw [hradio]⟩

theorem enterActive_eq (s : Device) (stopped : Bool) :
    powerMgmtOnEnterActive s stopped =
      { ctx := activeCtx s.ctx
        radio :=
          if s.ctx.peripheralState.bleEnabled = true then
            (s.radio.setMaxTxPower maxTxPower).setPs .none
          else s.radio.setMaxTxPower maxTxPower
        bleHost :=
          if s.ctx.peripheralState.bleEnabled = true then s.bleHost && !stopped
          else s.bleHost } := by
  unfold powerMgmtOnEnterActive
  by_cases hflag : s.ctx.peripheralState.bleEnabled = true
  · simp only [if_pos hflag]
    rfl
  · simp only [if_neg hflag]

theorem enterPowerSave_uninitialized (h : Tracked s) (stopped : Bool) :
    (powerMgmtOnEnterPowerSave s stopped).radio.initialized = false ∧
      (powerMgmtOnEnterPowerSave s stopped).radio.started = false ∧
      (powerMgmtOnEnterPowerSave s stopped).ctx = powerSaveCtx s.ctx := by
  unfold powerMgmtOnEnterPowerSave
  have hctx : (if s.ctx.peripheralState.bleEnabled = true then blehrStopSrv s stopped
      else s).ctx = s.ctx := by
    split <;> rfl
  have hradio : (if s.ctx.peripheralState.bleEnabled = true then blehrStopSrv s stopped
      else s).radio = s.radio := by
    split <;> rfl
  cases hflag : s.ctx.peripheralState.wifiInitialized with
  | false =>
    have hinit : s.radio.initialized = false := h.wifi.trans hflag
    have hstarted : s.radio.started = false := by
      by_contra hstarted
      rw [h.started ((Bool.not_eq_false _).mp hstarted)] at hinit
      cases hinit
    have hoff : ¬ s.ctx.peripheralState.wifiInitialized = true := by
      rw [hflag]
      nofun
    simp only [hctx, if_neg hoff, hradio]
    exact ⟨hinit, hstarted, trivial⟩
  | true =>
    simp only [hctx, if_pos hflag]
    exact ⟨rfl, rfl, trivial⟩

theorem step_tracked {a : Label} (h : Tracked s) (hstep : step driver s a = some t) :
    Tracked t := by
  cases a with
  | enterStandby stopped =>
    obtain ⟨hhost, hctx, hradio⟩ := enterStandby_cases h hstep
    have hinit : t.radio.initialized = true := by
      rcases hradio with ⟨_, hradio⟩ | ⟨hinit, ⟨_, hradio⟩ | ⟨_, hradio⟩⟩
      · rw [hradio]
        rfl
      · simp [hradio, hinit]
      · simp [hradio, hinit]
    constructor
    · rw [hctx]
      exact h.mode.standbyCtx
    · rw [hinit, hctx]
      rfl
    · exact fun _ => hhost
    · exact fun _ => hinit
    · intro _
      refine Or.inl ⟨by rw [hctx]; rfl, ?_⟩
      rw [hctx]
      simp [standbyCtx, h.mode.mode]
  | enterActive stopped =>
    cases hstep
    rw [enterActive_eq]
    have hinit : (if s.ctx.peripheralState.bleEnabled = true then
        (s.radio.setMaxTxPower maxTxPower).setPs .none
        else s.radio.setMaxTxPower maxTxPower).initialized = s.radio.initialized := by
      split <;> simp
    have hstarted : (if s.ctx.peripheralState.bleEnabled = true then
        (s.radio.setMaxTxPower maxTxPower).setPs .none
        else s.radio.setMaxTxPower maxTxPower).started = s.radio.started := by
      split <;> simp
    constructor
    · exact h.mode.activeCtx
    · exact hinit.trans h.wifi
    · nofun
    · intro hrunning
      exact hinit.trans (h.started (hstarted.symm.trans hrunning))
    · exact fun _ => Or.inr rfl
  | enterPowerSave stopped =>
    cases hstep
    obtain ⟨hinit, hstarted, hctx⟩ := enterPowerSave_uninitialized h stopped
    constructor
    · rw [hctx]
      exact h.mode.powerSaveCtx
    · rw [hinit, hctx]
      rfl
    · rw [hctx]
      nofun
    · rw [hstarted]
      nofun
    · rw [hinit]
      nofun
  | wifiStop =>
    cases hstep
    exact ⟨h.mode, h.wifi, h.ble, nofun, h.state⟩
  | wifiStart =>
    simp only [step] at hstep
    split at hstep
    · next hinit =>
      cases hstep
      exact ⟨h.mode, h.wifi, h.ble, fun _ => hinit, h.state⟩
    · cases hstep

/-- While Wi-Fi has not been started since `esp_wifi_init`, no power that an
entry asks for arrives. -/
structure NeverStarted (driver : Defaults) (s : Device) : Prop where
  stopped : s.radio.started = false
  power : s.radio.initialized = true → s.radio.maxTxPower = driver.maxTxPower

theorem step_neverStarted {a : Label} (htracked : Tracked s) (h : NeverStarted driver s)
    (ha : a ≠ .wifiStart) (hstep : step driver s a = some t) : NeverStarted driver t := by
  obtain ⟨hstopped, hpower⟩ := h
  cases a with
  | enterStandby stopped =>
    obtain ⟨_, _, hradio⟩ := enterStandby_cases htracked hstep
    rcases hradio with ⟨_, hradio⟩ | ⟨hinit, ⟨_, hradio⟩ | ⟨_, hradio⟩⟩
    · constructor
      · rw [hradio]
        rfl
      · intro _
        rw [hradio]
        rfl
    · rw [Radio.setMaxTxPower_stopped (by simpa using hstopped)] at hradio
      exact ⟨by simpa [hradio] using hstopped, fun _ => by simpa [hradio] using hpower hinit⟩
    · rw [Radio.setMaxTxPower_stopped hstopped] at hradio
      exact ⟨by rwa [hradio], fun _ => by rw [hradio, hpower hinit]⟩
  | enterActive stopped =>
    cases hstep
    rw [enterActive_eq, Radio.setMaxTxPower_stopped hstopped]
    constructor
    · dsimp only
      split <;> simpa using hstopped
    · dsimp only
      split <;> simpa using hpower
  | enterPowerSave stopped =>
    cases hstep
    obtain ⟨hinit, hstarted, _⟩ := enterPowerSave_uninitialized htracked stopped
    exact ⟨hstarted, by rw [hinit]; nofun⟩
  | wifiStop =>
    cases hstep
    exact ⟨rfl, hpower⟩
  | wifiStart => exact absurd rfl ha

/-- The first start finds the power that the driver has by itself. -/
theorem start_not_suits (hdefault : driver.maxTxPower ≠ normalTxPower ∧
      driver.maxTxPower ≠ maxTxPower) (htracked : Tracked s) (h : NeverStarted driver s)
    (hstep : step driver s .wifiStart = some t) : ¬ SuitsWhenStarted t := by
  simp only [step] at hstep
  split at hstep
  · next hinit =>
    cases hstep
    intro hsuits
    obtain ⟨hactive, hstandby⟩ := hsuits rfl
    rcases htracked.state hinit with ⟨hstate, hble⟩ | hstate
    · apply hdefault.1
      rw [← h.power hinit]
      exact (hstandby hstate (htracked.ble hble)).2
    · apply hdefault.2
      rw [← h.power hinit]
      exact (hactive hstate).2.2
  · cases hstep

end Steps

theorem boot_tracked (driver : Defaults) {c : PowerMgmtCtx} (h : c = .zero ∨ Booted c) :
    Tracked (boot driver c) := by
  have hbooted : Booted (powerMgmtInit c) := by
    rcases h with rfl | h
    · exact Booted.powerMgmtInit_zero
    · exact h.powerMgmtInit
  have hflags := powerMgmtInit_peripheralState c
  refine ⟨hbooted, ?_, ?_, nofun, nofun⟩
  · simp only [boot, hflags]
    rfl
  · simp only [boot, hflags]
    nofun

section Runs

variable {driver : Defaults}

theorem along_iff_not_mem {s t : Device} {run : List Label}
    (hrun : (machine driver).exec s run = some t) :
    (machine driver).Along (fun _ a => a ≠ .wifiStart) s run ↔ .wifiStart ∉ run := by
  induction run generalizing s with
  | nil => simp
  | cons a rest ih =>
    obtain ⟨u, hu, hrest⟩ := Machine.exec_cons_eq_some hrun
    rw [Machine.along_cons_of_step hu, ih hrest, List.mem_cons, not_or, ne_comm]

/-- The driver's own power is neither of the two that the entries ask for. Then
the radio suits the power state throughout exactly the runs in which Wi-Fi is
never started. -/
theorem suits_iff_never_started
    (hdefault : driver.maxTxPower ≠ normalTxPower ∧ driver.maxTxPower ≠ maxTxPower)
    {s t : Device} (h : (machine driver).Init s) {run : List Label}
    (hrun : (machine driver).exec s run = some t) :
    (machine driver).Throughout SuitsWhenStarted s run ↔ .wifiStart ∉ run := by
  obtain ⟨c, hc, rfl⟩ := h
  rw [← along_iff_not_mem hrun]
  refine Machine.throughout_iff_along (J := Tracked) (I := NeverStarted driver)
    ?_ ?_ ?_ ?_ (boot_tracked driver hc) ⟨rfl, nofun⟩ hrun
  · intro s a t htracked hstep
    exact step_tracked htracked hstep
  · intro s a t htracked hnever ha hstep
    exact step_neverStarted htracked hnever ha hstep
  · intro s a t htracked hnever ha hstep
    obtain rfl : a = .wifiStart := not_not.mp ha
    exact start_not_suits hdefault htracked hnever hstep
  · intro s _ hnever hstarted
    rw [hnever.stopped] at hstarted
    cases hstarted

end Runs

/-- `esp_wifi_init` as documented: modem sleep at its minimum, 20 dBm. -/
def espIdf : Defaults := ⟨.minModem, 80⟩

theorem suits_standby_active :
    (machine espIdf).Throughout SuitsWhenStarted (boot espIdf .zero)
      [.enterStandby true, .enterActive true, .enterPowerSave true] := by
  obtain ⟨t, hrun⟩ : ∃ t, (machine espIdf).exec (boot espIdf .zero)
      [.enterStandby true, .enterActive true, .enterPowerSave true] = some t := ⟨_, rfl⟩
  exact (suits_iff_never_started ⟨by decide, by decide⟩ ⟨.zero, Or.inl rfl, rfl⟩ hrun).mpr
    (by decide)

/-- The first standby after a boot asks for its settings too early. -/
theorem first_standby_not_suits :
    ¬ ∀ s, (machine espIdf).Reach Machine.anyStep s → SuitsWhenStarted s := by
  intro h
  obtain ⟨s, hrun, hstarted, hstate, hhost, hps⟩ : ∃ s,
      (machine espIdf).exec (boot espIdf .zero) [.enterStandby true, .wifiStart] = some s ∧
        s.radio.started = true ∧ s.ctx.state = .standby ∧ s.bleHost = true ∧
          s.radio.ps = .minModem := ⟨_, rfl, rfl, rfl, rfl, rfl⟩
  have hreach : (machine espIdf).Reach Machine.anyStep s :=
    Machine.reach_of_exec ⟨.zero, Or.inl rfl, rfl⟩ (Machine.along_anyStep _ _) hrun
  have hwrong := ((h s hreach hstarted).standby hstate hhost).1
  rw [hps] at hwrong
  cases hwrong

/-! ### Entries while Wi-Fi is started -/

section Started

variable {driver : Defaults} {s t : Device}

/-- An entry that stops the host sets everything, another keeps what suits. -/
theorem enterActive_suits (htracked : Tracked s) (hstarted : s.radio.started = true)
    (h : s.ctx.peripheralState.bleEnabled = true ∨ Suits s) :
    Suits (powerMgmtOnEnterActive s true) := by
  have hinit := htracked.started hstarted
  rw [enterActive_eq]
  refine ⟨fun _ => ?_, nofun⟩
  by_cases hflag : s.ctx.peripheralState.bleEnabled = true
  · simp only [if_pos hflag]
    refine ⟨by simp, Radio.setPs_running (by simpa using hinit) _, ?_⟩
    rw [Radio.setPs_maxTxPower]
    exact Radio.setMaxTxPower_running hstarted maxTxPower
  · have hstate : s.ctx.state = .active := by
      rcases htracked.state hinit with ⟨_, hble⟩ | hstate
      · exact absurd hble hflag
      · exact hstate
    obtain ⟨hhost, hps, _⟩ := (h.resolve_left hflag).active hstate
    simp only [if_neg hflag]
    exact ⟨hhost, by simpa using hps, Radio.setMaxTxPower_running hstarted maxTxPower⟩

theorem enterStandby_suits (htracked : Tracked s) (hstarted : s.radio.started = true)
    (h : s.ctx.peripheralState.bleEnabled = false ∨ Suits s) {stopped : Bool}
    (hstep : powerMgmtOnEnterStandby driver s stopped = some t) : Suits t := by
  have hinit := htracked.started hstarted
  obtain ⟨_, hctx, hradio⟩ := enterStandby_cases htracked hstep
  have hstandby : t.ctx.state = .standby := by
    rw [hctx]
    rfl
  refine ⟨fun hactive => ?_, fun _ _ => ?_⟩
  · rw [hstandby] at hactive
    cases hactive
  · rcases hradio with ⟨hnone, _⟩ | ⟨_, ⟨_, hradio⟩ | ⟨hble, hradio⟩⟩
    · rw [hinit] at hnone
      cases hnone
    · rw [hradio, Radio.setMaxTxPower_ps]
      exact ⟨Radio.setPs_running hinit _, Radio.setMaxTxPower_running (by simpa using hstarted) _⟩
    · have hsuits : Suits s := h.resolve_left (by simp [hble])
      have hhost := htracked.ble hble
      have hstate : s.ctx.state = .standby := by
        rcases htracked.state hinit with ⟨hstate, _⟩ | hstate
        · exact hstate
        · rw [(hsuits.active hstate).1] at hhost
          cases hhost
      rw [hradio, Radio.setMaxTxPower_ps]
      exact ⟨(hsuits.standby hstate hhost).1, Radio.setMaxTxPower_running hstarted _⟩

/-- Entries come while Wi-Fi is started, and the host stops when it is told to. -/
def EntersStarted (s : Device) : Label → Prop
  | .enterStandby _ => s.radio.started = true
  | .enterActive stopped => s.radio.started = true ∧ stopped = true
  | .enterPowerSave _ => False
  | .wifiStop | .wifiStart => True

instance (s : Device) : DecidablePred (EntersStarted s)
  | .enterStandby _ => inferInstanceAs (Decidable (_ = _))
  | .enterActive _ => inferInstanceAs (Decidable (_ ∧ _))
  | .enterPowerSave _ => inferInstanceAs (Decidable False)
  | .wifiStop | .wifiStart => inferInstanceAs (Decidable True)

/-- A radio that suits goes on to do so, through reconnects and further entries. -/
theorem suits_exec (htracked : Tracked s) (h : Suits s) {run : List Label}
    (hok : (machine driver).Along EntersStarted s run)
    (hrun : (machine driver).exec s run = some t) : Suits t := by
  induction run generalizing s with
  | nil =>
    cases Option.some.inj hrun
    exact h
  | cons a rest ih =>
    obtain ⟨u, hu, hrest⟩ := Machine.exec_cons_eq_some hrun
    obtain ⟨ha, halong⟩ := (Machine.along_cons_of_step hu rest).mp hok
    refine ih (step_tracked htracked hu) ?_ halong hrest
    cases a with
    | enterStandby stopped => exact enterStandby_suits htracked ha (Or.inr h) hu
    | enterActive stopped =>
      obtain ⟨hstarted, rfl⟩ := ha
      cases hu
      exact enterActive_suits htracked hstarted (Or.inr h)
    | enterPowerSave stopped => exact ha.elim
    | wifiStop =>
      cases hu
      exact ⟨h.active, h.standby⟩
    | wifiStart =>
      simp only [machine, step] at hu
      split at hu
      · cases hu
        exact ⟨h.active, h.standby⟩
      · cases hu

theorem exec_tracked (h : Tracked s) {run : List Label}
    (hrun : (machine driver).exec s run = some t) : Tracked t := by
  induction run generalizing s with
  | nil =>
    cases Option.some.inj hrun
    exact h
  | cons a rest ih =>
    obtain ⟨u, hu, hrest⟩ := Machine.exec_cons_eq_some hrun
    have hnext : step driver s a = some u := hu
    exact ih (step_tracked h hnext) hrest

/-- From the first entry to the active state that finds Wi-Fi started, the radio suits. -/
theorem suits_exec_active (htracked : Tracked s) (hstarted : s.radio.started = true)
    (hble : s.ctx.peripheralState.bleEnabled = true) {run : List Label}
    (hok : (machine driver).Along EntersStarted s (.enterActive true :: run))
    (hrun : (machine driver).exec s (.enterActive true :: run) = some t) : Suits t := by
  obtain ⟨u, hu, hrest⟩ := Machine.exec_cons_eq_some hrun
  have halong := ((Machine.along_cons_of_step hu run).mp hok).2
  have htracked' : Tracked u := exec_tracked htracked (Machine.exec_cons_of_step hu [])
  cases hu
  exact suits_exec htracked' (enterActive_suits htracked hstarted (Or.inl hble)) halong hrest

/-- A reconnect, and both entries once more. -/
def laterEntries : List Label :=
  [.wifiStop, .wifiStart, .enterStandby true, .wifiStop, .wifiStart, .enterActive true]

example : ∃ t, (machine espIdf).exec (boot espIdf .zero)
      ([.enterStandby true, .wifiStart] ++ .enterActive true :: laterEntries) = some t ∧
    t.radio.started = true ∧ Suits t := by
  obtain ⟨s, hrun, hstarted, hble, hok, t, hlater, hrunning⟩ : ∃ s,
      (machine espIdf).exec (boot espIdf .zero) [.enterStandby true, .wifiStart] = some s ∧
        s.radio.started = true ∧ s.ctx.peripheralState.bleEnabled = true ∧
        (machine espIdf).Along EntersStarted s (.enterActive true :: laterEntries) ∧
        ∃ t, (machine espIdf).exec s (.enterActive true :: laterEntries) = some t ∧
          t.radio.started = true := ⟨_, rfl, rfl, rfl, by decide, _, rfl, rfl⟩
  have htracked := exec_tracked (boot_tracked espIdf (Or.inl rfl)) hrun
  exact ⟨t, Machine.exec_append hrun hlater, hrunning,
    suits_exec_active htracked hstarted hble hok hlater⟩

end Started

end MarkitNode.RadioSettings
