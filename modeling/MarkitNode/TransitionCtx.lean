import MarkitNode.Peripherals

/-!
What the three transitions write to the power-management context. Whatever the
calls they make do to the peripherals, a transition that returns has changed
the context as `standbyCtx`, `activeCtx` and `powerSaveCtx` say: the flags
follow the calls and not what becomes of them.
-/

namespace MarkitNode.TransitionCtx

open PowerMgmt CheckedProgram Peripherals

/-- A returning run of `prog` changes the context by `f`. -/
abbrev Writes (prog : Prog Unit) (f : PowerMgmtCtx → PowerMgmtCtx) : Prop :=
  Moves (fun p : Platform => p.ctx) prog f

theorem note_writes (wrong : Hardware → Bool) : Writes (note wrong) fun c => c :=
  moves_update fun _ => rfl

theorem setHw_writes (f : Hardware → Hardware) : Writes (setHw f) fun c => c :=
  moves_update fun _ => rfl

theorem check_writes (c : Call) : Writes (check c) fun c => c :=
  moves_errorCheck fun (o : Outcomes) _ => o c

theorem failIf_writes (inUse : Hardware → Bool) : Writes (failIf inUse) fun c => c :=
  moves_errorCheck fun _ (p : Platform) => !inUse p.hw

theorem setFlags_writes (f : PowerPeripheralState → PowerPeripheralState) :
    Writes (setFlags f) fun c => { c with peripheralState := f c.peripheralState } :=
  moves_update fun _ => rfl

theorem setState_writes (state : PowerMgmtState) :
    Writes (update fun p => { p with ctx := { p.ctx with state := state } })
      fun c => { c with state := state } :=
  moves_update fun _ => rfl

theorem ifOutcome_writes (good : Outcomes → Bool) {prog : Prog Unit}
    (h : Writes prog fun c => c) : Writes (ifOutcome good prog) fun c => c := by
  intro o p _ t hrun
  cases hgood : good o with
  | false =>
    simp only [ifOutcome, hgood, Bool.false_eq_true, if_false] at hrun
    cases hrun
    rfl
  | true =>
    simp only [ifOutcome, hgood, if_true] at hrun
    exact h hrun

/-- A guarded step whose effect shows already where the guard holds. -/
theorem unlessFlag_writes {flag : PowerPeripheralState → Bool} {prog : Prog Unit}
    {f : PowerMgmtCtx → PowerMgmtCtx} (h : Writes prog f)
    (hflag : ∀ c, flag c.peripheralState = true → f c = c) : Writes (unlessFlag flag prog) f := by
  intro o p _ t hrun
  cases hset : flag p.ctx.peripheralState with
  | true =>
    simp only [unlessFlag, hset, if_true] at hrun
    cases hrun
    exact (hflag _ hset).symm
  | false =>
    simp only [unlessFlag, hset, Bool.false_eq_true, if_false] at hrun
    exact h hrun

theorem flagged_writes {prog : Prog Unit} (flag : PowerPeripheralState → Bool)
    (f : PowerPeripheralState → PowerPeripheralState) (h : Writes prog fun c => c)
    (hflag : ∀ s, flag s = true → f s = s) :
    Writes (unlessFlag flag (prog >>= fun _ => setFlags f))
      fun c => { c with peripheralState := f c.peripheralState } := by
  refine unlessFlag_writes (moves_then h fun _ => setFlags_writes f) fun c hset => ?_
  rw [hflag _ hset]

theorem batteryMspInit_writes : Writes batteryMspInit fun c => c := by
  refine moves_then (note_writes _) fun _ => moves_then (failIf_writes _) fun _ => ?_
  refine moves_then (check_writes _) fun _ => moves_then (setHw_writes _) fun _ => ?_
  refine moves_then (check_writes _) fun _ => moves_then (moves_outcome _) fun _ => ?_
  exact moves_then (check_writes _) fun _ => ifOutcome_writes _ (check_writes _)

theorem sysInitButtons_writes : Writes sysInitButtons fun c => c :=
  moves_then (note_writes _) fun _ => setHw_writes _

theorem blinkMspInit_writes : Writes blinkMspInit fun c => c :=
  moves_then (note_writes _) fun _ => moves_then (check_writes _) fun _ => setHw_writes _

theorem imuInterfaceInit_writes (sensor : ImuSensor) :
    Writes (imuInterfaceInit sensor) fun c => c := by
  cases sensor with
  | hi229 =>
    refine moves_then (note_writes _) fun _ => moves_then (check_writes _) fun _ => ?_
    refine moves_then (check_writes _) fun _ => moves_then (check_writes _) fun _ => ?_
    exact setHw_writes _
  | bno08x =>
    refine moves_then (note_writes _) fun _ => moves_then (check_writes _) fun _ => ?_
    exact moves_then (moves_outcome _) fun _ => setHw_writes _

theorem imuEnable_writes (sensor : ImuSensor) : Writes (imuEnable sensor) fun c => c := by
  cases sensor with
  | hi229 => exact setHw_writes fun hw => { hw with imuEnabled := true }
  | bno08x => exact moves_then (moves_outcome _) fun _ => setHw_writes _

theorem sysWifiMspInit_writes : Writes sysWifiMspInit fun c => c := by
  refine moves_then (note_writes _) fun _ => moves_then (check_writes _) fun _ => ?_
  refine moves_then (setHw_writes _) fun _ => moves_then (check_writes _) fun _ => ?_
  exact moves_then (check_writes _) fun _ => check_writes _

theorem sysWifiMspDeinit_writes : Writes sysWifiMspDeinit fun c => c := by
  refine moves_then (note_writes _) fun _ => moves_then (check_writes _) fun _ => ?_
  refine moves_then (check_writes _) fun _ => moves_then (check_writes _) fun _ => ?_
  exact moves_then (check_writes _) fun _ => setHw_writes _

theorem restControllerStart_writes : Writes restControllerStart fun c => c :=
  moves_then (note_writes _) fun _ => ifOutcome_writes _ (setHw_writes _)

theorem restControllerStop_writes : Writes restControllerStop fun c => c :=
  moves_then (note_writes _) fun _ => ifOutcome_writes _ (setHw_writes _)

theorem blehrStartSrv_writes : Writes blehrStartSrv fun c =>
    { c with peripheralState := { c.peripheralState with bleEnabled := true } } := by
  refine moves_then (note_writes _) fun _ => moves_then (failIf_writes _) fun _ => ?_
  refine moves_then (check_writes _) fun _ => moves_then (setHw_writes _) fun _ => ?_
  refine moves_then (check_writes _) fun _ => moves_then (setHw_writes _) fun _ => ?_
  exact setFlags_writes _

theorem blehrStopSrv_writes : Writes blehrStopSrv fun c =>
    { c with peripheralState := { c.peripheralState with bleEnabled := false } } := by
  refine moves_then (note_writes _) fun _ => moves_then (ifOutcome_writes _ ?_) fun _ => ?_
  · exact moves_then (setHw_writes _) fun _ => ifOutcome_writes _ (setHw_writes _)
  · exact setFlags_writes _

theorem standbyImu_writes (sensor : ImuSensor) : Writes (standbyImu sensor) fun c =>
    { c with peripheralState := { c.peripheralState with imuInitialized := true } } := by
  intro o p _ t hrun
  unfold standbyImu at hrun
  split_ifs at hrun with hinit henabled
  · cases hrun
    rw [← hinit]
  · rw [imuEnable_writes sensor hrun, ← hinit]
  · exact moves_then (imuInterfaceInit_writes sensor) (fun _ => setFlags_writes _) hrun

theorem standbyBle_writes : Writes standbyBle fun c =>
    { c with peripheralState := { c.peripheralState with bleEnabled := c.mode ≠ .lowEnergy } } := by
  intro o p _ t hrun
  unfold standbyBle at hrun
  split_ifs at hrun with hstart hlow
  · simp [blehrStartSrv_writes hrun, hstart.2]
  · simp [blehrStopSrv_writes hrun, hlow]
  · cases hrun
    have hble : p.ctx.peripheralState.bleEnabled = true := by
      simpa [hlow] using hstart
    simp [hlow, ← hble]

theorem standbyPeripherals_writes (sensor : ImuSensor) : Writes (standbyPeripherals sensor)
    fun c => { c with peripheralState := (standbyCtx c).peripheralState } := by
  have hbuttons := flagged_writes (fun f => f.buttonInitialized)
    (fun s => { s with buttonInitialized := true }) sysInitButtons_writes fun s h => by
      rw [← h]
  have hled := flagged_writes (fun f => f.ledInitialized)
    (fun s => { s with ledInitialized := true }) blinkMspInit_writes fun s h => by rw [← h]
  have hwifi := flagged_writes (fun f => f.wifiInitialized)
    (fun s => { s with wifiInitialized := true }) sysWifiMspInit_writes fun s h => by
      rw [← h]
  have hcontroller := flagged_writes (fun f => f.controllerInitialized)
    (fun s => { s with controllerInitialized := true }) restControllerStart_writes
      fun s h => by rw [← h]
  exact moves_bind hbuttons fun _ => moves_bind hled fun _ =>
    moves_bind (standbyImu_writes sensor) fun _ => moves_bind standbyBle_writes fun _ =>
      moves_bind hwifi fun _ => hcontroller

theorem powerMgmtOnEnterStandby_writes (sensor : ImuSensor) :
    Writes (powerMgmtOnEnterStandby sensor) standbyCtx := by
  have hall := moves_bind (standbyPeripherals_writes sensor) fun _ =>
    moves_then batteryMspInit_writes fun _ => setState_writes .standby
  exact hall

theorem ifBle_writes : Writes (ifFlag (fun f => f.bleEnabled) blehrStopSrv) fun c =>
    { c with peripheralState := { c.peripheralState with bleEnabled := false } } := by
  refine unlessFlag_writes blehrStopSrv_writes fun c h => ?_
  rw [← (Bool.not_eq_true' _).mp h]

theorem powerMgmtOnEnterActive_writes : Writes powerMgmtOnEnterActive activeCtx := by
  have hall := moves_bind ifBle_writes fun _ => setState_writes .active
  exact hall

theorem powerMgmtOnEnterPowerSave_writes : Writes powerMgmtOnEnterPowerSave powerSaveCtx := by
  have hwifi := flagged_writes (fun f => !f.wifiInitialized)
    (fun s => { s with wifiInitialized := false }) sysWifiMspDeinit_writes fun s h => by
      rw [← (Bool.not_eq_true' _).mp h]
  have hcontroller := flagged_writes (fun f => !f.controllerInitialized)
    (fun s => { s with controllerInitialized := false }) restControllerStop_writes
      fun s h => by rw [← (Bool.not_eq_true' _).mp h]
  have hall := moves_bind ifBle_writes fun _ => moves_bind hwifi fun _ =>
    moves_bind hcontroller fun _ => setState_writes .save
  exact hall

end MarkitNode.TransitionCtx
