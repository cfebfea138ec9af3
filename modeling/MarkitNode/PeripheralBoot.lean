import MarkitNode.Peripherals

/-!
Boot and the one-shot resources. `sys_init_chip` claims the ADC unit and the
first standby claims it again, so that a boot either aborts on an earlier
check or brings a resource up twice and aborts there.
-/

namespace MarkitNode.PeripheralBoot

open PowerMgmt CheckedProgram Peripherals

section Specs

variable {o : Outcomes} {p : Platform}

/-- No resource has been misused so far. -/
def Clean (p : Platform) : Prop := p.misused = false

theorem note_clean {wrong : Hardware → Bool} (h : wrong p.hw = false) :
    note wrong o p = .ok () p := by
  simp only [note, update, h, Bool.or_false]

theorem failIf_free {inUse : Hardware → Bool} (h : inUse p.hw = false) :
    failIf inUse o p = .ok () p := by
  simp only [failIf, errorCheck, h, Bool.not_false, if_true]

theorem check_meets (c : Call) (hclean : Clean p) :
    Meets (check c) o p (o c = true) (fun _ t => t = p) Clean := by
  have hcheck : Meets (errorCheck (o c)) o p (o c = true) (fun _ t => t = p) Clean :=
    meets_errorCheck (o c) hclean
  exact hcheck

theorem checkIf_meets (b : Bool) (c : Call) (hclean : Clean p) :
    Meets (ifOutcome (fun _ => b) (check c)) o p (b = true → o c = true) (fun _ t => t = p)
      Clean := by
  cases b with
  | false => exact meets_congr (meets_ok rfl rfl) (by simp)
  | true => exact meets_congr (check_meets c hclean) (by simp)

def BatteryChecks (o : Outcomes) : Prop :=
  o .adcNewUnit = true ∧ o .adcConfigChannel = true ∧ o .adcRead = true ∧
    (o .adcCaliCreateScheme = true → o .adcCaliRawToVoltage = true)

theorem batteryMspInit_meets (hfree : p.hw.adcUnit = false) (hclean : Clean p) :
    Meets batteryMspInit o p (BatteryChecks o)
      (fun _ t => t = { p with hw := { p.hw with adcUnit := true } }) Clean := by
  unfold BatteryChecks
  refine meets_after (note_clean hfree) ?_
  refine meets_after (failIf_free hfree) ?_
  refine meets_checked (check_meets _ hclean) ?_
  refine meets_after rfl ?_
  refine meets_checked (check_meets _ hclean) ?_
  refine meets_after rfl ?_
  refine meets_checked (check_meets _ hclean) ?_
  exact checkIf_meets _ _ hclean

theorem blinkMspInit_meets (hfree : p.hw.ledTimer = false) (hclean : Clean p) :
    Meets blinkMspInit o p (o .timerCreate = true)
      (fun _ t => t = { p with hw := { p.hw with ledTimer := true } }) Clean := by
  refine meets_after (note_clean hfree) ?_
  exact meets_checked_last (check_meets _ hclean) rfl rfl

/-- The checked calls of `imu_interface_init`. -/
def ImuChecks (o : Outcomes) : ImuSensor → Prop
  | .hi229 => o .uartDriverInstall = true ∧ o .uartParamConfig = true ∧ o .uartSetPin = true
  | .bno08x => o .gpioIsrHandlerAdd = true

theorem imuInterfaceInit_meets (sensor : ImuSensor) (hfree : p.hw.imu = false)
    (hclean : Clean p) :
    Meets (imuInterfaceInit sensor) o p (ImuChecks o sensor)
      (fun _ t => ∃ enabled, t = { p with hw := { p.hw with imu := true, imuEnabled := enabled } })
      Clean := by
  cases sensor with
  | hi229 =>
    refine meets_after (note_clean hfree) ?_
    refine meets_checked (check_meets _ hclean) (meets_checked (check_meets _ hclean) ?_)
    exact meets_checked_last (check_meets _ hclean) rfl ⟨true, rfl⟩
  | bno08x =>
    refine meets_after (note_clean hfree) ?_
    exact meets_checked_last (check_meets _ hclean) rfl ⟨o .imuConfig, rfl⟩

theorem blehrStartSrv_meets (hfree : p.hw.blePort = false) (hclean : Clean p) :
    Meets blehrStartSrv o p (o .nimblePortInit = true ∧ o .gattSvrInit = true)
      (fun _ t => t =
        { p with
          hw := { p.hw with blePort := true, bleHost := true }
          ctx := { p.ctx with
            peripheralState := { p.ctx.peripheralState with bleEnabled := true } } }) Clean := by
  refine meets_after (note_clean hfree) (meets_after (failIf_free hfree) ?_)
  refine meets_checked (check_meets _ hclean) (meets_after rfl ?_)
  exact meets_checked_last (check_meets _ hclean) rfl rfl

theorem sysWifiMspInit_meets (hfree : p.hw.wifiDriver = false) (hclean : Clean p) :
    Meets sysWifiMspInit o p (o .wifiInit = true ∧ o .wifiHandlerRegister = true ∧
        o .ipHandlerRegister = true ∧ o .wifiSetMode = true)
      (fun _ t => t = { p with hw := { p.hw with wifiDriver := true } }) Clean := by
  refine meets_after (note_clean hfree) ?_
  refine meets_checked (check_meets _ hclean) (meets_after rfl ?_)
  refine meets_checked (check_meets _ hclean) (meets_checked (check_meets _ hclean) ?_)
  exact check_meets _ hclean

theorem restControllerStart_ok (hfree : p.hw.httpServer = false) :
    ∃ up, restControllerStart o p = .ok () { p with hw := { p.hw with httpServer := up } } := by
  rw [restControllerStart, bind_ok (note_clean hfree)]
  cases hstart : (o .restContextAlloc && o .httpdStart) with
  | false =>
    exact ⟨p.hw.httpServer, by simp only [ifOutcome, hstart, Bool.false_eq_true, if_false]⟩
  | true =>
    exact ⟨true, by simp only [ifOutcome, hstart, if_true, setHw, update]⟩

/-- The flag that follows a call that has brought its peripheral up. -/
theorem meets_setFlags {prog : Prog Unit} {f : PowerPeripheralState → PowerPeripheralState}
    {checks : Prop} {post : Unit → Platform → Prop} (h : Meets prog o p checks post Clean) :
    Meets (prog >>= fun _ => setFlags f) o p checks
      (fun _ u => ∃ t, post () t ∧
        u = { t with ctx := { t.ctx with peripheralState := f t.ctx.peripheralState } }) Clean := by
  exact meets_bind_ok h fun _ t ht => ⟨(), _, rfl, t, ht, rfl⟩

theorem meets_unlessFlag {flag : PowerPeripheralState → Bool} {prog : Prog Unit} {checks : Prop}
    {post : Unit → Platform → Prop} (hflag : flag p.ctx.peripheralState = false)
    (h : Meets prog o p checks post Clean) :
    Meets (unlessFlag flag prog) o p checks post Clean := by
  simpa only [Meets, unlessFlag, hflag, Bool.false_eq_true, if_false] using h

theorem controller_ok {f : PowerPeripheralState → PowerPeripheralState}
    (hflag : p.ctx.peripheralState.controllerInitialized = false)
    (hfree : p.hw.httpServer = false) :
    ∃ b u, (unlessFlag (fun f => f.controllerInitialized) do
        restControllerStart
        setFlags f) o p = .ok b u ∧ u.hw.adcUnit = p.hw.adcUnit ∧ u.misused = p.misused := by
  obtain ⟨up, hstart⟩ := restControllerStart_ok (o := o) hfree
  simp only [unlessFlag, hflag, Bool.false_eq_true, if_false]
  rw [bind_ok hstart]
  exact ⟨(), _, rfl, rfl, rfl⟩

/-- Measuring the battery again while the unit is still claimed. -/
theorem batteryMspInit_busy (hbusy : p.hw.adcUnit = true) :
    batteryMspInit o p = .error () { p with misused := true } := by
  have hnote : note (fun hw => hw.adcUnit) o p = .ok () { p with misused := true } := by
    simp only [note, update, hbusy, Bool.or_true]
  rw [batteryMspInit, bind_ok hnote]
  refine bind_error ?_
  simp only [failIf, errorCheck, hbusy, Bool.not_true, Bool.false_eq_true, if_false]

end Specs

/-- The chip once `sys_init_chip` has succeeded. -/
def chipReady : Platform := { Platform.off with hw := { Platform.off.hw with adcUnit := true } }

/-- The chip once `power_mgmt_init` has been called as well. -/
def initialised : Platform := { chipReady with ctx := powerMgmtInit .zero }

def StandbyChecks (sensor : ImuSensor) (o : Outcomes) : Prop :=
  o .timerCreate = true ∧ ImuChecks o sensor ∧ (o .nimblePortInit = true ∧ o .gattSvrInit = true) ∧
    o .wifiInit = true ∧ o .wifiHandlerRegister = true ∧ o .ipHandlerRegister = true ∧
    o .wifiSetMode = true

theorem standbyPeripherals_meets (sensor : ImuSensor) (o : Outcomes) :
    Meets (standbyPeripherals sensor) o initialised (StandbyChecks sensor o)
      (fun _ t => t.hw.adcUnit = true ∧ Clean t) Clean := by
  unfold StandbyChecks
  refine meets_after (a := ()) rfl ?_
  refine meets_bind (meets_unlessFlag rfl (meets_setFlags (blinkMspInit_meets rfl rfl))) ?_
  rintro _ _ ⟨t, rfl, rfl⟩
  refine meets_bind (meets_setFlags (imuInterfaceInit_meets sensor rfl rfl)) ?_
  rintro _ _ ⟨t, ⟨enabled, rfl⟩, rfl⟩
  refine meets_bind (blehrStartSrv_meets rfl rfl) ?_
  rintro _ t rfl
  refine meets_bind_ok (meets_unlessFlag rfl (meets_setFlags (sysWifiMspInit_meets rfl rfl))) ?_
  rintro _ _ ⟨t, rfl, rfl⟩
  exact controller_ok rfl rfl

theorem sysInitChip_meets (o : Outcomes) :
    Meets sysInitChip o Platform.off (o .eventLoopCreateDefault = true ∧ BatteryChecks o)
      (fun _ t => t = chipReady) Clean :=
  meets_checked (check_meets _ rfl) (batteryMspInit_meets rfl rfl)

/-- A checked call fails before the first standby measures the battery. -/
def BootCallFails (sensor : ImuSensor) (outcomes : ℕ → Outcomes) : Prop :=
  outcomes 0 .eventLoopCreateDefault = false ∨ ¬ BatteryChecks (outcomes 0) ∨
    ¬ StandbyChecks sensor (outcomes 1)

theorem bootCallFails_iff (sensor : ImuSensor) (outcomes : ℕ → Outcomes) :
    BootCallFails sensor outcomes ↔
      ¬ ((outcomes 0 .eventLoopCreateDefault = true ∧ BatteryChecks (outcomes 0)) ∧
        StandbyChecks sensor (outcomes 1)) := by
  rw [BootCallFails, ← Bool.not_eq_true]
  tauto

/-- No boot gets through: it aborts on a check that fails, or in bringing the
battery measurement up a second time. -/
theorem boot_aborts (sensor : ImuSensor) (outcomes : ℕ → Outcomes) :
    ∃ t, boot sensor outcomes .off = .error () t ∧
      (t.misused = false ↔ BootCallFails sensor outcomes) := by
  have hchip := sysInitChip_meets (outcomes 0)
  have hstandby := standbyPeripherals_meets sensor (outcomes 1)
  rw [bootCallFails_iff]
  cases hrun : sysInitChip (outcomes 0) .off with
  | error _ t =>
    simp only [Meets, hrun] at hchip
    have hstage : stage 0 sysInitChip outcomes .off = .error () t := hrun
    exact ⟨t, bind_error hstage, iff_of_true hchip.2 fun h => hchip.1 h.1⟩
  | ok _ t =>
    simp only [Meets, hrun] at hchip
    obtain ⟨hchecks, rfl⟩ := hchip
    have hboot : boot sensor outcomes .off =
        powerMgmtOnEnterStandby sensor (outcomes 1) initialised := by
      have hstage : stage 0 sysInitChip outcomes .off = .ok () chipReady := hrun
      exact bind_ok hstage
    rw [hboot]
    cases hrest : standbyPeripherals sensor (outcomes 1) initialised with
    | error _ u =>
      simp only [Meets, hrest] at hstandby
      exact ⟨u, bind_error hrest, iff_of_true hstandby.2 fun h => hstandby.1 h.2⟩
    | ok _ u =>
      simp only [Meets, hrest] at hstandby
      have hbusy := batteryMspInit_busy (o := outcomes 1) hstandby.2.1
      refine ⟨{ u with misused := true }, (bind_ok hrest).trans (bind_error hbusy), ?_⟩
      exact iff_of_false (by simp) fun h => h ⟨hchecks, hstandby.1⟩

/-- Flags and peripherals agree after the run, and no resource was misused in
it. An abort leaves no flags to speak of: the chip starts again. -/
def Faithful (sensor : ImuSensor) (outcomes : ℕ → Outcomes) (transitions : List Transition) :
    Prop :=
  match run sensor transitions outcomes .off with
  | .ok _ t => t.FlagsMatch ∧ t.misused = false
  | .error _ t => t.misused = false

theorem faithful_iff_bootCallFails (sensor : ImuSensor) (outcomes : ℕ → Outcomes)
    (transitions : List Transition) :
    Faithful sensor outcomes transitions ↔ BootCallFails sensor outcomes := by
  obtain ⟨t, hboot, hiff⟩ := boot_aborts sensor outcomes
  have hrun : run sensor transitions outcomes .off = .error () t := bind_error hboot
  simpa only [Faithful, hrun] using hiff

/-- With every call succeeding, the first standby claims the ADC unit again. -/
theorem boot_misuses_adc : ¬ Faithful .hi229 (fun _ _ => true) [] := by
  have hrun : ∃ t, run .hi229 [] (fun _ _ => true) .off = .error () t ∧ t.misused = true :=
    ⟨_, rfl, rfl⟩
  obtain ⟨t, hrun, hmisused⟩ := hrun
  simp only [Faithful, hrun, hmisused, Bool.true_eq_false, not_false_iff]

end MarkitNode.PeripheralBoot
