import MarkitNode.McuMemory
import MarkitNode.OtaUrl
import MarkitNode.ParamBuffers

/-!
The two numbers of `g_mcu` that the device divides by: the frame rate and the
baud rate of the UART. The load at boot brings both into bounds, and no handler
assigns them; but the text of a PSK that is long enough runs over both.
-/

namespace MarkitNode

namespace ConfigBounds

open BleCredentials (BleStatus newline)
open BlinkConfigure (Conf Accepts blinkConfigurePost configureMode)
open CNumber (itoa strtol)
open CString MemoryBlock McuMemory NvsVars TextMemory UrlQuery
open NvsStrings (nvsVariablePost slash)
open OtaUrl (McuLayout Upgrade foundText systemUpgradePost)

/-- The period of the timer in `app_monitor`: `1000000 / g_mcu.target_fps`. -/
def readPeriod (targetFps : Int) : Option Int :=
  if targetFps = 0 then none else some (Int.tdiv 1000000 targetFps)

/-- `hi229_get_buffer_delay`: a division of two `uint32_t`, cast to `int32_t`. -/
def hi229GetBufferDelay (baud : Int) (uartBufferLen : Nat) : Option Int :=
  let divisor := (baud % 2 ^ 32).toNat
  if divisor = 0 then none
  else some (Int.bmod (1000000 * uartBufferLen % 2 ^ 32 / divisor) (2 ^ 32))

/-! ### Requests -/

structure Node where
  nvs : Nvs
  mcu : Mcu
  /-- `config.baud` of the HI229 once that is initialised -/
  uartBaud : Option Int

/-- `sys_load_nvs_configuration` on a device that has just been reset. -/
def boot (nvs : Nvs) (stack : McuVar → GetStack) : Node :=
  ⟨nvs, loadedMcu (sysLoadNvsConfiguration nvs stack), none⟩

/-- `hi229_interface_init`, which an initialised device ignores. -/
def hi229InterfaceInit (s : Node) : Node :=
  { s with uartBaud := some (s.uartBaud.getD (imuBaud s.mcu)) }

/-- The requests that write to the flash or to the fields of `g_mcu`. -/
inductive Request
  | nvsVariable (calls : NvsCalls) (uri : List UInt8)
  | blinkConfigure (calls : NvsCalls) (uri : List UInt8) (seqStr : Vector UInt8 4)
  | systemUpgrade (uri : List UInt8)
  | wifiInfo (calls : NvsCalls) (l : FrameLayout) (stack : Block UInt8 l.size) (data : List UInt8)
      (room : Nat)

def mcuLayout : McuLayout := ⟨404, Field.otaUrl.ofs, by decide⟩

/-- What a handler leaves; `none` if it writes outside of its memory. The flags of
the LED and of the upgrade are not followed. -/
def handle (s : Node) : Request → Option Node
  | .nvsVariable calls uri =>
      (nvsVariablePost calls s.nvs uri).map fun result => { s with nvs := result.2 }
  | .blinkConfigure calls uri seqStr =>
      let conf := ⟨seq s.mcu, false, s.nvs, false, false⟩
      (blinkConfigurePost calls conf seqStr uri).map fun result =>
        { s with nvs := result.2.nvs, mcu := setSeq s.mcu result.2.seq }
  | .systemUpgrade uri =>
      (systemUpgradePost (l := mcuLayout) ⟨s.mcu, false⟩ uri).map fun result =>
        { s with mcu := result.2.mcu }
  | .wifiInfo calls _ stack data room =>
      (gattSvrChrWifiInfo calls s.mcu s.nvs data room stack).map fun result =>
        { s with mcu := result.2.1, nvs := result.2.2 }

inductive Label
  | reboot (stack : McuVar → GetStack)
  | interfaceInit
  /-- `lost` is what is left of a handler that writes outside of its memory -/
  | request (r : Request) (lost : Node)

def step (s : Node) : Label → Option Node
  | .reboot stack => some (boot s.nvs stack)
  | .interfaceInit => some (hi229InterfaceInit s)
  | .request r lost => some ((handle s r).getD lost)

def machine : Machine Node Label := ⟨fun s => ∃ nvs stack, s = boot nvs stack, step⟩

/-- The numbers are in bounds, and no division by them fails. -/
structure Bounded (s : Node) : Prop where
  targetFps : 1 ≤ targetFps s.mcu ∧ targetFps s.mcu ≤ confMaxFps
  imuBaud : 9600 ≤ imuBaud s.mcu ∧ imuBaud s.mcu ≤ 921600
  uartBaud : ∀ baud, s.uartBaud = some baud → 9600 ≤ baud ∧ baud ≤ 921600
  period : (readPeriod (McuMemory.targetFps s.mcu)).isSome
  delay : ∀ baud, s.uartBaud = some baud → ∀ len, (hi229GetBufferDelay baud len).isSome

/-- The request has texts that fit the buffers of its handler. -/
def InBuffers (s : Node) : Request → Prop
  | .nvsVariable _ uri => ∀ v tail, foundValue (ascii "value") uri = some (v, tail) →
      v.length < varStrMaxLen + 1 ∨ paramValueMaxLen < v.length
  | .blinkConfigure _ uri _ =>
      ∀ n, Accepts ⟨seq s.mcu, false, s.nvs, false, false⟩ uri n → (itoa (n.tmod 256)).length < 4
  | .systemUpgrade _ => True
  | .wifiInfo _ _ _ data room => 0 < room ∧ TokensFit data

def Fits (s : Node) : Label → Prop
  | .request r _ => InBuffers s r
  | _ => True

theorem limitFps_bounds (fps : Int) : 1 ≤ limitFps fps ∧ limitFps fps ≤ confMaxFps := by
  have hmax : confMaxFps = 400 := rfl
  have htarget : confTargetFps = 100 := rfl
  simp only [limitFps]
  by_cases hout : max fps 0 > confMaxFps ∨ max fps 0 ≤ 0
  · rw [if_pos hout]
    omega
  · rw [if_neg hout]
    omega

/-- Every number that a boot can find is brought into bounds. -/
theorem load_bounds (nvs : Nvs) (stack : McuVar → GetStack) :
    let m := sysLoadNvsConfiguration nvs stack
    (0 ≤ m.seq ∧ m.seq ≤ 255) ∧ (1 ≤ m.targetFps ∧ m.targetFps ≤ confMaxFps) ∧
      (9600 ≤ m.imuBaud ∧ m.imuBaud ≤ 921600) := by
  refine ⟨?_, ?_, ?_⟩
  · simp only [sysLoadNvsConfiguration]
    omega
  · exact limitFps_bounds _
  · simp only [sysLoadNvsConfiguration]
    omega

/-- A value that fits is terminated in its buffer, and may be stored. -/
theorem sysSetNvsVar_isSome (calls : NvsCalls) (nvs : Nvs) (v : McuVar)
    {value : Vector UInt8 (varStrMaxLen + 1)} (hend : 0 ∈ value.toList) :
    (sysSetNvsVar calls nvs v value.toList).isSome := by
  cases hv : v.type with
  | int32 =>
    rw [sysSetNvsVar_int32 calls nvs hv hend]
    rfl
  | str =>
    have hlen : varStrMaxLen ≤ value.toList.length := by
      rw [Vector.length_toList]
      exact Nat.le_succ _
    obtain ⟨b, _, hset⟩ := sysSetNvsVar_str calls nvs hv hlen
    rw [hset]
    rfl

/-- The call ends in the buffer of `nvs_variable_handler`, with an error or a text. -/
theorem parse_inBuffer {uri : List UInt8} (h : ∀ v tail,
    foundValue (ascii "value") uri = some (v, tail) →
      v.length < varStrMaxLen + 1 ∨ paramValueMaxLen < v.length) :
    ∃ result, parseUrlKvPair uri (ascii "value") (Vector.replicate (varStrMaxLen + 1) 0) =
        some result ∧
      ∀ value, result = .ok value → 0 ∈ value.toList := by
  cases hfound : foundValue (ascii "value") uri with
  | none =>
    obtain ⟨err, herr⟩ := parseUrlKvPair_missing (Vector.replicate (varStrMaxLen + 1) 0) hfound
    exact ⟨_, herr, nofun⟩
  | some found =>
    obtain ⟨v, tail⟩ := found
    rw [parseUrlKvPair_found _ hfound]
    by_cases hlong : paramValueMaxLen < v.length
    · exact ⟨.error .invalidArg, if_pos hlong, nofun⟩
    · have hsize := (h v tail hfound).resolve_right hlong
      have hcopy := copyValue_eq (Vector.replicate (varStrMaxLen + 1) 0) (v ++ tail) v.length
        (Nat.not_lt.mp hlong)
      rw [if_pos hsize] at hcopy
      obtain ⟨out, hout, htext⟩ := hcopy
      refine ⟨.ok out, hout, ?_⟩
      intro value hvalue
      obtain rfl := KvResult.ok.inj hvalue
      apply mem_of_length_text_lt
      have hdecoded := length_urlDecodeCopyn (v ++ tail) v.length
      have hcut := length_text_le (urlDecodeCopyn (v ++ tail) v.length)
      rw [htext, Vector.length_toList]
      omega

theorem nvsVariablePost_isSome (calls : NvsCalls) (nvs : Nvs) {uri : List UInt8} (h : ∀ v tail,
    foundValue (ascii "value") uri = some (v, tail) →
      v.length < varStrMaxLen + 1 ∨ paramValueMaxLen < v.length) :
    (nvsVariablePost calls nvs uri).isSome := by
  obtain ⟨result, hparse, hend⟩ := parse_inBuffer h
  unfold nvsVariablePost
  split
  · rfl
  · split
    · rfl
    · split
      · rfl
      · split
        · rfl
        · rw [hparse]
          cases result with
          | error err => rfl
          | ok value =>
            simp only
            split
            · rfl
            · rw [Option.isSome_map]
              exact sysSetNvsVar_isSome calls nvs _ (hend value rfl)

/-- The `seq` that is stored has a text of three characters at most. -/
theorem blinkConfigurePost_isSome (calls : NvsCalls) {c : Conf} {uri : List UInt8}
    (seqStr : Vector UInt8 4)
    (h : ∀ n, Accepts c uri n → (itoa (n.tmod 256)).length < 4) :
    (blinkConfigurePost calls c seqStr uri).isSome := by
  by_cases haccepts : ∃ n, Accepts c uri n
  · obtain ⟨n, hn⟩ := haccepts
    obtain ⟨c', hpost⟩ := BlinkConfigure.post_of_accepts hn calls seqStr
    have hfits : (itoa (n.tmod 256)).length + 1 ≤ 4 := h n hn
    rw [hpost, BlinkConfigure.storeSeq_eq, if_pos hfits]
    rfl
  · obtain ⟨status, c', hpost, _⟩ := BlinkConfigure.post_of_not_accepts
      (fun n hn => haccepts ⟨n, hn⟩) calls seqStr
    rw [hpost]
    rfl

theorem length_foundText_le (key uri : List UInt8) :
    (foundText key uri).length ≤ paramValueMaxLen := by
  unfold foundText
  split
  · exact Nat.zero_le _
  · rename_i v tail _
    split
    · exact Nat.zero_le _
    · have hdecoded := length_urlDecodeCopyn (v ++ tail) v.length
      have hcut := length_text_le (urlDecodeCopyn (v ++ tail) v.length)
      omega

/-- The URL of an upgrade may reach the host for the time, but no number. -/
theorem systemUpgradePost_sameRates (mcu : Mcu) (uri : List UInt8) :
    ∃ status s', systemUpgradePost (l := mcuLayout) ⟨mcu, false⟩ uri = some (status, s') ∧
      SameRates mcu s'.mcu := by
  have hlen := length_foundText_le (ascii "ota_url") uri
  have hmax : paramValueMaxLen = 128 := rfl
  have hparam := @OtaUrl.paramText_found .systemUpgrade rfl uri
  rw [KvRead.key] at hparam
  obtain ⟨mcu', hcopy⟩ : ∃ mcu', strcpy (n := mcuLayout.size) mcu mcuLayout.otaUrl
      (foundText (ascii "ota_url") uri) = some mcu' := by
    apply exists_strcpy
    simp only [mcuLayout, Field.ofs]
    omega
  by_cases hempty : 0 < (foundText (ascii "ota_url") uri).length
  · refine ⟨.ok, ⟨mcu', true⟩, ?_, strcpy_sameRates hcopy ?_⟩
    · simp only [systemUpgradePost, hparam, Option.bind_eq_bind, Option.bind_some, if_pos hempty]
      rw [hcopy]
      rfl
    · have hofs : mcuLayout.otaUrl = 192 := rfl
      omega
  · refine ⟨.emptyOtaUrl, ⟨mcu, false⟩, ?_, rfl, rfl⟩
    simp only [systemUpgradePost, hparam, Option.bind_eq_bind, Option.bind_some, if_neg hempty]
    rfl

/-- A request that fits is handled, and leaves both numbers. -/
theorem handle_sameRates {s : Node} {r : Request} (h : InBuffers s r) :
    ∃ t, handle s r = some t ∧ SameRates s.mcu t.mcu ∧ t.uartBaud = s.uartBaud := by
  cases r with
  | nvsVariable calls uri =>
    obtain ⟨result, hresult⟩ :=
      Option.isSome_iff_exists.mp (nvsVariablePost_isSome calls s.nvs h)
    rw [handle, hresult]
    exact ⟨_, rfl, ⟨rfl, rfl⟩, rfl⟩
  | blinkConfigure calls uri seqStr =>
    obtain ⟨result, hresult⟩ :=
      Option.isSome_iff_exists.mp (blinkConfigurePost_isSome calls seqStr h)
    rw [handle, hresult]
    exact ⟨_, rfl, setSeq_sameRates s.mcu _, rfl⟩
  | systemUpgrade uri =>
    obtain ⟨status, s', hpost, hrates⟩ := systemUpgradePost_sameRates s.mcu uri
    rw [handle, hpost]
    exact ⟨_, rfl, hrates, rfl⟩
  | wifiInfo calls l stack data room =>
    obtain ⟨status, mcu', nvs', hwrite, hrates⟩ :=
      write_sameRates calls s.mcu s.nvs stack h.1 h.2
    rw [handle, hwrite]
    exact ⟨_, rfl, hrates, rfl⟩

/-! ### Runs -/

/-- The bounds, from which the divisions follow. -/
structure InBounds (s : Node) : Prop where
  targetFps : 1 ≤ targetFps s.mcu ∧ targetFps s.mcu ≤ confMaxFps
  imuBaud : 9600 ≤ imuBaud s.mcu ∧ imuBaud s.mcu ≤ 921600
  uartBaud : ∀ baud, s.uartBaud = some baud → 9600 ≤ baud ∧ baud ≤ 921600

theorem boot_numbers (nvs : Nvs) (stack : McuVar → GetStack) :
    seq (boot nvs stack).mcu = (sysLoadNvsConfiguration nvs stack).seq ∧
      targetFps (boot nvs stack).mcu = (sysLoadNvsConfiguration nvs stack).targetFps ∧
      imuBaud (boot nvs stack).mcu = (sysLoadNvsConfiguration nvs stack).imuBaud := by
  obtain ⟨hseq, hfps, hbaud⟩ := load_bounds nvs stack
  have hmax : confMaxFps = 400 := rfl
  exact ⟨seq_loadedMcu (by omega) (by omega), targetFps_loadedMcu (by omega) (by omega),
    imuBaud_loadedMcu (by omega) (by omega)⟩

theorem boot_inBounds (nvs : Nvs) (stack : McuVar → GetStack) : InBounds (boot nvs stack) := by
  obtain ⟨_, hfps, hbaud⟩ := load_bounds nvs stack
  obtain ⟨_, hfpsEq, hbaudEq⟩ := boot_numbers nvs stack
  refine ⟨?_, ?_, nofun⟩
  · rw [hfpsEq]
    exact hfps
  · rw [hbaudEq]
    exact hbaud

theorem step_inBounds {s t : Node} {a : Label} (h : InBounds s) (hok : Fits s a)
    (hstep : machine.step s a = some t) : InBounds t := by
  cases a with
  | reboot stack =>
    obtain rfl := Option.some.inj hstep
    exact boot_inBounds s.nvs stack
  | interfaceInit =>
    obtain rfl := Option.some.inj hstep
    refine ⟨h.targetFps, h.imuBaud, ?_⟩
    rintro baud hbaud
    obtain rfl := Option.some.inj hbaud
    cases hs : s.uartBaud with
    | none => exact h.imuBaud
    | some old => exact h.uartBaud old hs
  | request r lost =>
    obtain ⟨u, hu, hrates, huart⟩ := handle_sameRates hok
    have htu : (handle s r).getD lost = t := Option.some.inj hstep
    rw [hu, Option.getD_some] at htu
    rw [← htu]
    refine ⟨?_, ?_, ?_⟩
    · rw [hrates.2]
      exact h.targetFps
    · rw [hrates.1]
      exact h.imuBaud
    · rw [huart]
      exact h.uartBaud

theorem InBounds.bounded {s : Node} (h : InBounds s) : Bounded s := by
  refine ⟨h.targetFps, h.imuBaud, h.uartBaud, ?_, ?_⟩
  · have hfps := h.targetFps.1
    rw [readPeriod, if_neg (by omega)]
    rfl
  · intro baud hbaud len
    have hbounds := h.uartBaud baud hbaud
    simp only [hi229GetBufferDelay]
    rw [if_neg (by omega)]
    rfl

/-- The load brings all numbers into bounds, and the requests that fit their
buffers keep those that are divided by. -/
theorem config_bounded (nvs : Nvs) (stack : McuVar → GetStack) {run : List Label} {t : Node}
    (hok : machine.Along Fits (boot nvs stack) run)
    (hrun : machine.exec (boot nvs stack) run = some t) :
    (0 ≤ seq (boot nvs stack).mcu ∧ seq (boot nvs stack).mcu ≤ 255) ∧
      Bounded (boot nvs stack) ∧ Bounded t := by
  refine ⟨?_, (boot_inBounds nvs stack).bounded, ?_⟩
  · rw [(boot_numbers nvs stack).1]
    exact (load_bounds nvs stack).1
  · have hreach : machine.Reach Fits t := Machine.reach_of_exec ⟨nvs, stack, rfl⟩ hok hrun
    have hbounds : InBounds t := by
      refine Machine.Reach.invariant ?_ (fun s a t hs hok hstep => step_inBounds hs hok hstep)
        hreach
      rintro s ⟨nvs, stack, rfl⟩
      exact boot_inBounds nvs stack
    exact hbounds.bounded

/-- The first boot, with zeros in the locals it has not set. -/
def firstBoot : Node := boot .erased fun _ => ⟨0, 0⟩

/-- The two arrays, and the stack behind them. -/
def frame : FrameLayout := ⟨512, 0, 64, by decide, by decide, by decide⟩

def wifiWrite (data : List UInt8) : Label :=
  .request (.wifiInfo .roomy frame (fun _ => 0) data 1) firstBoot

theorem tokensFit_lab : TokensFit (ascii "lab secret") := by
  intro name rest hfirst
  have hsplit : strtok space (text (ascii "lab secret")) =
    some (ascii "lab", ascii "secret") := by decide +kernel
  rw [hsplit, Option.some.injEq, Prod.mk.injEq] at hfirst
  obtain ⟨rfl, rfl⟩ := hfirst
  refine ⟨by decide +kernel, ?_⟩
  intro key rest' hnext
  have hlast : strtok newline (ascii "secret") = some (ascii "secret", []) := by decide +kernel
  rw [hlast, Option.some.injEq, Prod.mk.injEq] at hnext
  rw [← hnext.1]
  decide +kernel

theorem bounded_after_write :
    ∃ t, machine.exec firstBoot [.interfaceInit, wifiWrite (ascii "lab secret")] = some t ∧
      (0 ≤ seq firstBoot.mcu ∧ seq firstBoot.mcu ≤ 255) ∧ Bounded firstBoot ∧ Bounded t := by
  have hok : machine.Along Fits firstBoot
      [.interfaceInit, wifiWrite (ascii "lab secret")] := by
    have hinit : machine.step firstBoot .interfaceInit = some (hi229InterfaceInit firstBoot) := rfl
    rw [Machine.along_cons_of_step hinit, Machine.along_singleton]
    exact ⟨trivial, Nat.one_pos, tokensFit_lab⟩
  exact ⟨_, rfl, config_bounded .erased (fun _ => ⟨0, 0⟩) hok rfl⟩

/-- A PSK of 332 characters, whose NUL is the lowest byte of the frame rate. -/
def longPsk : List UInt8 := ascii "a " ++ plain 332

theorem longPsk_stops_frames :
    ¬ ∀ nvs stack run t, machine.exec (boot nvs stack) run = some t → Bounded t := by
  intro h
  have hfps : (machine.exec firstBoot [wifiWrite longPsk]).map (fun t => targetFps t.mcu) =
      some 0 := by decide +kernel
  obtain ⟨t, ht, hzero⟩ := Option.map_eq_some_iff.mp hfps
  have hbound := (h _ _ _ t ht).targetFps.1
  omega

end ConfigBounds

end MarkitNode
