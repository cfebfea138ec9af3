import MarkitNode.BlinkConfigure
import MarkitNode.BlinkPattern
import MarkitNode.Machine
import MarkitNode.PowerMgmt

/-!
The identity of the marker in its three places: `g_mcu.seq`, the flash, and the
pattern that `blink_timeout` plays. The pattern is prepared once, when the first
standby after a boot initialises the LED; a `POST` writes the other two.
-/

namespace MarkitNode

namespace BlinkIdentity

open BlinkConfigure BlinkPattern NvsVars PowerMgmt

structure Marker where
  conf : Conf
  ctx : PowerMgmtCtx
  sSeqEncPattern : List UInt8
  /-- no request has written past `seq_str` -/
  inBounds : Bool

inductive Label
  /-- a boot: after a loss of power, or with the RTC memory kept -/
  | boot (powerLoss : Bool) (stack : McuVar → GetStack)
  /-- `hammingSeq` is the array that `blink_prepare_pattern` finds on the stack -/
  | enterStandby (hammingSeq : Vector UInt8 12)
  | enterActive
  | enterPowerSave
  | powerUpdate
  | enterDeepSleep
  | postConfigure (calls : NvsCalls) (seqStr : Vector UInt8 4) (uri : List UInt8)
  /-- any other write to the flash -/
  | storeVars (nvs : Nvs)

/-- The conversion of `g_mcu.seq` to the argument of `fill_u8_hamming`. -/
def seqByte (c : Conf) : UInt8 := UInt8.ofInt c.seq

def bootConf (c : Conf) (stack : McuVar → GetStack) : Conf where
  seq := (sysLoadNvsConfiguration c.nvs stack).seq
  ledManual := false
  nvs := c.nvs
  evLedStatusChanged := false
  ledOff := false

def step (s : Marker) : Label → Option Marker
  | .boot powerLoss stack =>
      some { s with
        conf := bootConf s.conf stack
        ctx := powerMgmtInit (if powerLoss then .zero else s.ctx)
        sSeqEncPattern := List.replicate 28 0 }
  | .enterStandby hammingSeq =>
      some { s with
        ctx := standbyCtx s.ctx
        sSeqEncPattern :=
          if s.ctx.peripheralState.ledInitialized then s.sSeqEncPattern
          else blinkPreparePattern hammingSeq (seqByte s.conf) }
  | .enterActive => some { s with ctx := activeCtx s.ctx }
  | .enterPowerSave => some { s with ctx := powerSaveCtx s.ctx }
  | .powerUpdate => some { s with ctx := powerUpdateCtx s.ctx }
  | .enterDeepSleep => some { s with ctx := deepSleepCtx s.ctx }
  | .postConfigure calls seqStr uri =>
      if s.ctx.peripheralState.controllerInitialized then
        match blinkConfigurePost calls s.conf seqStr uri with
        | none => some { s with inBounds := false }
        | some (_, conf) => some { s with conf := conf }
      else none
  | .storeVars nvs => some { s with conf := { s.conf with nvs := nvs } }

/-- A chip that has not booted yet. -/
def machine : Machine Marker Label :=
  ⟨fun s => s.ctx = .zero ∧ s.inBounds = true, step⟩

/-- Once the LED is initialised the pattern is the encoding of the number. -/
def FlashesSeq (s : Marker) : Prop :=
  s.ctx.peripheralState.ledInitialized = true →
    s.inBounds = true ∧ s.sSeqEncPattern = encoding (seqByte s.conf)

/-- The LED is initialised on even cells, and no accepted number changes the
byte that is flashed, or is too long for its text. -/
def KeepsIdentity (s : Marker) : Label → Prop
  | .enterStandby hammingSeq =>
      s.ctx.peripheralState.ledInitialized = false → EvenCells hammingSeq
  | .postConfigure _ _ uri =>
      ∀ n, Accepts s.conf uri n →
        (CNumber.itoa (n.tmod 256)).length + 1 ≤ 4 ∧ n % 256 = s.conf.seq % 256
  | _ => True

/-- The REST controller is started after the LED. -/
structure LedFirst (s : Marker) : Prop where
  led : s.ctx.peripheralState.controllerInitialized = true →
    s.ctx.peripheralState.ledInitialized = true

theorem seqByte_eq_iff (c c' : Conf) : seqByte c = seqByte c' ↔ c.seq % 256 = c'.seq % 256 := by
  rw [← UInt8.toNat_inj]
  simp only [seqByte, UInt8.ofInt, UInt8.toNat_ofNat']
  omega

theorem encoding_seqByte_iff (c c' : Conf) :
    encoding (seqByte c) = encoding (seqByte c') ↔ c.seq % 256 = c'.seq % 256 := by
  rw [← seqByte_eq_iff]
  exact ⟨fun h => encoding_injective h, fun h => congrArg encoding h⟩

/-- The LED, its number and its pattern are as they were. -/
structure Unchanged (s t : Marker) : Prop where
  led : t.ctx.peripheralState.ledInitialized = s.ctx.peripheralState.ledInitialized
  controller : t.ctx.peripheralState.controllerInitialized = true →
    s.ctx.peripheralState.controllerInitialized = true
  pattern : t.sSeqEncPattern = s.sSeqEncPattern
  seq : t.conf.seq = s.conf.seq
  inBounds : t.inBounds = s.inBounds

namespace Unchanged

variable {s t : Marker}

theorem flashes_iff (h : Unchanged s t) : FlashesSeq t ↔ FlashesSeq s := by
  have hbyte : seqByte t.conf = seqByte s.conf := by
    rw [seqByte_eq_iff, h.seq]
  rw [FlashesSeq, FlashesSeq, h.led, h.inBounds, h.pattern, hbyte]

theorem ledFirst (h : Unchanged s t) (hs : LedFirst s) : LedFirst t := by
  constructor
  intro hcontroller
  rw [h.led]
  exact hs.led (h.controller hcontroller)

end Unchanged

theorem powerUpdate_unchanged (s : Marker) :
    Unchanged s { s with ctx := powerUpdateCtx s.ctx } := by
  have hctx : (powerUpdateCtx s.ctx).peripheralState.ledInitialized =
        s.ctx.peripheralState.ledInitialized ∧
      (powerUpdateCtx s.ctx).peripheralState.controllerInitialized =
        s.ctx.peripheralState.controllerInitialized := by
    unfold powerUpdateCtx
    by_cases hmode : s.ctx.nextMode ≠ s.ctx.mode
    · rw [if_pos hmode]
      cases s.ctx.nextMode <;> exact ⟨rfl, rfl⟩
    · rw [if_neg hmode]
      exact ⟨rfl, rfl⟩
  exact ⟨hctx.1, fun h => hctx.2 ▸ h, rfl, rfl, rfl⟩

theorem accepts_unique {c : Conf} {uri : List UInt8} {m n : Int} (hm : Accepts c uri m)
    (hn : Accepts c uri n) : m = n := by
  obtain ⟨seq, hseq, _, hval⟩ := hm.seq
  obtain ⟨seq', hseq', _, hval'⟩ := hn.seq
  obtain rfl : seq = seq' := Option.some.inj (hseq.symm.trans hseq')
  exact (Prod.mk.inj (hval.symm.trans hval')).1

/-- A request needs the controller, and changes `g_mcu` or runs out of `seq_str`. -/
theorem post_cases {s t : Marker} {calls : NvsCalls} {seqStr : Vector UInt8 4} {uri : List UInt8}
    (hstep : machine.step s (.postConfigure calls seqStr uri) = some t) :
    s.ctx.peripheralState.controllerInitialized = true ∧
      ((blinkConfigurePost calls s.conf seqStr uri = none ∧ t = { s with inBounds := false }) ∨
        ∃ status conf, blinkConfigurePost calls s.conf seqStr uri = some (status, conf) ∧
          t = { s with conf := conf }) := by
  simp only [machine, step] at hstep
  by_cases hcontroller : s.ctx.peripheralState.controllerInitialized = true
  · rw [if_pos hcontroller] at hstep
    refine ⟨hcontroller, ?_⟩
    cases hpost : blinkConfigurePost calls s.conf seqStr uri with
    | none =>
      rw [hpost] at hstep
      exact Or.inl ⟨rfl, (Option.some.inj hstep).symm⟩
    | some result =>
      rw [hpost] at hstep
      exact Or.inr ⟨result.1, result.2, rfl, (Option.some.inj hstep).symm⟩
  · rw [if_neg hcontroller] at hstep
    cases hstep

theorem step_ledFirst {s t : Marker} {a : Label} (h : LedFirst s)
    (hstep : machine.step s a = some t) : LedFirst t := by
  cases a with
  | boot powerLoss stack =>
    cases hstep
    constructor
    intro hcontroller
    rw [powerMgmtInit_peripheralState] at hcontroller
    cases hcontroller
  | enterStandby hammingSeq =>
    cases hstep
    exact ⟨fun _ => rfl⟩
  | enterActive =>
    cases hstep
    exact ⟨h.led⟩
  | enterPowerSave =>
    cases hstep
    constructor
    intro hcontroller
    cases hcontroller
  | powerUpdate =>
    cases hstep
    exact (powerUpdate_unchanged s).ledFirst h
  | enterDeepSleep =>
    cases hstep
    exact ⟨h.led⟩
  | postConfigure calls seqStr uri =>
    obtain ⟨_, ⟨_, rfl⟩ | ⟨status, conf, _, rfl⟩⟩ := post_cases hstep
    · exact ⟨h.led⟩
    · exact ⟨h.led⟩
  | storeVars nvs =>
    cases hstep
    exact ⟨h.led⟩

/-- An LED that is initialised keeps its pattern, a new one takes the number. -/
theorem standby_flashes_iff {s t : Marker} (h : FlashesSeq s) {hammingSeq : Vector UInt8 12}
    (hbounds : s.inBounds = true) (hstep : machine.step s (.enterStandby hammingSeq) = some t) :
    FlashesSeq t ↔ KeepsIdentity s (.enterStandby hammingSeq) := by
  cases hstep
  have hstandby : (standbyCtx s.ctx).peripheralState.ledInitialized = true := rfl
  cases hled : s.ctx.peripheralState.ledInitialized with
  | true =>
    simp only [FlashesSeq, KeepsIdentity, hled, hstandby, if_true]
    have hflashes := h hled
    tauto
  | false =>
    simp only [FlashesSeq, KeepsIdentity, hled, hstandby, hbounds, true_and, forall_const,
      Bool.false_eq_true, if_false]
    exact blinkPreparePattern_eq_iff hammingSeq (seqByte s.conf)

/-- An accepted number has to fit its text and to encode like the old one. -/
theorem post_flashes_iff {s t : Marker} (hled : LedFirst s) (h : FlashesSeq s)
    {calls : NvsCalls} {seqStr : Vector UInt8 4} {uri : List UInt8}
    (hstep : machine.step s (.postConfigure calls seqStr uri) = some t) :
    FlashesSeq t ↔ KeepsIdentity s (.postConfigure calls seqStr uri) := by
  obtain ⟨hcontroller, hcases⟩ := post_cases hstep
  have hinit := hled.led hcontroller
  obtain ⟨hbounds, hpattern⟩ := h hinit
  by_cases haccepts : ∃ n, Accepts s.conf uri n
  · obtain ⟨n, hn⟩ := haccepts
    obtain ⟨c', hpost⟩ := post_of_accepts hn calls seqStr
    rw [hpost, storeSeq_eq] at hcases
    have hkeeps : KeepsIdentity s (.postConfigure calls seqStr uri) ↔
        (CNumber.itoa (n.tmod 256)).length + 1 ≤ 4 ∧ n % 256 = s.conf.seq % 256 :=
      ⟨fun hall => hall n hn, fun hone m hm => accepts_unique hn hm ▸ hone⟩
    rw [hkeeps]
    by_cases hfits : (CNumber.itoa (n.tmod 256)).length + 1 ≤ 4
    · have hmod : n.tmod 256 % 256 = n % 256 := by
        have := Int.mul_tdiv_add_tmod n 256
        omega
      simp only [if_pos hfits, Option.map_some, reduceCtorEq, false_and, false_or,
        Option.some.injEq, Prod.mk.injEq] at hcases
      obtain ⟨status, conf, ⟨_, rfl⟩, rfl⟩ := hcases
      simp only [FlashesSeq, hinit, hbounds, hfits, hpattern, forall_const, true_and]
      rw [← hmod, eq_comm (a := n.tmod 256 % 256)]
      exact encoding_seqByte_iff _ _
    · simp only [if_neg hfits, Option.map_none, reduceCtorEq, false_and, exists_false, or_false,
        true_and] at hcases
      subst hcases
      constructor
      · intro hflashes
        cases (hflashes hinit).1
      · intro hkept
        exact absurd hkept.1 hfits
  · obtain ⟨status, c', hpost, hseq⟩ := post_of_not_accepts (not_exists.mp haccepts) calls seqStr
    simp only [hpost, reduceCtorEq, false_and, false_or, Option.some.injEq, Prod.mk.injEq] at hcases
    obtain ⟨_, conf, ⟨_, rfl⟩, rfl⟩ := hcases
    have hsame : Unchanged s { s with conf := c' } := ⟨rfl, id, rfl, hseq, rfl⟩
    rw [hsame.flashes_iff]
    exact ⟨fun _ n hn => absurd ⟨n, hn⟩ haccepts, fun _ => h⟩

/-- What one step does to a marker that is in order. -/
theorem step_flashes_iff {s t : Marker} {a : Label} (hled : LedFirst s)
    (hbounds : s.inBounds = true) (h : FlashesSeq s) (hstep : machine.step s a = some t) :
    FlashesSeq t ↔ KeepsIdentity s a := by
  cases a with
  | boot powerLoss stack =>
    cases hstep
    simp only [FlashesSeq, KeepsIdentity, powerMgmtInit_peripheralState, iff_true]
    intro hzero
    cases hzero
  | enterStandby hammingSeq => exact standby_flashes_iff h hbounds hstep
  | enterActive =>
    cases hstep
    exact iff_of_true h trivial
  | enterPowerSave =>
    cases hstep
    exact iff_of_true h trivial
  | powerUpdate =>
    cases hstep
    exact iff_of_true ((powerUpdate_unchanged s).flashes_iff.mpr h) trivial
  | enterDeepSleep =>
    cases hstep
    exact iff_of_true h trivial
  | postConfigure calls seqStr uri => exact post_flashes_iff hled h hstep
  | storeVars nvs =>
    cases hstep
    exact iff_of_true h trivial

/-- Only a request can write past `seq_str`, and only to a marker that flashes. -/
theorem step_inBounds {s t : Marker} {a : Label} (hled : LedFirst s) (hbounds : s.inBounds = true)
    (hflashes : FlashesSeq t) (hstep : machine.step s a = some t) : t.inBounds = true := by
  cases a with
  | postConfigure calls seqStr uri =>
    obtain ⟨hcontroller, ⟨_, rfl⟩ | ⟨status, conf, _, rfl⟩⟩ := post_cases hstep
    · exact (hflashes (hled.led hcontroller)).1
    · exact hbounds
  | _ =>
    cases hstep
    exact hbounds

/-- The marker flashes its own number throughout exactly the runs that prepare
the pattern on even cells and never accept another number. -/
theorem flashesSeq_iff {s t : Marker} (h : machine.Init s) {run : List Label}
    (hrun : machine.exec s run = some t) :
    machine.Throughout FlashesSeq s run ↔ machine.Along KeepsIdentity s run := by
  have hled : s.ctx.peripheralState.ledInitialized = false := by rw [h.1]; rfl
  have hcontroller : s.ctx.peripheralState.controllerInitialized = false := by rw [h.1]; rfl
  refine Machine.throughout_iff_along (J := LedFirst)
    (I := fun s => s.inBounds = true ∧ FlashesSeq s) ?_ ?_ ?_ ?_ ?_ ?_ hrun
  · intro s a t hfirst hstep
    exact step_ledFirst hfirst hstep
  · intro s a t hfirst hI hok hstep
    have hflashes := (step_flashes_iff hfirst hI.1 hI.2 hstep).mpr hok
    exact ⟨step_inBounds hfirst hI.1 hflashes hstep, hflashes⟩
  · intro s a t hfirst hI hbad hstep
    rwa [step_flashes_iff hfirst hI.1 hI.2 hstep]
  · intro s _ hI
    exact hI.2
  · constructor
    intro hinit
    rw [hcontroller] at hinit
    cases hinit
  · refine ⟨h.2, ?_⟩
    intro hinit
    rw [hled] at hinit
    cases hinit

theorem reach_flashes {s : Marker} (h : machine.Reach KeepsIdentity s) :
    LedFirst s ∧ s.inBounds = true ∧ FlashesSeq s := by
  refine Machine.Reach.invariant
    (I := fun s => LedFirst s ∧ s.inBounds = true ∧ FlashesSeq s) ?_ ?_ h
  · rintro s ⟨hctx, hbounds⟩
    have hstart : s.ctx.peripheralState = PowerMgmtCtx.zero.peripheralState := by rw [hctx]
    refine ⟨⟨fun hcontroller => ?_⟩, hbounds, fun hled => ?_⟩
    · rw [hstart] at hcontroller
      cases hcontroller
    · rw [hstart] at hled
      cases hled
  · rintro s a t ⟨hled, hbounds, hflashes⟩ hok hstep
    have hnext := (step_flashes_iff hled hbounds hflashes hstep).mpr hok
    exact ⟨step_ledFirst hled hstep, step_inBounds hled hbounds hnext hstep, hnext⟩

/-- What is flashed, what is configured and what a `GET` reports are one number. -/
structure OneIdentity (s : Marker) : Prop where
  flashed : s.sSeqEncPattern = encoding (UInt8.ofInt (reportedSeq s.conf))
  reported : reportedSeq s.conf = s.conf.seq

/-- A `GET` reports `g_mcu.seq % 100U`: in a marker that flashes its number, the three are
one exactly for the numbers from 0 to 99. -/
theorem oneIdentity_iff {s : Marker} (h : machine.Reach KeepsIdentity s)
    (hled : s.ctx.peripheralState.ledInitialized = true) :
    OneIdentity s ↔ 0 ≤ s.conf.seq ∧ s.conf.seq < 100 := by
  constructor
  · intro hone
    have hreported := hone.reported
    rw [reportedSeq] at hreported
    omega
  · rintro ⟨hpos, hlt⟩
    have hreported : reportedSeq s.conf = s.conf.seq := by
      rw [reportedSeq]
      omega
    refine ⟨?_, hreported⟩
    rw [hreported]
    exact ((reach_flashes h).2.2 hled).2

def offMarker : Marker := ⟨freshConf, .zero, [], true⟩

/-- A boot, the first standby, and a request for one number. -/
def configured (seq : String) : List Label :=
  [.boot true fun _ => ⟨64, 0⟩, .enterStandby (Vector.replicate 12 0),
    .postConfigure .roomy (Vector.replicate 4 0) (seqUri seq)]

theorem flashesSeq_256 : machine.Throughout FlashesSeq offMarker (configured "256") := by
  obtain ⟨t, hrun⟩ : ∃ t, machine.exec offMarker (configured "256") = some t :=
    Option.isSome_iff_exists.mp (by decide +kernel)
  refine (flashesSeq_iff ⟨rfl, rfl⟩ hrun).mpr ⟨trivial, fun _ => by decide, ?_⟩
  apply Machine.along_singleton.mpr
  intro n hn
  have haccepts : Accepts (bootConf freshConf fun _ => ⟨64, 0⟩) (seqUri "256") 256 :=
    ⟨⟨[], by decide +kernel, nofun⟩,
      ⟨CString.ascii "256", by decide +kernel, by decide, by decide +kernel⟩⟩
  obtain rfl := accepts_unique hn haccepts
  decide

theorem flashes_other_number :
    ¬ ∀ s, machine.Reach Machine.anyStep s → FlashesSeq s := by
  intro h
  obtain ⟨t, hrun⟩ : ∃ t, machine.exec offMarker (configured "5") = some t :=
    Option.isSome_iff_exists.mp (by decide +kernel)
  have hflashes := h t (Machine.reach_of_exec ⟨rfl, rfl⟩ (Machine.along_anyStep _ _) hrun)
  have hresult : (machine.exec offMarker (configured "5")).map (fun s =>
      (s.ctx.peripheralState.ledInitialized, s.sSeqEncPattern == encoding (seqByte s.conf))) =
        some (true, false) := by decide +kernel
  rw [hrun, Option.map_some, Option.some.injEq, Prod.mk.injEq] at hresult
  rw [(hflashes hresult.1).2, beq_self_eq_true] at hresult
  cases hresult.2

end BlinkIdentity

end MarkitNode
