import MarkitNode.BlinkConfigure
import MarkitNode.LedTasks

/-!
What a refused `POST /v1/blink/configure` leaves. The handler applies the mode
before it looks at the number, so a request with a mode it knows and a number it
cannot read is answered with 400 after half of it has been carried out.
-/

namespace MarkitNode

namespace BlinkRefusal

open BlinkConfigure CNumber CString LedTasks NvsVars UrlQuery

/-- The output of the LED. -/
structure Led where
  ledStatus : LedStatus
  /-- the timer that plays a pattern -/
  timerRunning : Bool
  ledcRunning : Bool
  lit : Bool
  deriving DecidableEq

/-- `blink_led_off` -/
def blinkLedOff (led : Led) : Led where
  ledStatus := .off
  timerRunning :=
    match led.ledStatus with
    | .fastFlash | .slowBreath | .fastBreath | .seqEnc => false
    | _ => led.timerRunning
  ledcRunning := false
  lit := false

/-- The LED is off and gives no light; the timer of a pattern may run. -/
structure Led.Dark (led : Led) : Prop where
  ledStatus : led.ledStatus = .off
  ledcRunning : led.ledcRunning = false
  lit : led.lit = false

/-- What a request can change. -/
structure BlinkState where
  seq : Int
  ledManual : Bool
  nvs : Nvs
  evLedStatusChanged : Bool
  led : Led

def BlinkState.conf (s : BlinkState) : Conf :=
  ⟨s.seq, s.ledManual, s.nvs, s.evLedStatusChanged, false⟩

/-- The state after the handler, which has switched the LED off if it asked for it. -/
def BlinkState.update (s : BlinkState) (c : Conf) : BlinkState :=
  ⟨c.seq, c.ledManual, c.nvs, c.evLedStatusChanged, if c.ledOff then blinkLedOff s.led else s.led⟩

def blinkConfigure (calls : NvsCalls) (s : BlinkState) (seqStr : Vector UInt8 4)
    (uri : List UInt8) : Option (PostStatus × BlinkState) :=
  (blinkConfigurePost calls s.conf seqStr uri).map fun result => (result.1, s.update result.2)

/-- A response with the status 400 leaves everything as it was. -/
def RefusesWhole (calls : NvsCalls) (s : BlinkState) (seqStr : Vector UInt8 4)
    (uri : List UInt8) : Prop :=
  ∀ status t, blinkConfigure calls s seqStr uri = some (status, t) → status ≠ .ok → t = s

/-- The settings of the mode are in place already. -/
structure InPlace (s : BlinkState) (mode : List UInt8) : Prop where
  auto : mode = ascii "auto" → s.ledManual = false ∧ s.evLedStatusChanged = true
  manual : mode = ascii "manual" → s.ledManual = true ∧ s.evLedStatusChanged = true
  off : mode = ascii "off" → s.ledManual = true ∧ s.led.Dark

/-- The text of a number that the handler stores, or none. -/
def ReadsSeq (seq : List UInt8) : Prop := seq = [] ∨ (strtol 10 seq).2 = []

/-! ### The mode -/

theorem update_conf (s : BlinkState) : s.update s.conf = s := rfl

theorem update_auto_iff (s : BlinkState) :
    s.update { s.conf with ledManual := false, evLedStatusChanged := true } = s ↔
      s.ledManual = false ∧ s.evLedStatusChanged = true := by
  obtain ⟨seq, ledManual, nvs, ev, led⟩ := s
  simp [BlinkState.update, BlinkState.conf, eq_comm]

theorem update_manual_iff (s : BlinkState) :
    s.update { s.conf with ledManual := true, evLedStatusChanged := true } = s ↔
      s.ledManual = true ∧ s.evLedStatusChanged = true := by
  obtain ⟨seq, ledManual, nvs, ev, led⟩ := s
  simp [BlinkState.update, BlinkState.conf, eq_comm]

theorem blinkLedOff_eq_iff (led : Led) : blinkLedOff led = led ↔ led.Dark := by
  constructor
  · intro h
    rw [← h]
    exact ⟨rfl, rfl, rfl⟩
  · obtain ⟨ledStatus, timerRunning, ledcRunning, lit⟩ := led
    rintro ⟨rfl, rfl, rfl⟩
    rfl

theorem update_off_iff (s : BlinkState) :
    s.update { s.conf with ledManual := true, ledOff := true } = s ↔
      s.ledManual = true ∧ s.led.Dark := by
  rw [← blinkLedOff_eq_iff]
  obtain ⟨seq, ledManual, nvs, ev, led⟩ := s
  simp [BlinkState.update, BlinkState.conf, eq_comm]

/-- Other texts than the three modes have no settings. -/
theorem inPlace_of_other {s : BlinkState} {mode : List UInt8} (hauto : mode ≠ ascii "auto")
    (hmanual : mode ≠ ascii "manual") (hoff : mode ≠ ascii "off") : InPlace s mode :=
  ⟨fun h => absurd h hauto, fun h => absurd h hmanual, fun h => absurd h hoff⟩

/-- A known mode changes nothing exactly where it is in place. -/
theorem update_mode_iff {s : BlinkState} {mode : List UInt8} {c : Conf}
    (h : configureMode s.conf mode = some c) : s.update c = s ↔ InPlace s mode := by
  unfold configureMode at h
  split at h
  · rename_i hnil
    rw [← Option.some.inj h, update_conf, hnil]
    simp only [true_iff]
    apply inPlace_of_other <;> decide
  · split at h
    · rename_i hauto
      rw [← Option.some.inj h, update_auto_iff, hauto]
      constructor
      · intro hplace
        exact ⟨fun _ => hplace, fun heq => absurd heq (by decide),
          fun heq => absurd heq (by decide)⟩
      · intro hplace
        exact hplace.auto rfl
    · split at h
      · rename_i hmanual
        rw [← Option.some.inj h, update_manual_iff, hmanual]
        constructor
        · intro hplace
          exact ⟨fun heq => absurd heq (by decide), fun _ => hplace,
            fun heq => absurd heq (by decide)⟩
        · intro hplace
          exact hplace.manual rfl
      · split at h
        · rename_i hoff
          rw [← Option.some.inj h, update_off_iff, hoff]
          constructor
          · intro hplace
            exact ⟨fun heq => absurd heq (by decide), fun heq => absurd heq (by decide),
              fun _ => hplace⟩
          · intro hplace
            exact hplace.off rfl
        · cases h

theorem inPlace_of_unknown {s : BlinkState} {mode : List UInt8}
    (h : configureMode s.conf mode = none) : InPlace s mode := by
  unfold configureMode at h
  split at h
  · cases h
  · split at h
    · cases h
    · split at h
      · cases h
      · split at h
        · cases h
        · rename_i hauto hmanual hoff
          exact inPlace_of_other hauto hmanual hoff

/-! ### The request -/

section Post

variable {s : BlinkState} {uri mode seq : List UInt8} (calls : NvsCalls) (seqStr : Vector UInt8 4)

theorem blinkConfigure_unknown (hmode : paramText .blinkMode uri = some mode)
    (hvalid : configureMode s.conf mode = none) :
    blinkConfigure calls s seqStr uri = some (.invalidMode, s) := by
  simp [blinkConfigure, blinkConfigurePost, hmode, hvalid, update_conf]

/-- The mode has been applied when the number turns out to be none. -/
theorem blinkConfigure_unread {c : Conf} (hmode : paramText .blinkMode uri = some mode)
    (hseq : paramText .blinkSeq uri = some seq) (hvalid : configureMode s.conf mode = some c)
    (hreads : ¬ ReadsSeq seq) :
    blinkConfigure calls s seqStr uri = some (.invalidSeq, s.update c) := by
  have hne : ¬ seq = [] := fun hnil => hreads (Or.inl hnil)
  have hrest : ¬ (strtol 10 seq).2 = [] := fun hend => hreads (Or.inr hend)
  simp [blinkConfigure, blinkConfigurePost, hmode, hseq, hvalid, hne, hrest]

theorem blinkConfigure_reads {c : Conf} {status : PostStatus} {t : BlinkState}
    (hmode : paramText .blinkMode uri = some mode) (hseq : paramText .blinkSeq uri = some seq)
    (hvalid : configureMode s.conf mode = some c) (hreads : ReadsSeq seq)
    (h : blinkConfigure calls s seqStr uri = some (status, t)) : status = .ok := by
  rw [blinkConfigure, Option.map_eq_some_iff] at h
  obtain ⟨⟨status', c'⟩, hpost, hresult⟩ := h
  simp only [blinkConfigurePost, hmode, hseq, hvalid, Option.bind_eq_bind, Option.bind_some,
    Option.pure_def] at hpost
  rw [← (Prod.mk.inj hresult).1]
  split at hpost
  · exact (Prod.mk.inj (Option.some.inj hpost)).1.symm
  · rename_i hne
    rw [if_pos (hreads.resolve_left hne)] at hpost
    obtain ⟨c'', _, heq⟩ := Option.bind_eq_some_iff.mp hpost
    exact (Prod.mk.inj (Option.some.inj heq)).1.symm

end Post

/-- A refused request changes nothing exactly where its number is not the reason
or its mode is in place. -/
theorem refusesWhole_iff (calls : NvsCalls) (s : BlinkState) (seqStr : Vector UInt8 4)
    (uri : List UInt8) : RefusesWhole calls s seqStr uri ↔
      ∀ mode seq, paramText .blinkMode uri = some mode → paramText .blinkSeq uri = some seq →
        ReadsSeq seq ∨ InPlace s mode := by
  obtain ⟨mode, hmode⟩ := paramText_isSome .blinkMode (by decide) uri
  obtain ⟨seq, hseq⟩ := paramText_isSome .blinkSeq (by decide) uri
  have hiff : RefusesWhole calls s seqStr uri ↔ ReadsSeq seq ∨ InPlace s mode := by
    cases hvalid : configureMode s.conf mode with
    | none =>
      have hpost := blinkConfigure_unknown calls seqStr hmode hvalid
      constructor
      · intro _
        exact Or.inr (inPlace_of_unknown hvalid)
      · intro _ status t hsome _
        rw [hpost, Option.some.injEq, Prod.mk.injEq] at hsome
        exact hsome.2.symm
    | some c =>
      by_cases hreads : ReadsSeq seq
      · refine ⟨fun _ => Or.inl hreads, ?_⟩
        intro _ status t hsome hbad
        exact absurd (blinkConfigure_reads calls seqStr hmode hseq hvalid hreads hsome) hbad
      · have hpost := blinkConfigure_unread calls seqStr hmode hseq hvalid hreads
        rw [or_iff_right hreads, ← update_mode_iff hvalid]
        constructor
        · intro hwhole
          exact hwhole _ _ hpost nofun
        · intro hsame status t hsome _
          rw [hpost, Option.some.injEq, Prod.mk.injEq] at hsome
          rw [← hsome.2, hsame]
  rw [hiff]
  simp [hmode, hseq]

def autoState : BlinkState := ⟨0, false, Nvs.erased, false, ⟨.on, false, true, true⟩⟩

/-- A known mode and a number that is none. -/
def manualAbc : List UInt8 := ascii "/v1/blink/configure?mode=manual&seq=abc"

theorem manualAbc_half_done : ¬ ∀ s seqStr uri, RefusesWhole .roomy s seqStr uri := by
  intro h
  have hread : ((blinkConfigure .roomy autoState (Vector.replicate 4 0) manualAbc).map fun result =>
      (result.1, result.2.ledManual)) = some (.invalidSeq, true) := by decide +kernel
  obtain ⟨⟨status, t⟩, hpost, hfields⟩ := Option.map_eq_some_iff.mp hread
  obtain ⟨hstatus, hmanual⟩ := Prod.mk.inj hfields
  simp only at hstatus hmanual
  have hsame := h _ _ _ status t hpost (by rw [hstatus]; nofun)
  rw [hsame] at hmanual
  cases hmanual

end BlinkRefusal

end MarkitNode
