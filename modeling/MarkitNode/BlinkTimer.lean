import MarkitNode.BlinkSync
import MarkitNode.Custody
import MarkitNode.LedTasks

/-!
The timer that plays a pattern on the LED. Every function of `blink.c` asks by
`led_status` whether the timer runs, each with a test of its own, and the index
of the playback is kept when the pattern changes. A start and a stop of the timer
are events of one handle.
-/

namespace MarkitNode

namespace BlinkTimer

open BlinkPattern Custody LedTasks

inductive Pattern
  | seqEnc
  | fastBreath
  | slowBreath
  | fastFlash
  deriving DecidableEq, Repr

def fastBreathPattern : List UInt8 :=
  [0, 32, 64, 96, 128, 160, 192, 224, 255, 224, 192, 160, 128, 96, 64, 32]

def slowBreathPattern : List UInt8 := [0, 0, 0, 0, 0, 0, 0, 0, 0, 0, 0, 0, 0, 0, 255, 255]

def fastFlashPattern : List UInt8 :=
  [0, 255, 0, 255, 0, 255, 0, 255, 0, 255, 0, 255, 0, 255, 0, 255]

/-- `sizeof` of the array -/
def Pattern.size : Pattern → Nat
  | .seqEnc => 28
  | _ => 16

/-- What the channel puts out: a level, or a duty. -/
inductive Output
  | level (on : Bool)
  | duty (value : Nat)
  deriving DecidableEq, Repr

structure Blink where
  ledStatus : LedStatus
  /-- the period in µs while the timer runs -/
  timer : Option Nat
  seqEncPattern : List UInt8
  /-- `none` is the null pointer -/
  selectedPattern : Option Pattern
  selectedPatternLen : UInt8
  blinkIdx : Nat
  output : Output
  /-- the starts and stops of the timer -/
  log : List (Event Unit)

/-- `CONFIG_BLINK_TIMER_INTERVAL_MS` -/
abbrev timerIntervalMs : Nat := 50

/-- `CONFIG_BLINK_SYNC_SEQ_LEN + CONFIG_BLINK_SEQ_LEN` -/
abbrev seqEncPatternLen : Nat := 4 + 24

abbrev maxDuty : Nat := 4000

namespace Blink

def bytes (s : Blink) : Pattern → List UInt8
  | .seqEnc => s.seqEncPattern
  | .fastBreath => fastBreathPattern
  | .slowBreath => slowBreathPattern
  | .fastFlash => fastFlashPattern

/-- `esp_timer_stop` -/
def stopTimer (s : Blink) : Blink := { s with timer := none, log := s.log ++ [.release ()] }

/-- `esp_timer_start_periodic`; a timer that runs is left as it is. -/
def startPeriodic (s : Blink) (period : Nat) : Blink :=
  { s with timer := some (s.timer.getD period), log := s.log ++ [.acquire ()] }

/-- The test of a function whether the timer is to be stopped first. -/
def stopIn (s : Blink) (statuses : List LedStatus) : Blink :=
  if s.ledStatus ∈ statuses then s.stopTimer else s

def blinkLedOff (s : Blink) : Blink :=
  { s.stopIn [.fastFlash, .slowBreath, .fastBreath, .seqEnc] with
    output := .level false
    ledStatus := .off }

def blinkLedOn (s : Blink) : Blink :=
  { s.stopIn [.fastFlash, .slowBreath, .fastBreath, .seqEnc] with
    output := .level true
    ledStatus := .on }

def blinkLedSetDuty (s : Blink) (duty : UInt32) : Blink :=
  { s.stopIn [.fastFlash, .slowBreath, .fastBreath, .seqEnc] with
    output := .duty (maxDuty * duty.toNat % 2 ^ 32 / 100)
    ledStatus := .duty }

/-- The function that plays a pattern under the status `own`; `others` are the
statuses in which it stops the timer first. -/
def startPattern (s : Blink) (own : LedStatus) (others : List LedStatus) (pattern : Pattern)
    (len : Nat) (period : Nat) : Blink :=
  if s.ledStatus = own then s
  else
    let selected := { s.stopIn others with
      selectedPattern := some pattern
      selectedPatternLen := UInt8.ofNat len }
    { selected.startPeriodic period with ledStatus := own }

def blinkLedFastFlash (s : Blink) : Blink :=
  s.startPattern .fastFlash [.slowBreath, .fastBreath, .seqEnc] .fastFlash
    fastFlashPattern.length (50 * 1000)

def blinkLedStartFastBreathPattern (s : Blink) : Blink :=
  s.startPattern .fastBreath [.fastFlash, .slowBreath, .seqEnc] .fastBreath
    fastBreathPattern.length (50 * 1000)

def blinkLedStartSlowBreathPattern (s : Blink) : Blink :=
  s.startPattern .slowBreath [.fastFlash, .fastBreath, .seqEnc] .slowBreath
    slowBreathPattern.length (200 * 1000)

def blinkStartSeqEncPattern (s : Blink) : Blink :=
  s.startPattern .seqEnc [.fastFlash, .fastBreath, .slowBreath] .seqEnc
    seqEncPatternLen (timerIntervalMs * 1000)

/-- The index that `blink_timeout` reads its pattern at. -/
def readIdx (s : Blink) : Nat :=
  if s.blinkIdx ≥ s.selectedPatternLen.toNat then 0 else s.blinkIdx

/-- `none` if the read is outside the pattern. -/
def blinkTimeout (s : Blink) : Option Blink := do
  let pattern ← s.selectedPattern
  let value ← (s.bytes pattern)[s.readIdx]?
  return { s with output := .duty (BlinkSync.duty value), blinkIdx := s.readIdx + 1 }

end Blink

/-- The end of `blink_msp_init`: `blink_prepare_pattern` with the array that is on
its stack, then the fast flash. -/
def blinkMspInit (hammingSeq : Vector UInt8 12) (seq : UInt8) : Blink :=
  Blink.blinkLedFastFlash
    { ledStatus := .unknown
      timer := none
      seqEncPattern := blinkPreparePattern hammingSeq seq
      selectedPattern := none
      selectedPatternLen := 0
      blinkIdx := 0
      output := .duty 0
      log := [] }

inductive Call
  | ledOff
  | ledOn
  | setDuty (duty : UInt32)
  | fastFlash
  | fastBreath
  | slowBreath
  | seqEnc
  | timeout
  deriving DecidableEq, Repr

def call (s : Blink) : Call → Option Blink
  | .ledOff => some s.blinkLedOff
  | .ledOn => some s.blinkLedOn
  | .setDuty duty => some (s.blinkLedSetDuty duty)
  | .fastFlash => some s.blinkLedFastFlash
  | .fastBreath => some s.blinkLedStartFastBreathPattern
  | .slowBreath => some s.blinkLedStartSlowBreathPattern
  | .seqEnc => some s.blinkStartSeqEncPattern
  | .timeout => s.blinkTimeout

/-- The pattern of a status and its period. -/
def playedBy : LedStatus → Option (Pattern × Nat)
  | .fastFlash => some (.fastFlash, 50000)
  | .fastBreath => some (.fastBreath, 50000)
  | .slowBreath => some (.slowBreath, 200000)
  | .seqEnc => some (.seqEnc, 50000)
  | _ => none

def run (hammingSeq : Vector UInt8 12) (seq : UInt8) (calls : List Call) : Option Blink :=
  calls.foldlM call (blinkMspInit hammingSeq seq)

/-- What the functions rely on in `led_status`. -/
structure InStep (s : Blink) : Prop where
  running : s.timer.isSome ↔ s.ledStatus ∈ [.fastFlash, .slowBreath, .fastBreath, .seqEnc]
  plays : ∀ pattern period, playedBy s.ledStatus = some (pattern, period) →
    s.timer = some period ∧ s.selectedPattern = some pattern ∧
      s.selectedPatternLen.toNat = (s.bytes pattern).length
  log : openHandles s.log = (if s.timer.isSome then [()] else []) ∧ Proper s.log
  reads : ∃ pattern, s.selectedPattern = some pattern ∧ s.readIdx < (s.bytes pattern).length

/-- The timer goes by the status, and its starts and stops are in order. -/
structure Timed (s : Blink) : Prop where
  timer : s.timer = (playedBy s.ledStatus).map Prod.snd
  order : Orderly s.log (s.timer.map fun _ => ())
  seqLen : s.seqEncPattern.length = seqEncPatternLen

/-- Some pattern is selected, and it is the one of the status if that has one. -/
structure Good (s : Blink) : Prop extends Timed s where
  selected : ∃ pattern, s.selectedPattern = some pattern ∧
    s.selectedPatternLen.toNat = (s.bytes pattern).length ∧
      ∀ own period, playedBy s.ledStatus = some (own, period) → pattern = own

section Steps

variable {s : Blink}

theorem bytes_length (h : s.seqEncPattern.length = seqEncPatternLen) (pattern : Pattern) :
    (s.bytes pattern).length = pattern.size := by
  cases pattern with
  | seqEnc => exact h
  | fastBreath => rfl
  | slowBreath => rfl
  | fastFlash => rfl

/-- A test that names all statuses with a pattern leaves the timer stopped. -/
theorem Timed.stopIn (h : Timed s) {statuses : List LedStatus}
    (hall : s.ledStatus ∈ statuses ↔ (playedBy s.ledStatus).isSome) :
    (s.stopIn statuses).timer = none ∧ Orderly (s.stopIn statuses).log none := by
  have horder := h.order
  rw [h.timer] at horder
  rw [Blink.stopIn]
  split
  · rename_i hmem
    obtain ⟨played, hplayed⟩ := Option.isSome_iff_exists.mp (hall.mp hmem)
    rw [hplayed] at horder
    exact ⟨rfl, horder.release⟩
  · rename_i hmem
    have hnone : playedBy s.ledStatus = none := by
      rw [← Option.not_isSome_iff_eq_none]
      exact fun h => hmem (hall.mpr h)
    rw [hnone] at horder
    exact ⟨by rw [h.timer, hnone]; rfl, horder⟩

theorem stopIn_seqEncPattern (statuses : List LedStatus) :
    (s.stopIn statuses).seqEncPattern = s.seqEncPattern := by
  rw [Blink.stopIn]
  split
  · rfl
  · rfl

theorem mem_statuses_iff (status : LedStatus) :
    status ∈ [.fastFlash, .slowBreath, .fastBreath, .seqEnc] ↔ (playedBy status).isSome := by
  cases status <;> decide

/-- A test that names the three other statuses is as good as one that names all. -/
theorem mem_others_iff {own : LedStatus} {others : List LedStatus}
    (h : (own :: others).Perm [.fastFlash, .slowBreath, .fastBreath, .seqEnc])
    (status : LedStatus) : status ∈ own :: others ↔ (playedBy status).isSome := by
  rw [h.mem_iff, mem_statuses_iff]

theorem stopIn_selected (statuses : List LedStatus) :
    (s.stopIn statuses).selectedPattern = s.selectedPattern ∧
      (s.stopIn statuses).selectedPatternLen = s.selectedPatternLen := by
  rw [Blink.stopIn]
  split
  · exact ⟨rfl, rfl⟩
  · exact ⟨rfl, rfl⟩

/-- A call that leaves the timer stopped, and the pattern as it was. -/
theorem Good.quiet (h : Good s) {status : LedStatus} (hstatus : playedBy status = none)
    (output : Output) :
    Good { s.stopIn [.fastFlash, .slowBreath, .fastBreath, .seqEnc] with
      output, ledStatus := status } := by
  obtain ⟨htimer, horder⟩ := h.toTimed.stopIn (mem_statuses_iff s.ledStatus)
  obtain ⟨pattern, hpattern, hlen, _⟩ := h.selected
  have hseq := stopIn_seqEncPattern (s := s) [.fastFlash, .slowBreath, .fastBreath, .seqEnc]
  obtain ⟨hsame, hsameLen⟩ :=
    stopIn_selected (s := s) [.fastFlash, .slowBreath, .fastBreath, .seqEnc]
  constructor
  · constructor
    · rw [hstatus]
      exact htimer
    · rw [htimer]
      exact horder
    · rw [hseq]
      exact h.seqLen
  · refine ⟨pattern, hsame.trans hpattern, ?_, ?_⟩
    · rw [hsameLen, hlen, bytes_length h.seqLen, bytes_length (hseq ▸ h.seqLen)]
    · intro own period hplayed
      rw [hstatus] at hplayed
      cases hplayed

theorem startPattern_good (h : Timed s) {own : LedStatus} {others : List LedStatus}
    {pattern : Pattern} {len period : Nat} (hne : s.ledStatus ≠ own)
    (hothers : ∀ status, status ∈ own :: others ↔ (playedBy status).isSome)
    (hown : playedBy own = some (pattern, period)) (hlen : (UInt8.ofNat len).toNat = pattern.size) :
    Good (s.startPattern own others pattern len period) := by
  have hall : s.ledStatus ∈ others ↔ (playedBy s.ledStatus).isSome := by
    rw [← hothers, List.mem_cons, or_iff_right hne]
  obtain ⟨htimer, horder⟩ := h.stopIn hall
  have hseq := stopIn_seqEncPattern (s := s) others
  rw [Blink.startPattern, if_neg hne]
  constructor
  · constructor
    · rw [hown]
      simp only [Blink.startPeriodic, htimer]
      rfl
    · exact horder.acquire ()
    · exact hseq ▸ h.seqLen
  · refine ⟨pattern, rfl, ?_, ?_⟩
    · rw [bytes_length (hseq ▸ h.seqLen)]
      exact hlen
    · intro own' period' hplayed
      rw [hown] at hplayed
      exact (Prod.mk.inj (Option.some.inj hplayed)).1

theorem Good.startPattern (h : Good s) {own : LedStatus} {others : List LedStatus}
    {pattern : Pattern} {len period : Nat}
    (hothers : ∀ status, status ∈ own :: others ↔ (playedBy status).isSome)
    (hown : playedBy own = some (pattern, period)) (hlen : (UInt8.ofNat len).toNat = pattern.size) :
    Good (s.startPattern own others pattern len period) := by
  by_cases hsame : s.ledStatus = own
  · rw [Blink.startPattern, if_pos hsame]
    exact h
  · exact startPattern_good h.toTimed hsame hothers hown hlen

theorem Good.readIdx_lt (h : Good s) :
    ∃ pattern, s.selectedPattern = some pattern ∧ s.readIdx < (s.bytes pattern).length := by
  obtain ⟨pattern, hpattern, hlen, _⟩ := h.selected
  refine ⟨pattern, hpattern, ?_⟩
  have hpos : 0 < pattern.size := by cases pattern <;> decide
  rw [← bytes_length h.seqLen] at hpos
  rw [Blink.readIdx, hlen]
  split
  · exact hpos
  · omega

theorem Good.blinkTimeout (h : Good s) : ∃ t, s.blinkTimeout = some t ∧ Good t := by
  obtain ⟨pattern, hpattern, hlt⟩ := h.readIdx_lt
  have hread : s.blinkTimeout = some { s with
      output := .duty (BlinkSync.duty ((s.bytes pattern)[s.readIdx]))
      blinkIdx := s.readIdx + 1 } := by
    simp only [Blink.blinkTimeout, hpattern, Option.bind_eq_bind, Option.bind_some,
      List.getElem?_eq_getElem hlt, Option.pure_def]
  exact ⟨_, hread, ⟨⟨h.timer, h.order, h.seqLen⟩, h.selected⟩⟩

/-- A tick plays the pattern as the cycle does. -/
theorem blinkTimeout_played {t : Blink} (h : s.blinkTimeout = some t) :
    ∃ pattern, s.selectedPattern = some pattern ∧
      BlinkSync.blinkTimeout (s.bytes pattern) s.selectedPatternLen s.blinkIdx =
        (BlinkSync.duty ((s.bytes pattern).getD s.readIdx 0), t.blinkIdx) ∧
      t.output = .duty (BlinkSync.duty ((s.bytes pattern).getD s.readIdx 0)) := by
  simp only [Blink.blinkTimeout, Option.bind_eq_bind, Option.bind_eq_some_iff, Option.pure_def,
    Option.some.injEq] at h
  obtain ⟨pattern, hpattern, value, hvalue, rfl⟩ := h
  refine ⟨pattern, hpattern, rfl, ?_⟩
  rw [List.getD_eq_getElem?_getD, hvalue, Option.getD_some]

theorem Good.call (h : Good s) (c : Call) : ∃ t, call s c = some t ∧ Good t := by
  cases c with
  | ledOff => exact ⟨_, rfl, h.quiet rfl _⟩
  | ledOn => exact ⟨_, rfl, h.quiet rfl _⟩
  | setDuty duty => exact ⟨_, rfl, h.quiet rfl _⟩
  | fastFlash => exact ⟨_, rfl, h.startPattern (mem_others_iff (by decide)) rfl rfl⟩
  | fastBreath => exact ⟨_, rfl, h.startPattern (mem_others_iff (by decide)) rfl rfl⟩
  | slowBreath => exact ⟨_, rfl, h.startPattern (mem_others_iff (by decide)) rfl rfl⟩
  | seqEnc => exact ⟨_, rfl, h.startPattern (mem_others_iff (by decide)) rfl rfl⟩
  | timeout => exact h.blinkTimeout

theorem good_blinkMspInit (hammingSeq : Vector UInt8 12) (seq : UInt8) :
    Good (blinkMspInit hammingSeq seq) := by
  rw [blinkMspInit, Blink.blinkLedFastFlash]
  apply startPattern_good
  · refine ⟨rfl, orderly_nil, ?_⟩
    rw [BlinkSync.blinkPreparePattern_eq, BlinkSync.seqPattern_length, Vector.length_toList]
  · nofun
  · exact mem_others_iff (by decide)
  · rfl
  · rfl

theorem Good.inStep (h : Good s) : InStep s := by
  have htimer := h.timer
  constructor
  · rw [mem_statuses_iff, htimer, Option.isSome_map]
  · intro pattern period hplayed
    obtain ⟨selected, hselected, hlen, hown⟩ := h.selected
    rw [hown pattern period hplayed] at hselected hlen
    exact ⟨by rw [htimer, hplayed]; rfl, hselected, hlen⟩
  · refine ⟨?_, h.order.proper⟩
    rw [h.order.openHandles_eq]
    cases s.timer with
    | none => rfl
    | some period => rfl
  · exact h.readIdx_lt

end Steps

/-- After any calls and ticks the timer, its period and its pattern are those of
the status, and no tick has read outside its pattern. -/
theorem run_inStep (hammingSeq : Vector UInt8 12) (seq : UInt8) (calls : List Call) :
    ∃ s, run hammingSeq seq calls = some s ∧ InStep s := by
  have hrun : ∀ {s}, Good s → ∃ t, calls.foldlM call s = some t ∧ Good t := by
    intro s hs
    induction calls generalizing s with
    | nil => exact ⟨s, rfl, hs⟩
    | cons c rest ih =>
      obtain ⟨t, ht, hgood⟩ := hs.call c
      rw [List.foldlM_cons, ht]
      exact ih hgood
  obtain ⟨s, hs, hgood⟩ := hrun (good_blinkMspInit hammingSeq seq)
  exact ⟨s, hs, hgood.inStep⟩

end BlinkTimer

end MarkitNode
