import Mathlib.Data.Finset.Basic
import MarkitNode.Machine

/-!
The interrupt of the BNO08x. The handler switches it off and notifies the SPI task, which
switches it on again for its next turn only if reports are enabled; otherwise that is
left to the waits of the driver's functions, and to the function that enables the
first report. One task at a time calls these functions; any task reads. The steps of
the tasks come in any order, and between the look at the event group and the call
that switches the interrupt lies a step of its own.
-/

namespace MarkitNode

namespace HintInterrupt

/-- `evt_grp_report_en_bits_t` -/
inductive Report
  | rotationVector
  | gameRotationVector
  | arvrSRotationVector
  | arvrSGameRotationVector
  | gyroRotationVector
  | accelerometer
  | linearAccelerometer
  | gravity
  | gyro
  | gyroUncalibrated
  | magnetometer
  | tapDetector
  | stepCounter
  | stabilityClassifier
  | activityClassifier
  | rawAccelerometer
  | rawGyro
  | rawMagnetometer
  deriving DecidableEq, Repr

/-- Where `BNO08x_spi_task` is. -/
inductive SpiPc
  | top
  | enabling
  | taking
  | turn
  deriving DecidableEq, Repr

/-- What a function of the driver does when its packet is sent. -/
inductive Command
  | enable (report : Report)
  | disable (report : Report)
  | other
  deriving DecidableEq, Repr

/-- Where the task is that calls the driver. -/
inductive UserPc
  | idle
  /-- about to wait: no report was enabled, and the interrupt is to be switched on -/
  | arming (command : Command)
  | waiting (command : Command)
  | bitSet (report : Report)
  | switchingOn
  | bitCleared
  | switchingOff
  | flushing (left : Nat)
  | flushArming (left : Nat)
  deriving DecidableEq, Repr

structure Hint where
  intrEnabled : Bool
  /-- the notification of the SPI task -/
  notified : Bool
  spi : SpiPc
  reportEn : Finset Report
  user : UserPc
  /-- how many tasks are about to switch the interrupt on for a read -/
  readArming : Nat
  deriving DecidableEq

/-- `BNO08x_init` has switched the interrupt off. -/
def boot : Hint := ⟨false, false, .top, ∅, .idle, 0⟩

inductive Label
  /-- the hub asserts the pin: `BNO08x_hint_handler` -/
  | hint
  /-- the next step of `BNO08x_spi_task` -/
  | spi
  /-- a function of the driver queues its packet and comes to its wait -/
  | call (command : Command)
  /-- `BNO08x_hard_reset` and `BNO08x_soft_reset` clear all bits -/
  | clearReports
  /-- the next step of the task that calls the driver; `answer` is what a wait returns -/
  | user (answer : Bool)
  /-- `BNO08x_wait_for_data` in any task -/
  | read
  | readArm
  deriving DecidableEq

def spiStep (s : Hint) : Option Hint :=
  match s.spi with
  | .top => some { s with spi := if s.reportEn = ∅ then .taking else .enabling }
  | .enabling => some { s with spi := .taking, intrEnabled := true }
  | .taking => if s.notified then some { s with spi := .turn, notified := false } else none
  | .turn => some { s with spi := .top }

def userStep (s : Hint) (answer : Bool) : Option Hint :=
  match s.user with
  | .idle => none
  | .arming command => some { s with user := .waiting command, intrEnabled := true }
  | .waiting (.enable report) =>
      if answer then
        some { s with user := .bitSet report, reportEn := insert report s.reportEn }
      else some { s with user := .flushing 3 }
  | .waiting (.disable report) =>
      if answer then some { s with user := .bitCleared, reportEn := s.reportEn.erase report }
      else some { s with user := .idle }
  | .waiting .other => some { s with user := .idle }
  | .bitSet report =>
      some { s with user := if s.reportEn.erase report = ∅ then .switchingOn else .flushing 3 }
  | .switchingOn => some { s with user := .flushing 3, intrEnabled := true }
  | .bitCleared => some { s with user := if s.reportEn = ∅ then .switchingOff else .idle }
  | .switchingOff => some { s with user := .idle, intrEnabled := false }
  | .flushing 0 => some { s with user := .idle }
  | .flushing (left + 1) =>
      some { s with user := if s.reportEn = ∅ then .flushArming left else .flushing left }
  | .flushArming left => some { s with user := .flushing left, intrEnabled := true }

def step (s : Hint) : Label → Option Hint
  | .hint => if s.intrEnabled then some { s with intrEnabled := false, notified := true } else none
  | .spi => spiStep s
  | .call command =>
      if s.user = .idle then
        some { s with user := if s.reportEn = ∅ then .arming command else .waiting command }
      else none
  | .clearReports =>
    if s.user = .idle then some { s with user := .flushing 2, reportEn := ∅ } else none
  | .user answer => userStep s answer
  | .read =>
      some { s with readArming := if s.reportEn = ∅ then s.readArming + 1 else s.readArming }
  | .readArm =>
      if s.readArming = 0 then none
      else some { s with readArming := s.readArming - 1, intrEnabled := true }

def machine : Machine Hint Label := ⟨(· = boot), step⟩

/-- The task that has enabled the first report is about to switch the interrupt on. -/
def Starting (s : Hint) : Prop :=
  s.user = .switchingOn ∨ ∃ report, s.user = .bitSet report ∧ s.reportEn.erase report = ∅

/-- The next packet is noticed: the SPI task does not wait, or does not have to, or the
interrupt is on or about to be. -/
def Attended (s : Hint) : Prop :=
  s.intrEnabled = true ∨ s.notified = true ∨ s.spi ≠ .taking ∨ Starting s

structure Inv (s : Hint) : Prop where
  attended : s.reportEn ≠ ∅ → Attended s
  switchingOff : s.user = .switchingOff → s.reportEn = ∅

theorem attended_of_intr {s : Hint} (h : s.intrEnabled = true) : Attended s := Or.inl h

theorem attended_of_spi {s : Hint} (h : s.spi ≠ .taking) : Attended s := Or.inr (Or.inr (Or.inl h))

/-- A step that switches the interrupt on. -/
theorem inv_of_intr {s : Hint} (h : s.intrEnabled = true) (huser : s.user ≠ .switchingOff) :
    Inv s :=
  ⟨fun _ => attended_of_intr h, fun hoff => absurd hoff huser⟩

/-- A step of the caller that leaves the interrupt and the reports alone. -/
theorem Inv.congr {s t : Hint} (h : Inv s) (hintr : t.intrEnabled = s.intrEnabled)
    (hnotified : t.notified = s.notified) (hspi : t.spi = s.spi)
    (hreports : t.reportEn = s.reportEn) (hstarting : Starting s → s.reportEn ≠ ∅ → Starting t)
    (hoff : t.user = .switchingOff → s.reportEn = ∅) : Inv t := by
  constructor
  · intro hne
    rw [hreports] at hne
    rcases h.attended hne with hon | hpending | hbusy | hstart
    · exact Or.inl (hintr.trans hon)
    · exact Or.inr (Or.inl (hnotified.trans hpending))
    · exact attended_of_spi (by rwa [hspi])
    · exact Or.inr (Or.inr (Or.inr (hstarting hstart hne)))
  · rw [hreports]
    exact hoff

theorem not_starting {s : Hint} (hon : s.user ≠ .switchingOn) (hset : ∀ r, s.user ≠ .bitSet r) :
    ¬ Starting s := by
  rintro (h | ⟨r, h, _⟩)
  · exact hon h
  · exact hset r h

theorem inv_spiStep {s t : Hint} (h : Inv s) (hstep : spiStep s = some t) : Inv t := by
  rw [spiStep] at hstep
  split at hstep
  · cases hstep
    refine ⟨fun hne => attended_of_spi ?_, h.switchingOff⟩
    rw [if_neg hne]
    exact SpiPc.noConfusion
  · cases hstep
    exact ⟨fun _ => attended_of_intr rfl, h.switchingOff⟩
  · split at hstep
    · cases hstep
      exact ⟨fun _ => attended_of_spi SpiPc.noConfusion, h.switchingOff⟩
    · cases hstep
  · cases hstep
    exact ⟨fun _ => attended_of_spi SpiPc.noConfusion, h.switchingOff⟩

/-- Where the caller is not about to switch the interrupt on, something else attends to the
reports. -/
theorem Inv.attended_apart {s : Hint} (h : Inv s) (hne : s.reportEn ≠ ∅) (hnot : ¬ Starting s) :
    s.intrEnabled = true ∨ s.notified = true ∨ s.spi ≠ .taking := by
  rcases h.attended hne with hon | hpending | hbusy | hstart
  · exact Or.inl hon
  · exact Or.inr (Or.inl hpending)
  · exact Or.inr (Or.inr hbusy)
  · exact absurd hstart hnot

theorem inv_enabled {s : Hint} {report : Report} (h : Inv s)
    (huser : s.user = .waiting (.enable report)) :
    Inv { s with user := .bitSet report, reportEn := insert report s.reportEn } := by
  refine ⟨fun _ => ?_, by simp⟩
  by_cases hfirst : (insert report s.reportEn).erase report = ∅
  · exact Or.inr (Or.inr (Or.inr (Or.inr ⟨report, rfl, hfirst⟩)))
  · -- there were reports before, and they are attended to
    have hne : s.reportEn ≠ ∅ := by
      intro hnone
      apply hfirst
      rw [hnone]
      simp
    rcases h.attended_apart hne (not_starting (by simp [huser]) (by simp [huser])) with
      hon | hpending | hbusy
    · exact Or.inl hon
    · exact Or.inr (Or.inl hpending)
    · exact attended_of_spi hbusy

theorem inv_disabled {s : Hint} {report : Report} (h : Inv s)
    (huser : s.user = .waiting (.disable report)) :
    Inv { s with user := .bitCleared, reportEn := s.reportEn.erase report } := by
  refine ⟨fun hleft => ?_, by simp⟩
  have hne : s.reportEn ≠ ∅ := by
    intro hnone
    apply hleft
    simp [hnone]
  rcases h.attended_apart hne (not_starting (by simp [huser]) (by simp [huser])) with
    hon | hpending | hbusy
  · exact Or.inl hon
  · exact Or.inr (Or.inl hpending)
  · exact attended_of_spi hbusy

theorem inv_userStep {s t : Hint} {answer : Bool} (h : Inv s)
    (hstep : userStep s answer = some t) : Inv t := by
  rw [userStep] at hstep
  cases huser : s.user with
  | idle => simp [huser] at hstep
  | arming command =>
    simp only [huser, Option.some.injEq] at hstep
    subst hstep
    exact inv_of_intr rfl (by simp)
  | waiting command =>
    have hnot : ¬ Starting s := not_starting (by simp [huser]) (by simp [huser])
    cases command with
    | enable report =>
      simp only [huser] at hstep
      split at hstep
      · cases hstep
        exact inv_enabled h huser
      · cases hstep
        exact h.congr rfl rfl rfl rfl (fun hstart => absurd hstart hnot) (by simp)
    | disable report =>
      simp only [huser] at hstep
      split at hstep
      · cases hstep
        exact inv_disabled h huser
      · cases hstep
        exact h.congr rfl rfl rfl rfl (fun hstart => absurd hstart hnot) (by simp)
    | other =>
      simp only [huser, Option.some.injEq] at hstep
      subst hstep
      exact h.congr rfl rfl rfl rfl (fun hstart => absurd hstart hnot) (by simp)
  | bitSet report =>
    simp only [huser, Option.some.injEq] at hstep
    subst hstep
    by_cases hfirst : s.reportEn.erase report = ∅
    · rw [if_pos hfirst]
      exact h.congr rfl rfl rfl rfl (fun _ _ => Or.inl rfl) (by simp)
    · rw [if_neg hfirst]
      refine h.congr rfl rfl rfl rfl (fun hstart _ => ?_) (by simp)
      rcases hstart with hon | ⟨report', hset, hnone⟩
      · simp [huser] at hon
      · rw [huser] at hset
        cases hset
        exact absurd hnone hfirst
  | switchingOn =>
    simp only [huser, Option.some.injEq] at hstep
    subst hstep
    exact inv_of_intr rfl (by simp)
  | bitCleared =>
    simp only [huser, Option.some.injEq] at hstep
    subst hstep
    have hnot : ¬ Starting s := not_starting (by simp [huser]) (by simp [huser])
    refine h.congr rfl rfl rfl rfl (fun hstart => absurd hstart hnot) ?_
    intro hoff
    by_contra hne
    simp [hne] at hoff
  | switchingOff =>
    simp only [huser, Option.some.injEq] at hstep
    subst hstep
    exact ⟨fun hne => absurd (h.switchingOff huser) hne, by simp⟩
  | flushing left =>
    have hnot : ¬ Starting s := not_starting (by simp [huser]) (by simp [huser])
    cases left with
    | zero =>
      simp only [huser, Option.some.injEq] at hstep
      subst hstep
      exact h.congr rfl rfl rfl rfl (fun hstart => absurd hstart hnot) (by simp)
    | succ left =>
      simp only [huser, Option.some.injEq] at hstep
      subst hstep
      refine h.congr rfl rfl rfl rfl (fun hstart => absurd hstart hnot) ?_
      by_cases hnone : s.reportEn = ∅ <;> simp [hnone]
  | flushArming left =>
    simp only [huser, Option.some.injEq] at hstep
    subst hstep
    exact inv_of_intr rfl (by simp)

theorem inv_step {s t : Hint} {a : Label} (h : Inv s) (hstep : step s a = some t) : Inv t := by
  cases a with
  | hint =>
    rw [step] at hstep
    split at hstep
    · cases hstep
      exact ⟨fun _ => Or.inr (Or.inl rfl), h.switchingOff⟩
    · cases hstep
  | spi => exact inv_spiStep h hstep
  | call command =>
    rw [step] at hstep
    split at hstep
    · rename_i hidle
      cases hstep
      have hnot : ¬ Starting s := not_starting (by simp [hidle]) (by simp [hidle])
      refine h.congr rfl rfl rfl rfl (fun hstart => absurd hstart hnot) ?_
      by_cases hnone : s.reportEn = ∅ <;> simp [hnone]
    · cases hstep
  | clearReports =>
    rw [step] at hstep
    split at hstep
    · cases hstep
      exact ⟨fun hne => absurd rfl hne, fun _ => rfl⟩
    · cases hstep
  | user answer => exact inv_userStep h hstep
  | read =>
    cases hstep
    exact h.congr rfl rfl rfl rfl (fun hstart _ => hstart) h.switchingOff
  | readArm =>
    rw [step] at hstep
    split at hstep
    · cases hstep
    · cases hstep
      exact ⟨fun _ => attended_of_intr rfl, h.switchingOff⟩

theorem inv_reach {s : Hint} (h : machine.Reach Machine.anyStep s) : Inv s := by
  refine Machine.Reach.invariant (I := Inv) ?_ (fun _ _ _ hinv _ hstep => inv_step hinv hstep) h
  rintro _ rfl
  exact ⟨fun hne => absurd rfl hne, by simp [boot]⟩

/-- No wake-up is lost: while a report is enabled and the SPI task sits in its wait without a
notification, the interrupt is on, or the task that has just enabled the first report is
about to switch it on. -/
theorem interrupt_on {s : Hint} (h : machine.Reach Machine.anyStep s) (hreport : s.reportEn ≠ ∅)
    (hblocked : s.spi = .taking) (hnone : s.notified = false) :
    s.intrEnabled = true ∨ Starting s := by
  rcases (inv_reach h).attended hreport with hon | hpending | hbusy | hstart
  · exact Or.inl hon
  · rw [hnone] at hpending
    cases hpending
  · exact absurd hblocked hbusy
  · exact Or.inr hstart

/-- The first report is enabled when the SPI task has looked at the reports for the last
time, and two readers before it are not through. -/
def gyroEnabled : List Label :=
  [.read, .read, .call (.enable .gyro), .user true, .readArm, .hint, .spi, .spi, .spi, .spi,
    .user true, .user true]

theorem interrupt_on_gyroEnabled :
    ∃ s, machine.exec boot gyroEnabled = some s ∧ (s.intrEnabled = true ∨ Starting s) := by
  obtain ⟨s, hrun, hreport, hblocked, hnone⟩ : ∃ s, machine.exec boot gyroEnabled = some s ∧
      s.reportEn ≠ ∅ ∧ s.spi = .taking ∧ s.notified = false := ⟨_, rfl, by decide, rfl, rfl⟩
  exact ⟨s, hrun, interrupt_on (Machine.reach_of_exec rfl (Machine.along_anyStep boot gyroEnabled)
    hrun) hreport hblocked hnone⟩

end HintInterrupt

end MarkitNode
