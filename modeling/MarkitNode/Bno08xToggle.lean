import MarkitNode.Machine
import MarkitNode.StatusCodes

/-!
Switching the BNO08x on and off. `bno08x_toggle` keeps the outcome in a `bool`:
`BNO08x_mode_sleep` returns one, but `bno08x_config` returns an `esp_err_t`, in
which success is 0. A failed configuration counts as a success and a successful
one as a failure; `enabled` is set either way.
-/

namespace MarkitNode

namespace Bno08xToggle

/-- The fields of `imu_t` in question. -/
structure Imu where
  enabled : Bool
  status : ImuStatus
  deriving DecidableEq

/-- `initOk` is the outcome of `BNO08x_initialize`. -/
def bno08xConfig (pImu : Imu) (initOk : Bool) : EspErr × Imu :=
  if !initOk then (.fail, { pImu with status := .fail })
  else (.ok, { pImu with enabled := true })

/-- `bno08x_init` once its mutex exists. -/
def bno08xInit (initOk : Bool) : EspErr × Imu := bno08xConfig ⟨false, .ready⟩ initOk

/-- `sleepOk` is the outcome of `BNO08x_mode_sleep`. -/
def bno08xToggle (pImu : Imu) (enable initOk sleepOk : Bool) : EspErr × Imu :=
  if enable = pImu.enabled then (.ok, pImu)
  else if enable then
    let (err, pImu) := bno08xConfig pImu initOk
    let success := err.toBool
    (if success then .ok else .fail,
      { pImu with enabled := if success then true else pImu.enabled })
  else
    let success := sleepOk
    (if success then .ok else .fail,
      { pImu with enabled := if success then false else pImu.enabled })

/-! ### Runs -/

structure Sensor where
  imu : Imu
  /-- configured and awake -/
  awake : Bool
  /-- what the last call asked for, and what it returned -/
  lastCall : Option (Bool × EspErr)
  deriving DecidableEq

/-- A call, with the outcomes of the calls of the driver that it may make. -/
structure Call where
  enable : Bool
  initOk : Bool
  sleepOk : Bool
  deriving DecidableEq

/-- The chip: a hard reset and an initialisation leave it awake if that succeeds,
and a `BNO08x_mode_sleep` that succeeds puts it to sleep. -/
def awakeAfter (s : Sensor) (c : Call) : Bool :=
  if c.enable = s.imu.enabled then s.awake
  else if c.enable then c.initOk
  else s.awake && !c.sleepOk

def step (s : Sensor) (c : Call) : Option Sensor :=
  let (err, imu) := bno08xToggle s.imu c.enable c.initOk c.sleepOk
  some ⟨imu, awakeAfter s c, some (c.enable, err)⟩

/-- The sensor after `bno08x_init`. -/
def start (initOk : Bool) : Sensor := ⟨(bno08xInit initOk).2, initOk, none⟩

def machine : Machine Sensor Call := ⟨fun s => ∃ initOk, s = start initOk, step⟩

/-- The last call reported whether the sensor is as it asked for, and `enabled`
says how it is. -/
structure Right (s : Sensor) : Prop where
  returned : ∀ enable err, s.lastCall = some (enable, err) → (err = .ok ↔ s.awake = enable)
  enabled : s.imu.enabled = s.awake

/-- The call does not switch a sensor on that `enabled` says is off. -/
def NoWake (s : Sensor) (c : Call) : Prop := ¬ (c.enable = true ∧ s.imu.enabled = false)

instance (s : Sensor) (c : Call) : Decidable (NoWake s c) :=
  inferInstanceAs (Decidable (¬ _))

/-! ### One call -/

/-- A sensor that `enabled` says is off is not awake. -/
def OffAsleep (s : Sensor) : Prop := s.imu.enabled = false → s.awake = false

theorem toggle_same {pImu : Imu} {enable : Bool} (h : enable = pImu.enabled)
    (initOk sleepOk : Bool) :
    bno08xToggle pImu enable initOk sleepOk = (.ok, pImu) := if_pos h

theorem toggle_off {pImu : Imu} (h : pImu.enabled = true) (initOk sleepOk : Bool) :
    bno08xToggle pImu false initOk sleepOk =
      (if sleepOk then .ok else .fail, { pImu with enabled := !sleepOk }) := by
  rw [bno08xToggle, if_neg (by rw [h]; nofun), if_neg nofun]
  cases sleepOk <;> simp [h]

/-- The outcome comes out negated, and `enabled` set. -/
theorem toggle_on {pImu : Imu} (h : pImu.enabled = false) (initOk sleepOk : Bool) :
    bno08xToggle pImu true initOk sleepOk =
      (if initOk then .fail else .ok,
        ⟨true, if initOk then pImu.status else .fail⟩) := by
  rw [bno08xToggle, if_neg (by rw [h]; nofun), if_pos rfl]
  cases initOk <;> simp [bno08xConfig]

/-- The three kinds of calls. -/
theorem step_cases {s t : Sensor} {c : Call} (hstep : step s c = some t) :
    (c.enable = s.imu.enabled ∧ t = ⟨s.imu, s.awake, some (c.enable, .ok)⟩) ∨
    (c.enable = false ∧ s.imu.enabled = true ∧
      t = ⟨{ s.imu with enabled := !c.sleepOk }, s.awake && !c.sleepOk,
        some (false, if c.sleepOk then .ok else .fail)⟩) ∨
    (c.enable = true ∧ s.imu.enabled = false ∧
      t = ⟨⟨true, if c.initOk then s.imu.status else .fail⟩, c.initOk,
        some (true, if c.initOk then .fail else .ok)⟩) := by
  rw [step] at hstep
  by_cases hsame : c.enable = s.imu.enabled
  · rw [toggle_same hsame, awakeAfter, if_pos hsame] at hstep
    exact Or.inl ⟨hsame, (Option.some.inj hstep).symm⟩
  · cases henable : c.enable with
    | false =>
      have hon : s.imu.enabled = true := by
        rw [henable] at hsame
        simpa using Ne.symm hsame
      rw [henable, toggle_off hon, awakeAfter, if_neg hsame, henable] at hstep
      simp only [Bool.false_eq_true, if_false] at hstep
      exact Or.inr (Or.inl ⟨rfl, hon, (Option.some.inj hstep).symm⟩)
    | true =>
      have hoff : s.imu.enabled = false := by
        rw [henable] at hsame
        simpa using Ne.symm hsame
      rw [henable, toggle_on hoff, awakeAfter, if_neg hsame, henable, if_pos rfl] at hstep
      exact Or.inr (Or.inr ⟨rfl, hoff, (Option.some.inj hstep).symm⟩)

theorem step_offAsleep {s t : Sensor} {c : Call} (h : OffAsleep s) (hstep : step s c = some t) :
    OffAsleep t := by
  rcases step_cases hstep with ⟨_, rfl⟩ | ⟨_, _, rfl⟩ | ⟨_, _, rfl⟩
  · exact h
  · intro hoff
    have hslept : c.sleepOk = true := by simpa using hoff
    simp [hslept]
  · exact nofun

/-- A call that finds the sensor as it should be, or puts it to sleep, is right. -/
theorem step_right {s t : Sensor} {c : Call} (h : Right s) (hok : NoWake s c)
    (hstep : step s c = some t) : Right t := by
  have henabled := h.enabled
  rcases step_cases hstep with ⟨hsame, rfl⟩ | ⟨_, hon, rfl⟩ | ⟨hwake, hoff, _⟩
  · refine ⟨?_, henabled⟩
    intro enable err hlast
    obtain ⟨rfl, rfl⟩ := Prod.mk.inj (Option.some.inj hlast)
    simp only [true_iff]
    rw [hsame, henabled]
  · rw [← henabled, hon]
    refine ⟨?_, ?_⟩
    · intro enable err hlast
      obtain ⟨rfl, rfl⟩ := Prod.mk.inj (Option.some.inj hlast)
      cases c.sleepOk <;> simp
    · simp only [Bool.true_and]
  · exact absurd ⟨hwake, hoff⟩ hok

/-- A call that switches the sensor on reports the opposite of what has come about. -/
theorem step_wrong {s t : Sensor} {c : Call} (hbad : ¬ NoWake s c) (hstep : step s c = some t) :
    ¬ Right t := by
  intro h
  obtain ⟨hwake, hoff⟩ := not_not.mp hbad
  rcases step_cases hstep with ⟨hsame, _⟩ | ⟨hsleep, _, _⟩ | ⟨_, _, rfl⟩
  · rw [hwake, hoff] at hsame
    cases hsame
  · rw [hwake] at hsleep
    cases hsleep
  · have hreturned := h.returned _ _ rfl
    cases hinit : c.initOk <;> simp [hinit] at hreturned

/-! ### A run -/

theorem exec_total (s : Sensor) (calls : List Call) : ∃ t, machine.exec s calls = some t := by
  induction calls generalizing s with
  | nil => exact ⟨s, rfl⟩
  | cons c rest ih => exact ih _

theorem right_start (initOk : Bool) : Right (start initOk) := by
  refine ⟨nofun, ?_⟩
  cases initOk <;> rfl

theorem start_offAsleep (initOk : Bool) : OffAsleep (start initOk) := by
  intro hoff
  rw [← (right_start initOk).enabled, hoff]

/-- The calls are right all along exactly in the runs in which none switches the
sensor on. -/
theorem toggles_right_iff (initOk : Bool) (calls : List Call) :
    machine.Throughout Right (start initOk) calls ↔
      machine.Along NoWake (start initOk) calls := by
  obtain ⟨t, hrun⟩ := exec_total (start initOk) calls
  exact Machine.throughout_iff_along (J := OffAsleep) (I := Right)
    (fun _ _ _ h hstep => step_offAsleep h hstep)
    (fun _ _ _ _ h hok hstep => step_right h hok hstep)
    (fun _ _ _ _ _ hbad hstep => step_wrong hbad hstep)
    (fun _ _ h => h) (start_offAsleep initOk) (right_start initOk) hrun

/-- Off and on again, with a driver that does as it is told. -/
def offOn : List Call := [⟨false, true, true⟩, ⟨true, true, true⟩]

theorem offOn_reports_failure :
    ¬ ∀ initOk calls, machine.Throughout Right (start initOk) calls := by
  intro h
  have hlast := (h true offOn).2.2
  have hreturned := hlast.returned true .fail rfl
  exact absurd (hreturned.mpr rfl) nofun

end Bno08xToggle

end MarkitNode
