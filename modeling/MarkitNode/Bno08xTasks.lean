import MarkitNode.Bno08xToggle

/-!
The tasks of the BNO08x driver. `BNO08x_initialize` allocates a list for callbacks
and creates the SPI task and the data-processing task, without a look at those
that exist, and nothing ends a task. It runs in `bno08x_init`, and again whenever
`bno08x_toggle` finds the sensor off and switches it on.
-/

namespace MarkitNode

namespace Bno08xTasks

open Bno08xToggle

/-- The tasks that exist for the device, the lists that are allocated, and the
handles and the pointer that record one of each. -/
structure Driver where
  spiTasks : List Nat
  dataProcTasks : List Nat
  cbLists : List Nat
  spiTaskHdl : Option Nat
  dataProcTaskHdl : Option Nat
  cbList : Option Nat
  /-- the number of the next object -/
  next : Nat
  deriving DecidableEq

/-- The outcomes of the calls that `BNO08x_initialize` makes. -/
structure InitResults where
  mallocOk : Bool
  spiTaskOk : Bool
  dataProcTaskOk : Bool
  resetOk : Bool
  resetReason : Nat
  deriving DecidableEq

namespace Driver

/-- The new list; the pointer to the old one is lost. -/
def allocCbList (device : Driver) : Driver :=
  { device with
    cbLists := device.next :: device.cbLists
    cbList := some device.next
    next := device.next + 1 }

/-- The handle is cleared and, if the task is created, set to it. -/
def createSpiTask (device : Driver) (created : Bool) : Driver :=
  if created then
    { device with
      spiTasks := device.next :: device.spiTasks
      spiTaskHdl := some device.next
      next := device.next + 1 }
  else { device with spiTaskHdl := none }

def createDataProcTask (device : Driver) (created : Bool) : Driver :=
  if created then
    { device with
      dataProcTasks := device.next :: device.dataProcTasks
      dataProcTaskHdl := some device.next
      next := device.next + 1 }
  else { device with dataProcTaskHdl := none }

end Driver

/-- `none` is the write through the null pointer of a failed allocation. -/
def bno08xInitialize (device : Driver) (r : InitResults) : Option (Bool × Driver) :=
  if !r.mallocOk then none
  else
    let device := (device.allocCbList.createSpiTask r.spiTaskOk).createDataProcTask r.dataProcTaskOk
    some (r.resetOk && decide (r.resetReason ≠ 0), device)

structure Device where
  imu : Imu
  driver : Driver
  deriving DecidableEq

/-- `s_bno08x` before its first call. -/
def zeroed : Device := ⟨⟨false, .fail⟩, ⟨[], [], [], none, none, none, 0⟩⟩

inductive Call
  | init (mutexOk : Bool) (r : InitResults)
  | toggle (enable sleepOk : Bool) (r : InitResults)
  deriving DecidableEq

/-- The call gets to `bno08x_config`. -/
def configures (s : Device) : Call → Bool
  | .init _ _ => true
  | .toggle enable _ _ => enable && !s.imu.enabled

def step (s : Device) : Call → Option Device
  | .init mutexOk r => do
      let (initOk, driver) ← bno08xInitialize s.driver r
      let imu : Imu := ⟨false, if mutexOk then .ready else .fail⟩
      return ⟨(bno08xConfig imu initOk).2, driver⟩
  | .toggle enable sleepOk r =>
      if enable && !s.imu.enabled then do
        let (initOk, driver) ← bno08xInitialize s.driver r
        return ⟨(bno08xToggle s.imu true initOk sleepOk).2, driver⟩
      else some { s with imu := (bno08xToggle s.imu enable true sleepOk).2 }

def machine : Machine Device Call := ⟨(· = zeroed), step⟩

/-- One object at most, and it is the one that is recorded. -/
def Recorded (objects : List Nat) (record : Option Nat) : Prop :=
  objects.length ≤ 1 ∧ ∀ object ∈ objects, record = some object

/-- One task of each kind and one list of callbacks. -/
structure OneSet (s : Device) : Prop where
  spiTask : Recorded s.driver.spiTasks s.driver.spiTaskHdl
  dataProcTask : Recorded s.driver.dataProcTasks s.driver.dataProcTaskHdl
  cbList : Recorded s.driver.cbLists s.driver.cbList

/-- `bno08x_config` is not reached a second time. -/
def FirstConfig (s : Device) (c : Call) : Prop := configures s c = true → s.driver.cbLists = []

instance (s : Device) (c : Call) : Decidable (FirstConfig s c) :=
  inferInstanceAs (Decidable (_ → _))

theorem recorded_nil (record : Option Nat) : Recorded [] record :=
  ⟨Nat.zero_le 1, nofun⟩

theorem recorded_singleton (object : Nat) : Recorded [object] (some object) := by
  refine ⟨Nat.le_refl 1, ?_⟩
  intro other hother
  rw [List.mem_singleton.mp hother]

/-- A call either leaves the driver as it is or adds a set to it. -/
theorem step_cases {s t : Device} {c : Call} (h : step s c = some t) :
    (configures s c = false ∧ t.driver = s.driver) ∨
    (configures s c = true ∧ ∃ spiTaskOk dataProcTaskOk,
      t.driver = (s.driver.allocCbList.createSpiTask spiTaskOk).createDataProcTask
        dataProcTaskOk) := by
  have hdriver : ∀ {r : InitResults} {initOk : Bool} {driver : Driver},
      bno08xInitialize s.driver r = some (initOk, driver) →
      driver = (s.driver.allocCbList.createSpiTask r.spiTaskOk).createDataProcTask
        r.dataProcTaskOk := by
    intro r initOk driver hinit
    rw [bno08xInitialize] at hinit
    split at hinit
    · cases hinit
    · exact (Prod.mk.inj (Option.some.inj hinit)).2.symm
  cases c with
  | init mutexOk r =>
    simp only [step, Option.bind_eq_bind, Option.bind_eq_some_iff, Option.pure_def,
      Option.some.injEq] at h
    obtain ⟨⟨initOk, driver⟩, hinit, rfl⟩ := h
    exact Or.inr ⟨rfl, r.spiTaskOk, r.dataProcTaskOk, hdriver hinit⟩
  | toggle enable sleepOk r =>
    rw [step] at h
    split at h
    · rename_i hwake
      simp only [Option.bind_eq_bind, Option.bind_eq_some_iff, Option.pure_def,
        Option.some.injEq] at h
      obtain ⟨⟨initOk, driver⟩, hinit, rfl⟩ := h
      exact Or.inr ⟨hwake, r.spiTaskOk, r.dataProcTaskOk, hdriver hinit⟩
    · rename_i hwake
      refine Or.inl ⟨?_, ?_⟩
      · exact Bool.eq_false_iff.mpr hwake
      · rw [← Option.some.inj h]

/-- Nothing of the driver has been created. -/
structure Unset (device : Driver) : Prop where
  spiTasks : device.spiTasks = []
  dataProcTasks : device.dataProcTasks = []
  cbLists : device.cbLists = []

/-- There is no task without a list. -/
def ListFirst (s : Device) : Prop := s.driver.cbLists = [] → Unset s.driver

section Sets

variable (device : Driver) (spiTaskOk dataProcTaskOk : Bool)

theorem cbLists_added :
    ((device.allocCbList.createSpiTask spiTaskOk).createDataProcTask dataProcTaskOk).cbLists =
      device.next :: device.cbLists := by
  cases spiTaskOk <;> cases dataProcTaskOk <;> rfl

variable {device}

/-- The first set is recorded, also when a task cannot be created. -/
theorem oneSet_first (h : Unset device) (imu : Imu) :
    OneSet ⟨imu, (device.allocCbList.createSpiTask spiTaskOk).createDataProcTask
      dataProcTaskOk⟩ := by
  obtain ⟨hspi, hdata, hlists⟩ := h
  have hcreate : ∀ created, Recorded (device.allocCbList.createSpiTask created).spiTasks
      (device.allocCbList.createSpiTask created).spiTaskHdl := by
    intro created
    cases created <;>
      simp [Driver.createSpiTask, Driver.allocCbList, hspi, recorded_nil, recorded_singleton]
  constructor
  · have hspiTask := hcreate spiTaskOk
    cases dataProcTaskOk <;> exact hspiTask
  · cases spiTaskOk <;> cases dataProcTaskOk <;>
      simp [Driver.createSpiTask, Driver.createDataProcTask, Driver.allocCbList, hdata,
        recorded_nil, recorded_singleton]
  · cases spiTaskOk <;> cases dataProcTaskOk <;>
      simp [Driver.createSpiTask, Driver.createDataProcTask, Driver.allocCbList, hlists,
        recorded_singleton]

end Sets

theorem step_listFirst {s t : Device} {c : Call} (h : ListFirst s) (hstep : step s c = some t) :
    ListFirst t := by
  rcases step_cases hstep with ⟨_, hdriver⟩ | ⟨_, spiTaskOk, dataProcTaskOk, hdriver⟩
  · rw [ListFirst, hdriver]
    exact h
  · intro hnone
    rw [hdriver, cbLists_added] at hnone
    cases hnone

theorem step_oneSet {s t : Device} {c : Call} (hfirst : ListFirst s) (h : OneSet s)
    (hok : FirstConfig s c) (hstep : step s c = some t) : OneSet t := by
  obtain ⟨imu, driver⟩ := t
  rcases step_cases hstep with ⟨_, hdriver⟩ | ⟨hreach, spiTaskOk, dataProcTaskOk, hdriver⟩
  · cases hdriver
    exact ⟨h.spiTask, h.dataProcTask, h.cbList⟩
  · cases hdriver
    exact oneSet_first spiTaskOk dataProcTaskOk (hfirst (hok hreach)) imu

/-- A second set does not replace the first. -/
theorem step_twoSets {s t : Device} {c : Call} (hbad : ¬ FirstConfig s c)
    (hstep : step s c = some t) : ¬ OneSet t := by
  intro h
  rw [FirstConfig, Classical.not_imp] at hbad
  obtain ⟨hreach, hlists⟩ := hbad
  rcases step_cases hstep with ⟨hskip, _⟩ | ⟨_, spiTaskOk, dataProcTaskOk, hdriver⟩
  · rw [hskip] at hreach
    cases hreach
  · have hone := h.cbList.1
    rw [hdriver, cbLists_added, List.length_cons] at hone
    have hpos := List.length_pos_iff.mpr hlists
    omega

/-- There is one set throughout exactly in the runs in which the driver is set up
once. -/
theorem oneSet_iff_configuredOnce {calls : List Call} {t : Device}
    (hrun : machine.exec zeroed calls = some t) :
    machine.Throughout OneSet zeroed calls ↔ machine.Along FirstConfig zeroed calls :=
  Machine.throughout_iff_along (J := ListFirst) (I := OneSet)
    (fun _ _ _ h hstep => step_listFirst h hstep)
    (fun _ _ _ hfirst h hok hstep => step_oneSet hfirst h hok hstep)
    (fun _ _ _ _ _ hbad hstep => step_twoSets hbad hstep)
    (fun _ _ h => h) (fun _ => ⟨rfl, rfl, rfl⟩)
    ⟨recorded_nil _, recorded_nil _, recorded_nil _⟩ hrun

/-- The outcomes of a driver that does as it is told. -/
def allOk : InitResults := ⟨true, true, true, true, 1⟩

def offAgain : List Call := [.init true allOk, .toggle false true allOk]

theorem oneSet_offAgain :
    machine.Throughout OneSet zeroed offAgain ↔ machine.Along FirstConfig zeroed offAgain := by
  obtain ⟨t, hrun⟩ : ∃ t, machine.exec zeroed offAgain = some t := ⟨_, rfl⟩
  exact oneSet_iff_configuredOnce hrun

/-- Switched on again, the sensor has two tasks of each kind. -/
theorem twoSets_onAgain :
    ¬ ∀ calls t, machine.exec zeroed calls = some t → machine.Throughout OneSet zeroed calls := by
  intro h
  have hall := h (offAgain ++ [.toggle true true allOk]) _ rfl
  have hlast : OneSet ⟨⟨true, .ready⟩, ⟨[4, 1], [5, 2], [3, 0], some 4, some 5, some 3, 6⟩⟩ :=
    hall.2.2.2
  exact absurd hlast.spiTask.1 (by decide)

end Bno08xTasks

end MarkitNode
