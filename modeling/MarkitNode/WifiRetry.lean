import MarkitNode.WifiTasks
import Mathlib.Data.List.Induction

/-!
The retries of `wifi_event_handler` over whole histories of driver events. The
counter is refilled when the station starts, not when it gets its address, so
outages that the retries have overcome go on counting. `sys_wifi_try_connect`
takes the failure bit for "connection failed for the maximum number of re-tries".
-/

namespace MarkitNode.WifiRetry

open WifiTasks

/-- The events that the handler is registered for. -/
inductive DriverEvent
  | staStart
  | staDisconnected
  | gotIp
  /-- any other `WIFI_EVENT` -/
  | other
  deriving DecidableEq, Repr

/-- What the handler asks of the driver and of the Wi-Fi event group. -/
inductive Call
  | espWifiConnect
  | setBits (e : WifiEvent)
  deriving DecidableEq, Repr

/-- `wifi_event_handler`: its calls, and `s_wifi_retry_num` when it returns. -/
def wifiEventHandler (retryNum : ℕ) : DriverEvent → List Call × ℕ
  | .staStart => ([.espWifiConnect], maxRetry)
  | .staDisconnected =>
      if retryNum > 0 then ([.espWifiConnect], retryNum - 1)
      else ([.setBits .fail], retryNum)
  | .gotIp => ([.setBits .connected], retryNum)
  | .other => ([], retryNum)

/-- `s_wifi_retry_num` after a history of events. -/
def retryAfter (history : List DriverEvent) : ℕ :=
  history.foldl (fun retryNum e => (wifiEventHandler retryNum e).2) maxRetry

/-- The calls for the next event. -/
def answer (history : List DriverEvent) (e : DriverEvent) : List Call :=
  (wifiEventHandler (retryAfter history) e).1

/-! ### Counting disconnects -/

/-- The disconnects since the last success or start. -/
def retriesSince : List DriverEvent → ℕ :=
  List.foldl (fun n e => match e with
    | .staStart | .gotIp => 0
    | .staDisconnected => n + 1
    | .other => n) 0

/-- The disconnects since the last start, whatever succeeded in between. -/
def disconnectsSinceStart : List DriverEvent → ℕ :=
  List.foldl (fun n e => match e with
    | .staStart => 0
    | .staDisconnected => n + 1
    | .gotIp | .other => n) 0

/-- A disconnect after fewer retries than allowed is answered with another one,
and one that is reported as a failure comes after all of them. -/
def MeetsBudget (history : List DriverEvent) : Prop :=
  ∀ before, before ++ [.staDisconnected] <+: history →
    (retriesSince before < maxRetry → answer before .staDisconnected = [.espWifiConnect]) ∧
      (.setBits .fail ∈ answer before .staDisconnected → maxRetry ≤ retriesSince before)

/-- A disconnect that comes after `maxRetry` others since the last start also
comes after as many since the last success. -/
def NoSuccessBetween (history : List DriverEvent) : Prop :=
  ∀ before, before ++ [.staDisconnected] <+: history →
    maxRetry ≤ disconnectsSinceStart before → maxRetry ≤ retriesSince before

theorem retryAfter_append (history : List DriverEvent) (e : DriverEvent) :
    retryAfter (history ++ [e]) = (wifiEventHandler (retryAfter history) e).2 := by
  rw [retryAfter, List.foldl_append]
  rfl

theorem disconnectsSinceStart_append (history : List DriverEvent) (e : DriverEvent) :
    disconnectsSinceStart (history ++ [e]) = match e with
      | .staStart => 0
      | .staDisconnected => disconnectsSinceStart history + 1
      | .gotIp | .other => disconnectsSinceStart history := by
  rw [disconnectsSinceStart, List.foldl_append]
  rfl

/-- The counter holds what is left of the budget since the last start. -/
theorem retryAfter_eq (history : List DriverEvent) :
    retryAfter history = maxRetry - disconnectsSinceStart history := by
  induction history using List.reverseRecOn with
  | nil => rfl
  | append_singleton history e ih =>
    rw [retryAfter_append, disconnectsSinceStart_append]
    cases e with
    | staStart => rfl
    | staDisconnected =>
      rw [wifiEventHandler]
      by_cases hleft : retryAfter history > 0
      · rw [if_pos hleft]
        dsimp only
        omega
      · rw [if_neg hleft]
        dsimp only
        omega
    | gotIp => exact ih
    | other => exact ih

/-- A disconnect is retried while the budget since the last start lasts. -/
theorem answer_staDisconnected (history : List DriverEvent) :
    answer history .staDisconnected =
      if disconnectsSinceStart history < maxRetry then [.espWifiConnect]
      else [.setBits .fail] := by
  have hretry := retryAfter_eq history
  rw [answer, wifiEventHandler]
  by_cases hbudget : disconnectsSinceStart history < maxRetry
  · rw [if_pos hbudget, if_pos (by omega)]
  · rw [if_neg hbudget, if_neg (by omega)]

/-- Every event other than a disconnect leaves the failure bit alone. -/
theorem fail_mem_answer {history : List DriverEvent} {e : DriverEvent}
    (h : .setBits .fail ∈ answer history e) :
    e = .staDisconnected ∧ maxRetry ≤ disconnectsSinceStart history := by
  cases e with
  | staDisconnected =>
    rw [answer_staDisconnected] at h
    refine ⟨rfl, ?_⟩
    by_contra hbudget
    rw [if_pos (by omega)] at h
    simp at h
  | staStart | gotIp | other => simp [answer, wifiEventHandler] at h

/-- The retries are as many as promised exactly where no success falls between
the disconnects that use them up. -/
theorem meetsBudget_iff (history : List DriverEvent) :
    MeetsBudget history ↔ NoSuccessBetween history := by
  constructor
  · intro hmeets before hbefore hused
    apply (hmeets before hbefore).2
    rw [answer_staDisconnected, if_neg (by omega)]
    exact List.mem_singleton.mpr rfl
  · intro hnone before hbefore
    have hkept := hnone before hbefore
    constructor
    · intro hfew
      rw [answer_staDisconnected, if_pos (by omega)]
    · intro hfail
      exact hkept (fail_mem_answer hfail).2

/-- Five outages of one disconnect each, all of them overcome. -/
def shortOutages : List DriverEvent :=
  .staStart :: .gotIp :: (List.replicate maxRetry [.staDisconnected, .gotIp]).flatten

/-- The sixth outage is reported as a failure without a single retry. -/
theorem sixth_outage_fails : ¬ ∀ history, MeetsBudget history := by
  intro h
  have hfail := (h (shortOutages ++ [.staDisconnected]) shortOutages (List.prefix_refl _)).2
  have hused : retriesSince shortOutages = 0 ∧
      .setBits .fail ∈ answer shortOutages .staDisconnected := by decide
  have hmax := hfail hused.2
  rw [hused.1] at hmax
  exact absurd hmax (by decide)

/-! ### The handler among the other tasks -/

/-- What the driver has done itself when it reports an event. -/
def driverAfter (d : Driver) : DriverEvent → Driver
  | .staDisconnected => d.disconnect
  | .gotIp => { d with link := true, connecting := false }
  | .staStart | .other => d

def perform (s : Wifi) : Call → Wifi
  | .espWifiConnect => { s with driver := s.driver.connect }
  | .setBits e => { s with wifiEvents := s.wifiEvents.setBit e }

def handleEvent (s : Wifi) (e : DriverEvent) : Wifi :=
  let (calls, retryNum) := wifiEventHandler s.retryNum e
  { calls.foldl perform { s with driver := driverAfter s.driver e } with retryNum := retryNum }

/-- The driver events of a run. -/
def delivered : Label → Option DriverEvent
  | .staStart => some .staStart
  | .staDisconnected => some .staDisconnected
  | .gotIp => some .gotIp
  | .loop _ | .handler | .bleWrite _ _ | .ble | .raise _ | .timer _ => none

theorem onStaDisconnected_eq (s : Wifi) :
    onStaDisconnected s = handleEvent s .staDisconnected := by
  by_cases hleft : s.retryNum > 0
  · simp [onStaDisconnected, handleEvent, wifiEventHandler, driverAfter, perform, hleft]
  · simp [onStaDisconnected, handleEvent, wifiEventHandler, driverAfter, perform, hleft]

/-- A driver event changes the shared state by the calls of the handler. -/
theorem step_delivered {s t : Wifi} {a : Label} {e : DriverEvent} (ha : delivered a = some e)
    (hstep : step s a = some t) : t = handleEvent s e := by
  cases a with
  | staStart =>
    cases ha
    simp only [step] at hstep
    by_cases hstarted : s.driver.started = true
    · rw [if_pos hstarted] at hstep
      exact (Option.some.inj hstep).symm
    · rw [if_neg hstarted] at hstep
      cases hstep
  | staDisconnected =>
    cases ha
    rw [← onStaDisconnected_eq]
    exact (Option.some.inj hstep).symm
  | gotIp =>
    cases ha
    simp only [step] at hstep
    by_cases hstarted : s.driver.started = true
    · rw [if_pos hstarted] at hstep
      exact (Option.some.inj hstep).symm
    · rw [if_neg hstarted] at hstep
      cases hstep
  | loop | handler | bleWrite | ble | raise | timer => cases ha

theorem handleEvent_retryNum (s : Wifi) (e : DriverEvent) :
    (handleEvent s e).retryNum = (wifiEventHandler s.retryNum e).2 := rfl

/-- The other tasks leave the counter alone. -/
theorem step_retryNum {s t : Wifi} {a : Label} (ha : delivered a = none)
    (hstep : step s a = some t) : t.retryNum = s.retryNum := by
  cases a with
  | loop ledManual =>
    simp only [step, Option.map_eq_some_iff] at hstep
    obtain ⟨_, _, rfl⟩ := hstep
    rfl
  | handler => exact (handlerStep_frame hstep).2
  | bleWrite ssid psk =>
    simp only [step] at hstep
    by_cases hidle : s.ble = .idle
    · rw [if_pos hidle] at hstep
      cases hstep
      rfl
    · rw [if_neg hidle] at hstep
      cases hstep
  | ble =>
    simp only [step, bleStep] at hstep
    split at hstep <;> cases hstep <;> rfl
  | raise e =>
    simp only [step] at hstep
    split at hstep <;> cases hstep
    rfl
  | timer e =>
    simp only [step] at hstep
    split at hstep
    · obtain ⟨_, _, rfl⟩ := Option.map_eq_some_iff.mp hstep
      rfl
    · cases hstep
  | staStart | staDisconnected | gotIp => cases ha

/-- However the tasks interleave, the counter is that of the driver events. -/
theorem retryNum_exec {s t : Wifi} {run : List Label} (hrun : machine.exec s run = some t)
    {history : List DriverEvent} (hs : s.retryNum = retryAfter history) :
    t.retryNum = retryAfter (history ++ run.filterMap delivered) := by
  induction run generalizing s history with
  | nil =>
    cases Option.some.inj hrun
    simpa using hs
  | cons a rest ih =>
    obtain ⟨u, hu, hrest⟩ := Machine.exec_cons_eq_some hrun
    cases ha : delivered a with
    | none =>
      rw [List.filterMap_cons_none ha]
      exact ih hrest ((step_retryNum ha hu).trans hs)
    | some e =>
      have hnext : u.retryNum = retryAfter (history ++ [e]) := by
        rw [step_delivered ha hu, handleEvent_retryNum, retryAfter_append, hs]
      rw [List.filterMap_cons_some ha, List.append_cons]
      exact ih hrest hnext

/-- In a run from boot a disconnect raises the failure bit after `maxRetry`
others since the last start, no matter how often the link came back. -/
theorem fail_of_run {ssid psk : Text} {run : List Label} {s t : Wifi}
    (hrun : machine.exec (boot ssid psk) run = some s) (hfail : s.wifiEvents .fail = false)
    (hstep : step s .staDisconnected = some t) :
    t.wifiEvents .fail = true ↔
      maxRetry ≤ disconnectsSinceStart (run.filterMap delivered) := by
  have hretry : s.retryNum = retryAfter ([] ++ run.filterMap delivered) :=
    retryNum_exec hrun rfl
  rw [List.nil_append] at hretry
  have hcalls := answer_staDisconnected (run.filterMap delivered)
  have hevents : t.wifiEvents .fail = true ↔
      answer (run.filterMap delivered) .staDisconnected = [.setBits .fail] := by
    rw [step_delivered rfl hstep, answer, ← hretry, wifiEventHandler, handleEvent,
      wifiEventHandler]
    by_cases hleft : s.retryNum > 0
    · simp [hleft, perform, hfail]
    · simp [hleft, perform]
  rw [hevents, hcalls]
  by_cases hbudget : disconnectsSinceStart (run.filterMap delivered) < maxRetry
  · simp [hbudget]
  · rw [if_neg hbudget]
    exact iff_of_true rfl (by omega)

end MarkitNode.WifiRetry
