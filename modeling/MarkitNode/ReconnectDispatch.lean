import Mathlib.Data.List.Count
import MarkitNode.SystemLoop

/-!
The part of `app_system_loop` that schedules reconnects, seen from the Wi-Fi
handler: which Wi-Fi bits are pending, which ones the current pass has taken
but not tested yet, the guard `EV_TASK_WIFI_RECONNECT`, and the reconnect
events on their way. Every step of the loop is one of six steps of this view.
-/

namespace MarkitNode.ReconnectDispatch

open SystemLoop

/-- The three bits of the Wi-Fi section. -/
@[ext] structure WifiBits where
  disconnected : Bool
  fail : Bool
  configUpdated : Bool

namespace WifiBits

def ofGroup (g : EventGroup SysEvent) : WifiBits :=
  ⟨g .wifiDisconnected, g .wifiFail, g .wifiConfigUpdated⟩

def none : WifiBits := ⟨false, false, false⟩

def any (w : WifiBits) : Bool := w.disconnected || w.fail || w.configUpdated

@[simp] theorem any_none : none.any = false := rfl

end WifiBits

/-- The claim of a reconnect: not made, guard about to be set, event about to be posted. -/
inductive Claim
  | none
  | setting
  | posting
  deriving DecidableEq

/-- Events that the claim stands for while the guard is set already. -/
def Claim.events : Claim → ℕ
  | .posting => 1
  | _ => 0

structure View where
  pending : WifiBits
  inHand : WifiBits
  guardSet : Bool
  claim : Claim
  queued : ℕ

/-- Before the pass has tested its Wi-Fi bits. -/
def beforeTest : LoopPc → Bool
  | .postTimeSync | .postDiscovery | .getReconnect => true
  | _ => false

def claimOf : LoopPc → Claim
  | .setReconnect => .setting
  | .postReconnect => .posting
  | _ => .none

def view (b : Bus) (l : Loop) : View where
  pending := .ofGroup b.sysEvents
  inHand := if beforeTest l.pc then .ofGroup l.bits else .none
  guardSet := b.taskEvents .wifiReconnect
  claim := claimOf l.pc
  queued := b.queue.count .wifiReconnect

/-- What a step of the loop can do to the view. `testing` tells whether the
step is the test of the guard. -/
inductive Step (testing : Prop) (v : View) : View → Prop
  | stay : Step testing v v
  | take : v.inHand = .none → v.claim = .none →
      Step testing v { v with pending := .none, inHand := v.pending }
  | drop : testing → v.guardSet = true → v.claim = .none →
      Step testing v { v with inHand := .none }
  | claim : testing → v.guardSet = false → v.claim = .none →
      Step testing v { v with inHand := .none, claim := .setting }
  | set : v.claim = .setting → Step testing v { v with guardSet := true, claim := .posting }
  | post : v.claim = .posting →
      Step testing v { v with queued := v.queued + 1, claim := .none }

section Sections

variable (b : Bus) (bits : EventGroup SysEvent)

theorem view_otaSection :
    view b ⟨otaSection bits, bits⟩ = { view b ⟨.waitBits, bits⟩ with inHand := .none } := by
  unfold otaSection powerSection modeSection
  (repeat' split) <;> rfl

theorem view_powerSection :
    view b ⟨powerSection bits, bits⟩ = view b ⟨.waitBits, bits⟩ := by
  unfold powerSection modeSection
  (repeat' split) <;> rfl

theorem view_modeSection : view b ⟨modeSection bits, bits⟩ = view b ⟨.waitBits, bits⟩ := by
  unfold modeSection
  split <;> rfl

theorem ofGroup_eq_none (h : wantsReconnect bits = false) : WifiBits.ofGroup bits = .none := by
  simp only [wantsReconnect, Bool.or_eq_false_iff] at h
  simp only [WifiBits.ofGroup, WifiBits.none, h]

theorem view_wifiSection :
    view b ⟨wifiSection bits, bits⟩ = view b ⟨.postTimeSync, bits⟩ := by
  unfold wifiSection
  split
  · rfl
  · next h =>
    rw [view_otaSection]
    simp [view, beforeTest, claimOf, ofGroup_eq_none bits (Bool.not_eq_true _ ▸ h)]

theorem view_startSection :
    view b ⟨startSection bits, bits⟩ = view b ⟨.postTimeSync, bits⟩ := by
  unfold startSection
  split
  · rfl
  · exact view_wifiSection b bits

theorem view_append {e : SysEventType} (l : Loop) (he : e ≠ .wifiReconnect) :
    view { b with queue := b.queue ++ [e] } l = view b l := by
  simp [view, List.count_append, he]

theorem view_post {b' : Bus} {e : SysEventType} (l : Loop) (h : b.post e = some b')
    (he : e ≠ .wifiReconnect) : view b' l = view b l := by
  rw [Bus.post_eq_some h]
  exact view_append b l he

theorem view_setSysEvent {e : SysEvent} (l : Loop) (hd : e ≠ .wifiDisconnected)
    (hf : e ≠ .wifiFail) (hc : e ≠ .wifiConfigUpdated) :
    view (b.setSysEvent e) l = view b l := by
  simp [view, Bus.setSysEvent, WifiBits.ofGroup, hd.symm, hf.symm, hc.symm]

@[simp] theorem pending_setFail (l : Loop) :
    view (b.setSysEvent .wifiFail) l =
      { view b l with pending := { (view b l).pending with fail := true } } := by
  simp [view, Bus.setSysEvent, WifiBits.ofGroup]

@[simp] theorem pending_setUpdated (l : Loop) :
    view (b.setSysEvent .wifiConfigUpdated) l =
      { view b l with pending := { (view b l).pending with configUpdated := true } } := by
  simp [view, Bus.setSysEvent, WifiBits.ofGroup]

@[simp] theorem guard_clearTask (l : Loop) :
    view (b.clearTaskEvent .wifiReconnect) l = { view b l with guardSet := false } := by
  simp [view, Bus.clearTaskEvent]

theorem view_setTaskEvent {e : TaskEvent} (l : Loop) (he : e ≠ .wifiReconnect) :
    view (b.setTaskEvent e) l = view b l := by
  simp [view, Bus.setTaskEvent, he.symm]

theorem view_clearTaskEvent {e : TaskEvent} (l : Loop) (he : e ≠ .wifiReconnect) :
    view (b.clearTaskEvent e) l = view b l := by
  simp [view, Bus.clearTaskEvent, he.symm]

end Sections

/-- Posting another event moves the loop on without changing the view. -/
theorem step_of_post {testing : Prop} {b : Bus} {l next : Loop} {e : SysEventType}
    (he : e ≠ .wifiReconnect) (hview : view b next = view b l) :
    Step testing (view b l) (view { b with queue := b.queue ++ [e] } next) := by
  rw [view_append b next he, hview]
  exact .stay

theorem step_of_posts {testing : Prop} {b : Bus} {bits : EventGroup SysEvent} {pc next : LoopPc}
    {e : SysEventType} (h : Posts bits pc e next) :
    Step testing (view b ⟨pc, bits⟩) (view { b with queue := b.queue ++ [e] } ⟨next, bits⟩) := by
  cases h with
  | discovery => exact step_of_post (by decide) (view_wifiSection b bits)
  | powerMgmt => exact step_of_post (by decide) (view_modeSection b bits)
  | timeSync | ota | modeChange | ledStatus => exact step_of_post (by decide) rfl
  | wifiReconnect =>
    have hview : view { b with queue := b.queue ++ [.wifiReconnect] } ⟨otaSection bits, bits⟩ =
        { view b ⟨.postReconnect, bits⟩ with
          queued := (view b ⟨.postReconnect, bits⟩).queued + 1, claim := .none } := by
      rw [view_otaSection]
      simp [view, List.count_append, beforeTest, claimOf]
    rw [hview]
    exact .post rfl

/-- Every step of the loop is a step of the view. -/
theorem loopStep_view {ledManual : Bool} {b b' : Bus} {l l' : Loop} {eff : LoopEffect}
    (h : loopStep ledManual b l = some (b', l', eff)) :
    Step (l.pc = .getReconnect) (view b l) (view b' l') := by
  cases loopStep_cases h with
  | take _ =>
    rw [view_startSection]
    exact .take rfl rfl
  | post hpost _ => exact step_of_posts hpost
  | @move bits _ _ _ hmove =>
    cases hmove with
    | reconnectScheduled hguard =>
      rw [view_otaSection]
      exact .drop rfl hguard rfl
    | reconnectFree hguard => exact .claim rfl hguard rfl
    | otaFailed =>
      rw [view_powerSection]
      exact .stay
    | setInactive | ledScheduled | ledFree | ledManual | ledAuto => exact .stay
  | setReconnect => exact .set rfl
  | @setLedStatus bits =>
    have hview := view_setTaskEvent b ⟨.setLedStatus, bits⟩ (e := .ledStatus) (by decide)
    exact hview ▸ .stay
  | @setModeChange bits =>
    have hview := view_setSysEvent b ⟨.otaModeChange, bits⟩ (e := .modeChange)
      (by decide) (by decide) (by decide)
    exact hview ▸ .stay

theorem step_queued_le {testing : Prop} {v v' : View} (h : Step testing v v') :
    v.queued ≤ v'.queued := by
  cases h with
  | post _ => exact Nat.le_succ _
  | _ => exact Nat.le_refl _

/-- The guard is the one token of a scheduled reconnect: it is set from its
claim until the handler is done, and meanwhile there is exactly one event. -/
structure Token (v : View) (handling : Bool) : Prop where
  count : v.claim.events + v.queued + handling.toNat = v.guardSet.toNat
  unset : v.claim = .setting → v.guardSet = false

theorem token_step {testing : Prop} {v v' : View} {handling : Bool} (h : Token v handling)
    (hstep : Step testing v v') : Token v' handling := by
  obtain ⟨hcount, hunset⟩ := h
  cases hstep with
  | stay => exact ⟨hcount, hunset⟩
  | take hhand hclaim => exact ⟨hcount, hunset⟩
  | drop htest hguard hclaim => exact ⟨hcount, hunset⟩
  | claim htest hguard hclaim =>
    rw [hclaim] at hcount
    exact ⟨hcount, fun _ => hguard⟩
  | set hclaim =>
    rw [hclaim, hunset hclaim] at hcount
    refine ⟨?_, nofun⟩
    simp only [Claim.events, Bool.toNat_false, Bool.toNat_true] at hcount ⊢
    omega
  | post hclaim =>
    rw [hclaim] at hcount
    refine ⟨?_, nofun⟩
    simp only [Claim.events] at hcount ⊢
    omega

theorem token_queued_or_handling {v : View} {handling : Bool} (h : Token v handling)
    (hguard : v.guardSet = true) (hclaim : v.claim = .none) :
    0 < v.queued ∨ handling = true := by
  have hcount := h.count
  rw [hguard, hclaim] at hcount
  cases handling with
  | false =>
    simp only [Claim.events, Bool.toNat_false, Bool.toNat_true] at hcount
    exact Or.inl (by omega)
  | true => exact Or.inr rfl

end MarkitNode.ReconnectDispatch
