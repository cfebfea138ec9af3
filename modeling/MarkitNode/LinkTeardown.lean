import MarkitNode.ReconnectToken

/-!
What takes down a link that a run of the reconnect handler has brought up. The
handler raises the bit that schedules it, and relies on the dispatcher to throw
that bit away while the guard is set. A dispatcher that lags behind finds the
bit when the guard is clear again, and schedules a reconnect for nothing.
-/

namespace MarkitNode.LinkTeardown

open SystemLoop ReconnectDispatch ReconnectToken WifiTasks

/-- The tasks, and whether the link that the last attempt has brought up is
still good: no disconnect, no failure and no new credentials since. -/
structure Link where
  wifi : Wifi
  fresh : Bool

/-- What a step means for the link: it comes up in the attempt that waits for
it, and whatever gives a reason to reconnect ends its freshness. -/
def freshAfter (s : Link) : Label → Bool
  | .gotIp => s.fresh || s.wifi.handler == .waitBits
  | .staDisconnected => false
  | .ble => s.fresh && s.wifi.ble != .setUpdated
  | .handler => s.fresh && s.wifi.handler != .disconnect && s.wifi.handler != .setFail
  | .loop _ | .bleWrite _ _ | .staStart | .raise _ | .timer _ => s.fresh

def step (s : Link) (a : Label) : Option Link :=
  (WifiTasks.step s.wifi a).map fun t => ⟨t, freshAfter s a⟩

def machine : Machine Link Label where
  Init s := ∃ ssid psk, s = ⟨boot ssid psk, false⟩
  step := step

/-- The dispatcher has taken, and tested against the guard, every Wi-Fi bit
that was raised before the handler gives the guard of a fresh link back. -/
def DispatcherCaughtUp (s : Link) : Label → Prop
  | .handler => s.wifi.handler = .clearTask → s.fresh = true →
      wantsReconnect s.wifi.bus.sysEvents = false ∧
        (beforeTest s.wifi.loop.pc = true → wantsReconnect s.wifi.loop.bits = false)
  | _ => True

instance (s : Link) : DecidablePred (DispatcherCaughtUp s)
  | .handler => inferInstanceAs (Decidable (_ → _))
  | .loop _ | .bleWrite _ _ | .ble | .staStart | .staDisconnected | .gotIp | .raise _
  | .timer _ => inferInstanceAs (Decidable True)

/-- The loop reaches the test of its guard with bits that ask for it. -/
def TestsForBits (l : Loop) : Prop := l.pc = .getReconnect → wantsReconnect l.bits = true

section Sections

variable (bits : EventGroup SysEvent)

theorem modeSection_ne : modeSection bits ≠ .getReconnect := by
  unfold modeSection
  split <;> nofun

theorem powerSection_ne : powerSection bits ≠ .getReconnect := by
  unfold powerSection
  split
  · nofun
  · exact modeSection_ne bits

theorem otaSection_ne : otaSection bits ≠ .getReconnect := by
  unfold otaSection
  split
  · nofun
  · exact powerSection_ne bits

theorem wifiSection_tests : TestsForBits ⟨wifiSection bits, bits⟩ := by
  intro hpc
  by_contra hnone
  apply otaSection_ne bits
  rwa [wifiSection, if_neg hnone] at hpc

theorem startSection_tests : TestsForBits ⟨startSection bits, bits⟩ := by
  unfold startSection
  split
  · nofun
  · exact wifiSection_tests bits

end Sections

theorem loopStep_tests {ledManual : Bool} {b b' : Bus} {l l' : Loop} {eff : LoopEffect}
    (hstep : loopStep ledManual b l = some (b', l', eff)) : TestsForBits l' := by
  cases loopStep_cases hstep with
  | take _ => exact startSection_tests b.sysEvents
  | @post bits _ _ _ hpost _ =>
    cases hpost with
    | discovery => exact wifiSection_tests bits
    | wifiReconnect => exact fun hpc => absurd hpc (otaSection_ne bits)
    | powerMgmt => exact fun hpc => absurd hpc (modeSection_ne bits)
    | timeSync | ota | modeChange | ledStatus => exact nofun
  | @move bits _ _ _ hmove =>
    cases hmove with
    | reconnectScheduled _ => exact fun hpc => absurd hpc (otaSection_ne bits)
    | otaFailed => exact fun hpc => absurd hpc (powerSection_ne bits)
    | reconnectFree | setInactive | ledScheduled | ledFree | ledManual | ledAuto => exact nofun
  | setReconnect | setLedStatus | setModeChange => exact nofun

/-! ### A link that stays up -/

/-- Nothing is on its way that would run the handler. -/
structure Quiet (v : View) : Prop where
  pending : v.pending.any = false
  inHand : v.inHand.any = false
  claim : v.claim = .none
  queued : v.queued = 0

theorem quiet_step {testing : Prop} {v v' : View} (h : Quiet v)
    (htests : testing → v.inHand.any = true) (hstep : Step testing v v') : Quiet v' := by
  cases hstep with
  | stay => exact h
  | take _ _ => exact ⟨rfl, h.pending, h.claim, h.queued⟩
  | drop _ _ _ => exact ⟨h.pending, rfl, h.claim, h.queued⟩
  | claim htest _ _ =>
    have hany := htests htest
    rw [h.inHand] at hany
    cases hany
  | set hclaim =>
    rw [h.claim] at hclaim
    cases hclaim
  | post hclaim =>
    rw [h.claim] at hclaim
    cases hclaim

/-- The attempt that has brought the link up is not over. -/
def succeeding : HandlerPc → Bool
  | .waitBits | .markConnected | .setConnected | .clearFail | .clearTask => true
  | _ => false

/-- Where the tasks can be while the link is fresh. -/
inductive Holds (s : Wifi) : Prop
  | attempt : succeeding s.handler = true →
      (s.handler = .waitBits → s.wifiEvents .connected = true) → Holds s
  | between : handling s.handler = false → Quiet (Wifi.view s) → Holds s

structure Inv (s : Link) : Prop where
  token : Token (Wifi.view s.wifi) (handling s.wifi.handler)
  tests : TestsForBits s.wifi.loop
  holds : s.fresh = true → Holds s.wifi

theorem Holds.congr {s t : Wifi} (h : Holds s) (hhandler : t.handler = s.handler)
    (hevents : s.wifiEvents .connected = true → t.wifiEvents .connected = true)
    (hview : Quiet (Wifi.view s) → Quiet (Wifi.view t)) : Holds t := by
  cases h with
  | attempt hpc hconnected =>
    apply Holds.attempt
    · rwa [hhandler]
    · rw [hhandler]
      exact fun hwait => hevents (hconnected hwait)
  | between hpc hquiet =>
    apply Holds.between
    · rwa [hhandler]
    · exact hview hquiet

/-- When the handler gives its guard back nothing else is scheduled. -/
theorem token_last {v : View} (h : Token v true) : v.claim = .none ∧ v.queued = 0 := by
  have hcount := h.count
  have hle := Bool.toNat_le v.guardSet
  cases hclaim : v.claim with
  | none =>
    rw [Bool.toNat_true] at hcount
    exact ⟨rfl, by omega⟩
  | setting =>
    rw [h.unset hclaim, Bool.toNat_true, Bool.toNat_false] at hcount
    omega
  | posting =>
    rw [hclaim, Bool.toNat_true, Claim.events] at hcount
    omega

theorem handler_holds {s : Link} {t : Wifi} (h : Inv s) (hok : DispatcherCaughtUp s .handler)
    (hfresh : s.fresh = true) (hstep : handlerStep s.wifi = some t) : Holds t := by
  obtain ⟨htoken, _, hholds⟩ := h
  cases hholds hfresh with
  | attempt hpc hconnected =>
    cases hhandler : s.wifi.handler with
    | waitBits =>
      simp only [handlerStep, hhandler, hconnected hhandler, if_true] at hstep
      cases hstep
      exact .attempt rfl (by simp)
    | markConnected | setConnected | clearFail =>
      simp only [handlerStep, hhandler] at hstep
      cases hstep
      exact .attempt rfl (by simp)
    | clearTask =>
      obtain ⟨hpending, hinHand⟩ := hok hhandler hfresh
      rw [hhandler] at htoken
      obtain ⟨hclaim, hqueued⟩ := token_last htoken
      simp only [handlerStep, hhandler] at hstep
      cases hstep
      apply Holds.between rfl
      rw [Wifi.view, guard_clearTask]
      refine ⟨hpending, ?_, hclaim, hqueued⟩
      by_cases hbefore : beforeTest s.wifi.loop.pc = true
      · simp only [view, if_pos hbefore]
        exact hinHand hbefore
      · simp only [view, if_neg hbefore]
        rfl
    | disconnect | stop | clearConnected | setDisconnected | copySsid | copyPsk | clearGroup
    | start | markFailed | setFail | idle | other =>
      rw [hhandler] at hpc
      cases hpc
  | between hpc hquiet =>
    cases hhandler : s.wifi.handler with
    | idle =>
      rcases idle_cases hhandler hstep with ⟨rest, hqueue, _⟩ | ⟨e, hview, ht⟩
      · have hqueued := hquiet.queued
        simp [Wifi.view, view, hqueue] at hqueued
      · apply Holds.between
        · rw [ht]
          rfl
        · rwa [hview]
    | other e =>
      obtain ⟨hview, ht⟩ := other_cases hhandler hstep
      apply Holds.between
      · rw [ht]
        rfl
      · rwa [hview]
    | _ =>
      rw [hhandler] at hpc
      cases hpc

/-- A step in which the link stays fresh finds it, and leaves it, in one of its places. -/
theorem step_holds {s : Link} {t : Wifi} {a : Label} (h : Inv s) (hok : DispatcherCaughtUp s a)
    (hstep : WifiTasks.step s.wifi a = some t) (hfresh : freshAfter s a = true) :
    Holds t := by
  cases a with
  | loop ledManual =>
    obtain ⟨hview, ht⟩ := loop_view hstep
    have hbits : s.wifi.loop.pc = .getReconnect → (Wifi.view s.wifi).inHand.any = true := by
      intro hpc
      simp only [Wifi.view, view, hpc, beforeTest, if_true]
      exact h.tests hpc
    rw [ht] at hview ⊢
    exact (h.holds hfresh).congr rfl id fun hquiet => quiet_step hquiet hbits hview
  | handler =>
    simp only [freshAfter, Bool.and_eq_true] at hfresh
    exact handler_holds h hok hfresh.1.1 hstep
  | bleWrite ssid psk =>
    simp only [WifiTasks.step] at hstep
    split at hstep <;> cases hstep
    exact (h.holds hfresh).congr rfl id id
  | ble =>
    simp only [freshAfter, Bool.and_eq_true, bne_iff_ne] at hfresh
    rcases ble_view hstep with ⟨hview, ht⟩ | ⟨hset, _, _⟩
    · rw [ht] at hview ⊢
      exact (h.holds hfresh.1).congr rfl id (hview ▸ id)
    · exact absurd hset hfresh.2
  | staStart =>
    simp only [WifiTasks.step] at hstep
    split at hstep <;> cases hstep
    exact (h.holds hfresh).congr rfl id id
  | staDisconnected => cases hfresh
  | gotIp =>
    simp only [WifiTasks.step] at hstep
    split at hstep <;> cases hstep
    have hconnected : (onGotIp s.wifi).wifiEvents .connected = true :=
      EventGroup.setBit_self s.wifi.wifiEvents .connected
    by_cases hold : s.fresh = true
    · exact (h.holds hold).congr rfl (fun _ => hconnected) id
    · have hwait : s.wifi.handler = .waitBits := by
        simpa [freshAfter, hold] using hfresh
      apply Holds.attempt
      · change succeeding s.wifi.handler = true
        rw [hwait]
        rfl
      · exact fun _ => hconnected
  | raise e =>
    obtain ⟨hview, ht⟩ := raise_view hstep
    rw [ht] at hview ⊢
    exact (h.holds hfresh).congr rfl id (hview ▸ id)
  | timer e =>
    obtain ⟨hview, ht⟩ := timer_view hstep
    rw [ht] at hview ⊢
    exact (h.holds hfresh).congr rfl id (hview ▸ id)

theorem step_tests {s t : Wifi} {a : Label} (h : TestsForBits s.loop)
    (hstep : WifiTasks.step s a = some t) : TestsForBits t.loop := by
  cases a with
  | loop ledManual =>
    obtain ⟨r, hloop, rfl⟩ := Option.map_eq_some_iff.mp hstep
    exact loopStep_tests hloop
  | handler => rwa [(handlerStep_frame hstep).1]
  | ble =>
    rcases ble_view hstep with ⟨_, ht⟩ | ⟨_, ht, _⟩
    · rwa [ht]
    · rwa [ht]
  | staDisconnected =>
    cases hstep
    unfold onStaDisconnected
    split <;> exact h
  | raise e => rwa [(raise_view hstep).2]
  | timer e => rwa [(timer_view hstep).2]
  | bleWrite | staStart | gotIp =>
    simp only [WifiTasks.step] at hstep
    split at hstep <;> cases hstep
    exact h

theorem step_inv {s t : Link} {a : Label} (h : Inv s) (hok : DispatcherCaughtUp s a)
    (hstep : machine.step s a = some t) : Inv t := by
  obtain ⟨w, hw, rfl⟩ := Option.map_eq_some_iff.mp hstep
  exact ⟨step_token h.token hw, step_tests h.tests hw, step_holds h hok hw⟩

theorem reach_inv {s : Link} (h : machine.Reach DispatcherCaughtUp s) : Inv s := by
  refine h.invariant ?_ ?_
  · rintro s ⟨ssid, psk, rfl⟩
    exact ⟨⟨rfl, nofun⟩, nofun, nofun⟩
  · intro s a t hs hok hstep
    exact step_inv hs hok hstep

/-- The runs are those of the tasks: whether the link is fresh is only observed. -/
theorem exec_wifi (s : Link) (run : List Label) :
    (machine.exec s run).map Link.wifi = WifiTasks.machine.exec s.wifi run := by
  induction run generalizing s with
  | nil => rfl
  | cons a rest ih =>
    cases hstep : WifiTasks.step s.wifi a with
    | none =>
      have hnone : machine.step s a = none := by
        simp only [machine, step, hstep, Option.map_none]
      simp only [Machine.exec, hnone, WifiTasks.machine, hstep, Option.map_none]
    | some t =>
      have hsome : machine.step s a = some ⟨t, freshAfter s a⟩ := by
        simp only [machine, step, hstep, Option.map_some]
      rw [Machine.exec_cons_of_step hsome, ih]
      exact (Machine.exec_cons_of_step (M := WifiTasks.machine) hstep rest).symm

/-- As long as the dispatcher keeps up with the handler, no run of the handler
begins on a fresh link. -/
theorem fresh_link_kept {s : Link} (h : machine.Reach DispatcherCaughtUp s)
    (hdisconnect : s.wifi.handler = .disconnect) : s.fresh = false := by
  by_contra hfresh
  cases (reach_inv h).holds (Bool.not_eq_false _ ▸ hfresh) with
  | attempt hpc _ =>
    rw [hdisconnect] at hpc
    cases hpc
  | between hpc _ =>
    rw [hdisconnect] at hpc
    cases hpc

/-- New credentials arrive after the first connection. -/
def reconfigured : List Label :=
  firstConnected ++ loops 4 ++ [.bleWrite [1] [2]] ++ List.replicate 5 .ble ++ loops 5 ++
    handles 7

theorem fresh_link_kept_reconfigured :
    ∃ s, machine.exec ⟨boot [] [], false⟩ reconfigured = some s ∧
      s.wifi.handler = .disconnect ∧ s.fresh = false := by
  have halong : machine.Along DispatcherCaughtUp ⟨boot [] [], false⟩ reconfigured := by
    decide +kernel
  refine ⟨_, rfl, rfl, ?_⟩
  exact fresh_link_kept (Machine.reach_of_exec ⟨[], [], rfl⟩ halong rfl) rfl

/-- The dispatcher does not run again before the first attempt has succeeded,
and then finds the bit that the attempt itself has raised. -/
def lagging : List Label :=
  loops 8 ++ handles 9 ++ [.staStart, .gotIp] ++ handles 5 ++ loops 7 ++ handles 7

theorem fresh_link_torn_down :
    ¬ ∀ s, machine.Reach Machine.anyStep s → s.wifi.handler = .disconnect →
      s.fresh = false := by
  intro h
  obtain ⟨s, hrun, hdisconnect, hfresh⟩ : ∃ s,
      machine.exec ⟨boot [] [], false⟩ lagging = some s ∧ s.wifi.handler = .disconnect ∧
        s.fresh = true := ⟨_, rfl, rfl, rfl⟩
  have hreach : machine.Reach Machine.anyStep s :=
    Machine.reach_of_exec ⟨[], [], rfl⟩ (Machine.along_anyStep _ lagging) hrun
  rw [h s hreach hdisconnect] at hfresh
  cases hfresh

end MarkitNode.LinkTeardown
