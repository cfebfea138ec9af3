import MarkitNode.ReconnectToken

/-!
Reconnect wake-ups. While the station is not connected, something must still
be on its way that leads to another attempt: a Wi-Fi bit, a claim of the
dispatcher, a queued event, or a handler that has not recorded its outcome.
The handler records a failure before it gives its guard back, and in between
the dispatcher throws the failure bit away.
-/

namespace MarkitNode.ReconnectWakeups

open SystemLoop ReconnectDispatch ReconnectToken WifiTasks

/-- The attempt is still open, or its failure is still to be raised. -/
def deciding : HandlerPc → Bool
  | .setConnected | .clearFail | .clearTask | .idle | .other _ => false
  | _ => true

/-- The dispatcher does not test its guard while a handler that has failed is
about to clear it, unless another Wi-Fi bit is pending by then. -/
def KeepsWakeup (s : Wifi) : Label → Prop
  | .loop _ => s.loop.pc = .getReconnect → s.handler = .clearTask →
      s.wifiConnected = false → wantsReconnect s.bus.sysEvents = true
  | _ => True

instance (s : Wifi) : DecidablePred (KeepsWakeup s)
  | .loop _ => inferInstanceAs (Decidable (_ → _))
  | .handler | .bleWrite _ _ | .ble | .staStart | .staDisconnected | .gotIp | .raise _
  | .timer _ => inferInstanceAs (Decidable True)

/-- What can still lead to another attempt. -/
inductive Awaited (v : View) (handler : HandlerPc) : Prop
  | pending : v.pending.any = true → Awaited v handler
  | inHand : v.inHand.any = true → Awaited v handler
  | claimed : v.claim ≠ .none → Awaited v handler
  | queued : 0 < v.queued → Awaited v handler
  | deciding : deciding handler = true → Awaited v handler

structure Wakeups (s : Wifi) : Prop where
  marked : s.handler = .setConnected ∨ s.handler = .clearFail → s.wifiConnected = true
  awaited : s.wifiConnected = true ∨ Awaited (Wifi.view s) s.handler

theorem boot_wakeups (ssid psk : Text) : Wakeups (boot ssid psk) where
  marked := by simp [boot]
  awaited := Or.inr (.pending rfl)

/-- A step of the dispatcher loses nothing that is awaited, except for bits
that it throws away. -/
theorem awaited_step {testing : Prop} {v v' : View} {handler : HandlerPc}
    (h : Awaited v handler) (hstep : Step testing v v')
    (hdrop : testing → v.guardSet = true → v.claim = .none →
      Awaited { v with inHand := .none } handler) : Awaited v' handler := by
  cases hstep with
  | stay => exact h
  | take hhand hclaim =>
    cases h with
    | pending hp => exact .inHand hp
    | inHand hi => simp [hhand] at hi
    | claimed hc => exact absurd hclaim hc
    | queued hq => exact .queued hq
    | deciding hd => exact .deciding hd
  | drop htest hguard hclaim => exact hdrop htest hguard hclaim
  | claim _ _ _ => exact .claimed nofun
  | set _ => exact .claimed nofun
  | post _ => exact .queued (Nat.succ_pos _)

theorem handling_not_deciding {pc : HandlerPc} (hhandling : handling pc = true)
    (hdec : deciding pc ≠ true) : (pc = .setConnected ∨ pc = .clearFail) ∨ pc = .clearTask := by
  cases pc <;> simp [handling, deciding] at hhandling hdec ⊢

theorem loop_wakeups {s t : Wifi} {ledManual : Bool}
    (htoken : Token (Wifi.view s) (handling s.handler)) (h : Wakeups s)
    (hok : KeepsWakeup s (.loop ledManual)) (hstep : step s (.loop ledManual) = some t) :
    Wakeups t := by
  obtain ⟨hview, ht⟩ := loop_view hstep
  rw [ht] at hview ⊢
  refine ⟨h.marked, ?_⟩
  by_cases hconn : s.wifiConnected = true
  · exact Or.inl hconn
  · have hawaited := h.awaited.resolve_left hconn
    refine Or.inr (awaited_step hawaited hview fun htest hguard hclaim => ?_)
    rcases token_queued_or_handling htoken hguard hclaim with hqueued | hhandling
    · exact .queued hqueued
    · by_cases hdec : deciding s.handler = true
      · exact .deciding hdec
      · rcases handling_not_deciding hhandling hdec with hmarked | hclear
        · exact absurd (h.marked hmarked) hconn
        · exact .pending (hok htest hclear (Bool.not_eq_true _ ▸ hconn))

theorem wakeups_of_deciding {s : Wifi} (h : deciding s.handler = true) : Wakeups s where
  marked := by
    rintro (hpc | hpc) <;> simp [hpc, deciding] at h
  awaited := Or.inr (.deciding h)

/-- Outside the attempt itself, what is awaited does not depend on the handler. -/
theorem awaited_congr {v : View} {pc pc' : HandlerPc} (h : Awaited v pc)
    (hdec : deciding pc = false) : Awaited v pc' := by
  cases h with
  | pending hp => exact .pending hp
  | inHand hi => exact .inHand hi
  | claimed hc => exact .claimed hc
  | queued hq => exact .queued hq
  | deciding hd => simp [hdec] at hd

/-- Between two runs of the handler only the view counts. -/
theorem wakeups_between {s t : Wifi} (h : Wakeups s) (hs : deciding s.handler = false)
    (ht : handling t.handler = false) (hview : Wifi.view t = Wifi.view s)
    (hconn : t.wifiConnected = s.wifiConnected) : Wakeups t where
  marked := by
    rintro (hpc | hpc) <;> simp [hpc, handling] at ht
  awaited := by
    rw [hconn, hview]
    exact h.awaited.imp_right fun ha => awaited_congr ha hs

theorem handler_wakeups {s t : Wifi} (h : Wakeups s) (hstep : handlerStep s = some t) :
    Wakeups t := by
  cases hpc : s.handler with
  | idle =>
    rcases idle_cases hpc hstep with ⟨rest, _, rfl⟩ | ⟨e, hview, ht⟩
    · exact wakeups_of_deciding rfl
    · refine wakeups_between h (by rw [hpc]; rfl) ?_ hview ?_ <;> rw [ht]
      rfl
  | other e =>
    obtain ⟨hview, ht⟩ := other_cases hpc hstep
    refine wakeups_between h (by rw [hpc]; rfl) ?_ hview ?_ <;> rw [ht]
    rfl
  | waitBits =>
    simp only [handlerStep, hpc] at hstep
    split at hstep
    · cases hstep
      exact wakeups_of_deciding rfl
    · split at hstep <;> cases hstep
      exact wakeups_of_deciding rfl
  | markConnected =>
    simp only [handlerStep, hpc] at hstep
    cases hstep
    exact ⟨fun _ => rfl, Or.inl rfl⟩
  | setConnected =>
    simp only [handlerStep, hpc] at hstep
    cases hstep
    have hconn := h.marked (Or.inl hpc)
    exact ⟨fun _ => hconn, Or.inl hconn⟩
  | clearFail =>
    simp only [handlerStep, hpc] at hstep
    cases hstep
    exact ⟨by simp, Or.inl (h.marked (Or.inr hpc))⟩
  | setFail =>
    simp only [handlerStep, hpc] at hstep
    cases hstep
    refine ⟨by simp, Or.inr (.pending ?_)⟩
    simp [Wifi.view, WifiBits.any]
  | clearTask =>
    simp only [handlerStep, hpc] at hstep
    cases hstep
    refine ⟨by simp, h.awaited.imp_right fun ha => ?_⟩
    rw [hpc] at ha
    rw [Wifi.view, guard_clearTask]
    cases ha with
    | pending hp => exact .pending hp
    | inHand hi => exact .inHand hi
    | claimed hc => exact .claimed hc
    | queued hq => exact .queued hq
    | deciding hd => cases hd
  | _ =>
    simp only [handlerStep, hpc] at hstep
    cases hstep
    exact wakeups_of_deciding rfl

/-- Raising another Wi-Fi bit keeps everything that is awaited. -/
theorem awaited_setUpdated {v : View} {handler : HandlerPc} (h : Awaited v handler) :
    Awaited { v with pending := { v.pending with configUpdated := true } } handler := by
  cases h with
  | pending hp => exact .pending (by simp [WifiBits.any])
  | inHand hi => exact .inHand hi
  | claimed hc => exact .claimed hc
  | queued hq => exact .queued hq
  | deciding hd => exact .deciding hd

theorem step_wakeups {s t : Wifi} {a : Label}
    (htoken : Token (Wifi.view s) (handling s.handler)) (h : Wakeups s)
    (hok : KeepsWakeup s a) (hstep : step s a = some t) : Wakeups t := by
  cases a with
  | loop ledManual => exact loop_wakeups htoken h hok hstep
  | handler => exact handler_wakeups h hstep
  | bleWrite ssid psk =>
    simp only [step] at hstep
    split at hstep <;> cases hstep
    exact ⟨h.marked, h.awaited⟩
  | ble =>
    rcases ble_view hstep with ⟨hview, ht⟩ | ⟨_, ht, hview⟩
    · rw [ht] at hview ⊢
      refine ⟨h.marked, ?_⟩
      rw [hview]
      exact h.awaited
    · rw [ht] at hview ⊢
      refine ⟨h.marked, ?_⟩
      rw [hview]
      exact h.awaited.imp_right awaited_setUpdated
  | staStart =>
    simp only [step] at hstep
    split at hstep <;> cases hstep
    exact ⟨h.marked, h.awaited⟩
  | staDisconnected =>
    cases hstep
    unfold onStaDisconnected
    split <;> exact ⟨h.marked, h.awaited⟩
  | gotIp =>
    simp only [step] at hstep
    split at hstep <;> cases hstep
    exact ⟨h.marked, h.awaited⟩
  | raise e =>
    obtain ⟨hview, ht⟩ := raise_view hstep
    rw [ht] at hview ⊢
    refine ⟨h.marked, ?_⟩
    rw [hview]
    exact h.awaited
  | timer e =>
    obtain ⟨hview, ht⟩ := timer_view hstep
    rw [ht] at hview ⊢
    refine ⟨h.marked, ?_⟩
    rw [hview]
    exact h.awaited

theorem reach_wakeups {s : Wifi} (h : machine.Reach KeepsWakeup s) : Wakeups s := by
  refine h.invariant_of (fun s hs => reach_token hs) ?_ ?_
  · rintro s ⟨ssid, psk, rfl⟩
    exact boot_wakeups ssid psk
  · intro s a t htoken hs hok hstep
    exact step_wakeups htoken hs hok hstep

/-- Once the dispatcher has nothing left to do for the Wi-Fi and no reconnect
is scheduled, the station is connected. -/
theorem connected_of_quiet {s : Wifi} (h : machine.Reach KeepsWakeup s)
    (hpending : wantsReconnect s.bus.sysEvents = false) (hwait : s.loop.pc = .waitBits)
    (hqueue : .wifiReconnect ∉ s.bus.queue) (hhandler : handling s.handler = false) :
    s.wifiConnected = true := by
  refine (reach_wakeups h).awaited.resolve_right fun ha => ?_
  cases ha with
  | pending hp =>
    have hbits : (Wifi.view s).pending.any = wantsReconnect s.bus.sysEvents := rfl
    simp [hbits, hpending] at hp
  | inHand hi => simp [Wifi.view, view, hwait, beforeTest] at hi
  | claimed hc => simp [Wifi.view, view, hwait, claimOf] at hc
  | queued hq => exact hqueue (List.count_pos_iff.mp hq)
  | deciding hd => cases hpc : s.handler <;> simp [hpc, handling, deciding] at hhandler hd

theorem connected_of_quiet_firstConnected :
    ∃ s, machine.exec (boot [] []) firstConnected = some s ∧ s.loop.pc = .waitBits ∧
      s.wifiConnected = true := by
  have halong : machine.Along KeepsWakeup (boot [] []) firstConnected := by decide
  exact ⟨_, rfl, rfl, connected_of_quiet (Machine.reach_of_exec ⟨[], [], rfl⟩ halong rfl)
    (by decide) (by decide) (by decide) (by decide)⟩

/-- The first attempt fails; the dispatcher takes the failure bit, finds the
guard still set and throws the bit away. -/
def failureDropped : List Label :=
  firstAttempt ++ List.replicate 6 .staDisconnected ++ handles 3 ++ loops 3 ++ handles 1

theorem not_connected_when_quiet :
    ∃ s, machine.exec (boot [] []) failureDropped = some s ∧
      wantsReconnect s.bus.sysEvents = false ∧ s.loop.pc = .waitBits ∧
      .wifiReconnect ∉ s.bus.queue ∧ handling s.handler = false ∧ s.wifiConnected = false :=
  ⟨_, rfl, by decide, by decide, by decide, by decide, by decide⟩

end MarkitNode.ReconnectWakeups
