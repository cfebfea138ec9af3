import MarkitNode.ReconnectToken

/-!
The link against what the system believes of it. A disconnect that the driver
reports is retried a few times by `wifi_event_handler` alone; when the retries
are used up only the Wi-Fi event group learns of it, and nobody waits on that
group once an attempt is over.
-/

namespace MarkitNode.LinkSupervision

open SystemLoop ReconnectToken WifiTasks

/-- The handler has stopped the station and not started it again. -/
def stopped : HandlerPc → Bool
  | .clearConnected | .setDisconnected | .copySsid | .copyPsk | .clearGroup | .start => true
  | _ => false

/-- The handler is about to take the station down. -/
def takingDown : HandlerPc → Bool
  | .disconnect | .stop | .clearConnected => true
  | _ => false

/-- The attempt under way has succeeded already, or the station counts as
connected with no reconnect scheduled. -/
def BelievedUp (s : Wifi) : Prop :=
  (s.handler = .waitBits ∧ s.wifiEvents .connected = true) ∨ s.handler = .markConnected ∨
    (s.wifiConnected = true ∧ .wifiReconnect ∉ s.bus.queue ∧ takingDown s.handler = false)

instance (s : Wifi) : Decidable (BelievedUp s) := inferInstanceAs (Decidable (_ ∨ _))

/-- A disconnect with no retry left does not arrive while the station is
believed to be up. -/
def RetriesSuffice (s : Wifi) : Label → Prop
  | .staDisconnected => s.retryNum = 0 → ¬ BelievedUp s
  | _ => True

instance (s : Wifi) : DecidablePred (RetriesSuffice s)
  | .staDisconnected => inferInstanceAs (Decidable (_ → _))
  | .loop _ | .handler | .bleWrite _ _ | .ble | .staStart | .gotIp | .raise _
  | .timer _ => inferInstanceAs (Decidable True)

/-- Between clearing `wifi_connected` and the end of the attempt. -/
def attempting : HandlerPc → Bool
  | .setDisconnected | .copySsid | .copyPsk | .clearGroup | .start | .waitBits
  | .markConnected => true
  | _ => false

structure Supervised (s : Wifi) : Prop where
  /-- While the handler keeps the station stopped, nothing can connect. -/
  down : stopped s.handler = true → s.driver.started = false
  unanswered : s.handler = .start → s.wifiEvents .connected = false
  notYet : attempting s.handler = true → s.wifiConnected = false
  started : BelievedUp s → s.driver.started = true
  up : BelievedUp s → s.driver.link = true ∨ s.driver.connecting = true

theorem boot_supervised (ssid psk : Text) : Supervised (boot ssid psk) where
  down := nofun
  unanswered := nofun
  notYet := nofun
  started := by simp [BelievedUp, boot]
  up := by simp [BelievedUp, boot]

theorem queued_eq_zero_iff (s : Wifi) :
    (Wifi.view s).queued = 0 ↔ .wifiReconnect ∉ s.bus.queue := List.count_eq_zero

theorem queued_le {s t : Wifi} (h : Wifi.view t = Wifi.view s) :
    (Wifi.view s).queued ≤ (Wifi.view t).queued :=
  Nat.le_of_eq (congrArg ReconnectDispatch.View.queued h).symm

theorem BelievedUp.congr {s t : Wifi} (h : BelievedUp t) (hhandler : t.handler = s.handler)
    (hevents : t.wifiEvents .connected = s.wifiEvents .connected)
    (hconn : t.wifiConnected = s.wifiConnected)
    (hqueued : (Wifi.view s).queued ≤ (Wifi.view t).queued) : BelievedUp s := by
  simp only [BelievedUp, ← queued_eq_zero_iff] at h ⊢
  rw [hhandler, hevents, hconn] at h
  exact h.imp_right fun h => h.imp_right fun ⟨hc, hq, hd⟩ => ⟨hc, by omega, hd⟩

/-- Steps of the tasks that touch neither the station nor its handler. -/
theorem supervised_congr {s t : Wifi} (h : Supervised s) (hhandler : t.handler = s.handler)
    (hevents : t.wifiEvents = s.wifiEvents) (hconn : t.wifiConnected = s.wifiConnected)
    (hdriver : t.driver = s.driver) (hqueued : (Wifi.view s).queued ≤ (Wifi.view t).queued) :
    Supervised t where
  down := by rw [hhandler, hdriver]; exact h.down
  unanswered := by rw [hhandler, hevents]; exact h.unanswered
  notYet := by rw [hhandler, hconn]; exact h.notYet
  started hup := by
    rw [hdriver]
    exact h.started (hup.congr hhandler (by rw [hevents]) hconn hqueued)
  up hup := by
    rw [hdriver]
    exact h.up (hup.congr hhandler (by rw [hevents]) hconn hqueued)

theorem onStaStart_supervised {s : Wifi} (h : Supervised s) (hstarted : s.driver.started = true) :
    Supervised (onStaStart s) where
  down := h.down
  unanswered := h.unanswered
  notYet := h.notYet
  started _ := hstarted
  up _ := Or.inr hstarted

theorem onGotIp_supervised {s : Wifi} (h : Supervised s) (hstarted : s.driver.started = true) :
    Supervised (onGotIp s) where
  down := h.down
  unanswered hpc := by
    have hdown := h.down (by rw [show s.handler = .start from hpc]; rfl)
    rw [hdown] at hstarted
    cases hstarted
  notYet := h.notYet
  started _ := hstarted
  up _ := Or.inl rfl

theorem onStaDisconnected_supervised {s : Wifi} (h : Supervised s)
    (hok : RetriesSuffice s .staDisconnected) : Supervised (onStaDisconnected s) := by
  unfold onStaDisconnected
  split
  · exact ⟨h.down, h.unanswered, h.notYet, h.started, fun hup => Or.inr (h.started hup)⟩
  · next hretry =>
    have hnot := hok (by omega)
    have hconnected : (s.wifiEvents.setBit .fail) .connected = s.wifiEvents .connected :=
      EventGroup.setBit_of_ne _ (by decide)
    have hnone : ¬ BelievedUp
        { s with
          driver := s.driver.disconnect
          wifiEvents := s.wifiEvents.setBit .fail } := fun hup =>
      hnot (hup.congr rfl hconnected rfl (Nat.le_refl _))
    exact ⟨h.down, fun hpc => hconnected.trans (h.unanswered hpc), h.notYet,
      fun hup => (hnone hup).elim, fun hup => (hnone hup).elim⟩

/-- What the supervision needs of a state inside the handler. -/
theorem supervised_of_not_believedUp {s : Wifi} (hdown : stopped s.handler = true →
      s.driver.started = false)
    (hunanswered : s.handler = .start → s.wifiEvents .connected = false)
    (hnotYet : attempting s.handler = true → s.wifiConnected = false)
    (hnot : ¬ BelievedUp s) : Supervised s :=
  ⟨hdown, hunanswered, hnotYet, fun hup => (hnot hup).elim, fun hup => (hnot hup).elim⟩

/-- Neither is the station stopped nor an attempt under way. -/
theorem supervised_of_outside {s : Wifi} (hstopped : stopped s.handler = false)
    (hattempting : attempting s.handler = false) (hnot : ¬ BelievedUp s) : Supervised s := by
  refine supervised_of_not_believedUp (by simp [hstopped]) ?_ (by simp [hattempting]) hnot
  intro hpc
  simp [hpc, stopped] at hstopped

/-- The attempt is over, or the handler is not running. -/
def settled (pc : HandlerPc) : Bool := !stopped pc && !attempting pc && !takingDown pc

theorem supervised_settled {s t : Wifi} (h : Supervised s) (hs : settled s.handler = true)
    (ht : settled t.handler = true) (hconn : t.wifiConnected = s.wifiConnected)
    (hdriver : t.driver = s.driver) (hqueued : (Wifi.view s).queued ≤ (Wifi.view t).queued) :
    Supervised t := by
  simp only [settled, Bool.and_eq_true, Bool.not_eq_true'] at hs ht
  obtain ⟨⟨hstopped, hattempting⟩, -⟩ := ht
  have hwait : t.handler ≠ .waitBits := by
    intro hpc
    simp [hpc, attempting] at hattempting
  have hmark : t.handler ≠ .markConnected := by
    intro hpc
    simp [hpc, attempting] at hattempting
  have hle : BelievedUp t → BelievedUp s := by
    simp only [BelievedUp, ← queued_eq_zero_iff]
    rintro (⟨hpc, -⟩ | hpc | ⟨hc, hq, -⟩)
    · exact absurd hpc hwait
    · exact absurd hpc hmark
    · exact Or.inr (Or.inr ⟨hconn ▸ hc, by omega, hs.2⟩)
  refine ⟨by simp [hstopped], ?_, by simp [hattempting], ?_, ?_⟩
  · intro hpc
    simp [hpc, stopped] at hstopped
  · rw [hdriver]
    exact fun hup => h.started (hle hup)
  · rw [hdriver]
    exact fun hup => h.up (hle hup)

theorem handler_supervised {s t : Wifi} (h : Supervised s) (hstep : handlerStep s = some t) :
    Supervised t := by
  cases hpc : s.handler with
  | idle =>
    rcases idle_cases hpc hstep with ⟨rest, _, rfl⟩ | ⟨e, hview, ht⟩
    · exact supervised_of_outside rfl rfl (by simp [BelievedUp, takingDown])
    · refine supervised_settled h (by rw [hpc]; rfl) ?_ ?_ ?_ (queued_le hview) <;> rw [ht]
      rfl
  | other e =>
    obtain ⟨hview, ht⟩ := other_cases hpc hstep
    refine supervised_settled h (by rw [hpc]; rfl) ?_ ?_ ?_ (queued_le hview) <;> rw [ht]
    rfl
  | disconnect =>
    simp only [handlerStep, hpc] at hstep
    cases hstep
    exact supervised_of_outside rfl rfl (by simp [BelievedUp, takingDown])
  | stop =>
    simp only [handlerStep, hpc] at hstep
    cases hstep
    exact supervised_of_not_believedUp (fun _ => rfl) (fun h => by cases h) (fun h => by cases h)
      (by simp [BelievedUp, takingDown])
  | clearConnected =>
    simp only [handlerStep, hpc] at hstep
    cases hstep
    have hdown := h.down (by rw [hpc]; rfl)
    exact supervised_of_not_believedUp (fun _ => hdown) (fun h => by cases h) (fun _ => rfl)
      (by simp [BelievedUp])
  | clearGroup =>
    simp only [handlerStep, hpc] at hstep
    cases hstep
    have hdown := h.down (by rw [hpc]; rfl)
    have hnotYet := h.notYet (by rw [hpc]; rfl)
    exact supervised_of_not_believedUp (fun _ => hdown) (fun _ => by simp) (fun _ => hnotYet)
      (by simp [BelievedUp, hnotYet])
  | start =>
    simp only [handlerStep, hpc] at hstep
    cases hstep
    have hunanswered := h.unanswered hpc
    have hnotYet := h.notYet (by rw [hpc]; rfl)
    exact supervised_of_not_believedUp (fun h => by cases h) (fun h => by cases h)
      (fun _ => hnotYet) (by simp [BelievedUp, hnotYet, hunanswered])
  | waitBits =>
    have hnotYet := h.notYet (by rw [hpc]; rfl)
    simp only [handlerStep, hpc] at hstep
    split at hstep
    · next hconnected =>
      cases hstep
      have hup : BelievedUp s := Or.inl ⟨hpc, hconnected⟩
      exact ⟨(fun h => by cases h), (fun h => by cases h), fun _ => hnotYet,
        fun _ => h.started hup, fun _ => h.up hup⟩
    · split at hstep <;> cases hstep
      exact supervised_of_outside rfl rfl (by simp [BelievedUp, hnotYet])
  | markConnected =>
    simp only [handlerStep, hpc] at hstep
    cases hstep
    have hup : BelievedUp s := Or.inr (Or.inl hpc)
    exact ⟨(fun h => by cases h), (fun h => by cases h), (fun h => by cases h),
      fun _ => h.started hup, fun _ => h.up hup⟩
  | markFailed =>
    simp only [handlerStep, hpc] at hstep
    cases hstep
    exact supervised_of_outside rfl rfl (by simp [BelievedUp])
  | setDisconnected | copySsid | copyPsk =>
    simp only [handlerStep, hpc] at hstep
    cases hstep
    have hdown := h.down (by rw [hpc]; rfl)
    have hnotYet := h.notYet (by rw [hpc]; rfl)
    exact supervised_of_not_believedUp (fun _ => hdown) (fun h => by cases h) (fun _ => hnotYet)
      (by simp [BelievedUp, hnotYet])
  | setConnected | clearFail | setFail | clearTask =>
    simp only [handlerStep, hpc] at hstep
    cases hstep
    exact supervised_settled h (by rw [hpc]; rfl) rfl rfl rfl (Nat.le_refl _)

theorem step_supervised {s t : Wifi} {a : Label} (h : Supervised s) (hok : RetriesSuffice s a)
    (hstep : step s a = some t) : Supervised t := by
  cases a with
  | loop ledManual =>
    obtain ⟨hview, ht⟩ := loop_view hstep
    have hqueued := ReconnectDispatch.step_queued_le hview
    rw [ht] at hqueued ⊢
    exact supervised_congr h rfl rfl rfl rfl hqueued
  | handler => exact handler_supervised h hstep
  | bleWrite ssid psk =>
    simp only [step] at hstep
    split at hstep <;> cases hstep
    exact supervised_congr h rfl rfl rfl rfl (Nat.le_refl _)
  | ble =>
    rcases ble_view hstep with ⟨hview, ht⟩ | ⟨_, ht, hview⟩
    all_goals
      have hqueued : (Wifi.view s).queued ≤ (Wifi.view t).queued :=
        Nat.le_of_eq (congrArg ReconnectDispatch.View.queued hview).symm
      rw [ht] at hqueued ⊢
      exact supervised_congr h rfl rfl rfl rfl hqueued
  | staStart =>
    simp only [step] at hstep
    split at hstep
    · next hstarted =>
      cases hstep
      exact onStaStart_supervised h hstarted
    · cases hstep
  | staDisconnected =>
    cases hstep
    exact onStaDisconnected_supervised h hok
  | gotIp =>
    simp only [step] at hstep
    split at hstep
    · next hstarted =>
      cases hstep
      exact onGotIp_supervised h hstarted
    · cases hstep
  | raise e =>
    obtain ⟨hview, ht⟩ := raise_view hstep
    have hqueued := queued_le hview
    rw [ht] at hqueued ⊢
    exact supervised_congr h rfl rfl rfl rfl hqueued
  | timer e =>
    obtain ⟨hview, ht⟩ := timer_view hstep
    have hqueued := queued_le hview
    rw [ht] at hqueued ⊢
    exact supervised_congr h rfl rfl rfl rfl hqueued

theorem reach_supervised {s : Wifi} (h : machine.Reach RetriesSuffice s) : Supervised s := by
  refine h.invariant ?_ ?_
  · rintro s ⟨ssid, psk, rfl⟩
    exact boot_supervised ssid psk
  · intro s a t hs hok hstep
    exact step_supervised hs hok hstep

/-- A station that is down, with nobody trying to connect it and no reconnect
scheduled, is known to be down or about to be reconnected. -/
theorem down_is_noticed {s : Wifi} (h : machine.Reach RetriesSuffice s)
    (hlink : s.driver.link = false) (hconnecting : s.driver.connecting = false)
    (hqueue : .wifiReconnect ∉ s.bus.queue) (hhandler : handling s.handler = false) :
    s.wifiConnected = false ∨ wantsReconnect s.bus.sysEvents = true := by
  refine Or.inl ((Bool.not_eq_true _).mp fun hconn => ?_)
  have htaking : takingDown s.handler = false := by
    cases hpc : s.handler <;> simp [hpc, handling, takingDown] at hhandler ⊢
  rcases (reach_supervised h).up (Or.inr (Or.inr ⟨hconn, hqueue, htaking⟩)) with hup | hup
  · simp [hlink] at hup
  · simp [hconnecting] at hup

/-- A first attempt on which the driver gives up. -/
def firstFailed : List Label :=
  firstAttempt ++ List.replicate 6 .staDisconnected ++ handles 4

theorem down_is_noticed_firstFailed :
    ∃ s, machine.exec (boot [] []) firstFailed = some s ∧ s.retryNum = 0 ∧
      (s.wifiConnected = false ∨ wantsReconnect s.bus.sysEvents = true) := by
  have halong : machine.Along RetriesSuffice (boot [] []) firstFailed := by decide
  exact ⟨_, rfl, rfl, down_is_noticed (Machine.reach_of_exec ⟨[], [], rfl⟩ halong rfl)
    rfl rfl (by decide) rfl⟩

/-- A link that breaks down for good after the attempt is over: the last
disconnect sets `EV_WIFI_FAIL_BIT`, which the dispatcher does not wait for. -/
def brokenDown : List Label := firstConnected ++ List.replicate 6 .staDisconnected

theorem down_unnoticed :
    ∃ s, machine.exec (boot [] []) brokenDown = some s ∧
      s.driver.link = false ∧ s.driver.connecting = false ∧
      .wifiReconnect ∉ s.bus.queue ∧ handling s.handler = false ∧ s.loop.pc = .waitBits ∧
      s.wifiConnected = true ∧ wantsReconnect s.bus.sysEvents = false :=
  ⟨_, rfl, rfl, rfl, by decide, rfl, rfl, rfl, by decide⟩

end MarkitNode.LinkSupervision
