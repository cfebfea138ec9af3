import MarkitNode.ReconnectDispatch
import MarkitNode.WifiTasks

/-!
The guard `EV_TASK_WIFI_RECONNECT` over whole runs of the Wi-Fi tasks. Every
step leaves the dispatcher's view alone, or makes one step of the dispatcher,
or changes it in one of a few named ways; the guard stays the token of the one
reconnect that is scheduled or running.
-/

namespace MarkitNode.ReconnectToken

open SystemLoop ReconnectDispatch WifiTasks

/-- The dispatcher as the Wi-Fi tasks see it. -/
def Wifi.view (s : Wifi) : View := ReconnectDispatch.view s.bus s.loop

/-- The event-loop task is inside `sys_wifi_reconnect_event_handler`. -/
def handling : HandlerPc → Bool
  | .idle | .other _ => false
  | _ => true

theorem raise_view {s t : Wifi} {e : SysEvent} (h : step s (.raise e) = some t) :
    Wifi.view t = Wifi.view s ∧ t = { s with bus := t.bus } := by
  simp only [step] at h
  split at h
  · cases h
  · next he =>
    cases Option.some.inj h
    refine ⟨view_setSysEvent s.bus s.loop ?_ ?_ ?_, rfl⟩ <;> (rintro rfl; simp [isWifiEvent] at he)

theorem timer_view {s t : Wifi} {e : SysEventType} (h : step s (.timer e) = some t) :
    Wifi.view t = Wifi.view s ∧ t = { s with bus := t.bus } := by
  simp only [step] at h
  split at h
  · next he =>
    obtain ⟨b, hpost, rfl⟩ := Option.map_eq_some_iff.mp h
    refine ⟨view_post s.bus s.loop hpost ?_, rfl⟩
    rintro rfl
    simp [isTimerEvent] at he
  · cases h

theorem loop_view {s t : Wifi} {ledManual : Bool} (h : step s (.loop ledManual) = some t) :
    Step (s.loop.pc = .getReconnect) (Wifi.view s) (Wifi.view t) ∧
      t = { s with bus := t.bus, loop := t.loop } := by
  obtain ⟨⟨b, l, eff⟩, hloop, rfl⟩ := Option.map_eq_some_iff.mp h
  exact ⟨loopStep_view hloop, rfl⟩

/-- Taking an event from the queue, or finishing the handler of another one. -/
theorem idle_cases {s t : Wifi} (hidle : s.handler = .idle) (h : handlerStep s = some t) :
    (∃ rest, s.bus.queue = .wifiReconnect :: rest ∧
      t = { s with bus := { s.bus with queue := rest }, handler := .disconnect }) ∨
    (∃ e, Wifi.view t = Wifi.view s ∧ t = { s with bus := t.bus, handler := .other e }) := by
  simp only [handlerStep, hidle] at h
  split at h
  · cases h
  · next e rest hqueue =>
    by_cases he : e = .wifiReconnect
    · rw [dispatch, dif_pos he] at h
      cases h
      exact Or.inl ⟨rest, he ▸ hqueue, rfl⟩
    · rw [dispatch, dif_neg he] at h
      cases h
      refine Or.inr ⟨⟨e, he⟩, ?_, rfl⟩
      simp [Wifi.view, ReconnectDispatch.view, hqueue, he]

theorem other_cases {s t : Wifi} {e : OtherEvent} (hother : s.handler = .other e)
    (h : handlerStep s = some t) :
    Wifi.view t = Wifi.view s ∧ t = { s with bus := t.bus, handler := .idle } := by
  simp only [handlerStep, hother] at h
  split at h
  · cases Option.some.inj h
    exact ⟨rfl, rfl⟩
  · next g hg =>
    cases Option.some.inj h
    refine ⟨view_clearTaskEvent s.bus s.loop ?_, rfl⟩
    rintro rfl
    obtain ⟨e, he⟩ := e
    cases e <;> simp [taskGuard] at hg he

theorem ble_view {s t : Wifi} (h : bleStep s = some t) :
    (Wifi.view t = Wifi.view s ∧
      t = { s with wifiSsid := t.wifiSsid, wifiPsk := t.wifiPsk, ble := t.ble }) ∨
    (s.ble = .setUpdated ∧ t = { s with bus := t.bus, ble := .idle } ∧
      Wifi.view t = { Wifi.view s with
        pending := { (Wifi.view s).pending with configUpdated := true } }) := by
  cases hble : s.ble <;> simp only [bleStep, hble] at h <;> cases h
  case setUpdated => exact Or.inr ⟨rfl, rfl, pending_setUpdated s.bus s.loop⟩
  all_goals exact Or.inl ⟨rfl, rfl⟩

/-- `Token` does not depend on the bits themselves. -/
theorem token_congr {v v' : View} {handling : Bool} (h : Token v handling)
    (hclaim : v'.claim = v.claim) (hguard : v'.guardSet = v.guardSet)
    (hqueued : v'.queued = v.queued) : Token v' handling := by
  refine ⟨?_, ?_⟩
  · rw [hclaim, hguard, hqueued]
    exact h.count
  · rw [hclaim, hguard]
    exact h.unset

theorem token_dequeue {b : Bus} {l : Loop} {rest : List SysEventType}
    (hqueue : b.queue = .wifiReconnect :: rest) (h : Token (view b l) false) :
    Token (view { b with queue := rest } l) true := by
  refine ⟨?_, h.unset⟩
  have hcount := h.count
  simp only [view, hqueue, List.count_cons_self, Bool.toNat_false, Bool.toNat_true] at hcount ⊢
  omega

theorem token_clearTask {v : View} (h : Token v true) :
    Token { v with guardSet := false } false := by
  refine ⟨?_, fun _ => rfl⟩
  have hcount := h.count
  have hle := Bool.toNat_le v.guardSet
  simp only [Bool.toNat_false, Bool.toNat_true] at hcount ⊢
  omega

theorem handler_token {s t : Wifi} (h : Token (Wifi.view s) (handling s.handler))
    (hstep : handlerStep s = some t) : Token (Wifi.view t) (handling t.handler) := by
  cases hpc : s.handler with
  | idle =>
    rw [hpc] at h
    rcases idle_cases hpc hstep with ⟨rest, hqueue, rfl⟩ | ⟨e, hview, ht⟩
    · exact token_dequeue hqueue h
    · rw [hview, ht]
      exact h
  | other e =>
    obtain ⟨hview, ht⟩ := other_cases hpc hstep
    rw [hpc] at h
    rw [hview, ht]
    exact h
  | waitBits =>
    rw [hpc] at h
    simp only [handlerStep, hpc] at hstep
    split at hstep
    · cases hstep
      exact h
    · split at hstep <;> cases hstep
      exact h
  | clearTask =>
    simp only [handlerStep, hpc] at hstep
    cases hstep
    rw [Wifi.view, guard_clearTask]
    rw [hpc] at h
    exact token_clearTask h
  | _ =>
    simp only [handlerStep, hpc] at hstep
    cases hstep
    rw [hpc] at h
    exact token_congr h rfl rfl rfl

theorem step_token {s t : Wifi} {a : Label} (h : Token (Wifi.view s) (handling s.handler))
    (hstep : step s a = some t) : Token (Wifi.view t) (handling t.handler) := by
  cases a with
  | loop ledManual =>
    obtain ⟨hview, ht⟩ := loop_view hstep
    rw [ht] at hview ⊢
    exact token_step h hview
  | handler => exact handler_token h hstep
  | bleWrite ssid psk =>
    simp only [step] at hstep
    split at hstep <;> cases hstep
    exact h
  | ble =>
    rcases ble_view hstep with ⟨hview, ht⟩ | ⟨_, ht, hview⟩
    · rw [hview, ht]
      exact h
    · rw [hview, ht]
      exact token_congr h rfl rfl rfl
  | staStart =>
    simp only [step] at hstep
    split at hstep <;> cases hstep
    exact h
  | staDisconnected =>
    cases hstep
    unfold onStaDisconnected
    split <;> exact h
  | gotIp =>
    simp only [step] at hstep
    split at hstep <;> cases hstep
    exact h
  | raise e =>
    obtain ⟨hview, ht⟩ := raise_view hstep
    rw [hview, ht]
    exact h
  | timer e =>
    obtain ⟨hview, ht⟩ := timer_view hstep
    rw [hview, ht]
    exact h

/-- At any moment the guard stands for exactly one reconnect: its event about
to be posted, queued, or being handled. -/
theorem reach_token {ok : Wifi → Label → Prop} {s : Wifi} (h : machine.Reach ok s) :
    Token (Wifi.view s) (handling s.handler) := by
  refine h.invariant (I := fun s => Token (Wifi.view s) (handling s.handler)) ?_ ?_
  · rintro s ⟨ssid, psk, rfl⟩
    exact ⟨rfl, nofun⟩
  · intro s a t hs _ hstep
    exact step_token hs hstep

end MarkitNode.ReconnectToken
