import MarkitNode.ReconnectToken

/-!
Credential updates. A BLE write stores the new SSID and PSK and raises
`EV_SYS_WIFI_CONFIG_UPDATED`. Until the station has tried them, the update must
be on its way to a run of the reconnect handler that has yet to copy them; the
dispatcher loses it when it throws the bit away while the handler is already
past the copy.
-/

namespace MarkitNode.CredentialUpdates

open SystemLoop ReconnectDispatch ReconnectToken WifiTasks

/-- The run of the handler, or the last attempt, uses what is stored now as
far as it has copied it. -/
def Current (s : Wifi) : Prop :=
  match s.handler with
  | .disconnect | .stop | .clearConnected | .setDisconnected | .copySsid => True
  | .copyPsk => s.config.ssid = s.wifiSsid
  | .clearGroup | .start => s.config = ⟨s.wifiSsid, s.wifiPsk⟩
  | _ => s.attempt = some ⟨s.wifiSsid, s.wifiPsk⟩

instance (s : Wifi) : Decidable (Current s) := by
  unfold Current
  split <;> infer_instance

/-- When the dispatcher tests its guard with an update among the bits it has
taken, a handler that is running has not copied other credentials than the
stored ones, unless a further update follows. The handler copies credentials
that fit the arrays of the driver. -/
def KeepsUpdate (s : Wifi) : Label → Prop
  | .loop _ => s.loop.pc = .getReconnect → s.loop.bits .wifiConfigUpdated = true →
      handling s.handler = true →
      Current s ∨ s.ble ≠ .idle ∨ s.bus.sysEvents .wifiConfigUpdated = true
  | .handler => (s.handler = .copySsid → s.wifiSsid.length ≤ ssidLen) ∧
      (s.handler = .copyPsk → s.wifiPsk.length ≤ passwordLen)
  | _ => True

instance (s : Wifi) : DecidablePred (KeepsUpdate s)
  | .loop _ => inferInstanceAs (Decidable (_ → _))
  | .handler => inferInstanceAs (Decidable (_ ∧ _))
  | .bleWrite _ _ | .ble | .staStart | .staDisconnected | .gotIp | .raise _
  | .timer _ => inferInstanceAs (Decidable True)

/-- Why the handler will run again from its start. -/
inductive Renewing (v : View) (handler : HandlerPc) (ble : BlePc) (attempt : Option WifiConfig) :
    Prop
  | writing : ble ≠ .idle → Renewing v handler ble attempt
  | pending : v.pending.configUpdated = true → Renewing v handler ble attempt
  | inHand : v.inHand.configUpdated = true → Renewing v handler ble attempt
  | claimed : v.claim ≠ .none → Renewing v handler ble attempt
  | queued : 0 < v.queued → Renewing v handler ble attempt
  | first : attempt = none → handling handler = false →
      (v.pending.disconnected = true ∨ v.inHand.disconnected = true) →
      Renewing v handler ble attempt

def Followed (s : Wifi) : Prop :=
  Current s ∨ Renewing (Wifi.view s) s.handler s.ble s.attempt

theorem boot_followed (ssid psk : Text) : Followed (boot ssid psk) :=
  Or.inr (.first rfl rfl (Or.inl rfl))

theorem renewing_step {testing : Prop} {v v' : View} {handler : HandlerPc} {ble : BlePc}
    {attempt : Option WifiConfig} (h : Renewing v handler ble attempt)
    (hstep : Step testing v v') (hdrop : testing → v.guardSet = true → v.claim = .none →
      v.inHand.configUpdated = true → handling handler = true →
      ble ≠ .idle ∨ v.pending.configUpdated = true)
    (htoken : Token v (handling handler)) : Renewing v' handler ble attempt := by
  cases hstep with
  | stay => exact h
  | take hhand hclaim =>
    cases h with
    | writing hw => exact .writing hw
    | pending hp => exact .inHand hp
    | inHand hi => simp [hhand, WifiBits.none] at hi
    | claimed hc => exact absurd hclaim hc
    | queued hq => exact .queued hq
    | first hnone hhandler hd =>
      refine .first hnone hhandler (Or.inr (hd.resolve_right ?_))
      simp [hhand, WifiBits.none]
  | drop htest hguard hclaim =>
    rcases token_queued_or_handling htoken hguard hclaim with hqueued | hhandling
    · exact .queued hqueued
    · cases h with
      | writing hw => exact .writing hw
      | pending hp => exact .pending hp
      | inHand hi =>
        rcases hdrop htest hguard hclaim hi hhandling with hw | hp
        · exact .writing hw
        · exact .pending hp
      | claimed hc => exact absurd hclaim hc
      | queued hq => exact .queued hq
      | first _ hhandler _ => simp [hhandling] at hhandler
  | claim _ _ _ => exact .claimed (by simp)
  | set _ => exact .claimed (by simp)
  | post _ => exact .queued (Nat.succ_pos _)

theorem loop_followed {s t : Wifi} {ledManual : Bool}
    (htoken : Token (Wifi.view s) (handling s.handler)) (h : Followed s)
    (hok : KeepsUpdate s (.loop ledManual)) (hstep : step s (.loop ledManual) = some t) :
    Followed t := by
  obtain ⟨hview, ht⟩ := loop_view hstep
  rw [ht] at hview ⊢
  by_cases hcurrent : Current s
  · exact Or.inl hcurrent
  · refine Or.inr (renewing_step (h.resolve_left hcurrent) hview ?_ htoken)
    intro htest _ _ hhand hhandling
    have hbits : s.loop.bits .wifiConfigUpdated = true := by
      simpa [Wifi.view, view, htest, beforeTest, WifiBits.ofGroup] using hhand
    exact (hok htest hbits hhandling).resolve_left hcurrent

/-- Inside the handler, what is on its way depends on the dispatcher only. -/
theorem renewing_handling {v v' : View} {pc pc' : HandlerPc} {ble : BlePc}
    {attempt attempt' : Option WifiConfig} (h : Renewing v pc ble attempt)
    (hpc : handling pc = true) (hpending : v'.pending.configUpdated = v.pending.configUpdated)
    (hhand : v'.inHand = v.inHand) (hclaim : v'.claim = v.claim) (hqueued : v'.queued = v.queued) :
    Renewing v' pc' ble attempt' := by
  cases h with
  | writing hw => exact .writing hw
  | pending hp => exact .pending (hpending.trans hp)
  | inHand hi => exact .inHand (hhand ▸ hi)
  | claimed hc => exact .claimed (hclaim ▸ hc)
  | queued hq => exact .queued (hqueued ▸ hq)
  | first _ hhandler _ => simp [hpc] at hhandler

/-- The handler has started its attempt, or does not run. -/
def pastStart : HandlerPc → Bool
  | .waitBits | .markConnected | .setConnected | .clearFail | .markFailed | .setFail
  | .clearTask | .idle | .other _ => true
  | _ => false

theorem current_iff {s : Wifi} (h : pastStart s.handler = true) :
    Current s ↔ s.attempt = some ⟨s.wifiSsid, s.wifiPsk⟩ := by
  cases hpc : s.handler <;> simp [hpc, pastStart, Current] at h ⊢

/-- Steps between the start of an attempt and the next run of the handler. -/
theorem followed_pastStart {s t : Wifi} (h : Followed s) (hs : pastStart s.handler = true)
    (ht : pastStart t.handler = true) (hsame : t =
      { s with bus := t.bus, handler := t.handler, wifiConnected := t.wifiConnected })
    (hrenew : Renewing (Wifi.view s) s.handler s.ble s.attempt →
      Renewing (Wifi.view t) t.handler s.ble s.attempt) : Followed t := by
  have hcurrent : Current t ↔ Current s := by
    rw [current_iff ht, current_iff hs, hsame]
  have hble : t.ble = s.ble := by rw [hsame]
  have hattempt : t.attempt = s.attempt := by rw [hsame]
  rw [Followed, hcurrent, hble, hattempt]
  exact h.imp_right hrenew

/-- Steps inside the handler that carry the copied credentials along. -/
theorem followed_copied {s t : Wifi} (h : Followed s) (hs : handling s.handler = true)
    (hview : Wifi.view t = Wifi.view s) (hble : t.ble = s.ble) (hcurrent : Current s → Current t) :
    Followed t := by
  refine h.imp hcurrent fun hr => ?_
  rw [hview, hble]
  exact renewing_handling hr hs rfl rfl rfl rfl

theorem renewing_between {v : View} {pc pc' : HandlerPc} {ble : BlePc}
    {attempt : Option WifiConfig} (h : Renewing v pc ble attempt) (hpc : handling pc' = false) :
    Renewing v pc' ble attempt := by
  cases h with
  | writing hw => exact .writing hw
  | pending hp => exact .pending hp
  | inHand hi => exact .inHand hi
  | claimed hc => exact .claimed hc
  | queued hq => exact .queued hq
  | first hnone _ hd => exact .first hnone hpc hd

theorem handler_followed {s t : Wifi} (h : Followed s) (hok : KeepsUpdate s .handler)
    (hstep : handlerStep s = some t) : Followed t := by
  cases hpc : s.handler with
  | idle =>
    rcases idle_cases hpc hstep with ⟨rest, _, rfl⟩ | ⟨e, hview, ht⟩
    · exact Or.inl trivial
    · refine followed_pastStart h (by rw [hpc]; rfl) (by rw [ht]; rfl) (by rw [ht]) fun hr => ?_
      rw [hview]
      exact renewing_between hr (by rw [ht]; rfl)
  | other e =>
    obtain ⟨hview, ht⟩ := other_cases hpc hstep
    refine followed_pastStart h (by rw [hpc]; rfl) (by rw [ht]; rfl) (by rw [ht]) fun hr => ?_
    rw [hview]
    exact renewing_between hr (by rw [ht]; rfl)
  | disconnect | stop | clearConnected | setDisconnected =>
    simp only [handlerStep, hpc] at hstep
    cases hstep
    exact Or.inl trivial
  | copySsid =>
    simp only [handlerStep, hpc] at hstep
    cases hstep
    exact Or.inl (List.take_of_length_le (hok.1 hpc))
  | copyPsk =>
    simp only [handlerStep, hpc] at hstep
    cases hstep
    refine followed_copied h (by rw [hpc]; rfl) rfl rfl fun hcurrent => ?_
    simp only [Current, hpc] at hcurrent ⊢
    rw [hcurrent, List.take_of_length_le (hok.2 hpc)]
  | clearGroup =>
    simp only [handlerStep, hpc] at hstep
    cases hstep
    refine followed_copied h (by rw [hpc]; rfl) rfl rfl fun hcurrent => ?_
    simpa only [Current, hpc] using hcurrent
  | start =>
    simp only [handlerStep, hpc] at hstep
    cases hstep
    refine followed_copied h (by rw [hpc]; rfl) rfl rfl fun hcurrent => ?_
    simp only [Current, hpc] at hcurrent ⊢
    rw [hcurrent]
  | waitBits =>
    simp only [handlerStep, hpc] at hstep
    split at hstep
    · cases hstep
      exact followed_pastStart h (by rw [hpc]; rfl) rfl rfl fun hr =>
        renewing_handling hr (by rw [hpc]; rfl) rfl rfl rfl rfl
    · split at hstep <;> cases hstep
      exact followed_pastStart h (by rw [hpc]; rfl) rfl rfl fun hr =>
        renewing_handling hr (by rw [hpc]; rfl) rfl rfl rfl rfl
  | markConnected | setConnected | clearFail | markFailed | setFail | clearTask =>
    simp only [handlerStep, hpc] at hstep
    cases hstep
    exact followed_pastStart h (by rw [hpc]; rfl) rfl rfl fun hr =>
      renewing_handling hr (by rw [hpc]; rfl) rfl rfl rfl rfl

theorem ble_followed {s t : Wifi} (hstep : bleStep s = some t) : Followed t := by
  rcases hble : s.ble with _ | _ | _ | _ | _ | _ <;> simp only [bleStep, hble] at hstep <;>
    cases hstep
  case setUpdated =>
    refine Or.inr (.pending ?_)
    simp [Wifi.view]
  all_goals exact Or.inr (.writing (by simp))

/-- Steps of tasks that neither write credentials nor copy them. -/
theorem followed_congr {s t : Wifi} (h : Followed s) (hview : Wifi.view t = Wifi.view s)
    (hsame : t = { s with
      bus := t.bus, retryNum := t.retryNum, driver := t.driver, wifiEvents := t.wifiEvents }) :
    Followed t := by
  have hcurrent : Current t ↔ Current s := by
    rw [hsame]
    exact Iff.rfl
  rw [Followed, hcurrent, hview]
  rw [hsame]
  exact h

theorem step_followed {s t : Wifi} {a : Label}
    (htoken : Token (Wifi.view s) (handling s.handler)) (h : Followed s)
    (hok : KeepsUpdate s a) (hstep : step s a = some t) : Followed t := by
  cases a with
  | loop ledManual => exact loop_followed htoken h hok hstep
  | handler => exact handler_followed h hok hstep
  | bleWrite ssid psk =>
    simp only [step] at hstep
    split at hstep <;> cases hstep
    exact Or.inr (.writing (by simp))
  | ble => exact ble_followed hstep
  | staStart =>
    simp only [step] at hstep
    split at hstep <;> cases hstep
    exact followed_congr h rfl rfl
  | staDisconnected =>
    cases hstep
    unfold onStaDisconnected
    split <;> exact followed_congr h rfl rfl
  | gotIp =>
    simp only [step] at hstep
    split at hstep <;> cases hstep
    exact followed_congr h rfl rfl
  | raise e =>
    obtain ⟨hview, ht⟩ := raise_view hstep
    exact followed_congr h hview (by rw [ht])
  | timer e =>
    obtain ⟨hview, ht⟩ := timer_view hstep
    exact followed_congr h hview (by rw [ht])

theorem reach_followed {s : Wifi} (h : machine.Reach KeepsUpdate s) : Followed s := by
  refine h.invariant_of (fun s hs => reach_token hs) ?_ ?_
  · rintro s ⟨ssid, psk, rfl⟩
    exact boot_followed ssid psk
  · intro s a t htoken hs hok hstep
    exact step_followed htoken hs hok hstep

/-- Once every Wi-Fi bit has been dispatched and neither a reconnect nor a BLE
write is under way, the last attempt was made with the stored credentials. -/
theorem last_attempt_current {s : Wifi} (h : machine.Reach KeepsUpdate s)
    (hpending : (Wifi.view s).pending.any = false) (htaken : (Wifi.view s).inHand.any = false)
    (hclaim : (Wifi.view s).claim = .none) (hqueue : .wifiReconnect ∉ s.bus.queue)
    (hhandler : handling s.handler = false) (hble : s.ble = .idle) :
    s.attempt = some ⟨s.wifiSsid, s.wifiPsk⟩ := by
  simp only [WifiBits.any, Bool.or_eq_false_iff] at hpending htaken
  rcases reach_followed h with hcurrent | hrenew
  · refine (current_iff ?_).mp hcurrent
    cases hpc : s.handler <;> simp [hpc, handling, pastStart] at hhandler ⊢
  · cases hrenew with
    | writing hw => exact absurd hble hw
    | pending hp => simp [hpending] at hp
    | inHand hi => simp [htaken] at hi
    | claimed hc => exact absurd hclaim hc
    | queued hq => exact absurd (List.count_pos_iff.mp hq) hqueue
    | first _ _ hd => simp [hpending, htaken] at hd

/-- What the driver is given is no longer than its arrays. -/
structure InArrays (s : Wifi) : Prop where
  ssid : s.config.ssid.length ≤ ssidLen
  password : s.handler ≠ .copyPsk → s.config.password.length ≤ passwordLen
  attempt : ∀ config, s.attempt = some config →
    config.ssid.length ≤ ssidLen ∧ config.password.length ≤ passwordLen

theorem inArrays_congr {s t : Wifi} (h : InArrays s) (hconfig : t.config = s.config)
    (hattempt : t.attempt = s.attempt) (hpc : s.handler = .copyPsk → t.handler = .copyPsk) :
    InArrays t := by
  refine ⟨?_, fun ht => ?_, ?_⟩
  · rw [hconfig]
    exact h.ssid
  · rw [hconfig]
    exact h.password fun hs => ht (hpc hs)
  · rw [hattempt]
    exact h.attempt

theorem handler_inArrays {s t : Wifi} (h : InArrays s) (hstep : handlerStep s = some t) :
    InArrays t := by
  cases hpc : s.handler with
  | idle =>
    rcases idle_cases hpc hstep with ⟨rest, _, rfl⟩ | ⟨e, _, ht⟩
    · exact inArrays_congr h rfl rfl (by simp [hpc])
    · rw [ht]
      exact inArrays_congr h rfl rfl (by simp [hpc])
  | other e =>
    obtain ⟨_, ht⟩ := other_cases hpc hstep
    rw [ht]
    exact inArrays_congr h rfl rfl (by simp [hpc])
  | copySsid =>
    simp only [handlerStep, hpc] at hstep
    cases hstep
    exact ⟨List.length_take_le _ _, fun hne => absurd rfl hne, h.attempt⟩
  | copyPsk =>
    simp only [handlerStep, hpc] at hstep
    cases hstep
    exact ⟨h.ssid, fun _ => List.length_take_le _ _, h.attempt⟩
  | start =>
    simp only [handlerStep, hpc] at hstep
    cases hstep
    have hpassword := h.password (by simp [hpc])
    refine ⟨h.ssid, fun _ => hpassword, ?_⟩
    rintro config hconfig
    cases hconfig
    exact ⟨h.ssid, hpassword⟩
  | waitBits =>
    simp only [handlerStep, hpc] at hstep
    split at hstep
    · cases hstep
      exact inArrays_congr h rfl rfl (by simp [hpc])
    · split at hstep <;> cases hstep
      exact inArrays_congr h rfl rfl (by simp [hpc])
  | disconnect | stop | clearConnected | setDisconnected | clearGroup | markConnected
  | setConnected | clearFail | markFailed | setFail | clearTask =>
    simp only [handlerStep, hpc] at hstep
    cases hstep
    exact inArrays_congr h rfl rfl (by simp [hpc])

/-- Only the handler touches what it has copied. -/
theorem step_inArrays {s t : Wifi} {a : Label} (h : InArrays s) (hstep : step s a = some t) :
    InArrays t := by
  cases a with
  | handler => exact handler_inArrays h hstep
  | loop ledManual =>
    obtain ⟨_, ht⟩ := loop_view hstep
    rw [ht]
    exact inArrays_congr h rfl rfl id
  | ble =>
    rcases ble_view hstep with ⟨_, ht⟩ | ⟨_, ht, _⟩
    · rw [ht]
      exact inArrays_congr h rfl rfl id
    · rw [ht]
      exact inArrays_congr h rfl rfl id
  | raise e =>
    obtain ⟨_, ht⟩ := raise_view hstep
    rw [ht]
    exact inArrays_congr h rfl rfl id
  | timer e =>
    obtain ⟨_, ht⟩ := timer_view hstep
    rw [ht]
    exact inArrays_congr h rfl rfl id
  | staDisconnected =>
    cases hstep
    unfold onStaDisconnected
    split <;> exact inArrays_congr h rfl rfl id
  | bleWrite | staStart | gotIp =>
    simp only [step] at hstep
    split at hstep <;> cases hstep
    exact inArrays_congr h rfl rfl id

/-- A stored text that is too long for its array is never the one that was tried. -/
theorem attempt_ne_of_long {s : Wifi} (h : machine.Reach Machine.anyStep s)
    (hlong : ssidLen < s.wifiSsid.length ∨ passwordLen < s.wifiPsk.length) :
    s.attempt ≠ some ⟨s.wifiSsid, s.wifiPsk⟩ := by
  have harrays : InArrays s := by
    refine h.invariant ?_ ?_
    · rintro s ⟨ssid, psk, rfl⟩
      exact ⟨Nat.zero_le _, fun _ => Nat.zero_le _, nofun⟩
    · intro s a t hs _ hstep
      exact step_inArrays hs hstep
  intro hattempt
  have hfits := harrays.attempt _ hattempt
  simp only at hfits
  omega

/-- A write of new credentials by the BLE host. -/
def write (ssid psk : Text) : List Label := .bleWrite ssid psk :: List.replicate 5 .ble

/-- New credentials, written once the station has connected, are tried. -/
def updateTried : List Label :=
  firstConnected ++ write [1] [2] ++ loops 7 ++ handles 11 ++ loops 6 ++ handles 4 ++
    [.staStart, .gotIp] ++ handles 5

theorem last_attempt_current_updateTried :
    ∃ s, machine.exec (boot [] []) updateTried = some s ∧ s.wifiSsid = [1] ∧
      s.attempt = some ⟨s.wifiSsid, s.wifiPsk⟩ := by
  have halong : machine.Along KeepsUpdate (boot [] []) updateTried := by
    decide +kernel
  exact ⟨_, rfl, rfl, last_attempt_current (Machine.reach_of_exec ⟨[], [], rfl⟩ halong rfl)
    (by decide) (by decide) rfl (by decide) rfl rfl⟩

/-- The same write while the first attempt is still waiting for its answer. -/
def updateDropped : List Label :=
  firstAttempt ++ write [1] [2] ++ loops 3 ++ [.gotIp] ++ handles 5

theorem last_attempt_outdated :
    ∃ s, machine.exec (boot [] []) updateDropped = some s ∧
      wantsReconnect s.bus.sysEvents = false ∧ s.loop.pc = .waitBits ∧
      .wifiReconnect ∉ s.bus.queue ∧ handling s.handler = false ∧ s.ble = .idle ∧
      s.attempt = some ⟨[], []⟩ ∧ s.attempt ≠ some ⟨s.wifiSsid, s.wifiPsk⟩ :=
  ⟨_, rfl, by decide, rfl, by decide, rfl, rfl, rfl, by decide⟩

end MarkitNode.CredentialUpdates
