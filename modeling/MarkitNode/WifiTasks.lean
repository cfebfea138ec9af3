import MarkitNode.Machine
import MarkitNode.SystemLoop

/-!
The tasks that share the Wi-Fi state: `app_system_loop`, the event-loop task
with `sys_wifi_reconnect_event_handler`, the driver's `wifi_event_handler`, and
the BLE host that stores new credentials. Each label is one step of one task,
so that runs are the interleavings of the tasks; a connection attempt ends as
the driver events that arrive decide.
-/

namespace MarkitNode.WifiTasks

open SystemLoop

/-- Characters of a credential, without the terminator. -/
abbrev Text := List UInt8

/-- The arrays `ssid` and `password` of `wifi_sta_config_t`. -/
def ssidLen : ℕ := 32

def passwordLen : ℕ := 64

/-- `wifi_config_t` as far as `sys_wifi_prepare_config` copies into it: the texts that
the driver finds in the two arrays, of which `password` is behind `ssid`. -/
structure WifiConfig where
  ssid : Text
  password : Text
  deriving DecidableEq

/-- Bits of `g_mcu.wifi_event_group`. -/
inductive WifiEvent
  | connected
  | fail
  deriving DecidableEq, Repr

/-- The station as the driver keeps it. `connecting` is an `esp_wifi_connect`
that has not been answered yet. -/
structure Driver where
  started : Bool
  link : Bool
  connecting : Bool
  deriving DecidableEq

namespace Driver

/-- `esp_wifi_connect` fails at once while the station is stopped. -/
def connect (d : Driver) : Driver := { d with connecting := d.started }

def disconnect (d : Driver) : Driver := { d with link := false, connecting := false }

def stop (_ : Driver) : Driver := ⟨false, false, false⟩

def start (d : Driver) : Driver := { d with started := true }

end Driver

/-- An event that `sys_wifi_reconnect_event_handler` does not handle. -/
abbrev OtherEvent := { e : SysEventType // e ≠ .wifiReconnect }

/-- What the event-loop task does next. The first group of states is
`sys_wifi_reconnect_event_handler` from its first call to its last. -/
inductive HandlerPc
  | disconnect
  | stop
  | clearConnected
  | setDisconnected
  | copySsid
  | copyPsk
  | clearGroup
  | start
  | waitBits
  | markConnected
  | setConnected
  | clearFail
  | markFailed
  | setFail
  | clearTask
  | idle
  /-- Running the handler of another event. -/
  | other (e : OtherEvent)
  deriving DecidableEq, Repr

/-- What the BLE host does next with a write to the Wi-Fi characteristic. -/
inductive BlePc
  | idle
  | clearSsid (ssid psk : Text)
  | clearPsk (ssid psk : Text)
  | copySsid (ssid psk : Text)
  | copyPsk (psk : Text)
  | setUpdated
  deriving DecidableEq

/-- `attempt` is the configuration of the last connection attempt. -/
structure Wifi where
  bus : Bus
  loop : Loop
  wifiEvents : EventGroup WifiEvent
  retryNum : ℕ
  driver : Driver
  wifiConnected : Bool
  wifiSsid : Text
  wifiPsk : Text
  handler : HandlerPc
  config : WifiConfig
  attempt : Option WifiConfig
  ble : BlePc

inductive Label
  | loop (ledManual : Bool)
  /-- The event-loop task takes an event or goes on with its handler. -/
  | handler
  | bleWrite (ssid psk : Text)
  | ble
  | staStart
  | staDisconnected
  | gotIp
  /-- Another task raises one of its own system events. -/
  | raise (e : SysEvent)
  /-- A timer posts an event of its own. -/
  | timer (e : SysEventType)

/-- The handler that is called for an event. -/
def dispatch (e : SysEventType) : HandlerPc :=
  if h : e = .wifiReconnect then .disconnect else .other ⟨e, h⟩

/-- `CONFIG_WIFI_MAX_RETRY` -/
def maxRetry : ℕ := 5

def handlerStep (s : Wifi) : Option Wifi :=
  match s.handler with
  | .disconnect => some { s with driver := s.driver.disconnect, handler := .stop }
  | .stop => some { s with driver := s.driver.stop, handler := .clearConnected }
  | .clearConnected => some { s with wifiConnected := false, handler := .setDisconnected }
  | .setDisconnected =>
      some { s with bus := s.bus.setSysEvent .wifiDisconnected, handler := .copySsid }
  | .copySsid =>
      -- `strcpy` does not stop at the end of the array
      some { s with config := ⟨s.wifiSsid.take ssidLen, s.wifiSsid.drop ssidLen⟩,
                    handler := .copyPsk }
  | .copyPsk =>
      some { s with config := { s.config with password := s.wifiPsk.take passwordLen },
                    handler := .clearGroup }
  | .clearGroup =>
      some { s with wifiEvents := (s.wifiEvents.clearBit .connected).clearBit .fail,
                    handler := .start }
  | .start =>
      some { s with driver := s.driver.start, attempt := some s.config, handler := .waitBits }
  | .waitBits =>
      if s.wifiEvents .connected then some { s with handler := .markConnected }
      else if s.wifiEvents .fail then some { s with handler := .markFailed }
      else none
  | .markConnected => some { s with wifiConnected := true, handler := .setConnected }
  | .setConnected =>
      some { s with bus := s.bus.setSysEvent .wifiConnected, handler := .clearFail }
  | .clearFail => some { s with bus := s.bus.clearSysEvent .wifiFail, handler := .clearTask }
  | .markFailed => some { s with wifiConnected := false, handler := .setFail }
  | .setFail => some { s with bus := s.bus.setSysEvent .wifiFail, handler := .clearTask }
  | .clearTask => some { s with bus := s.bus.clearTaskEvent .wifiReconnect, handler := .idle }
  | .idle =>
      match s.bus.queue with
      | [] => none
      | e :: rest => some { s with bus := { s.bus with queue := rest }, handler := dispatch e }
  | .other e =>
      match taskGuard e.val with
      | none => some { s with handler := .idle }
      | some g => some { s with bus := s.bus.clearTaskEvent g, handler := .idle }

def bleStep (s : Wifi) : Option Wifi :=
  match s.ble with
  | .idle => none
  | .clearSsid ssid psk => some { s with wifiSsid := [], ble := .clearPsk ssid psk }
  | .clearPsk ssid psk => some { s with wifiPsk := [], ble := .copySsid ssid psk }
  | .copySsid ssid psk => some { s with wifiSsid := ssid, ble := .copyPsk psk }
  | .copyPsk psk => some { s with wifiPsk := psk, ble := .setUpdated }
  | .setUpdated => some { s with bus := s.bus.setSysEvent .wifiConfigUpdated, ble := .idle }

/-- `wifi_event_handler` on `WIFI_EVENT_STA_START` -/
def onStaStart (s : Wifi) : Wifi :=
  { s with driver := s.driver.connect, retryNum := maxRetry }

/-- `wifi_event_handler` on `WIFI_EVENT_STA_DISCONNECTED` -/
def onStaDisconnected (s : Wifi) : Wifi :=
  let down := s.driver.disconnect
  if s.retryNum > 0 then { s with driver := down.connect, retryNum := s.retryNum - 1 }
  else { s with driver := down, wifiEvents := s.wifiEvents.setBit .fail }

/-- `wifi_event_handler` on `IP_EVENT_STA_GOT_IP` -/
def onGotIp (s : Wifi) : Wifi :=
  { s with driver := { s.driver with link := true, connecting := false },
           wifiEvents := s.wifiEvents.setBit .connected }

/-- The system events that only the Wi-Fi tasks raise. -/
def isWifiEvent : SysEvent → Bool
  | .wifiConfigUpdated | .wifiConnected | .wifiDisconnected | .wifiFail => true
  | _ => false

def step (s : Wifi) : Label → Option Wifi
  | .loop ledManual =>
      (loopStep ledManual s.bus s.loop).map fun r => { s with bus := r.1, loop := r.2.1 }
  | .handler => handlerStep s
  | .bleWrite ssid psk =>
      if s.ble = .idle then some { s with ble := .clearSsid ssid psk } else none
  | .ble => bleStep s
  | .staStart => if s.driver.started then some (onStaStart s) else none
  | .staDisconnected => some (onStaDisconnected s)
  | .gotIp => if s.driver.started then some (onGotIp s) else none
  | .raise e => if isWifiEvent e then none else some { s with bus := s.bus.setSysEvent e }
  | .timer e =>
      if isTimerEvent e then (s.bus.post e).map fun b => { s with bus := b } else none

/-- After boot: nothing has been tried with the credentials found in NVS. -/
def boot (ssid psk : Text) : Wifi where
  bus := Bus.init
  loop := Loop.init
  wifiEvents := EventGroup.clearAll
  retryNum := maxRetry
  driver := ⟨false, false, false⟩
  wifiConnected := false
  wifiSsid := ssid
  wifiPsk := psk
  handler := .idle
  config := ⟨[], []⟩
  attempt := none
  ble := .idle

def machine : Machine Wifi Label where
  Init s := ∃ ssid psk, s = boot ssid psk
  step := step

/-- The event-loop task moves neither the dispatcher nor the retries. -/
theorem handlerStep_frame {s t : Wifi} (hstep : handlerStep s = some t) :
    t.loop = s.loop ∧ t.retryNum = s.retryNum := by
  cases hpc : s.handler with
  | waitBits =>
    simp only [handlerStep, hpc] at hstep
    split at hstep
    · cases hstep
      exact ⟨rfl, rfl⟩
    · split at hstep <;> cases hstep
      exact ⟨rfl, rfl⟩
  | idle | other =>
    simp only [handlerStep, hpc] at hstep
    split at hstep <;> cases hstep <;> exact ⟨rfl, rfl⟩
  | _ =>
    simp only [handlerStep, hpc] at hstep
    cases hstep
    exact ⟨rfl, rfl⟩

section Runs

def loops (n : ℕ) : List Label := List.replicate n (.loop false)

def handles (n : ℕ) : List Label := List.replicate n .handler

/-- From boot to the first attempt: a pass of the dispatcher schedules it, a
second one throws away the bit that the handler raises itself. -/
def firstAttempt : List Label := loops 8 ++ handles 5 ++ loops 3 ++ handles 4 ++ [.staStart]

/-- The access point answers and the handler finishes. -/
def firstConnected : List Label := firstAttempt ++ [.gotIp] ++ handles 5

end Runs

end MarkitNode.WifiTasks
