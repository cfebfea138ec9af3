import MarkitNode.NodeControl

/-!
The LED and the state it shows. `sys_led_status_handler` runs in the event-loop
task, after the handlers of Wi-Fi and discovery that write two of the fields it
reads; the other two are written by the SNTP callback and by the callers of
`sys_set_operation_mode`. The HTTP server switches between automatic and manual
mode. Each label is one step of one task: one access to a shared field, one
event-group call or one post.
-/

namespace MarkitNode.LedTasks

open SystemLoop NodeControl

/-- `led_status_enum` -/
inductive LedStatus
  | unknown
  | off
  | on
  | duty
  | fastFlash
  | fastBreath
  | slowBreath
  | seqEnc
  deriving DecidableEq, Repr

/-- `get_target_led_status` for given values of the fields it reads. -/
def getTargetLedStatus (wifiConnected ntpSynced discoveryCompleted active : Bool) : LedStatus :=
  if !wifiConnected then .fastFlash
  else if !ntpSynced || !discoveryCompleted then .fastBreath
  else if active then .on
  else .slowBreath

/-- What the event-loop task does next. -/
inductive HandlerPc
  | idle
  /-- `sys_wifi_reconnect_event_handler` at its accesses to shared state. -/
  | markDisconnected
  | setDisconnected
  | connecting
  | setConnected
  | clearFail
  | setFail
  /-- `sys_discovery_handler` likewise. -/
  | readCompleted
  | awaitReply
  | setDiscovered
  /-- `sys_led_status_handler`; what it has read decides where it is. -/
  | readWifi
  | readNtp
  | readDiscovery
  | readActive
  | compare (target : LedStatus)
  | setLed (target : LedStatus)
  | clearLed
  /-- The last step of a handler: its guard. -/
  | finish (e : SysEventType)
  deriving DecidableEq, Repr

/-- `blink_configure_handler` after its write of `led_manual`. -/
inductive HttpPc
  | idle
  | setStatusChanged
  | turnOff
  deriving DecidableEq, Repr

structure Leds where
  bus : Bus
  loop : Loop
  wifiConnected : Bool
  ntpSynced : Bool
  discoveryCompleted : Bool
  active : Bool
  ledManual : Bool
  ledStatus : LedStatus
  handler : HandlerPc
  http : HttpPc
  /-- events that other tasks are about to raise for a field they have written -/
  owed : List SysEvent

/-- The state when `app_system_loop` starts. -/
def boot (ledStatus : LedStatus) : Leds where
  bus := Bus.init
  loop := Loop.init
  wifiConnected := false
  ntpSynced := false
  discoveryCompleted := false
  active := false
  ledManual := false
  ledStatus := ledStatus
  handler := .idle
  http := .idle
  owed := []

inductive Label
  | loop
  /-- The event-loop task; the flag is the outcome of what the handler waits for. -/
  | handler (success : Bool)
  /-- `time_sync_notification_cb` writes `ntp_synced`. -/
  | timeSynced
  /-- `sys_set_operation_mode` writes `active`. -/
  | setMode (active : Bool)
  /-- A task that has written a field raises its event. -/
  | raiseOwed (e : SysEvent)
  /-- `mode=auto`, `mode=manual` and `mode=off` of `blink_configure_handler`. -/
  | httpAuto
  | httpManual
  | httpOff
  /-- The HTTP server goes on with its request. -/
  | http
  /-- Another task raises a system event of its own. -/
  | raise (e : SysEvent)
  /-- A timer posts an event of its own. -/
  | timer (e : SysEventType)
  deriving DecidableEq, Repr

/-- The handlers registered for an event, by their first step of concern. -/
def dispatch : SysEventType → HandlerPc
  | .wifiReconnect => .markDisconnected
  | .discovery => .readCompleted
  | .ledStatus => .readWifi
  | e => .finish e

def handlerStep (s : Leds) (success : Bool) : Option Leds :=
  match s.handler with
  | .idle =>
      match s.bus.queue with
      | [] => none
      | e :: rest => some { s with bus := { s.bus with queue := rest }, handler := dispatch e }
  | .markDisconnected => some { s with wifiConnected := false, handler := .setDisconnected }
  | .setDisconnected =>
      some { s with bus := s.bus.setSysEvent .wifiDisconnected, handler := .connecting }
  | .connecting =>
      if success then some { s with wifiConnected := true, handler := .setConnected }
      else some { s with wifiConnected := false, handler := .setFail }
  | .setConnected => some { s with bus := s.bus.setSysEvent .wifiConnected, handler := .clearFail }
  | .clearFail =>
      some { s with bus := s.bus.clearSysEvent .wifiFail, handler := .finish .wifiReconnect }
  | .setFail =>
      some { s with bus := s.bus.setSysEvent .wifiFail, handler := .finish .wifiReconnect }
  | .readCompleted =>
      some { s with handler := if s.discoveryCompleted then .finish .discovery else .awaitReply }
  | .awaitReply =>
      if success then some { s with discoveryCompleted := true, handler := .setDiscovered }
      else some { s with handler := .finish .discovery }
  | .setDiscovered =>
      some { s with bus := s.bus.setSysEvent .discoveryCompleted, handler := .finish .discovery }
  | .readWifi =>
      some { s with handler := if s.wifiConnected then .readNtp else .compare .fastFlash }
  | .readNtp =>
      some { s with handler := if s.ntpSynced then .readDiscovery else .compare .fastBreath }
  | .readDiscovery =>
      some { s with handler := if s.discoveryCompleted then .readActive
                               else .compare .fastBreath }
  | .readActive =>
      some { s with handler := .compare (if s.active then .on else .slowBreath) }
  | .compare target =>
      some { s with handler := if target = s.ledStatus then .clearLed else .setLed target }
  | .setLed target => some { s with ledStatus := target, handler := .clearLed }
  | .clearLed => some { s with bus := s.bus.clearTaskEvent .ledStatus, handler := .idle }
  | .finish e => some { s with bus := NodeControl.finish s.bus e, handler := .idle }

/-- What the loop does besides its bus operations. -/
def applyEffect (s : Leds) : LoopEffect → Leds
  | .setInactive => { s with active := false }
  | _ => s

def step (s : Leds) : Label → Option Leds
  | .loop =>
      (loopStep s.ledManual s.bus s.loop).map fun r =>
        { applyEffect s r.2.2 with bus := r.1, loop := r.2.1 }
  | .handler success => handlerStep s success
  | .timeSynced => some { s with ntpSynced := true, owed := s.owed ++ [.ntpSynced] }
  | .setMode active => some { s with active := active, owed := s.owed ++ [.modeChange] }
  | .raiseOwed e =>
      if e ∈ s.owed then some { s with bus := s.bus.setSysEvent e, owed := s.owed.erase e }
      else none
  | .httpAuto =>
      if s.http = .idle then some { s with ledManual := false, http := .setStatusChanged }
      else none
  | .httpManual =>
      if s.http = .idle then some { s with ledManual := true, http := .setStatusChanged }
      else none
  | .httpOff =>
      if s.http = .idle then some { s with ledManual := true, http := .turnOff } else none
  | .http =>
      match s.http with
      | .idle => none
      | .setStatusChanged =>
          some { s with bus := s.bus.setSysEvent .ledStatusChanged, http := .idle }
      | .turnOff => some { s with ledStatus := .off, http := .idle }
  | .raise e =>
      -- `EV_SYS_WIFI_FAIL` is raised by the reconnect handler alone
      if e = .wifiFail then none else some { s with bus := s.bus.setSysEvent e }
  | .timer e =>
      if isTimerEvent e then (s.bus.post e).map fun b => { s with bus := b } else none

def machine : Machine Leds Label where
  Init s := ∃ ledStatus, s = boot ledStatus
  step := step

end MarkitNode.LedTasks
