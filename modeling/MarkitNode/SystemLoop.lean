import MarkitNode.EventGroup

/-!
`app_system_loop` and what it shares with the other tasks. A pass takes all
pending system events at once, then works through them in a fixed order; each
event-group call, each event post and each access to shared state is one step.
Events are posted to the queue of a single event-loop task. What the tasks see of
the loop is read off `loopStep_cases`.
-/

namespace MarkitNode.SystemLoop

/-- Bits of `g_mcu.sys_event_group`. -/
inductive SysEvent
  | wifiConfigUpdated
  | wifiConnected
  | wifiDisconnected
  | wifiFail
  | ntpSynced
  | discoveryCompleted
  | ledStatusChanged
  | otaTriggered
  | modeChange
  | powerMgmt
  deriving DecidableEq, Repr

/-- The mask `0x00FFFFFF` of the loop's wait covers every bit in use. -/
def waitMask : List SysEvent :=
  [.wifiConfigUpdated, .wifiConnected, .wifiDisconnected, .wifiFail, .ntpSynced,
    .discoveryCompleted, .ledStatusChanged, .otaTriggered, .modeChange, .powerMgmt]

/-- Bits of `g_mcu.task_event_group`. -/
inductive TaskEvent
  | timeSync
  | discovery
  | ledStatus
  | wifiReconnect
  deriving DecidableEq, Repr

/-- `sys_event_type_t` -/
inductive SysEventType
  | timeSync
  | discovery
  | ledStatus
  | wifiReconnect
  | powerMgmt
  | ota
  | modeChange
  deriving DecidableEq, Repr

/-- The guard that a handler clears when it is done. -/
def taskGuard : SysEventType → Option TaskEvent
  | .timeSync => some .timeSync
  | .discovery => some .discovery
  | .ledStatus => some .ledStatus
  | .wifiReconnect => some .wifiReconnect
  | _ => none

/-- The events that timers post. -/
def isTimerEvent : SysEventType → Bool
  | .timeSync | .discovery | .powerMgmt => true
  | _ => false

structure Bus where
  sysEvents : EventGroup SysEvent
  taskEvents : EventGroup TaskEvent
  queue : List SysEventType

namespace Bus

def setSysEvent (b : Bus) (e : SysEvent) : Bus := { b with sysEvents := b.sysEvents.setBit e }

def clearSysEvent (b : Bus) (e : SysEvent) : Bus := { b with sysEvents := b.sysEvents.clearBit e }

def setTaskEvent (b : Bus) (e : TaskEvent) : Bus := { b with taskEvents := b.taskEvents.setBit e }

def clearTaskEvent (b : Bus) (e : TaskEvent) : Bus :=
  { b with taskEvents := b.taskEvents.clearBit e }

/-- The `queue_size` of the event loop. -/
def queueSize : ℕ := 16

/-- A post waits until the queue has room. -/
def post (b : Bus) (e : SysEventType) : Option Bus :=
  if b.queue.length < queueSize then some { b with queue := b.queue ++ [e] } else none

theorem post_eq_some {b b' : Bus} {e : SysEventType} (h : b.post e = some b') :
    b' = { b with queue := b.queue ++ [e] } := by
  unfold post at h
  split at h
  · exact (Option.some.inj h).symm
  · cases h

/-- After `sys_init_events`. -/
def init : Bus where
  sysEvents := EventGroup.setBit EventGroup.clearAll .wifiDisconnected
  taskEvents := EventGroup.clearAll
  queue := []

end Bus

/-- What the loop does next. -/
inductive LoopPc
  | waitBits
  | postTimeSync
  | postDiscovery
  | getReconnect
  | setReconnect
  | postReconnect
  | postOta
  | otaInactive
  | otaModeChange
  | otaPerform
  | postPowerMgmt
  | postModeChange
  | getLedStatus
  | readLedManual
  | setLedStatus
  | postLedStatus
  deriving DecidableEq, Repr

/-- `bits` are those taken by the current pass. -/
structure Loop where
  pc : LoopPc
  bits : EventGroup SysEvent

def Loop.init : Loop := ⟨.waitBits, EventGroup.clearAll⟩

/-- The mask of the Wi-Fi section. -/
def wantsReconnect (bits : EventGroup SysEvent) : Bool :=
  bits .wifiDisconnected || bits .wifiFail || bits .wifiConfigUpdated

def modeSection (bits : EventGroup SysEvent) : LoopPc :=
  if bits .modeChange then .postModeChange else .getLedStatus

def powerSection (bits : EventGroup SysEvent) : LoopPc :=
  if bits .powerMgmt then .postPowerMgmt else modeSection bits

def otaSection (bits : EventGroup SysEvent) : LoopPc :=
  if bits .otaTriggered then .postOta else powerSection bits

def wifiSection (bits : EventGroup SysEvent) : LoopPc :=
  if wantsReconnect bits then .getReconnect else otaSection bits

def startSection (bits : EventGroup SysEvent) : LoopPc :=
  if bits .wifiConnected then .postTimeSync else wifiSection bits

/-- Steps that touch state outside the event groups and the queue. -/
inductive LoopEffect
  | none
  /-- `sys_set_operation_mode(false)` clears `g_mcu.state.active`. -/
  | setInactive
  /-- `sys_ota_perform` gives up and clears `no_sleep`; a success restarts the chip. -/
  | otaFailed
  deriving DecidableEq, Repr

/-- One step of the loop; `ledManual` is the flag as the LED section reads it. -/
def loopStep (ledManual : Bool) (b : Bus) (l : Loop) : Option (Bus × Loop × LoopEffect) :=
  match l.pc with
  | .waitBits =>
      if waitMask.any b.sysEvents then
        some ({ b with sysEvents := EventGroup.clearAll },
          ⟨startSection b.sysEvents, b.sysEvents⟩, .none)
      else none
  | .postTimeSync => (b.post .timeSync).map fun b => (b, { l with pc := .postDiscovery }, .none)
  | .postDiscovery =>
      (b.post .discovery).map fun b => (b, { l with pc := wifiSection l.bits }, .none)
  | .getReconnect =>
      if b.taskEvents .wifiReconnect then some (b, { l with pc := otaSection l.bits }, .none)
      else some (b, { l with pc := .setReconnect }, .none)
  | .setReconnect => some (b.setTaskEvent .wifiReconnect, { l with pc := .postReconnect }, .none)
  | .postReconnect =>
      (b.post .wifiReconnect).map fun b => (b, { l with pc := otaSection l.bits }, .none)
  | .postOta => (b.post .ota).map fun b => (b, { l with pc := .otaInactive }, .none)
  | .otaInactive => some (b, { l with pc := .otaModeChange }, .setInactive)
  | .otaModeChange => some (b.setSysEvent .modeChange, { l with pc := .otaPerform }, .none)
  | .otaPerform => some (b, { l with pc := powerSection l.bits }, .otaFailed)
  | .postPowerMgmt =>
      (b.post .powerMgmt).map fun b => (b, { l with pc := modeSection l.bits }, .none)
  | .postModeChange =>
      (b.post .modeChange).map fun b => (b, { l with pc := .getLedStatus }, .none)
  | .getLedStatus =>
      if b.taskEvents .ledStatus then some (b, { l with pc := .waitBits }, .none)
      else some (b, { l with pc := .readLedManual }, .none)
  | .readLedManual =>
      if ledManual then some (b, { l with pc := .waitBits }, .none)
      else some (b, { l with pc := .setLedStatus }, .none)
  | .setLedStatus => some (b.setTaskEvent .ledStatus, { l with pc := .postLedStatus }, .none)
  | .postLedStatus =>
      (b.post .ledStatus).map fun b => (b, { l with pc := .waitBits }, .none)

/-- The posts of the loop: at which point it posts which event, and where it goes on. -/
inductive Posts (bits : EventGroup SysEvent) : LoopPc → SysEventType → LoopPc → Prop
  | timeSync : Posts bits .postTimeSync .timeSync .postDiscovery
  | discovery : Posts bits .postDiscovery .discovery (wifiSection bits)
  | wifiReconnect : Posts bits .postReconnect .wifiReconnect (otaSection bits)
  | ota : Posts bits .postOta .ota .otaInactive
  | powerMgmt : Posts bits .postPowerMgmt .powerMgmt (modeSection bits)
  | modeChange : Posts bits .postModeChange .modeChange .getLedStatus
  | ledStatus : Posts bits .postLedStatus .ledStatus .waitBits

/-- The steps of the loop that leave the bus as it is. -/
inductive Moves (ledManual : Bool) (b : Bus) (bits : EventGroup SysEvent) :
    LoopPc → LoopPc → LoopEffect → Prop
  | reconnectScheduled : b.taskEvents .wifiReconnect = true →
      Moves ledManual b bits .getReconnect (otaSection bits) .none
  | reconnectFree : b.taskEvents .wifiReconnect = false →
      Moves ledManual b bits .getReconnect .setReconnect .none
  | setInactive : Moves ledManual b bits .otaInactive .otaModeChange .setInactive
  | otaFailed : Moves ledManual b bits .otaPerform (powerSection bits) .otaFailed
  | ledScheduled : b.taskEvents .ledStatus = true →
      Moves ledManual b bits .getLedStatus .waitBits .none
  | ledFree : b.taskEvents .ledStatus = false →
      Moves ledManual b bits .getLedStatus .readLedManual .none
  | ledManual : ledManual = true → Moves ledManual b bits .readLedManual .waitBits .none
  | ledAuto : ledManual = false → Moves ledManual b bits .readLedManual .setLedStatus .none

/-- What one step of the loop can do. -/
inductive LoopCase (ledManual : Bool) (b : Bus) : Loop → Bus → Loop → LoopEffect → Prop
  | take {bits : EventGroup SysEvent} : waitMask.any b.sysEvents = true →
      LoopCase ledManual b ⟨.waitBits, bits⟩ { b with sysEvents := EventGroup.clearAll }
        ⟨startSection b.sysEvents, b.sysEvents⟩ .none
  | post {bits : EventGroup SysEvent} {pc next : LoopPc} {e : SysEventType} :
      Posts bits pc e next → b.queue.length < Bus.queueSize →
      LoopCase ledManual b ⟨pc, bits⟩ { b with queue := b.queue ++ [e] } ⟨next, bits⟩ .none
  | move {bits : EventGroup SysEvent} {pc next : LoopPc} {eff : LoopEffect} :
      Moves ledManual b bits pc next eff → LoopCase ledManual b ⟨pc, bits⟩ b ⟨next, bits⟩ eff
  | setReconnect {bits : EventGroup SysEvent} :
      LoopCase ledManual b ⟨.setReconnect, bits⟩ (b.setTaskEvent .wifiReconnect)
        ⟨.postReconnect, bits⟩ .none
  | setLedStatus {bits : EventGroup SysEvent} :
      LoopCase ledManual b ⟨.setLedStatus, bits⟩ (b.setTaskEvent .ledStatus)
        ⟨.postLedStatus, bits⟩ .none
  | setModeChange {bits : EventGroup SysEvent} :
      LoopCase ledManual b ⟨.otaModeChange, bits⟩ (b.setSysEvent .modeChange)
        ⟨.otaPerform, bits⟩ .none

section Cases

variable {ledManual : Bool} {b b' : Bus} {l l' : Loop} {eff : LoopEffect}

theorem loopCase_of_post {bits : EventGroup SysEvent} {pc next : LoopPc} {e : SysEventType}
    (hpost : Posts bits pc e next)
    (h : (b.post e).map (fun b => (b, Loop.mk next bits, LoopEffect.none)) = some (b', l', eff)) :
    LoopCase ledManual b ⟨pc, bits⟩ b' l' eff := by
  rw [Bus.post] at h
  split at h
  · rename_i hroom
    cases h
    exact .post hpost hroom
  · cases h

/-- A step of the loop is one of these; the views of the loop go by its cases. -/
theorem loopStep_cases (h : loopStep ledManual b l = some (b', l', eff)) :
    LoopCase ledManual b l b' l' eff := by
  obtain ⟨pc, bits⟩ := l
  cases pc with
  | waitBits =>
    simp only [loopStep] at h
    split at h
    · rename_i hany
      cases h
      exact .take hany
    · cases h
  | postTimeSync => exact loopCase_of_post .timeSync h
  | postDiscovery => exact loopCase_of_post .discovery h
  | postReconnect => exact loopCase_of_post .wifiReconnect h
  | postOta => exact loopCase_of_post .ota h
  | postPowerMgmt => exact loopCase_of_post .powerMgmt h
  | postModeChange => exact loopCase_of_post .modeChange h
  | postLedStatus => exact loopCase_of_post .ledStatus h
  | getReconnect =>
    simp only [loopStep] at h
    split at h
    · rename_i hguard
      cases h
      exact .move (.reconnectScheduled hguard)
    · rename_i hguard
      cases h
      exact .move (.reconnectFree (Bool.not_eq_true _ ▸ hguard))
  | getLedStatus =>
    simp only [loopStep] at h
    split at h
    · rename_i hguard
      cases h
      exact .move (.ledScheduled hguard)
    · rename_i hguard
      cases h
      exact .move (.ledFree (Bool.not_eq_true _ ▸ hguard))
  | readLedManual =>
    simp only [loopStep] at h
    split at h
    · rename_i hmanual
      cases h
      exact .move (.ledManual hmanual)
    · rename_i hmanual
      cases h
      exact .move (.ledAuto (Bool.not_eq_true _ ▸ hmanual))
  | setReconnect =>
    cases h
    exact .setReconnect
  | setLedStatus =>
    cases h
    exact .setLedStatus
  | otaModeChange =>
    cases h
    exact .setModeChange
  | otaInactive =>
    cases h
    exact .move .setInactive
  | otaPerform =>
    cases h
    exact .move .otaFailed

end Cases

end MarkitNode.SystemLoop
