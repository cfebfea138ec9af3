import MarkitNode.StreamSession
import MarkitNode.StreamTasks

/-!
The boundary between two sessions. The consumer may run ahead of the producer:
it enters on the flag while the ring still holds the frames of the session
before. Where the first peek comes after the last reset of a session, and an
activation finds no consumer amid the frames of the one before, every packet has
a frame of its own session and no reset moves the ring under the consumer.
-/

namespace MarkitNode.SessionBoundary

open SystemLoop StreamTasks
open NodeControl hiding Label step machine

/-- The producer does not reset the ring again before the next activation: it
streams, and only a device already inactive may have its mux switched off; or
it has stopped, and the handlers do not start it. -/
structure RingSettled (n : Node) (monitor : MonitorPc) : Prop where
  streaming : n.mux = .stream →
    producing monitor = true ∧ (n.handler = .writeMux false → n.active = false)
  stopped : n.mux ≠ .stream → n.active = false ∧ n.handler ≠ .writeMux true ∧
    monitor ≠ .bufferReset ∧ monitor ≠ .reset

instance (n : Node) (monitor : MonitorPc) : Decidable (RingSettled n monitor) :=
  decidable_of_iff
    ((n.mux = .stream →
        producing monitor = true ∧ (n.handler = .writeMux false → n.active = false)) ∧
      (n.mux ≠ .stream → n.active = false ∧ n.handler ≠ .writeMux true ∧
        monitor ≠ .bufferReset ∧ monitor ≠ .reset))
    ⟨fun h => ⟨h.1, h.2⟩, fun h => ⟨h.1, h.2⟩⟩

/-- The device is activated only while the consumer holds no frame and has read none,
or has read all that there are and the producer goes on with the session before. The
consumer peeks for the first time only once the producer has reset the ring since the
activation, and will not reset it again. -/
def KeepsSession (s : Streaming) : Label → Prop
  | .node a => activates s.node a = true →
      holding s.client = none ∧ (inLoop s.client = true → 1 < s.currIndex →
        s.ring.head ≤ s.currIndex ∧ s.node.mux = .stream ∧ producing s.monitor = true ∧
          s.node.handler ≠ .writeMux false)
  | .client _ => s.client = .peek → s.currIndex = 1 → 1 < s.ring.head →
      s.resetEpoch = s.epoch ∧ RingSettled s.node s.monitor
  | .monitor _ => True

instance (s : Streaming) : DecidablePred (KeepsSession s)
  | .node _ | .client _ => inferInstanceAs (Decidable (_ → _))
  | .monitor _ => inferInstanceAs (Decidable True)

section Settled

variable {n n' : Node} {monitor : MonitorPc}

/-- Steps that leave the mux alone. -/
theorem settled_congr (h : RingSettled n monitor) (hmux : n'.mux = n.mux)
    (hactive : n.active = false → n'.active = false)
    (hon : n.active = false → n'.handler ≠ .writeMux true)
    (hoff : n'.handler = .writeMux false → n'.active = false) : RingSettled n' monitor where
  streaming hs := ⟨(h.streaming (hmux ▸ hs)).1, hoff⟩
  stopped hs := by
    obtain ⟨hidle, -, hmonitor⟩ := h.stopped (hmux ▸ hs)
    exact ⟨hactive hidle, hon hidle, hmonitor⟩

/-- A handler that reads the mode anew reads what the mux may follow. -/
theorem settled_handler (h : RingSettled n monitor) (hstep : handlerStep n = some n') :
    RingSettled n' monitor := by
  cases hpc : n.handler with
  | idle =>
    obtain ⟨e, rest, -, -, hn⟩ := idle_cases hpc hstep
    rw [hn]
    refine settled_congr h rfl id (fun _ => ?_) fun hoff => ?_
    · cases e <;> (intro h; cases h)
    · cases e <;> cases hoff
  | readMode =>
    simp only [handlerStep, hpc] at hstep
    cases hstep
    refine settled_congr h rfl id (fun hidle => ?_) fun hoff => ?_
    · rw [hidle]
      simp
    · exact HandlerPc.writeMux.inj hoff
  | writeMux active =>
    simp only [handlerStep, hpc] at hstep
    cases hstep
    cases active with
    | false =>
      refine ⟨(fun h => by cases h), fun _ => ?_⟩
      by_cases hs : n.mux = .stream
      · obtain ⟨hproducing, hidle⟩ := h.streaming hs
        refine ⟨hidle hpc, by simp, ?_, ?_⟩ <;> (rintro rfl; cases hproducing)
      · obtain ⟨hidle, -, hmonitor⟩ := h.stopped hs
        exact ⟨hidle, by simp, hmonitor⟩
    | true =>
      refine ⟨fun _ => ⟨?_, by simp⟩, fun hs => absurd rfl hs⟩
      by_cases hs : n.mux = .stream
      · exact (h.streaming hs).1
      · exact absurd hpc (h.stopped hs).2.1
  | readPower =>
    simp only [handlerStep, hpc] at hstep
    cases hstep
    refine settled_congr h rfl id (fun _ => ?_) fun hoff => ?_
    · cases n.active <;> simp
    · cases hon : n.active <;> simp [hon] at hoff
  | enterActive | setNoSleep | enterStandby | clearNoSleep | otaNoSleep | powerUpdate | other _ =>
    simp only [handlerStep, hpc] at hstep
    cases hstep
    exact settled_congr h rfl id (fun _ => by simp) (by simp)

/-- Steps that leave the mux and the handlers alone. -/
theorem settled_frame (h : RingSettled n monitor) (hmux : n'.mux = n.mux)
    (hhandler : n'.handler = n.handler) (hactive : n.active = false → n'.active = false) :
    RingSettled n' monitor where
  streaming hs := by
    obtain ⟨hproducing, hidle⟩ := h.streaming (hmux ▸ hs)
    exact ⟨hproducing, fun hoff => hactive (hidle (hhandler ▸ hoff))⟩
  stopped hs := by
    obtain ⟨hidle, hon, hmonitor⟩ := h.stopped (hmux ▸ hs)
    exact ⟨hactive hidle, hhandler ▸ hon, hmonitor⟩

/-- A step of the node that is no activation leaves the ring settled. -/
theorem settled_node {a : NodeControl.Label} (h : RingSettled n monitor)
    (hactivates : activates n a = false) (hmode : isModeLabel a = true)
    (hstep : NodeControl.step n a = some n') : RingSettled n' monitor := by
  cases a with
  | loop ledManual =>
    obtain ⟨eff, -, hn⟩ := loop_cases hstep
    rw [hn]
    cases eff with
    | setInactive => exact settled_frame h rfl rfl fun _ => rfl
    | _ => exact settled_frame h rfl rfl id
  | handler => exact settled_handler h hstep
  | write active =>
    cases hstep
    refine settled_frame h rfl rfl fun hidle => ?_
    cases active with
    | false => rfl
    | true => simp [activates, hidle] at hactivates
  | setBit =>
    obtain ⟨-, -, hn⟩ := setBit_cases hstep
    rw [hn]
    exact settled_frame h rfl rfl id
  | debugEnable => cases hmode
  | debugDisable => cases hmode
  | debug =>
    rcases debug_cases hstep with ⟨-, hn⟩ | ⟨-, hn⟩ <;> (rw [hn]; exact settled_frame h rfl rfl id)
  | raise e =>
    obtain ⟨-, -, hn⟩ := raise_cases hstep
    rw [hn]
    exact settled_frame h rfl rfl id
  | timer e =>
    obtain ⟨-, -, -, hn⟩ := timer_cases hstep
    rw [hn]
    exact settled_frame h rfl rfl id

end Settled

/-- The ring holds `history`: frames of the last activation, if it has been reset since. -/
structure Stamped (ring : SlotRing StampedFrame) (pushed : List StampedFrame)
    (resetEpoch epoch : ℕ) (history : List StampedFrame) : Prop where
  holds : ring.Holds history
  recorded : ∀ x ∈ history, x ∈ pushed
  fresh : resetEpoch = epoch → ∀ x ∈ history, x.epoch = epoch

/-- From the place of the consumer on, the frames are those of the last activation. -/
def Ahead (currIndex : ℤ) (epoch : ℕ) (history : List StampedFrame) : Prop :=
  ∀ k (hk : k < history.length), currIndex ≤ k + 1 → history[k].epoch = epoch

/-- The consumer has read the ring since it has entered its loop. -/
def Reading (client : ClientPc) (currIndex : ℤ) : Prop :=
  inLoop client = true ∧ (1 < currIndex ∨ holding client ≠ none)

structure InSession (s : Streaming) : Prop where
  stamped : ∃ history, Stamped s.ring s.pushed s.resetEpoch s.epoch history ∧
    (Reading s.client s.currIndex → Ahead s.currIndex s.epoch history)
  resetEpoch_le : s.resetEpoch ≤ s.epoch
  currIndex_pos : 0 < s.currIndex
  enabled : s.monitor ≠ .outer → s.imuEnabled = true
  held : ∀ x, holding s.client = some x → x ∈ s.pushed ∧ x.epoch = s.epoch
  settled : Reading s.client s.currIndex → RingSettled s.node s.monitor
  sent : ∀ x ∈ s.sent, Carries x.packet x.item.frame ∧ x.item ∈ s.pushed ∧
    x.item.epoch = x.epoch

section Stamped

variable {ring : SlotRing StampedFrame} {pushed history : List StampedFrame}
  {resetEpoch epoch : ℕ} {currIndex : ℤ}

theorem stamped_reset : Stamped ring.reset pushed epoch epoch [] :=
  ⟨SlotRing.holds_reset ring, nofun, fun _ => nofun⟩

theorem stamped_push (h : Stamped ring pushed resetEpoch epoch history) (frame : ImuDgram) :
    Stamped (ring.push ⟨frame, epoch⟩) (pushed ++ [⟨frame, epoch⟩]) resetEpoch epoch
      (history ++ [⟨frame, epoch⟩]) where
  holds := SlotRing.holds_push h.holds _
  recorded x hx := by
    rcases List.mem_append.mp hx with hx | hx
    · exact List.mem_append_left _ (h.recorded x hx)
    · exact List.mem_append_right _ hx
  fresh heq x hx := by
    rcases List.mem_append.mp hx with hx | hx
    · exact h.fresh heq x hx
    · rw [List.mem_singleton.mp hx]

theorem ahead_push (h : Ahead currIndex epoch history) (frame : ImuDgram) :
    Ahead currIndex epoch (history ++ [⟨frame, epoch⟩]) := by
  intro k hk hindex
  by_cases hold : k < history.length
  · rw [List.getElem_append_left hold]
    exact h k hold hindex
  · simp only [List.getElem_append_right (Nat.le_of_not_lt hold), List.getElem_singleton]

/-- An activation makes the frames of the ring old ones. -/
theorem stamped_activate (h : Stamped ring pushed resetEpoch epoch history)
    (hle : resetEpoch ≤ epoch) : Stamped ring pushed resetEpoch (epoch + 1) history where
  holds := h.holds
  recorded := h.recorded
  fresh heq := by omega

/-- A consumer that has read all the frames has none of them ahead. -/
theorem ahead_of_head_le (h : Stamped ring pushed resetEpoch epoch history)
    (hhead : ring.head ≤ currIndex) (epoch' : ℕ) : Ahead currIndex epoch' history := by
  intro k hk hindex
  rw [h.holds.head_eq] at hhead
  omega

theorem ahead_of_fresh (h : Stamped ring pushed resetEpoch epoch history)
    (hfresh : resetEpoch = epoch) : Ahead currIndex epoch history :=
  fun _ hk _ => h.fresh hfresh _ (List.getElem_mem hk)

theorem ahead_advance (h : Ahead currIndex epoch history) :
    Ahead (currIndex + 1) epoch history :=
  fun k hk hindex => h k hk (by omega)

/-- A peek finds the frame at its index or a newer one. -/
theorem stamped_peek (h : Stamped ring pushed resetEpoch epoch history)
    (hahead : Ahead currIndex epoch history) (hpos : 0 < currIndex) (hlt : currIndex < ring.head)
    {confirm : ℤ} {item : StampedFrame}
    (hpeek : ringBufPeek ring.toRingBuf currIndex = .ok (item, confirm)) :
    item ∈ pushed ∧ item.epoch = epoch := by
  obtain ⟨k, hk, hindex, hfound⟩ := SlotRing.peek_of_holds h.holds hpos hlt
  rw [hfound] at hpeek
  cases hpeek
  refine ⟨h.recorded _ (List.getElem_mem hk), hahead k hk ?_⟩
  rw [hindex, peekIndex]
  split <;> omega

end Stamped

section Steps

variable {s t : Streaming}

theorem eq_write_of_activates {n : Node} {a : NodeControl.Label} (h : activates n a = true) :
    a = .write true := by
  cases a with
  | write active =>
    cases active with
    | false => cases h
    | true => rfl
  | _ => cases h

theorem inSession_node {a : NodeControl.Label} (h : InSession s) (hok : KeepsSession s (.node a))
    (hstep : nodeStep s a = some t) : InSession t := by
  simp only [nodeStep] at hstep
  split at hstep
  · next hmode =>
    obtain ⟨n, hn, rfl⟩ := Option.map_eq_some_iff.mp hstep
    cases hactivates : activates s.node a with
    | false =>
      rw [if_neg nofun]
      exact ⟨h.stamped, h.resetEpoch_le, h.currIndex_pos, h.enabled, h.held,
        fun hreading => settled_node (h.settled hreading) hactivates hmode hn, h.sent⟩
    | true =>
      rw [if_pos rfl]
      obtain ⟨hfree, hgoes⟩ := hok hactivates
      obtain ⟨history, hstamped, -⟩ := h.stamped
      have hcarries (hreading : Reading s.client s.currIndex) :=
        hgoes hreading.1 (hreading.2.resolve_right (not_not_intro hfree))
      refine ⟨⟨history, stamped_activate hstamped h.resetEpoch_le, fun hreading => ?_⟩,
        Nat.le_succ_of_le h.resetEpoch_le, h.currIndex_pos, h.enabled, ?_, fun hreading => ?_,
        h.sent⟩
      · exact ahead_of_head_le hstamped (hcarries hreading).1 _
      · intro x hx
        rw [hfree] at hx
        cases hx
      · obtain ⟨-, hmux, hproducing, hhandler⟩ := hcarries hreading
        obtain rfl := eq_write_of_activates hactivates
        cases hn
        exact ⟨fun _ => ⟨hproducing, fun hoff => absurd hoff hhandler⟩, fun hs => absurd hmux hs⟩
  · cases hstep

theorem streams_iff : streams s = true ↔ s.imuEnabled = true ∧ s.node.mux = .stream := by
  simp [streams]

/-- The producer keeps a settled ring settled. -/
theorem settled_monitor (h : RingSettled s.node s.monitor)
    (henabled : s.monitor ≠ .outer → s.imuEnabled = true) (imuData : Option ImuDgram) :
    RingSettled s.node (monitorStep s imuData).monitor := by
  by_cases hs : s.node.mux = .stream
  · obtain ⟨hproducing, hidle⟩ := h.streaming hs
    refine ⟨fun _ => ⟨?_, hidle⟩, fun hstopped => absurd hs hstopped⟩
    cases hpc : s.monitor with
    | test =>
      have hstreams := streams_iff.mpr ⟨henabled (by rw [hpc]; nofun), hs⟩
      simp only [monitorStep, hpc, hstreams, if_true]
      rfl
    | read => cases imuData <;> simp only [monitorStep, hpc, producing]
    | push frame => simp only [monitorStep, hpc, producing]
    | _ =>
      rw [hpc] at hproducing
      cases hproducing
  · obtain ⟨hidle, hon, hbuffer, hreset⟩ := h.stopped hs
    refine ⟨fun hstream => absurd hstream hs, fun _ => ⟨hidle, hon, ?_⟩⟩
    have hstreams : streams s = false := by simp [streams, hs]
    cases hpc : s.monitor with
    | bufferReset => exact absurd hpc hbuffer
    | reset => exact absurd hpc hreset
    | read => cases imuData <;> simp [monitorStep, hpc]
    | _ => simp [monitorStep, hpc, hstreams]

/-- Steps of the producer that leave the ring alone. -/
theorem inSession_moves (h : InSession s) {monitor : MonitorPc}
    (henabled : monitor ≠ .outer → s.imuEnabled = true)
    (hsettled : Reading s.client s.currIndex → RingSettled s.node monitor) :
    InSession { s with monitor := monitor } where
  stamped := h.stamped
  resetEpoch_le := h.resetEpoch_le
  currIndex_pos := h.currIndex_pos
  enabled := henabled
  held := h.held
  settled := hsettled
  sent := h.sent

theorem inSession_monitor (h : InSession s) (imuData : Option ImuDgram) :
    InSession (monitorStep s imuData) := by
  have hsettled := fun hreading => settled_monitor (h.settled hreading) h.enabled imuData
  have hold (hne : s.monitor ≠ .outer) {monitor : MonitorPc} : monitor ≠ .outer →
      s.imuEnabled = true := fun _ => h.enabled hne
  cases hpc : s.monitor with
  | outer =>
    by_cases hs : streams s = true
    · simp only [monitorStep, hpc, hs, if_true] at hsettled ⊢
      exact inSession_moves h (fun _ => (streams_iff.mp hs).1) hsettled
    · simp only [monitorStep, hpc, hs]
      exact h
  | bufferReset | test =>
    simp only [monitorStep, hpc] at hsettled ⊢
    exact inSession_moves h (hold (by rw [hpc]; nofun)) hsettled
  | reset =>
    simp only [monitorStep, hpc] at hsettled ⊢
    exact ⟨⟨[], stamped_reset, fun _ => nofun⟩, Nat.le_refl _, h.currIndex_pos,
      hold (by rw [hpc]; nofun), h.held, hsettled, h.sent⟩
  | read =>
    cases imuData with
    | none =>
      simp only [monitorStep, hpc] at hsettled ⊢
      exact inSession_moves h (hold (by rw [hpc]; nofun)) hsettled
    | some frame =>
      simp only [monitorStep, hpc] at hsettled ⊢
      exact inSession_moves h (hold (by rw [hpc]; nofun)) hsettled
  | push frame =>
    obtain ⟨history, hstamped, hahead⟩ := h.stamped
    simp only [monitorStep, hpc] at hsettled ⊢
    refine ⟨⟨_, stamped_push hstamped _, fun hreading => ahead_push (hahead hreading) _⟩,
      h.resetEpoch_le, h.currIndex_pos, hold (by rw [hpc]; nofun), ?_, hsettled, ?_⟩
    · exact fun x hx => (h.held x hx).imp_left (List.mem_append_left _)
    · exact fun x hx => (h.sent x hx).imp_right (And.imp_left (List.mem_append_left _))

/-- Outside of its loop the consumer asks nothing of the ring. -/
theorem inSession_outside (h : InSession s) {n : Node} {socket : Bool} {client : ClientPc}
    (hfree : holding client = none) (hout : inLoop client = false) :
    InSession { s with node := n, socket := socket, client := client } where
  stamped := by
    obtain ⟨history, hstamped, -⟩ := h.stamped
    exact ⟨history, hstamped, fun hreading => by simp [Reading, hout] at hreading⟩
  resetEpoch_le := h.resetEpoch_le
  currIndex_pos := h.currIndex_pos
  enabled := h.enabled
  held x hx := by
    rw [hfree] at hx
    cases hx
  settled hreading := by simp [Reading, hout] at hreading
  sent := h.sent

/-- A step inside the loop that leaves the place in the ring, and no frame held. -/
theorem inSession_inside (h : InSession s) {client : ClientPc} (hfree : holding client = none)
    (hin : inLoop s.client = true) : InSession { s with client := client } := by
  have hreading (hnext : Reading client s.currIndex) : Reading s.client s.currIndex :=
    ⟨hin, Or.inl (hnext.2.resolve_right (not_not_intro hfree))⟩
  obtain ⟨history, hstamped, hahead⟩ := h.stamped
  refine ⟨⟨history, hstamped, fun hnext => hahead (hreading hnext)⟩, h.resetEpoch_le,
    h.currIndex_pos, h.enabled, ?_, fun hnext => h.settled (hreading hnext), h.sent⟩
  intro x hx
  rw [hfree] at hx
  cases hx

theorem client_wait {reads : Reads} (h : InSession s) (hpc : s.client = .wait)
    (hstep : clientStep s reads = some t) : InSession t := by
  simp only [clientStep, hpc] at hstep
  split at hstep <;> cases hstep
  · exact inSession_outside h rfl rfl
  · exact h

theorem client_socketInit {reads : Reads} (h : InSession s) (hpc : s.client = .socketInit)
    (hstep : clientStep s reads = some t) : InSession t := by
  simp only [clientStep, hpc] at hstep
  split at hstep
  · cases hstep
    exact inSession_outside h rfl rfl
  · split at hstep <;> cases hstep
    · exact inSession_outside h rfl rfl
    · exact inSession_outside h rfl rfl

/-- The consumer begins at index 1, where it has read nothing. -/
theorem client_enter {reads : Reads} (h : InSession s) (hpc : s.client = .enter)
    (hstep : clientStep s reads = some t) : InSession t := by
  simp only [clientStep, hpc] at hstep
  cases hstep
  have hnone : ¬ Reading .loop 1 := by
    rintro ⟨-, hlt | hheld⟩
    · exact lt_irrefl 1 hlt
    · exact hheld rfl
  obtain ⟨history, hstamped, -⟩ := h.stamped
  refine ⟨⟨history, hstamped, fun hreading => absurd hreading hnone⟩, h.resetEpoch_le, Int.one_pos,
    h.enabled, fun _ hx => ?_, fun hreading => absurd hreading hnone, h.sent⟩
  cases hx

theorem client_loop {reads : Reads} (h : InSession s) (hpc : s.client = .loop)
    (hstep : clientStep s reads = some t) : InSession t := by
  have hin : inLoop s.client = true := by rw [hpc]; rfl
  simp only [clientStep, hpc] at hstep
  cases hstep
  split
  · exact inSession_inside h rfl hin
  · exact inSession_outside h rfl rfl

theorem client_compare {reads : Reads} (h : InSession s) (hpc : s.client = .compare)
    (hstep : clientStep s reads = some t) : InSession t := by
  have hin : inLoop s.client = true := by rw [hpc]; rfl
  simp only [clientStep, hpc] at hstep
  cases hstep
  split
  · exact inSession_inside h rfl hin
  · exact inSession_inside h rfl hin

/-- The first peek finds the ring reset, and later ones go on from there. -/
theorem client_peek {reads : Reads} (h : InSession s) (hok : KeepsSession s (.client reads))
    (hpc : s.client = .peek) (hstep : clientStep s reads = some t) : InSession t := by
  have hin : inLoop s.client = true := by rw [hpc]; rfl
  simp only [clientStep, hpc] at hstep
  split at hstep
  · cases hstep
    exact inSession_inside h rfl hin
  · next item confirm hpeek =>
    cases hstep
    have hlt : s.currIndex < s.ring.head := by
      by_contra hge
      rw [ringBufPeek, if_pos (not_lt.mp hge)] at hpeek
      cases hpeek
    have hpos := h.currIndex_pos
    obtain ⟨history, hstamped, hread⟩ := h.stamped
    have hready : Ahead s.currIndex s.epoch history ∧ RingSettled s.node s.monitor := by
      by_cases hfirst : s.currIndex = 1
      · obtain ⟨hreset, hsettled⟩ := hok hpc hfirst (hfirst ▸ hlt)
        exact ⟨ahead_of_fresh hstamped hreset, hsettled⟩
      · have hreading : Reading s.client s.currIndex := ⟨hin, Or.inl (by omega)⟩
        exact ⟨hread hreading, h.settled hreading⟩
    obtain ⟨hahead, hsettled⟩ := hready
    have hfound := stamped_peek hstamped hahead hpos hlt hpeek
    refine ⟨⟨history, hstamped, fun _ => hahead⟩, h.resetEpoch_le, hpos, h.enabled, ?_,
      fun _ => hsettled, h.sent⟩
    intro x hx
    cases hx
    exact hfound

theorem client_advance {reads : Reads} {item : StampedFrame} (h : InSession s)
    (hpc : s.client = .advance item) (hstep : clientStep s reads = some t) : InSession t := by
  have hreading : Reading s.client s.currIndex := by
    rw [hpc]
    exact ⟨rfl, Or.inr nofun⟩
  simp only [clientStep, hpc] at hstep
  cases hstep
  obtain ⟨history, hstamped, hahead⟩ := h.stamped
  have hpos := h.currIndex_pos
  have hheld := h.held
  rw [hpc] at hheld
  exact ⟨⟨history, hstamped, fun _ => ahead_advance (hahead hreading)⟩, h.resetEpoch_le,
    by simp only; omega, h.enabled, hheld, fun _ => h.settled hreading, h.sent⟩

theorem client_send {reads : Reads} {item : StampedFrame} (h : InSession s)
    (hpc : s.client = .send item) (hstep : clientStep s reads = some t) : InSession t := by
  have hin : inLoop s.client = true := by rw [hpc]; rfl
  simp only [clientStep, hpc] at hstep
  cases hstep
  obtain ⟨hpushed, hepoch⟩ := h.held item (by rw [hpc]; rfl)
  have hsent : InSession { s with
      sent := s.sent ++ [⟨tagPacket reads.nowUs item.frame, item, s.epoch⟩] } := by
    refine ⟨h.stamped, h.resetEpoch_le, h.currIndex_pos, h.enabled, h.held, h.settled,
      fun x hx => ?_⟩
    rcases List.mem_append.mp hx with hx | hx
    · exact h.sent x hx
    · obtain rfl := List.mem_singleton.mp hx
      exact ⟨tagPacket_carries _ _, hpushed, hepoch⟩
  split
  · exact inSession_inside hsent rfl hin
  · exact inSession_outside hsent rfl rfl

/-- The ways out of a session, which change the mode at most. -/
theorem client_leaves {reads : Reads} (h : InSession s)
    (hpc : s.client = .handleError ∨ s.client = .deactivate ∨ s.client = .setBit)
    (hstep : clientStep s reads = some t) : InSession t := by
  rcases hpc with hpc | hpc | hpc
  · simp only [clientStep, hpc] at hstep
    cases hstep
    split
    · exact inSession_outside h rfl rfl
    · exact inSession_outside h rfl rfl
  · simp only [clientStep, hpc] at hstep
    obtain ⟨n, -, rfl⟩ := Option.map_eq_some_iff.mp hstep
    exact inSession_outside h rfl rfl
  · simp only [clientStep, hpc] at hstep
    obtain ⟨n, -, rfl⟩ := Option.map_eq_some_iff.mp hstep
    exact inSession_outside h rfl rfl

theorem inSession_client {reads : Reads} (h : InSession s) (hok : KeepsSession s (.client reads))
    (hstep : clientStep s reads = some t) : InSession t := by
  cases hpc : s.client with
  | wait => exact client_wait h hpc hstep
  | socketInit => exact client_socketInit h hpc hstep
  | enter => exact client_enter h hpc hstep
  | loop => exact client_loop h hpc hstep
  | compare => exact client_compare h hpc hstep
  | peek => exact client_peek h hok hpc hstep
  | advance item => exact client_advance h hpc hstep
  | send item => exact client_send h hpc hstep
  | handleError => exact client_leaves h (Or.inl hpc) hstep
  | deactivate => exact client_leaves h (Or.inr (Or.inl hpc)) hstep
  | setBit => exact client_leaves h (Or.inr (Or.inr hpc)) hstep

theorem inSession_step {a : Label} (h : InSession s) (hok : KeepsSession s a)
    (hstep : step s a = some t) : InSession t := by
  cases a with
  | node a => exact inSession_node h hok hstep
  | monitor imuData =>
    cases hstep
    exact inSession_monitor h imuData
  | client reads => exact inSession_client h hok hstep

end Steps

theorem start_inSession {size : ℕ} (h2 : 2 ≤ size) (hlt : size < 65536) (itemWidth : ℕ)
    (item : StampedFrame) (imuEnabled : Bool) :
    InSession (start (SlotRing.filled size itemWidth item h2 hlt) imuEnabled) where
  stamped := ⟨[], ⟨⟨rfl, CircularSlots.remembers_nil _ _⟩, nofun, fun _ => nofun⟩, fun _ => nofun⟩
  resetEpoch_le := Nat.le_refl 0
  currIndex_pos := Int.one_pos
  enabled := fun hne => absurd rfl hne
  held := nofun
  settled := fun hreading => absurd hreading.1 nofun
  sent := nofun

theorem reach_inSession {s : Streaming} (h : machine.Reach KeepsSession s) : InSession s := by
  refine h.invariant ?_ ?_
  · rintro s ⟨size, h2, hlt, itemWidth, item, imuEnabled, rfl⟩
    exact start_inSession h2 hlt itemWidth item imuEnabled
  · intro s a t hs hok hstep
    exact inSession_step hs hok hstep

/-- Every packet carries a frame pushed since the activation that was the last
one when it was sent, and the producer's resets find the consumer at index 1. -/
structure OwnSession (s : Streaming) : Prop where
  sent : ∀ x ∈ s.sent, Carries x.packet x.item.frame ∧ x.item ∈ s.pushed ∧
    x.item.epoch = x.epoch
  reset : s.monitor = .reset → inLoop s.client = true → s.currIndex = 1

theorem ownSession {s : Streaming} (h : machine.Reach KeepsSession s) : OwnSession s := by
  have hs := reach_inSession h
  refine ⟨hs.sent, fun hreset hin => ?_⟩
  by_contra hne
  have hpos := hs.currIndex_pos
  have hsettled := hs.settled ⟨hin, Or.inl (by omega)⟩
  rw [hreset] at hsettled
  by_cases hstream : s.node.mux = .stream
  · exact absurd (hsettled.streaming hstream).1 nofun
  · exact (hsettled.stopped hstream).2.2.2 rfl

section Runs

/-- The smallest ring. -/
def twoSlots : SlotRing StampedFrame :=
  SlotRing.filled 2 112 default StreamSession.twoSlots.two_le_size StreamSession.twoSlots.size_lt

def ready : Reads := ⟨true, true, true, true, 0⟩

def node (run : List NodeControl.Label) : List Label := run.map .node

def monitors (n : ℕ) : List Label := List.replicate n (.monitor (some default))

def clients (n : ℕ) : List Label := List.replicate n (.client ready)

/-- A session in which one frame is pushed and sent. -/
def oneFrame : List Label := node firstSession ++ monitors 6 ++ clients 8

/-- The counts of activations when each frame was pushed and when it was sent. -/
def sentEpochs (run : List Label) : Option (List (ℕ × ℕ)) :=
  (machine.exec (start twoSlots true) run).map fun s => s.sent.map fun x => (x.item.epoch, x.epoch)

theorem reach_run {ok : Streaming → Label → Prop} {run : List Label} {epochs : List (ℕ × ℕ)}
    (hok : machine.Along ok (start twoSlots true) run) (hrun : sentEpochs run = some epochs) :
    ∃ s, machine.Reach ok s ∧ s.sent.map (fun x => (x.item.epoch, x.epoch)) = epochs := by
  obtain ⟨s, hs, hepochs⟩ := Option.map_eq_some_iff.mp hrun
  exact ⟨s, Machine.reach_of_exec ⟨2, _, _, 112, default, true, rfl⟩ hok hs, hepochs⟩

/-- The session ends and both tasks leave it. -/
def sessionEnds : List NodeControl.Label := [.write false, .setBit] ++ loops 6 ++ handles 8

/-- A second session, whose frame is not behind that of the first. -/
def twoSessions : List Label :=
  oneFrame ++ node sessionEnds ++ monitors 1 ++ clients 2 ++
    node ([.write true, .setBit] ++ loops 6 ++ handles 8) ++ monitors 6 ++ clients 8

theorem ownSession_twoSessions :
    ∃ s, machine.Reach KeepsSession s ∧
      s.sent.map (fun x => (x.item.epoch, x.epoch)) = [(1, 1), (2, 2)] ∧ OwnSession s := by
  have halong : machine.Along KeepsSession (start twoSlots true) twoSessions := by decide +kernel
  have hrun : sentEpochs twoSessions = some [(1, 1), (2, 2)] := by decide +kernel
  obtain ⟨s, hs, hepochs⟩ := reach_run halong hrun
  exact ⟨s, hs, hepochs, ownSession hs⟩

/-- The consumer enters the next session before the producer has reset the ring. -/
def oldFrame : List Label :=
  oneFrame ++ node sessionEnds ++ monitors 1 ++ clients 2 ++ node [.write true] ++ clients 8

theorem sends_old_frame : ∃ s, machine.Reach Machine.anyStep s ∧ ¬ OwnSession s := by
  have hrun : sentEpochs oldFrame = some [(1, 1), (1, 2)] := by decide +kernel
  obtain ⟨s, hs, hepochs⟩ := reach_run (Machine.along_anyStep _ oldFrame) hrun
  refine ⟨s, hs, fun h => ?_⟩
  have hold : (1, 2) ∈ s.sent.map fun x => (x.item.epoch, x.epoch) := by
    rw [hepochs]
    decide
  obtain ⟨x, hx, hpair⟩ := List.mem_map.mp hold
  have hsame := (h.sent x hx).2.2
  simp only [Prod.mk.injEq] at hpair
  omega

end Runs

end MarkitNode.SessionBoundary
