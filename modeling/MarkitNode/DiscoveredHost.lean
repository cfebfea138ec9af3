import MarkitNode.DiscoveryNet

/-!
Whom the nodes of a network take for their host. The datagrams of nodes are too short or go
to another port, so that only a device that is no node completes a discovery; and all that
a node sends afterwards goes to this device.
-/

namespace MarkitNode

namespace DiscoveryNet

open CString DiscoveryReply UdpSocket

/-- A registration goes to all. -/
def Registration {ι : Type*} (deviceId : Vector UInt8 deviceIdLen) (d : Datagram ι) : Prop :=
  d.dest = hostAddr 0xffffffff discoveryPort ∧ d.payload = discoveryMsg 1 deviceId

/-- A keep-alive packet or data for the host. -/
def ToHost {ι : Type*} (deviceId : Vector UInt8 deviceIdLen) (a : UInt32) (d : Datagram ι) :
    Prop :=
  (d.dest = hostAddr a discoveryPort ∧ d.payload = discoveryMsg 0 deviceId) ∨
    d.dest = hostAddr a dataHostPort

/-- A device that is no node has sent a reply in the name of `a`. -/
def Answered {ι : Type*} (sent : List (Datagram ι)) (a : UInt32) : Prop :=
  ∃ d ∈ sent, d.author = none ∧ d.source = a ∧ d.dest.sinPort = htons discoveryPort ∧
    ReplyFormed d.payload

def dotted (a : UInt32) : List UInt8 := text (inetNtoa (octets a))

structure Prepared (n : Node) : Prop where
  declared : n.syncMutex = false → n.msgBuffer = discoveryMsgBuffer
  created : n.syncMutex = true → ∃ flag, n.msgBuffer = discoveryMsg flag n.deviceId ++ [0]
  asks : n.handler = .asking ∨ n.handler = .listening →
    n.msgBuffer = discoveryMsg 1 n.deviceId ++ [0]
  keeps : n.handler = .keeping → n.msgBuffer = discoveryMsg 0 n.deviceId ++ [0]

section Invariant

variable {ι : Type*} (sent : List (Datagram ι)) (i : ι) (n : Node)

/-- How far a discovery has come. -/
def Progress : Handler → Prop
  | .idle | .asking => True
  | .listening => n.client.object.initialized = true
  | .answered _ =>
      n.client.object.initialized = true ∧ Answered sent n.client.object.replyAddr.sinAddr
  | .hostTaken _ | .hostsTaken =>
      n.client.object.initialized = true ∧ Answered sent n.client.object.replyAddr.sinAddr ∧
        text n.mcu.dataHostIpAddr.toList = dotted n.client.object.replyAddr.sinAddr
  | .turning | .keeping => False

structure Searching : Prop where
  discovery : n.mcu.discoveryCompleted = false
  progress : Progress sent n n.handler
  broadcast : n.client.object.initialized = true →
    n.client.object.destAddr = hostAddr 0xffffffff discoveryPort
  dataSocket : n.dataSocket.object.initialized = false
  dataClient : n.dataClient = .waiting
  own : ∀ d ∈ sent, d.author = some i → Registration n.deviceId d

/-- Where the socket of the handler is directed to. -/
def Directed (a : UInt32) : Handler → Prop
  | .idle | .keeping => n.client.object.destAddr = hostAddr a discoveryPort
  | .turning => n.client.object.replyAddr.sinAddr = a
  | _ => False

structure Found (a : UInt32) : Prop where
  discovery : n.mcu.discoveryCompleted = true
  answered : Answered sent a
  dataHost : text n.mcu.dataHostIpAddr.toList = dotted a
  initialized : n.client.object.initialized = true
  directed : Directed n a n.handler
  dataSocket : n.dataSocket.object.initialized = true →
    n.dataSocket.object.destAddr = hostAddr a dataHostPort
  own : ∀ d ∈ sent, d.author = some i → Registration n.deviceId d ∨ ToHost n.deviceId a d

structure Inv : Prop where
  prepared : Prepared n
  phase : Searching sent i n ∨ ∃ a, Found sent i n a

end Invariant

section Step

variable {ι : Type*} {inetAddr : List UInt8 → UInt32} {sent more : List (Datagram ι)} {i : ι}
  {n n' : Node} {action : Action ι} {out : Outgoing} {out' : SockaddrIn × List UInt8}

theorem Answered.append {a : UInt32} (h : Answered sent a) (more : List (Datagram ι)) :
    Answered (sent ++ more) a := by
  obtain ⟨d, hd, hreply⟩ := h
  exact ⟨d, List.mem_append_left more hd, hreply⟩

theorem Searching.append (h : Searching sent i n)
    (hmore : ∀ d ∈ more, d.author = some i → Registration n.deviceId d) :
    Searching (sent ++ more) i n where
  discovery := h.discovery
  progress := by
    have hprogress := h.progress
    revert hprogress
    cases n.handler with
    | answered pkt => exact fun h => ⟨h.1, h.2.append more⟩
    | hostTaken pkt => exact fun h => ⟨h.1, h.2.1.append more, h.2.2⟩
    | hostsTaken => exact fun h => ⟨h.1, h.2.1.append more, h.2.2⟩
    | _ => exact id
  broadcast := h.broadcast
  dataSocket := h.dataSocket
  dataClient := h.dataClient
  own d hd := (List.mem_append.mp hd).elim (h.own d) (hmore d)

theorem Found.append {a : UInt32} (h : Found sent i n a)
    (hmore : ∀ d ∈ more, d.author = some i →
      Registration n.deviceId d ∨ ToHost n.deviceId a d) :
    Found (sent ++ more) i n a where
  discovery := h.discovery
  answered := h.answered.append more
  dataHost := h.dataHost
  initialized := h.initialized
  directed := h.directed
  dataSocket := h.dataSocket
  own d hd := (List.mem_append.mp hd).elim (h.own d) (hmore d)

theorem Prepared.keep (h : Prepared n)
    (hsame : (n'.syncMutex, n'.msgBuffer, n'.deviceId) = (n.syncMutex, n.msgBuffer, n.deviceId))
    (hasks : n'.handler = .asking ∨ n'.handler = .listening →
      n.handler = .asking ∨ n.handler = .listening)
    (hkeeps : n'.handler = .keeping → n.handler = .keeping) :
    Prepared n' ∧ n'.deviceId = n.deviceId := by
  obtain ⟨hmutex, hmsg, hid⟩ : _ ∧ _ ∧ _ := by simpa using hsame
  refine ⟨⟨?_, ?_, ?_, ?_⟩, hid⟩
  · rw [hmutex, hmsg]
    exact h.declared
  · rw [hmutex, hmsg, hid]
    exact h.created
  · rw [hmsg, hid]
    exact fun hstate => h.asks (hasks hstate)
  · rw [hmsg, hid]
    exact fun hstate => h.keeps (hkeeps hstate)

theorem prepared_enter (h : Prepared n) (r : InitResults) (timeoutRet : Int) :
    Prepared (n.enter inetAddr r timeoutRet) := by
  have hmsg : ∃ flag, (if n.syncMutex then n.msgBuffer else
      sysPrepareDiscoveryMsgBufferOnce n.deviceId n.msgBuffer) =
        discoveryMsg flag n.deviceId ++ [0] := by
    split
    · rename_i hcreated
      exact h.created hcreated
    · rename_i hcreated
      rw [h.declared (by simpa using hcreated)]
      exact ⟨0, prepare_declared n.deviceId⟩
  obtain ⟨flag, hflag⟩ := hmsg
  simp only [Node.enter, hflag, setReplyControl_discoveryMsg]
  cases n.mcu.discoveryCompleted with
  | false => exact ⟨nofun, fun _ => ⟨1, rfl⟩, fun _ => rfl, nofun⟩
  | true => exact ⟨nofun, fun _ => ⟨0, rfl⟩, nofun, fun _ => rfl⟩

theorem prepared_act (h : Prepared n) (hact : Acts inetAddr n action n' out) :
    Prepared n' ∧ n'.deviceId = n.deviceId := by
  cases hact with
  | enters r timeoutRet _ => exact ⟨prepared_enter h r timeoutRet, rfl⟩
  | registers ret next hasking hnext =>
    refine h.keep rfl (fun _ => Or.inl hasking) ?_
    rcases hnext with rfl | ⟨rfl, -⟩
    · nofun
    · nofun
  | hears d replyPort next hlistening hnext =>
    refine h.keep rfl (fun _ => Or.inr hlistening) ?_
    rcases hnext with rfl | ⟨pkt, rfl, -⟩
    · nofun
    · nofun
  | hearsNothing recvLen replyAddr hlistening => exact h.keep rfl (fun _ => Or.inr hlistening) nofun
  | passes | reopens | opens | streams | stops => exact h.keep rfl id id
  | givesUp | takesDataHost | takesNtpHost | completes | turns | keepsAlive =>
    exact h.keep rfl (by simp) nofun

/-- `inet_addr` reads what `inet_ntoa` writes. -/
def ReadsBack (inetAddr : List UInt8 → UInt32) : Prop := ∀ a, inetAddr (dotted a) = a

theorem ReadsBack.broadcast (h : ReadsBack inetAddr) : inetAddr broadcastAddr = 0xffffffff :=
  h 0xffffffff

/-- Only others send what is formed as a reply to the port. -/
def Foreign (sent : List (Datagram ι)) : Prop :=
  ∀ d ∈ sent, d.dest.sinPort = htons discoveryPort → ReplyFormed d.payload → d.author = none

theorem searching_enter (hinet : ReadsBack inetAddr) (h : Searching sent i n) (r : InitResults)
    (timeoutRet : Int) : Searching sent i (n.enter inetAddr r timeoutRet) where
  discovery := h.discovery
  progress := by
    simp only [Node.enter, h.discovery]
    trivial
  broadcast := by
    simp only [Node.enter]
    cases hinit : n.client.object.initialized with
    | true => exact fun _ => h.broadcast hinit
    | false =>
      simp only [Bool.false_eq_true, if_false, object_setTimeout]
      intro hopened
      rw [destAddr_of_init hinit hopened, hinet.broadcast]
  dataSocket := h.dataSocket
  dataClient := h.dataClient
  own := h.own

theorem searching_registers (h : Searching sent i n) {ret : Int} {next : Handler}
    (hnext : next = .idle ∨ next = .listening ∧ (udpSocketSend n.client ret).2 = .ok) :
    Searching sent i { n with client := (udpSocketSend n.client ret).1, handler := next } := by
  refine { h with progress := ?_, broadcast := ?_ }
  · rcases hnext with rfl | ⟨rfl, hok⟩
    · trivial
    · simp only [Progress, object_send]
      exact initialized_of_send hok
  · dsimp only
    rw [object_send]
    exact h.broadcast

/-- A call that receives leaves the destination of the socket. -/
theorem Searching.recv (h : Searching sent i n) (hlistening : n.handler = .listening)
    {recvLen : Int} {replyAddr : SockaddrIn} {next : Handler}
    (hprogress : ∀ client, client.object = { n.client.object with replyAddr } →
      Progress sent { n with client, handler := next } next) :
    Searching sent i
      { n with
        client := (UdpSocket.udpSocketRecv n.client recvLen replyAddr).1
        handler := next } := by
  have hinit : n.client.object.initialized = true := by
    have hopened := h.progress
    rwa [hlistening] at hopened
  have hobject := object_recv hinit recvLen replyAddr
  refine { h with progress := hprogress _ hobject, broadcast := ?_ }
  dsimp only
  rw [hobject]
  exact h.broadcast

theorem searching_hears (h : Searching sent i n) (hforeign : Foreign sent) {d : Datagram ι}
    {replyPort : UInt16} (hdel : Delivered sent (.hears d replyPort)) {next : Handler}
    (hlistening : n.handler = .listening)
    (hnext : next = .asking ∨ ∃ pkt, next = .answered pkt ∧
      sysDecodeDiscoveryReplyControl (DiscoveryReply.udpSocketRecv d.payload) = some pkt) :
    Searching sent i
      { n with
        client := (UdpSocket.udpSocketRecv n.client
          (DiscoveryReply.udpSocketRecv d.payload).length ⟨afInet, replyPort, d.source⟩).1
        handler := next } := by
  refine h.recv hlistening fun client hobject => ?_
  rcases hnext with rfl | ⟨pkt, rfl, hdecode⟩
  · trivial
  · have hinit := h.progress
    rw [hlistening] at hinit
    have hformed := (decode_isSome_iff d.payload).mp (by rw [hdecode]; rfl)
    simp only [Progress, hobject]
    exact ⟨hinit, d, hdel.1, hforeign d hdel.1 hdel.2 hformed, rfl, hdel.2, hformed⟩

theorem searching_takesDataHost (h : Searching sent i n) {pkt : MarkerDiscoveryReplyPacket}
    {mcu : Mcu} (hanswered : n.handler = .answered pkt)
    (hmcu : takeDataHost n.mcu n.sender = some mcu) :
    Searching sent i { n with mcu, handler := .hostTaken pkt } := by
  obtain ⟨htext, hframe⟩ := text_takeDataHost hmcu
  have hprogress := h.progress
  rw [hanswered] at hprogress
  refine { h with discovery := ?_, progress := ⟨hprogress.1, hprogress.2, htext⟩ }
  rw [hframe]
  exact h.discovery

theorem searching_takesNtpHost (h : Searching sent i n) {pkt : MarkerDiscoveryReplyPacket}
    {beyond : List UInt8} {mcu : Mcu} (htaken : n.handler = .hostTaken pkt)
    (hmcu : takeNtpHost beyond n.mcu pkt = some mcu) :
    Searching sent i { n with mcu, handler := .hostsTaken } := by
  have hframe := frame_takeNtpHost hmcu
  have hprogress := h.progress
  rw [htaken] at hprogress
  refine { h with discovery := ?_, progress := ⟨hprogress.1, hprogress.2.1, ?_⟩ }
  · rw [hframe]
    exact h.discovery
  · rw [hframe]
    exact hprogress.2.2

/-- The reply has been taken over: its sender is the host. -/
theorem searching_completes (h : Searching sent i n) (htaken : n.handler = .hostsTaken) :
    Found sent i { n with mcu := complete n.mcu, handler := .turning }
      n.client.object.replyAddr.sinAddr := by
  have hprogress := h.progress
  rw [htaken] at hprogress
  exact {
    discovery := rfl
    answered := hprogress.2.1
    dataHost := hprogress.2.2
    initialized := hprogress.1
    directed := rfl
    dataSocket := fun hinit => absurd hinit (by simp [h.dataSocket])
    own := fun d hd hown => Or.inl (h.own d hd hown) }

theorem searching_act (hinet : ReadsBack inetAddr) (hforeign : Foreign sent)
    (h : Searching sent i n) (hdel : Delivered sent action)
    (hact : Acts inetAddr n action n' out) :
    Searching sent i n' ∨ ∃ a, Found sent i n' a := by
  cases hact with
  | enters r timeoutRet _ => exact Or.inl (searching_enter hinet h r timeoutRet)
  | givesUp _ => exact Or.inl { h with progress := trivial }
  | registers ret next _ hnext => exact Or.inl (searching_registers h hnext)
  | hearsNothing recvLen replyAddr hlistening =>
    exact Or.inl (h.recv hlistening fun _ _ => trivial)
  | hears d replyPort next hlistening hnext =>
    exact Or.inl (searching_hears h hforeign hdel hlistening hnext)
  | takesDataHost pkt mcu hanswered hmcu =>
    exact Or.inl (searching_takesDataHost h hanswered hmcu)
  | takesNtpHost beyond pkt mcu htaken hmcu =>
    exact Or.inl (searching_takesNtpHost h htaken hmcu)
  | completes htaken => exact Or.inr ⟨_, searching_completes h htaken⟩
  -- the discovery is not completed, and the data client waits
  | turns hstate | keepsAlive _ hstate =>
    have hprogress := h.progress
    rw [hstate] at hprogress
    exact hprogress.elim
  | passes hcompleted =>
    rw [h.discovery] at hcompleted
    cases hcompleted
  | reopens _ hstate | opens _ _ hstate | streams _ _ _ hstate | stops hstate =>
    rw [h.dataClient] at hstate
    cases hstate

theorem found_enter {a : UInt32} (h : Found sent i n a) (hidle : n.handler = .idle)
    (r : InitResults) (timeoutRet : Int) : Found sent i (n.enter inetAddr r timeoutRet) a := by
  have hclient : (n.enter inetAddr r timeoutRet).client = n.client := by
    simp only [Node.enter, h.initialized, if_true]
  have hkeeping : (n.enter inetAddr r timeoutRet).handler = .keeping := by
    simp only [Node.enter, h.discovery, if_true]
  have hdirected := h.directed
  rw [hidle] at hdirected
  refine { h with initialized := ?_, directed := ?_ }
  · rw [hclient]
    exact h.initialized
  · rw [hkeeping, Directed, hclient]
    exact hdirected

/-- The socket of the handler turns to the host. -/
theorem found_turns (hinet : ReadsBack inetAddr) {a : UInt32} (h : Found sent i n a)
    (hturning : n.handler = .turning) :
    Found sent i
      { n with
        client := (udpSocketSetDestination n.client (inetAddr (text (inetNtoa n.sender)))
          discoveryPort).1
        handler := .idle } a := by
  have hreply := h.directed
  rw [hturning, Directed] at hreply
  refine { h with initialized := ?_, directed := ?_ }
  · dsimp only
    rw [object_setDestination h.initialized]
    exact h.initialized
  · simp only [Directed, object_setDestination h.initialized, Node.sender, hreply]
    congr 1
    exact hinet a

theorem found_keepsAlive {a : UInt32} (h : Found sent i n a) (hkeeping : n.handler = .keeping)
    (ret : Int) :
    Found sent i { n with client := (udpSocketSend n.client ret).1, handler := .idle } a := by
  have hdirected := h.directed
  rw [hkeeping] at hdirected
  refine { h with initialized := ?_, directed := ?_ }
  · rw [object_send]
    exact h.initialized
  · rw [Directed, object_send]
    exact hdirected

/-- The socket for the data is opened for the host. -/
theorem found_opens (hinet : ReadsBack inetAddr) {a : UInt32} (h : Found sent i n a)
    (hfree : n.dataSocket.object.initialized = false) (r : InitResults) (next : DataClient) :
    Found sent i
      { n with
        dataSocket := (udpSocketInit n.dataSocket 0 (some (text n.mcu.dataHostIpAddr.toList))
          dataHostPort { r with inetAddr := inetAddr (text n.mcu.dataHostIpAddr.toList) }).1
        dataClient := next } a := by
  refine { h with dataSocket := fun hopened => ?_ }
  rw [destAddr_of_init hfree hopened, h.dataHost, hinet]

theorem found_streams {a : UInt32} (h : Found sent i n a) (ret : Int) (next : DataClient) :
    Found sent i
      { n with dataSocket := (udpSocketSend n.dataSocket ret).1, dataClient := next } a := by
  refine { h with dataSocket := ?_ }
  rw [object_send]
  exact h.dataSocket

theorem found_act (hinet : ReadsBack inetAddr) {a : UInt32} (h : Found sent i n a)
    (hact : Acts inetAddr n action n' out) : Found sent i n' a := by
  have hdirected := h.directed
  cases hact with
  | enters r timeoutRet hidle => exact found_enter h hidle r timeoutRet
  | turns hturning => exact found_turns hinet h hturning
  | keepsAlive ret hkeeping => exact found_keepsAlive h hkeeping ret
  | opens r next _ hfree => exact found_opens hinet h hfree r next
  | streams payload ret next _ => exact found_streams h ret next
  | passes | reopens | stops => exact { h with }
  -- the handler is not in the loop any more
  | givesUp hstate | registers _ _ hstate _ | hearsNothing _ _ hstate | hears _ _ _ hstate _
  | takesDataHost _ _ hstate _ | takesNtpHost _ _ _ hstate _ | completes hstate =>
    rw [hstate] at hdirected
    exact hdirected.elim

/-- A datagram that goes out is that of one of three steps. -/
theorem outgoing_act (hact : Acts inetAddr n action n' (some out')) :
    ((n.handler = .asking ∨ n.handler = .keeping) ∧ n.client.object.initialized = true ∧
        out' = (n.client.object.destAddr, n.message)) ∨
      (n.dataClient = .sending ∧ n.dataSocket.object.initialized = true ∧
        out'.1 = n.dataSocket.object.destAddr) := by
  generalize hgiven : some out' = given at hact
  cases hact with
  | registers ret next hasking _ =>
    obtain ⟨hinit, hout⟩ := of_outgoing hgiven.symm
    exact Or.inl ⟨Or.inl hasking, hinit, hout⟩
  | keepsAlive ret hkeeping =>
    obtain ⟨hinit, hout⟩ := of_outgoing hgiven.symm
    exact Or.inl ⟨Or.inr hkeeping, hinit, hout⟩
  | streams payload ret next hsending =>
    obtain ⟨hinit, hout⟩ := of_outgoing hgiven.symm
    exact Or.inr ⟨hsending, hinit, congrArg Prod.fst hout⟩
  | _ => cases hgiven

theorem message_eq {flag : UInt8} {deviceId : Vector UInt8 deviceIdLen}
    (h : n.msgBuffer = discoveryMsg flag deviceId ++ [0]) :
    n.message = discoveryMsg flag deviceId := by
  rw [Node.message, h, List.length_append, List.length_singleton, Nat.add_sub_cancel,
    List.take_left]

theorem searching_outgoing (hprepared : Prepared n) (h : Searching sent i n) {source : UInt32}
    (hact : Acts inetAddr n action n' (some out')) :
    Registration n.deviceId (⟨some i, source, out'.1, out'.2⟩ : Datagram ι) := by
  rcases outgoing_act hact with ⟨hstate, hinit, rfl⟩ | ⟨hsending, -⟩
  · have hasking : n.handler = .asking := by
      refine hstate.resolve_right fun hkeeping => ?_
      have hprogress := h.progress
      rwa [hkeeping] at hprogress
    exact ⟨h.broadcast hinit, message_eq (hprepared.asks (Or.inl hasking))⟩
  · rw [h.dataClient] at hsending
    cases hsending

theorem found_outgoing (hprepared : Prepared n) {a : UInt32} (h : Found sent i n a)
    {source : UInt32} (hact : Acts inetAddr n action n' (some out')) :
    ToHost n.deviceId a (⟨some i, source, out'.1, out'.2⟩ : Datagram ι) := by
  rcases outgoing_act hact with ⟨hstate, -, rfl⟩ | ⟨-, hinit, hdest⟩
  · have hkeeping : n.handler = .keeping := by
      refine hstate.resolve_left fun hasking => ?_
      have hdirected := h.directed
      rwa [hasking] at hdirected
    have hdirected := h.directed
    rw [hkeeping] at hdirected
    exact Or.inl ⟨hdirected, message_eq (hprepared.keeps hkeeping)⟩
  · exact Or.inr (hdest.trans (h.dataSocket hinit))

/-- Datagrams of others are nothing to a node. -/
theorem Inv.append (h : Inv sent i n)
    (hmore : ∀ d ∈ more, d.author ≠ some i) : Inv (sent ++ more) i n where
  prepared := h.prepared
  phase := by
    rcases h.phase with hsearching | ⟨a, hfound⟩
    · exact Or.inl (hsearching.append fun d hd hown => absurd hown (hmore d hd))
    · exact Or.inr ⟨a, hfound.append fun d hd hown => absurd hown (hmore d hd)⟩

theorem author_datagrams {addr : ι → UInt32} :
    ∀ d ∈ datagrams addr i out, d.author = some i := by
  intro d hd
  cases out with
  | none => cases hd
  | some out =>
    rw [List.mem_singleton.mp hd]

theorem Inv.act {addr : ι → UInt32} (hinet : ReadsBack inetAddr) (hforeign : Foreign sent)
    (h : Inv sent i n) (hdel : Delivered sent action)
    (hact : Acts inetAddr n action n' out) :
    Inv (sent ++ datagrams addr i out) i n' := by
  obtain ⟨hprepared, hid⟩ := prepared_act h.prepared hact
  refine ⟨hprepared, ?_⟩
  have hmem : ∀ d ∈ datagrams addr i out, ∃ out', out = some out' ∧
      d = ⟨some i, addr i, out'.1, out'.2⟩ := by
    intro d hd
    cases out with
    | none => cases hd
    | some out' => exact ⟨out', rfl, List.mem_singleton.mp hd⟩
  rcases h.phase with hsearching | ⟨a, hfound⟩
  · have hreg : ∀ d ∈ datagrams addr i out, Registration n'.deviceId d := by
      intro d hd
      obtain ⟨out', rfl, rfl⟩ := hmem d hd
      rw [hid]
      exact searching_outgoing h.prepared hsearching hact
    rcases searching_act hinet hforeign hsearching hdel hact with hstill | ⟨a, hfound⟩
    · exact Or.inl (hstill.append fun d hd _ => hreg d hd)
    · exact Or.inr ⟨a, hfound.append fun d hd _ => Or.inl (hreg d hd)⟩
  · refine Or.inr ⟨a, (found_act hinet hfound hact).append fun d hd _ => Or.inr ?_⟩
    obtain ⟨out', rfl, rfl⟩ := hmem d hd
    rw [hid]
    exact found_outgoing h.prepared hfound hact

end Step

/-! ### The network -/

section Net

variable {ι : Type*} [DecidableEq ι] {inetAddr : List UInt8 → UInt32} {addr : ι → UInt32}
  {net net' : Net ι}

def NetInv (net : Net ι) : Prop := ∀ i, Inv net.sent i (net.node i)

theorem NetInv.init (h : (machine inetAddr addr).Init net) : NetInv net := by
  intro i
  have hfresh := h.2 i
  constructor
  · constructor
    · exact fun _ => hfresh.msgBuffer
    · exact fun hcreated => absurd hcreated (by simp [hfresh.syncMutex])
    · exact fun hstate => absurd hstate (by simp [hfresh.handler])
    · exact fun hstate => absurd hstate (by simp [hfresh.handler])
  · left
    constructor
    · exact hfresh.discovery
    · rw [hfresh.handler]
      trivial
    · exact fun hinit => absurd hinit (by simp [hfresh.client, UdpSocket.start])
    · rw [hfresh.dataSocket]
      rfl
    · exact hfresh.dataClient
    · rw [h.1]
      nofun

omit [DecidableEq ι] in
/-- What a node sends to the port is too short for a reply. -/
theorem NetInv.foreign (h : NetInv net) : Foreign net.sent := by
  intro d hd hport hformed
  cases hauthor : d.author with
  | none => rfl
  | some i =>
    have hlong := hformed.long
    have hown : Registration (net.node i).deviceId d ∨
        ∃ a, ToHost (net.node i).deviceId a d := by
      rcases (h i).phase with hsearching | ⟨a, hfound⟩
      · exact Or.inl (hsearching.own d hd hauthor)
      · exact (hfound.own d hd hauthor).imp_right fun htoHost => ⟨a, htoHost⟩
    rcases hown with ⟨-, hpayload⟩ | ⟨a, ⟨-, hpayload⟩ | hdest⟩
    · rw [hpayload, length_discoveryMsg] at hlong
      omega
    · rw [hpayload, length_discoveryMsg] at hlong
      omega
    · have hports : htons dataHostPort ≠ htons discoveryPort := by decide
      rw [hdest] at hport
      exact absurd hport hports

theorem NetInv.step (hinet : ReadsBack inetAddr) {label : Label ι} (h : NetInv net)
    (hstep : (machine inetAddr addr).step net label = some net') : NetInv net' := by
  change DiscoveryNet.step inetAddr addr net label = some net' at hstep
  cases label with
  | foreign source dest payload =>
    obtain rfl := Option.some.inj hstep
    intro j
    refine (h j).append fun d hd => ?_
    rw [List.mem_singleton.mp hd]
    nofun
  | node i action =>
    rw [DiscoveryNet.step] at hstep
    split at hstep
    · rename_i hdel
      obtain ⟨⟨n', out⟩, hact, rfl⟩ := Option.map_eq_some_iff.mp hstep
      intro j
      dsimp only
      by_cases hj : j = i
      · rw [hj, Function.update_self]
        exact (h i).act hinet h.foreign hdel (acts_of_act inetAddr hact)
      · rw [Function.update_of_ne hj]
        refine (h j).append fun d hd hown => hj ?_
        rw [author_datagrams d hd] at hown
        exact (Option.some.inj hown).symm
    · cases hstep

/-- A node that has completed its discovery got a reply from a device that is no node, and
has sent nothing but its registrations and, to this device, keep-alive packets and data;
any other node has sent registrations only. -/
theorem discovered_answered (hinet : ReadsBack inetAddr)
    (h : (machine inetAddr addr).Reach Machine.anyStep net) (i : ι) :
    if (net.node i).mcu.discoveryCompleted then
      ∃ a, Answered net.sent a ∧ text (net.node i).mcu.dataHostIpAddr.toList = dotted a ∧
        ∀ d ∈ net.sent, d.author = some i →
          Registration (net.node i).deviceId d ∨ ToHost (net.node i).deviceId a d
    else ∀ d ∈ net.sent, d.author = some i → Registration (net.node i).deviceId d := by
  have hinv : NetInv net :=
    h.invariant (fun _ hinit => .init hinit) fun _ _ _ hold _ hstep => hold.step hinet hstep
  rcases (hinv i).phase with hsearching | ⟨a, hfound⟩
  · rw [hsearching.discovery, if_neg Bool.false_ne_true]
    exact hsearching.own
  · rw [if_pos hfound.discovery]
    exact ⟨a, hfound.answered, hfound.dataHost, hfound.own⟩

end Net

/-- `inet_addr` of four decimal numbers. -/
def readAddress (s : List UInt8) : UInt32 :=
  UInt32.ofNat <| (s.splitOn 46).foldr (fun part n => (CNumber.strtol 10 part).1.toNat + 256 * n) 0

theorem not_mem_decimal {c : UInt8} (h : c.toNat < 48) (n : Nat) : c ∉ CNumber.decimal n :=
  fun hmem => absurd (CNumber.ge_of_isDigit (CNumber.isDigit_of_mem_decimal hmem)) (by omega)

theorem strtol_decimal (b : UInt8) :
    CNumber.strtol 10 (CNumber.decimal b.toNat) = ((b.toNat : Int), []) := by
  have hlt := b.toNat_lt
  have hitoa : CNumber.itoa b.toNat = CNumber.decimal b.toNat := by
    rw [CNumber.itoa, if_neg (by omega), Int.natAbs_natCast]
  rw [← hitoa]
  exact CNumber.strtol_itoa (by omega) (by omega)

theorem dotted_eq (a : UInt32) :
    dotted a = [46].intercalate ((octets a).toList.map fun b => CNumber.decimal b.toNat) := by
  have hnul : ∀ n, (0 : UInt8) ∉ CNumber.decimal n := not_mem_decimal (by decide)
  rw [dotted, inetNtoa, text_append_nul]
  apply text_of_not_mem
  simp [octets, List.intercalate_cons_cons, hnul]

theorem splitOn_dotted (a : UInt32) :
    (dotted a).splitOn 46 = (octets a).toList.map fun b => CNumber.decimal b.toNat := by
  rw [dotted_eq]
  refine List.splitOn_intercalate 46 ?_ (by simp [octets])
  intro part hmem
  obtain ⟨b, -, rfl⟩ := List.mem_map.mp hmem
  exact not_mem_decimal (by decide) _

theorem readsBack_readAddress : ReadsBack readAddress := by
  intro a
  have hsum : a.toUInt8.toNat + 256 * ((a >>> 8).toUInt8.toNat + 256 * ((a >>> 16).toUInt8.toNat +
      256 * ((a >>> 24).toUInt8.toNat + 256 * 0))) = a.toNat := by
    have hlt := a.toNat_lt
    simp only [UInt32.toNat_toUInt8, UInt32.toNat_shiftRight, Nat.shiftRight_eq_div_pow,
      UInt32.reduceToNat, Nat.reduceMod, Nat.reducePow]
    omega
  rw [readAddress, splitOn_dotted, List.foldr_map]
  simp only [strtol_decimal, Int.toNat_natCast]
  change UInt32.ofNat (a.toUInt8.toNat + 256 * ((a >>> 8).toUInt8.toNat +
    256 * ((a >>> 16).toUInt8.toNat + 256 * ((a >>> 24).toUInt8.toNat + 256 * 0)))) = a
  rw [hsum]
  exact UInt32.ofNat_toNat

/-- A node before its first search. -/
def freshNode (deviceId : List UInt8) : Node where
  deviceId := (memcpy (Vector.replicate deviceIdLen 48) deviceId).getD (Vector.replicate _ 48)
  syncMutex := false
  msgBuffer := discoveryMsgBuffer
  client := UdpSocket.start
  mcu := ⟨Vector.replicate _ 0, Vector.replicate _ 0, false, false⟩
  handler := .idle
  dataSocket := UdpSocket.start
  dataClient := .waiting

/-- Two nodes: `192.168.1.3` and `192.168.1.4`. -/
def twoNodes : Net Bool where
  node b := freshNode (ascii (if b then "e28ed3902f50" else "e28ed3902f51"))
  sent := []

/-- The host `192.168.1.2`, with no hosts in its reply. -/
def hostReply : Datagram Bool where
  author := none
  source := 0x0201a8c0
  dest := hostAddr 0x0301a8c0 discoveryPort
  payload := List.replicate 5 229 ++ [0, 1] ++ List.replicate 64 0

/-- The first node hears the other one before it hears the host, and starts to send. -/
def searchRun : List (Label Bool) :=
  [.node false (.enters ⟨5, 0, 0, 0⟩ 0), .node false (.registers 19),
    .node true (.enters ⟨3, 0, 0, 0⟩ 0), .node true (.registers 19),
    .node true (.hears ⟨some false, 0x0401a8c0, hostAddr 0xffffffff discoveryPort,
      List.replicate 5 229 ++ [1, 1] ++ ascii "e28ed3902f51"⟩ discoveryPort),
    .node true (.registers 19),
    .foreign hostReply.source hostReply.dest hostReply.payload,
    .node true (.hears hostReply discoveryPort), .node true .takesDataHost,
    .node true (.takesNtpHost []), .node true .completes, .node true .passes,
    .node true (.opens ⟨4, 0, 0, 0⟩), .node true (.streams [1, 2, 3] 3), .node true .turns]

def addrOf (b : Bool) : UInt32 := if b then 0x0301a8c0 else 0x0401a8c0

theorem discovered_answered_twoNodes :
    ∃ net, (machine readAddress addrOf).exec twoNodes searchRun = some net ∧
      (∃ a, Answered net.sent a ∧ text (net.node true).mcu.dataHostIpAddr.toList = dotted a ∧
        ∀ d ∈ net.sent, d.author = some true →
          Registration (net.node true).deviceId d ∨ ToHost (net.node true).deviceId a d) ∧
        ∀ d ∈ net.sent, d.author = some false → Registration (net.node false).deviceId d := by
  have hrun : (((machine readAddress addrOf).exec twoNodes searchRun).map fun net =>
      ((net.node true).mcu.discoveryCompleted, (net.node false).mcu.discoveryCompleted)) =
        some (true, false) := by decide +kernel
  obtain ⟨net, hnet, hflags⟩ := Option.map_eq_some_iff.mp hrun
  obtain ⟨htrue, hfalse⟩ := Prod.mk.inj hflags
  have hinit : (machine readAddress addrOf).Init twoNodes :=
    ⟨rfl, fun _ => ⟨rfl, rfl, rfl, rfl, rfl, rfl, rfl⟩⟩
  have hreach := Machine.reach_of_exec hinit (Machine.along_anyStep _ searchRun) hnet
  have hfound := discovered_answered readsBack_readAddress hreach true
  have hsearching := discovered_answered readsBack_readAddress hreach false
  rw [if_pos htrue] at hfound
  rw [if_neg (by simp [hfalse])] at hsearching
  exact ⟨net, hnet, hfound, hsearching⟩

end DiscoveryNet

end MarkitNode
