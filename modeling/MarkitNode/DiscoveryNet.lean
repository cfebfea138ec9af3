import Mathlib.Logic.Function.Basic
import MarkitNode.DiscoveryReply
import MarkitNode.Machine
import MarkitNode.UdpSocket

/-!
Nodes that look for their host on one network. Each broadcasts its registration and takes
the first datagram on the port that is formed as a reply; its data client starts when
`discovery_completed` is set, with the address that stands in `data_host_ip_addr` then. The
handler writes the address first, so that no data go anywhere else. The network may lose,
delay and repeat datagrams, and hand them to nodes they were not sent to.
-/

namespace MarkitNode

namespace DiscoveryNet

open CString DiscoveryReply UdpSocket

abbrev deviceIdLen : Nat := 12
abbrev discoveryPort : UInt16 := 18889
abbrev dataHostPort : UInt16 := 18891
abbrev replyControlOffset : Nat := 6
abbrev deviceIdOffset : Nat := 7

/-- `CONFIG_DISCOVERY_BROADCAST_ADDR` -/
def broadcastAddr : List UInt8 := ascii "255.255.255.255"

/-- `discovery_msg_buffer` as it is declared. -/
def discoveryMsgBuffer : List UInt8 :=
  List.replicate magicNumberLength magicMarkerAddr ++ [1, 0] ++ (ascii "000000000000" ++ [0])

def sysPrepareDiscoveryMsgBufferOnce (deviceId : Vector UInt8 deviceIdLen)
    (buffer : List UInt8) : List UInt8 :=
  buffer.take deviceIdOffset ++ (deviceId.toList ++ buffer.drop (deviceIdOffset + deviceIdLen))

def sysSetDiscoveryMsgReplyControl (reply : Bool) (buffer : List UInt8) : List UInt8 :=
  buffer.set replyControlOffset (if reply then 1 else 0)

/-- The four numbers of an address in network order. -/
def octets (a : UInt32) : Vector UInt8 4 :=
  #v[a.toUInt8, (a >>> 8).toUInt8, (a >>> 16).toUInt8, (a >>> 24).toUInt8]

def takeDataHost (m : Mcu) (sender : Vector UInt8 4) : Option Mcu :=
  (strncpy m.dataHostIpAddr (inetNtoa sender) (varStrMaxLen - 1)).map fun dataHost =>
    { m with dataHostIpAddr := dataHost }

def takeNtpHost (beyond : List UInt8) (m : Mcu) (pkt : MarkerDiscoveryReplyPacket) :
    Option Mcu := do
  let len ← strlen (ntpHostMem pkt beyond)
  let ntpHost ←
    if 0 < len then strncpy m.ntpHostIpAddr (ntpHostMem pkt beyond) (varStrMaxLen - 1)
    else some m.ntpHostIpAddr
  return { m with ntpHostIpAddr := ntpHost }

def complete (m : Mcu) : Mcu :=
  { m with discoveryCompleted := true, evDiscoveryCompleted := true }

/-- Where `sys_discovery_handler` is. -/
inductive Handler
  | idle
  /-- at the head of the loop -/
  | asking
  | listening
  /-- the packet is a reply -/
  | answered (pkt : MarkerDiscoveryReplyPacket)
  | hostTaken (pkt : MarkerDiscoveryReplyPacket)
  | hostsTaken
  /-- `discovery_completed` is set, and the destination is next -/
  | turning
  /-- discovery was completed before -/
  | keeping
  deriving DecidableEq

/-- Where `app_data_client` is. -/
inductive DataClient
  | waiting
  | starting
  | sending
  deriving DecidableEq

structure Node where
  deviceId : Vector UInt8 deviceIdLen
  /-- `sync_mutex` is created -/
  syncMutex : Bool
  msgBuffer : List UInt8
  client : UdpSocket.State
  mcu : Mcu
  handler : Handler
  /-- `client` of `app_data_client` -/
  dataSocket : UdpSocket.State
  dataClient : DataClient
  deriving DecidableEq

/-- The author is a node, or `none` for all other devices. -/
structure Datagram (ι : Type*) where
  author : Option ι
  source : UInt32
  dest : SockaddrIn
  payload : List UInt8
  deriving DecidableEq

/-- A step of a node, with what the socket layer returns. -/
inductive Action (ι : Type*)
  | enters (r : InitResults) (timeoutRet : Int)
  /-- the loop has taken its time -/
  | givesUp
  | registers (ret : Int)
  | hearsNothing (recvLen : Int) (replyAddr : SockaddrIn)
  | hears (d : Datagram ι) (replyPort : UInt16)
  | takesDataHost
  | takesNtpHost (beyond : List UInt8)
  | completes
  | turns
  | keepsAlive (ret : Int)
  /-- the test of the data client, with the system active and the time known -/
  | passes
  | opens (r : InitResults)
  | streams (payload : List UInt8) (ret : Int)
  /-- the system is not active any more -/
  | stops

/-- What a step hands to the network. -/
abbrev Outgoing := Option (SockaddrIn × List UInt8)

/-- `udp_socket_send` of a payload: a failure sends nothing. -/
def outgoing (s : UdpSocket.State) (payload : List UInt8) (ret : Int) : Outgoing :=
  if (udpSocketSend s ret).2 = .ok then some (s.object.destAddr, payload) else none

section Node

variable {ι : Type*} (inetAddr : List UInt8 → UInt32)

/-- The handler up to the test of `discovery_completed`, with the flag that follows. -/
def Node.enter (n : Node) (r : InitResults) (timeoutRet : Int) : Node :=
  let prepared :=
    if n.syncMutex then n.msgBuffer else sysPrepareDiscoveryMsgBufferOnce n.deviceId n.msgBuffer
  let client :=
    if n.client.object.initialized then n.client
    else
      let r := { r with inetAddr := inetAddr broadcastAddr }
      let opened := udpSocketInit n.client discoveryPort (some broadcastAddr) discoveryPort r
      (udpSocketSetTimeout opened.1 timeoutRet).1
  let completed := n.mcu.discoveryCompleted
  { n with
    syncMutex := true
    msgBuffer := sysSetDiscoveryMsgReplyControl (!completed) prepared
    client
    handler := if completed then .keeping else .asking }

/-- Without the NUL at the end. -/
def Node.message (n : Node) : List UInt8 := n.msgBuffer.take (n.msgBuffer.length - 1)

/-- The result of `inet_ntoa` for the sender of the datagram that was received last. -/
def Node.sender (n : Node) : Vector UInt8 4 := octets n.client.object.replyAddr.sinAddr

/-- No step for what is not the node's turn, or where the source's behaviour is undefined. -/
def Node.act (n : Node) : Action ι → Option (Node × Outgoing)
  | .enters r timeoutRet =>
      if n.handler = .idle then some (n.enter inetAddr r timeoutRet, none) else none
  | .givesUp => if n.handler = .asking then some ({ n with handler := .idle }, none) else none
  | .registers ret =>
      if n.handler = .asking then
        let (client, err) := udpSocketSend n.client ret
        some ({ n with client, handler := if err = .ok then .listening else .idle },
          outgoing n.client n.message ret)
      else none
  | .hearsNothing recvLen replyAddr =>
      if n.handler = .listening ∧ recvLen < 0 then
        let (client, _) := UdpSocket.udpSocketRecv n.client recvLen replyAddr
        some ({ n with client, handler := .asking }, none)
      else none
  | .hears d replyPort =>
      if n.handler = .listening then
        let received := DiscoveryReply.udpSocketRecv d.payload
        let (client, err) :=
          UdpSocket.udpSocketRecv n.client received.length ⟨afInet, replyPort, d.source⟩
        let handler :=
          match err, sysDecodeDiscoveryReplyControl received with
          | .ok, some pkt => .answered pkt
          | _, _ => .asking
        some ({ n with client, handler }, none)
      else none
  | .takesDataHost =>
      match n.handler with
      | .answered pkt => (takeDataHost n.mcu n.sender).map fun mcu =>
          ({ n with mcu, handler := .hostTaken pkt }, none)
      | _ => none
  | .takesNtpHost beyond =>
      match n.handler with
      | .hostTaken pkt => (takeNtpHost beyond n.mcu pkt).map fun mcu =>
          ({ n with mcu, handler := .hostsTaken }, none)
      | _ => none
  | .completes =>
      if n.handler = .hostsTaken then
        some ({ n with mcu := complete n.mcu, handler := .turning }, none)
      else none
  | .turns =>
      if n.handler = .turning then
        let destAddr := inetAddr (text (inetNtoa n.sender))
        let (client, _) := udpSocketSetDestination n.client destAddr discoveryPort
        some ({ n with client, handler := .idle }, none)
      else none
  | .keepsAlive ret =>
      if n.handler = .keeping then
        some ({ n with client := (udpSocketSend n.client ret).1, handler := .idle },
          outgoing n.client n.message ret)
      else none
  | .passes =>
      if n.dataClient = .waiting ∧ n.mcu.discoveryCompleted then
        some ({ n with dataClient := .starting }, none)
      else none
  | .opens r =>
      if n.dataClient = .starting then
        if n.dataSocket.object.initialized then
          some ({ n with dataClient := .sending }, none)
        else
          let host := text n.mcu.dataHostIpAddr.toList
          let (dataSocket, err) :=
            udpSocketInit n.dataSocket 0 (some host) dataHostPort
              { r with inetAddr := inetAddr host }
          some ({ n with dataSocket, dataClient := if err = .ok then .sending else .waiting }, none)
      else none
  | .streams payload ret =>
      if n.dataClient = .sending then
        let (dataSocket, err) := udpSocketSend n.dataSocket ret
        some ({ n with dataSocket, dataClient := if err = .ok then .sending else .waiting },
          outgoing n.dataSocket payload ret)
      else none
  | .stops =>
      if n.dataClient = .sending then some ({ n with dataClient := .waiting }, none) else none

/-- What each step finds, and what it leaves. -/
inductive Acts (n : Node) : Action ι → Node → Outgoing → Prop
  | enters (r : InitResults) (timeoutRet : Int) (h : n.handler = .idle) :
      Acts n (.enters r timeoutRet) (n.enter inetAddr r timeoutRet) none
  | givesUp (h : n.handler = .asking) : Acts n .givesUp { n with handler := .idle } none
  | registers (ret : Int) (next : Handler) (h : n.handler = .asking)
      (hnext : next = .idle ∨ next = .listening ∧ (udpSocketSend n.client ret).2 = .ok) :
      Acts n (.registers ret) { n with client := (udpSocketSend n.client ret).1, handler := next }
        (outgoing n.client n.message ret)
  | hearsNothing (recvLen : Int) (replyAddr : SockaddrIn) (h : n.handler = .listening) :
      Acts n (.hearsNothing recvLen replyAddr)
        { n with
          client := (UdpSocket.udpSocketRecv n.client recvLen replyAddr).1
          handler := .asking } none
  | hears (d : Datagram ι) (replyPort : UInt16) (next : Handler) (h : n.handler = .listening)
      (hnext : next = .asking ∨ ∃ pkt, next = .answered pkt ∧
        sysDecodeDiscoveryReplyControl (DiscoveryReply.udpSocketRecv d.payload) = some pkt) :
      Acts n (.hears d replyPort)
        { n with
          client := (UdpSocket.udpSocketRecv n.client
            (DiscoveryReply.udpSocketRecv d.payload).length ⟨afInet, replyPort, d.source⟩).1
          handler := next } none
  | takesDataHost (pkt : MarkerDiscoveryReplyPacket) (mcu : Mcu) (h : n.handler = .answered pkt)
      (hmcu : takeDataHost n.mcu n.sender = some mcu) :
      Acts n .takesDataHost { n with mcu, handler := .hostTaken pkt } none
  | takesNtpHost (beyond : List UInt8) (pkt : MarkerDiscoveryReplyPacket) (mcu : Mcu)
      (h : n.handler = .hostTaken pkt) (hmcu : takeNtpHost beyond n.mcu pkt = some mcu) :
      Acts n (.takesNtpHost beyond) { n with mcu, handler := .hostsTaken } none
  | completes (h : n.handler = .hostsTaken) :
      Acts n .completes { n with mcu := complete n.mcu, handler := .turning } none
  | turns (h : n.handler = .turning) :
      Acts n .turns
        { n with
          client := (udpSocketSetDestination n.client (inetAddr (text (inetNtoa n.sender)))
            discoveryPort).1
          handler := .idle } none
  | keepsAlive (ret : Int) (h : n.handler = .keeping) :
      Acts n (.keepsAlive ret) { n with client := (udpSocketSend n.client ret).1, handler := .idle }
        (outgoing n.client n.message ret)
  | passes (h : n.mcu.discoveryCompleted = true) :
      Acts n .passes { n with dataClient := .starting } none
  | reopens (r : InitResults) (h : n.dataClient = .starting) :
      Acts n (.opens r) { n with dataClient := .sending } none
  | opens (r : InitResults) (next : DataClient) (h : n.dataClient = .starting)
      (hfree : n.dataSocket.object.initialized = false) :
      Acts n (.opens r)
        { n with
          dataSocket := (udpSocketInit n.dataSocket 0 (some (text n.mcu.dataHostIpAddr.toList))
            dataHostPort { r with inetAddr := inetAddr (text n.mcu.dataHostIpAddr.toList) }).1
          dataClient := next } none
  | streams (payload : List UInt8) (ret : Int) (next : DataClient) (h : n.dataClient = .sending) :
      Acts n (.streams payload ret)
        { n with dataSocket := (udpSocketSend n.dataSocket ret).1, dataClient := next }
        (outgoing n.dataSocket payload ret)
  | stops (h : n.dataClient = .sending) : Acts n .stops { n with dataClient := .waiting } none

theorem acts_of_act {n n' : Node} {a : Action ι} {out : Outgoing}
    (hact : n.act inetAddr a = some (n', out)) : Acts inetAddr n a n' out := by
  cases a <;> simp only [Node.act] at hact
  case takesDataHost =>
    split at hact
    · rename_i pkt hanswered
      obtain ⟨mcu, hmcu, hnext⟩ := Option.map_eq_some_iff.mp hact
      cases hnext
      exact .takesDataHost pkt mcu hanswered hmcu
    · cases hact
  case takesNtpHost beyond =>
    split at hact
    · rename_i pkt htaken
      obtain ⟨mcu, hmcu, hnext⟩ := Option.map_eq_some_iff.mp hact
      cases hnext
      exact .takesNtpHost beyond pkt mcu htaken hmcu
    · cases hact
  all_goals
    obtain ⟨h, hnext⟩ := Option.ite_none_right_eq_some.mp hact
  case enters r timeoutRet =>
    cases hnext
    exact .enters r timeoutRet h
  case givesUp =>
    cases hnext
    exact .givesUp h
  case registers ret =>
    cases hnext
    refine .registers ret _ h ?_
    split
    · exact Or.inr ⟨rfl, by assumption⟩
    · exact Or.inl rfl
  case hearsNothing recvLen replyAddr =>
    cases hnext
    exact .hearsNothing recvLen replyAddr h.1
  case hears d replyPort =>
    cases hnext
    refine .hears d replyPort _ h ?_
    split
    · exact Or.inr ⟨_, rfl, by assumption⟩
    · exact Or.inl rfl
  case completes =>
    cases hnext
    exact .completes h
  case turns =>
    cases hnext
    exact .turns h
  case keepsAlive ret =>
    cases hnext
    exact .keepsAlive ret h
  case passes =>
    cases hnext
    exact .passes h.2
  case opens r =>
    split at hnext
    · cases hnext
      exact .reopens r h
    · rename_i hfree
      cases hnext
      exact .opens r _ h ((Bool.not_eq_true _).mp hfree)
  case streams payload ret =>
    cases hnext
    exact .streams payload ret _ h
  case stops =>
    cases hnext
    exact .stops h

end Node

/-! ### The network -/

structure Net (ι : Type*) where
  node : ι → Node
  /-- all datagrams, from the first on -/
  sent : List (Datagram ι)

inductive Label (ι : Type*)
  | node (i : ι) (a : Action ι)
  /-- a device that is no node sends what it likes, in whose name it likes -/
  | foreign (source : UInt32) (dest : SockaddrIn) (payload : List UInt8)

/-- What a node hears has been sent to the port. -/
def Delivered {ι : Type*} (sent : List (Datagram ι)) : Action ι → Prop
  | .hears d _ => d ∈ sent ∧ d.dest.sinPort = htons discoveryPort
  | _ => True

section Net

variable {ι : Type*} [DecidableEq ι] (inetAddr : List UInt8 → UInt32) (addr : ι → UInt32)

instance (sent : List (Datagram ι)) : DecidablePred (Delivered sent)
  | .hears _ _ => inferInstanceAs (Decidable (_ ∧ _))
  | .enters _ _ | .givesUp | .registers _ | .hearsNothing _ _ | .takesDataHost | .takesNtpHost _
  | .completes | .turns | .keepsAlive _ | .passes | .opens _ | .streams _ _ | .stops =>
      inferInstanceAs (Decidable True)

def datagrams (i : ι) (out : Outgoing) : List (Datagram ι) :=
  (out.map fun (dest, payload) => ⟨some i, addr i, dest, payload⟩).toList

def step (net : Net ι) : Label ι → Option (Net ι)
  | .foreign source dest payload =>
      some { net with sent := net.sent ++ [⟨none, source, dest, payload⟩] }
  | .node i a =>
      if Delivered net.sent a then
        ((net.node i).act inetAddr a).map fun (n, out) =>
          ⟨Function.update net.node i n, net.sent ++ datagrams addr i out⟩
      else none

/-- After the boot, with any name, addresses and hosts. -/
structure Fresh (n : Node) : Prop where
  syncMutex : n.syncMutex = false
  msgBuffer : n.msgBuffer = discoveryMsgBuffer
  client : n.client = UdpSocket.start
  discovery : n.mcu.discoveryCompleted = false
  handler : n.handler = .idle
  dataSocket : n.dataSocket = UdpSocket.start
  dataClient : n.dataClient = .waiting

def machine : Machine (Net ι) (Label ι) where
  Init net := net.sent = [] ∧ ∀ i, Fresh (net.node i)
  step := step inetAddr addr

end Net

/-- One write after the other does what the handler does with a reply. -/
theorem takeReply_eq (beyond : List UInt8) (m : Mcu) (pkt : MarkerDiscoveryReplyPacket)
    (sender : Vector UInt8 4) :
    takeReply beyond m pkt sender =
      (takeDataHost m sender).bind fun m => (takeNtpHost beyond m pkt).map complete := by
  rw [takeReply, takeDataHost]
  cases strncpy m.dataHostIpAddr (inetNtoa sender) (varStrMaxLen - 1) with
  | none => rfl
  | some dataHost =>
    simp only [takeNtpHost, Option.bind_eq_bind, Option.bind_some, Option.map_some,
      Option.pure_def]
    cases strlen (ntpHostMem pkt beyond) with
    | none => rfl
    | some len =>
      simp only [Option.bind_some]
      by_cases hlen : 0 < len
      · simp only [if_pos hlen]
        cases strncpy m.ntpHostIpAddr (ntpHostMem pkt beyond) (varStrMaxLen - 1) with
        | none => rfl
        | some ntpHost => rfl
      · simp only [if_neg hlen]
        rfl

theorem length_intercalate_le (parts : List (List UInt8))
    (h : ∀ part ∈ parts, part.length ≤ 3) :
    ([46].intercalate parts).length ≤ 4 * parts.length := by
  induction parts with
  | nil => exact Nat.zero_le _
  | cons part rest ih =>
    have hpart := h part List.mem_cons_self
    have hrest := ih fun part hmem => h part (List.mem_cons_of_mem _ hmem)
    cases rest with
    | nil =>
      rw [List.intercalate_singleton, List.length_singleton]
      omega
    | cons next rest =>
      rw [List.intercalate_cons_cons]
      simp only [List.length_append, List.length_cons, List.length_nil] at hrest ⊢
      omega

/-- An address is written in full. -/
theorem text_takeDataHost {m m' : Mcu} {sender : Vector UInt8 4}
    (h : takeDataHost m sender = some m') :
    text m'.dataHostIpAddr.toList = text (inetNtoa sender) ∧
      m' = { m with dataHostIpAddr := m'.dataHostIpAddr } := by
  have hparts : ∀ part ∈ sender.toList.map fun b => CNumber.decimal b.toNat,
      part.length ≤ 3 := by
    intro part hmem
    obtain ⟨b, -, rfl⟩ := List.mem_map.mp hmem
    exact CNumber.length_decimal_le (by decide) (Nat.lt_trans b.toNat_lt (by decide))
  have hlen := length_intercalate_le _ hparts
  rw [List.length_map, Vector.length_toList] at hlen
  have hterm : 0 ∈ inetNtoa sender := List.mem_append_right _ List.mem_cons_self
  have hshort := length_text_lt hterm
  rw [inetNtoa, List.length_append, List.length_singleton] at hshort
  obtain ⟨out, hout, htext⟩ := strncpy_text m.dataHostIpAddr hterm
    (show varStrMaxLen - 1 ≤ varStrMaxLen by decide)
    (show (text (inetNtoa sender)).length < 63 by rw [inetNtoa]; omega)
  rw [takeDataHost, hout, Option.map_some, Option.some.injEq] at h
  subst h
  exact ⟨htext, rfl⟩

theorem frame_takeNtpHost {beyond : List UInt8} {m m' : Mcu} {pkt : MarkerDiscoveryReplyPacket}
    (h : takeNtpHost beyond m pkt = some m') :
    m' = { m with ntpHostIpAddr := m'.ntpHostIpAddr } := by
  obtain ⟨len, -, h⟩ := Option.bind_eq_some_iff.mp h
  split at h
  · obtain ⟨ntpHost, -, h⟩ := Option.bind_eq_some_iff.mp h
    cases h
    rfl
  · cases h
    rfl

def discoveryMsg (flag : UInt8) (deviceId : Vector UInt8 deviceIdLen) : List UInt8 :=
  List.replicate magicNumberLength magicMarkerAddr ++ [1, flag] ++ deviceId.toList

theorem length_discoveryMsg (flag : UInt8) (deviceId : Vector UInt8 deviceIdLen) :
    (discoveryMsg flag deviceId).length = 19 := by
  rw [discoveryMsg, List.length_append, Vector.length_toList]
  rfl

theorem prepare_declared (deviceId : Vector UInt8 deviceIdLen) :
    sysPrepareDiscoveryMsgBufferOnce deviceId discoveryMsgBuffer =
      discoveryMsg 0 deviceId ++ [0] := by
  have hfront : discoveryMsgBuffer.take deviceIdOffset =
      List.replicate magicNumberLength magicMarkerAddr ++ [1, 0] := rfl
  have hback : discoveryMsgBuffer.drop (deviceIdOffset + deviceIdLen) = [0] := rfl
  rw [sysPrepareDiscoveryMsgBufferOnce, hfront, hback, ← List.append_assoc]
  rfl

theorem setReplyControl_discoveryMsg (reply : Bool) (flag : UInt8)
    (deviceId : Vector UInt8 deviceIdLen) :
    sysSetDiscoveryMsgReplyControl reply (discoveryMsg flag deviceId ++ [0]) =
      discoveryMsg (if reply then 1 else 0) deviceId ++ [0] := by
  rfl

/-- An address and port in network order. -/
def hostAddr (a : UInt32) (port : UInt16) : SockaddrIn := ⟨afInet, htons port, a⟩

section Socket

variable {s : UdpSocket.State}

theorem object_setTimeout (s : UdpSocket.State) (ret : Int) :
    (udpSocketSetTimeout s ret).1.object = s.object := by
  unfold udpSocketSetTimeout
  split
  · rfl
  · rfl

theorem object_setBroadcast (s : UdpSocket.State) (ret : Int) :
    (udpSocketSetBroadcast s ret).1.object = s.object := by
  unfold udpSocketSetBroadcast
  split
  · rfl
  · rfl

theorem object_send (s : UdpSocket.State) (ret : Int) :
    (udpSocketSend s ret).1.object = s.object := by
  unfold udpSocketSend
  split
  · rfl
  · rfl

theorem initialized_of_send {ret : Int} (h : (udpSocketSend s ret).2 = .ok) :
    s.object.initialized = true := by
  unfold udpSocketSend at h
  split at h
  · cases h
  · rename_i hinit
    simpa using hinit

theorem object_recv (hinit : s.object.initialized = true) (recvLen : Int) (replyAddr : SockaddrIn) :
    (UdpSocket.udpSocketRecv s recvLen replyAddr).1.object = { s.object with replyAddr } := by
  simp only [UdpSocket.udpSocketRecv, hinit, Bool.not_true, Bool.false_eq_true, if_false]
  rfl

theorem object_setDestination (hinit : s.object.initialized = true) (a : UInt32) (port : UInt16) :
    (udpSocketSetDestination s a port).1.object =
      { s.object with destAddr := hostAddr a port, destPort := port } := by
  simp only [udpSocketSetDestination, hinit, Bool.not_true, Bool.false_eq_true, if_false]
  rfl

/-- What goes out goes to the destination of an open socket. -/
theorem of_outgoing {payload : List UInt8} {ret : Int} {out : SockaddrIn × List UInt8}
    (h : outgoing s payload ret = some out) :
    s.object.initialized = true ∧ out = (s.object.destAddr, payload) := by
  unfold outgoing at h
  split at h
  · rename_i hok
    exact ⟨initialized_of_send hok, (Option.some.inj h).symm⟩
  · cases h

theorem initialized_bind (hinit : s.object.initialized = true) (sourcePort : UInt16)
    (bindRet : Int) : (bindSourcePort s sourcePort bindRet).1.object.initialized = true := by
  unfold bindSourcePort
  split
  · unfold udpSocketBindLocalPort
    split
    · exact hinit
    · exact hinit
  · exact hinit

/-- An object that is opened is directed to the address it was opened for. -/
theorem destAddr_of_init (hfree : s.object.initialized = false) {sourcePort destPort : UInt16}
    {dest : List UInt8} {r : InitResults}
    (h : (udpSocketInit s sourcePort (some dest) destPort r).1.object.initialized = true) :
    (udpSocketInit s sourcePort (some dest) destPort r).1.object.destAddr =
      hostAddr r.inetAddr destPort := by
  revert h
  simp only [udpSocketInit]
  split
  · intro h
    rw [hfree] at h
    cases h
  split
  · intro h
    rw [hfree] at h
    cases h
  split
  · intro h
    change s.object.initialized = true at h
    rw [hfree] at h
    cases h
  split
  · intro h
    cases h
  · intro _
    have hbound := initialized_bind (s := s.opened r.sock) rfl sourcePort r.bindRet
    split
    · rw [object_setBroadcast, object_setDestination hbound]
    · rw [object_setDestination hbound]

end Socket

end DiscoveryNet

end MarkitNode
