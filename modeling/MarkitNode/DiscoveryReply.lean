import MarkitNode.CNumber
import MarkitNode.CString

/-!
The reply to a discovery broadcast: the decoder of the datagram and the handler
that takes the host addresses over. The decoder copies two fields of fixed
width; the handler reads the first with C string functions, which know nothing
of its width and go on to the first NUL, wherever that is.
-/

namespace MarkitNode

namespace DiscoveryReply

open CString

abbrev deviceTypeInterface : UInt8 := 0
abbrev magicMarkerAddr : UInt8 := 229
abbrev magicNumberLength : Nat := 5
abbrev magicDeviceTypeIndex : Nat := 5
abbrev magicReplyFlagIndex : Nat := 6
abbrev hostLen : Nat := 32
/-- `CONFIG_VAR_STR_MAX_LEN` -/
abbrev varStrMaxLen : Nat := 64

structure MarkerDiscoveryReplyPacket where
  ntpHost : Vector UInt8 hostLen
  otaHost : Vector UInt8 hostLen
  deriving DecidableEq

/-- The bytes from `ofs` on, as many as a host field has. -/
def hostAt (buf : List UInt8) (ofs : Nat) (h : ofs + hostLen ≤ buf.length) :
    Vector UInt8 hostLen :=
  ⟨((buf.drop ofs).take hostLen).toArray, by
    rw [List.size_toArray, List.length_take, List.length_drop]
    omega⟩

/-- `buf` are the bytes received, `buf_len` of them. -/
def sysDecodeDiscoveryReplyControl (buf : List UInt8) : Option MarkerDiscoveryReplyPacket :=
  if h : buf.length < magicNumberLength + 1 + 1 + (hostLen + hostLen) then none
  else if (buf.take magicNumberLength).any (· ≠ magicMarkerAddr) then none
  else if buf[magicDeviceTypeIndex]? ≠ some deviceTypeInterface then none
  else
    some {
      ntpHost := hostAt buf (magicReplyFlagIndex + 1) (Nat.le_trans (by decide) (Nat.not_lt.mp h))
      otaHost := hostAt buf (magicReplyFlagIndex + 1 + hostLen) (Nat.not_lt.mp h) }

/-- One turn of the loop of the handler: a send, then a receive. -/
inductive Attempt
  | sendFails
  | recvFails
  /-- a datagram and the four numbers of the address it comes from -/
  | received (datagram : List UInt8) (sender : Vector UInt8 4)
  deriving DecidableEq

/-- `udp_socket_recv` into a buffer of 128 bytes, the last left free. -/
def udpSocketRecv (datagram : List UInt8) : List UInt8 := datagram.take (128 - 1)

/-- The reply the loop ends with, if it does not run out of time; each attempt
takes some of it. -/
def awaitReply : List Attempt → Option (MarkerDiscoveryReplyPacket × Vector UInt8 4)
  | [] => none
  | .sendFails :: _ => none
  | .recvFails :: rest => awaitReply rest
  | .received datagram sender :: rest =>
      match sysDecodeDiscoveryReplyControl (udpSocketRecv datagram) with
      | some pkt => some (pkt, sender)
      | none => awaitReply rest

def inetNtoa (sender : Vector UInt8 4) : List UInt8 :=
  [46].intercalate (sender.toList.map fun b => CNumber.decimal b.toNat) ++ [0]

/-- The fields of `g_mcu` that discovery writes, and its event. -/
structure Mcu where
  dataHostIpAddr : Vector UInt8 varStrMaxLen
  ntpHostIpAddr : Vector UInt8 varStrMaxLen
  discoveryCompleted : Bool
  evDiscoveryCompleted : Bool
  deriving DecidableEq

/-- The memory from the first byte of `pkt.ntp_host` on; `beyond` follows the
packet on the stack. -/
def ntpHostMem (pkt : MarkerDiscoveryReplyPacket) (beyond : List UInt8) : List UInt8 :=
  pkt.ntpHost.toList ++ (pkt.otaHost.toList ++ beyond)

def takeReply (beyond : List UInt8) (m : Mcu) (pkt : MarkerDiscoveryReplyPacket)
    (sender : Vector UInt8 4) : Option Mcu := do
  let dataHost ← strncpy m.dataHostIpAddr (inetNtoa sender) (varStrMaxLen - 1)
  let len ← strlen (ntpHostMem pkt beyond)
  let ntpHost ←
    if 0 < len then strncpy m.ntpHostIpAddr (ntpHostMem pkt beyond) (varStrMaxLen - 1)
    else some m.ntpHostIpAddr
  return ⟨dataHost, ntpHost, true, true⟩

/-- The handler, when it has the mutex; `none` if a string function finds no NUL
in the memory it reads. -/
def sysDiscoveryHandler (beyond : List UInt8) (m : Mcu) (attempts : List Attempt) : Option Mcu :=
  if m.discoveryCompleted then some m
  else
    match awaitReply attempts with
    | none => some m
    | some (pkt, sender) => takeReply beyond m pkt sender

/-! ### Which datagrams are replies -/

structure ReplyFormed (datagram : List UInt8) : Prop where
  long : 71 ≤ datagram.length
  magic : List.replicate 5 229 <+: datagram
  type : datagram[5]? = some 0

theorem magic_iff {bytes : List UInt8} (h : 5 ≤ bytes.length) :
    (bytes.take 5).any (· ≠ magicMarkerAddr) = false ↔ List.replicate 5 229 <+: bytes := by
  have hlen : (bytes.take 5).length = 5 := by
    rw [List.length_take]
    omega
  rw [List.any_eq_false, List.prefix_iff_eq_take, List.length_replicate, eq_comm,
    List.eq_replicate_iff]
  simp [hlen]

theorem decode_isSome_iff (datagram : List UInt8) :
    (sysDecodeDiscoveryReplyControl (udpSocketRecv datagram)).isSome ↔ ReplyFormed datagram := by
  have hlen : (udpSocketRecv datagram).length = min 127 datagram.length := List.length_take
  have htake : (udpSocketRecv datagram).take magicNumberLength = datagram.take 5 := List.take_take
  have htype : (udpSocketRecv datagram)[magicDeviceTypeIndex]? = datagram[5]? :=
    List.getElem?_take_of_lt (by decide)
  unfold sysDecodeDiscoveryReplyControl
  rw [htake, htype]
  constructor
  · intro h
    split at h
    · cases h
    · rename_i hlong
      have hsize : 71 ≤ min 127 datagram.length := hlen ▸ Nat.not_lt.mp hlong
      split at h
      · cases h
      · rename_i hmagic
        split at h
        · cases h
        · rename_i hzero
          exact ⟨by omega, (magic_iff (by omega)).mp (Bool.not_eq_true _ ▸ hmagic),
            not_not.mp hzero⟩
  · rintro ⟨hlong, hmagic, hzero⟩
    have hsize : ¬ (udpSocketRecv datagram).length < 5 + 1 + 1 + (32 + 32) := by omega
    rw [dif_neg hsize, (magic_iff (by omega)).mpr hmagic, hzero]
    rfl

/-! ### What becomes of the NTP host -/

/-- The host the packet names: its field up to the first NUL or the end. -/
def ntpHostNamed (pkt : MarkerDiscoveryReplyPacket) : List UInt8 := text pkt.ntpHost.toList

/-- The bytes from `pkt.ntp_host` on that the handler reads to set the host. -/
def ntpHostSpan (pkt : MarkerDiscoveryReplyPacket) (beyond : List UInt8) : Nat :=
  max (strlenSpan (ntpHostMem pkt beyond))
    (strncpySpan (ntpHostMem pkt beyond) (varStrMaxLen - 1))

/-- A reply that names a host sets exactly this one, from the bytes of its field. -/
def NtpHostTaken (beyond : List UInt8) (m : Mcu) (attempts : List Attempt) : Prop :=
  ∀ pkt sender, m.discoveryCompleted = false → awaitReply attempts = some (pkt, sender) →
    ntpHostNamed pkt ≠ [] →
    (∃ m', sysDiscoveryHandler beyond m attempts = some m' ∧
      text m'.ntpHostIpAddr.toList = ntpHostNamed pkt) ∧ ntpHostSpan pkt beyond ≤ hostLen

theorem takeReply_of_terminated {pkt : MarkerDiscoveryReplyPacket} (h : 0 ∈ pkt.ntpHost.toList)
    (beyond : List UInt8) (m : Mcu) (sender : Vector UInt8 4) (hnamed : ntpHostNamed pkt ≠ []) :
    ∃ m', takeReply beyond m pkt sender = some m' ∧
      text m'.ntpHostIpAddr.toList = ntpHostNamed pkt := by
  have hmem : 0 ∈ ntpHostMem pkt beyond := List.mem_append_left _ h
  have htext : text (ntpHostMem pkt beyond) = ntpHostNamed pkt := text_append h _
  have hlt : (ntpHostNamed pkt).length < 32 := by
    have hlen := length_text_lt h
    rwa [Vector.length_toList] at hlen
  have hpos : 0 < (text (ntpHostMem pkt beyond)).length := by
    rw [htext]
    exact List.length_pos_iff.mpr hnamed
  have hsender : 0 ∈ inetNtoa sender := List.mem_append_right _ List.mem_cons_self
  obtain ⟨dataHost, hdata⟩ := strncpy_of_terminated m.dataHostIpAddr hsender
    (show varStrMaxLen - 1 ≤ varStrMaxLen by decide)
  obtain ⟨out, hout, hcopied⟩ := strncpy_text m.ntpHostIpAddr hmem
    (show varStrMaxLen - 1 ≤ varStrMaxLen by decide)
    (by rw [htext]; exact Nat.lt_trans hlt (by decide))
  refine ⟨⟨dataHost, out, true, true⟩, ?_, hcopied.trans htext⟩
  simp only [takeReply, strlen, hdata, if_pos hmem, Option.bind_eq_bind, Option.bind_some,
    if_pos hpos, hout, Option.pure_def]

theorem ntpHostSpan_of_terminated {pkt : MarkerDiscoveryReplyPacket}
    (h : 0 ∈ pkt.ntpHost.toList) (beyond : List UInt8) : ntpHostSpan pkt beyond ≤ hostLen := by
  have hlen := length_text_lt h
  rw [Vector.length_toList, ← text_append h (pkt.otaHost.toList ++ beyond)] at hlen
  apply Nat.max_le.mpr
  exact ⟨hlen, Nat.le_trans (Nat.min_le_right _ _) hlen⟩

theorem terminated_of_ntpHostSpan {pkt : MarkerDiscoveryReplyPacket} {beyond : List UInt8}
    (h : ntpHostSpan pkt beyond ≤ hostLen) : 0 ∈ pkt.ntpHost.toList := by
  by_contra hopen
  have hlong := length_le_text hopen (pkt.otaHost.toList ++ beyond)
  have hspan : strlenSpan (ntpHostMem pkt beyond) ≤ hostLen :=
    Nat.le_trans (Nat.le_max_left _ _) h
  rw [Vector.length_toList] at hlong
  exact absurd (Nat.lt_of_lt_of_le (Nat.lt_succ_of_le hlong) hspan) (Nat.lt_irrefl hostLen)

/-- The NTP field of a reply that the handler accepts, and that names a host, has
a NUL. -/
def FieldTerminated (m : Mcu) (attempts : List Attempt) : Prop :=
  ∀ pkt sender, m.discoveryCompleted = false → awaitReply attempts = some (pkt, sender) →
    ntpHostNamed pkt ≠ [] → 0 ∈ pkt.ntpHost.toList

/-- The decoder accepts what is formed as a reply, and the handler takes over
the host named exactly where the field that names it is terminated. -/
theorem discoveryReply_taken_iff (beyond : List UInt8) (m : Mcu) (attempts : List Attempt) :
    (∀ datagram, (sysDecodeDiscoveryReplyControl (udpSocketRecv datagram)).isSome ↔
      ReplyFormed datagram) ∧
    (NtpHostTaken beyond m attempts ↔ FieldTerminated m attempts) := by
  refine ⟨decode_isSome_iff, ?_⟩
  constructor
  · intro h pkt sender hopen hreply hnamed
    exact terminated_of_ntpHostSpan (h pkt sender hopen hreply hnamed).2
  · intro h pkt sender hopen hreply hnamed
    have hterm := h pkt sender hopen hreply hnamed
    obtain ⟨m', htake, htext⟩ := takeReply_of_terminated hterm beyond m sender hnamed
    refine ⟨⟨m', ?_, htext⟩, ntpHostSpan_of_terminated hterm beyond⟩
    simp only [sysDiscoveryHandler, hopen, hreply, htake]
    rfl

/-- A reply whose NTP field is full: 32 digits, and an OTA host after them. -/
def fullField : List UInt8 :=
  List.replicate 5 229 ++ [0, 1] ++ List.replicate 32 49 ++ (50 :: List.replicate 31 0)

theorem ntp_host_runs_on :
    ¬ ∀ beyond m attempts, NtpHostTaken beyond m attempts := by
  intro h
  have hreply := h [] ⟨Vector.replicate 64 0, Vector.replicate 64 0, false, false⟩
    [.received fullField #v[192, 168, 1, 2]] _ _ rfl rfl (by decide +kernel)
  exact absurd hreply.2 (by decide +kernel)

end DiscoveryReply

end MarkitNode
