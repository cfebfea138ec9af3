import MarkitNode.CString
import MarkitNode.Custody
import MarkitNode.StatusCodes

/-!
The UDP socket object. `udp_socket_init` opens a descriptor, and closes it again
if it cannot be bound; a broadcast option that fails leaves the object as it is.
All other calls rely on the flag `initialized`. The calls keep a list of what
they do with descriptors, and take the results of the socket layer as arguments.
-/

namespace MarkitNode

namespace UdpSocket

open Custody

structure SockaddrIn where
  sinFamily : Nat
  sinPort : UInt16
  sinAddr : UInt32
  deriving DecidableEq, Repr

/-- `udp_socket_t` -/
structure Socket where
  initialized : Bool
  sourcePort : UInt16
  destPort : UInt16
  sourceAddr : SockaddrIn
  destAddr : SockaddrIn
  replyAddr : SockaddrIn
  sock : Int
  deriving DecidableEq, Repr

/-- The object, and what was done with descriptors for it. -/
structure State where
  object : Socket
  log : List (Event Int)
  deriving DecidableEq

/-- A zeroed object. -/
def start : State where
  object :=
    { initialized := false
      sourcePort := 0
      destPort := 0
      sourceAddr := ⟨0, 0, 0⟩
      destAddr := ⟨0, 0, 0⟩
      replyAddr := ⟨0, 0, 0⟩
      sock := 0 }
  log := []

abbrev afInet : Nat := 2

def htons (port : UInt16) : UInt16 := port <<< 8 ||| port >>> 8

/-- The descriptor of the object is handed to the socket layer. -/
def State.useSock (s : State) : State := { s with log := s.log ++ [.use s.object.sock] }

def udpSocketBindLocalPort (s : State) (sourcePort : UInt16) (bindRet : Int) : State × EspErr :=
  if !s.object.initialized then (s, .fail)
  else
    let object := { s.object with
      sourcePort
      sourceAddr := { s.object.sourceAddr with sinPort := htons sourcePort } }
    ({ s with object }.useSock, if bindRet ≠ 0 then .fail else .ok)

/-- `destAddr` is the result of `inet_addr`. -/
def udpSocketSetDestination (s : State) (destAddr : UInt32) (port : UInt16) : State × EspErr :=
  if !s.object.initialized then (s, .fail)
  else
    let object := { s.object with
      destAddr := ⟨afInet, htons port, destAddr⟩
      destPort := port }
    ({ s with object }, .ok)

def udpSocketSetBroadcast (s : State) (ret : Int) : State × EspErr :=
  if !s.object.initialized then (s, .fail)
  else (s.useSock, if ret < 0 then .fail else .ok)

def udpSocketSetTimeout (s : State) (ret : Int) : State × EspErr :=
  if !s.object.initialized then (s, .fail)
  else (s.useSock, if ret < 0 then .fail else .ok)

def udpSocketSend (s : State) (ret : Int) : State × EspErr :=
  if !s.object.initialized then (s, .fail)
  else (s.useSock, if ret < 0 then .noMem else .ok)

/-- `replyAddr` is the address that `recvfrom` fills in. -/
def udpSocketRecv (s : State) (recvLen : Int) (replyAddr : SockaddrIn) : State × EspErr :=
  if !s.object.initialized then (s, .fail)
  else
    let object := { s.object with replyAddr }
    ({ s with object }.useSock, if recvLen < 0 then .fail else .ok)

/-- The descriptor is given up whatever `close` returns. -/
def State.close (s : State) : State where
  object := { s.object with initialized := false, sock := -1 }
  log := s.log ++ [.release s.object.sock]

def udpSocketFree (s : State) : State × EspErr :=
  if !s.object.initialized then (s, .fail)
  else (s.close, .ok)

/-- What the socket layer returns during `udp_socket_init`. -/
structure InitResults where
  sock : Int
  bindRet : Int
  inetAddr : UInt32
  broadcastRet : Int
  deriving DecidableEq, Repr

/-- The start of `source_addr` is filled in as soon as there is a descriptor. -/
def State.opened (s : State) (sock : Int) : State where
  object := { s.object with
    sock
    initialized := true
    sourceAddr := { s.object.sourceAddr with sinFamily := afInet, sinAddr := 0 } }
  log := s.log ++ [.acquire sock]

/-- A source port of 0 leaves the choice to the socket layer. -/
def bindSourcePort (s : State) (sourcePort : UInt16) (bindRet : Int) : State × EspErr :=
  if sourcePort ≠ 0 then udpSocketBindLocalPort s sourcePort bindRet else (s, .ok)

def udpSocketInit (s : State) (sourcePort : UInt16) (destAddr : Option (List UInt8))
    (destPort : UInt16) (r : InitResults) : State × EspErr :=
  match destAddr with
  | none => (s, .fail)
  | some destAddr =>
      if destPort = 0 then (s, .fail)
      else if s.object.initialized then (s, .fail)
      else if r.sock < 0 then ({ s with object := { s.object with sock := r.sock } }, .fail)
      else
        let (bound, err) := bindSourcePort (s.opened r.sock) sourcePort r.bindRet
        if err ≠ .ok then (bound.close, .fail)
        else
          let (directed, _) := udpSocketSetDestination bound r.inetAddr destPort
          if destAddr = CString.ascii "255.255.255.255" then
            ((udpSocketSetBroadcast directed r.broadcastRet).1, .ok)
          else (directed, .ok)

/-- A call for the object, with what the socket layer returns. -/
inductive Call
  | init (sourcePort : UInt16) (destAddr : Option (List UInt8)) (destPort : UInt16)
      (r : InitResults)
  | bindLocalPort (sourcePort : UInt16) (bindRet : Int)
  | setDestination (destAddr : UInt32) (port : UInt16)
  | setBroadcast (ret : Int)
  | setTimeout (ret : Int)
  | send (ret : Int)
  | recv (recvLen : Int) (replyAddr : SockaddrIn)
  | free
  deriving DecidableEq, Repr

def call (s : State) : Call → State × EspErr
  | .init sourcePort destAddr destPort r => udpSocketInit s sourcePort destAddr destPort r
  | .bindLocalPort sourcePort bindRet => udpSocketBindLocalPort s sourcePort bindRet
  | .setDestination destAddr port => udpSocketSetDestination s destAddr port
  | .setBroadcast ret => udpSocketSetBroadcast s ret
  | .setTimeout ret => udpSocketSetTimeout s ret
  | .send ret => udpSocketSend s ret
  | .recv recvLen replyAddr => udpSocketRecv s recvLen replyAddr
  | .free => udpSocketFree s

def run (calls : List Call) : State := calls.foldl (fun s c => (call s c).1) start

/-- The descriptor that the object owns. -/
def Socket.owned (object : Socket) : Option Int :=
  if object.initialized then some object.sock else none

/-- The events are in order and leave the descriptor of the object open. -/
def Owned (s : State) : Prop := Orderly s.log s.object.owned

section Owned

variable {s : State}

theorem owned_init {object : Socket} (h : object.initialized = true) :
    object.owned = some object.sock := if_pos h

theorem Owned.orderly (h : Owned s) (hinit : s.object.initialized = true) :
    Orderly s.log (some s.object.sock) := owned_init hinit ▸ h

/-- Only the flag and the descriptor count. -/
theorem Owned.setObject (h : Owned s) {object : Socket}
    (hflag : object.initialized = s.object.initialized) (hsock : object.sock = s.object.sock) :
    Owned { s with object } := by
  have hsame : object.owned = s.object.owned := by rw [Socket.owned, Socket.owned, hflag, hsock]
  rw [Owned, hsame]
  exact h

theorem Owned.useSock (h : Owned s) (hinit : s.object.initialized = true) :
    Owned s.useSock := by
  have huse := (h.orderly hinit).use
  rwa [← owned_init hinit] at huse

theorem Owned.close (h : Owned s) (hinit : s.object.initialized = true) : Owned s.close :=
  (h.orderly hinit).release

/-- All calls but `udp_socket_init` do nothing for an object without the flag. -/
theorem Owned.guarded (h : Owned s) (err : EspErr) {t : State × EspErr}
    (ht : s.object.initialized = true → Owned t.1) :
    Owned (if !s.object.initialized then (s, err) else t).1 := by
  split
  · exact h
  · rename_i hinit
    exact ht (by simpa using hinit)

theorem owned_bindLocalPort (h : Owned s) (sourcePort : UInt16) (bindRet : Int) :
    Owned (udpSocketBindLocalPort s sourcePort bindRet).1 ∧
      (udpSocketBindLocalPort s sourcePort bindRet).1.object.initialized =
        s.object.initialized := by
  constructor
  · exact h.guarded .fail fun hinit => (h.setObject rfl rfl).useSock hinit
  · rw [udpSocketBindLocalPort]
    split
    · rfl
    · rfl

theorem owned_setDestination (h : Owned s) (destAddr : UInt32) (port : UInt16) :
    Owned (udpSocketSetDestination s destAddr port).1 :=
  h.guarded .fail fun _ => h.setObject rfl rfl

/-- A call that only hands the descriptor on. -/
theorem owned_guarded (h : Owned s) (err err' : EspErr) :
    Owned (if !s.object.initialized then (s, err) else (s.useSock, err')).1 :=
  h.guarded err fun hinit => h.useSock hinit

theorem owned_recv (h : Owned s) (recvLen : Int) (replyAddr : SockaddrIn) :
    Owned (udpSocketRecv s recvLen replyAddr).1 :=
  h.guarded .fail fun hinit => (h.setObject rfl rfl).useSock hinit

theorem owned_free (h : Owned s) : Owned (udpSocketFree s).1 :=
  h.guarded .fail fun hinit => h.close hinit

theorem owned_opened (h : Owned s) (hfree : ¬ s.object.initialized = true) (sock : Int) :
    Owned (s.opened sock) := by
  rw [Owned, Socket.owned, if_neg hfree] at h
  exact h.acquire sock

theorem owned_bindSourcePort (h : Owned s) (sourcePort : UInt16) (bindRet : Int) :
    Owned (bindSourcePort s sourcePort bindRet).1 ∧
      (bindSourcePort s sourcePort bindRet).1.object.initialized = s.object.initialized := by
  rw [bindSourcePort]
  split
  · exact owned_bindLocalPort h sourcePort bindRet
  · exact ⟨h, rfl⟩

theorem owned_udpSocketInit (h : Owned s) (sourcePort : UInt16) (destAddr : Option (List UInt8))
    (destPort : UInt16) (r : InitResults) :
    Owned (udpSocketInit s sourcePort destAddr destPort r).1 := by
  cases destAddr with
  | none => exact h
  | some destAddr =>
    simp only [udpSocketInit]
    split
    · exact h
    split
    · exact h
    rename_i hfree
    split
    · rw [Owned, Socket.owned, if_neg hfree] at h ⊢
      exact h
    -- the descriptor is open from here on, and only a failed bind gives it up
    obtain ⟨howned, hinit⟩ :=
      owned_bindSourcePort (owned_opened h hfree r.sock) sourcePort r.bindRet
    have hdirected := owned_setDestination howned r.inetAddr destPort
    split
    · exact howned.close hinit
    · split
      · exact owned_guarded hdirected _ _
      · exact hdirected

theorem owned_call (h : Owned s) (c : Call) : Owned (call s c).1 := by
  cases c with
  | init sourcePort destAddr destPort r => exact owned_udpSocketInit h _ _ _ _
  | bindLocalPort sourcePort bindRet => exact (owned_bindLocalPort h _ _).1
  | setDestination destAddr port => exact owned_setDestination h _ _
  | setBroadcast ret => exact owned_guarded h _ _
  | setTimeout ret => exact owned_guarded h _ _
  | send ret => exact owned_guarded h _ _
  | recv recvLen replyAddr => exact owned_recv h _ _
  | free => exact owned_free h

/-- Every run keeps the descriptor and the flag together. -/
theorem owned_run (calls : List Call) : Owned (run calls) := by
  induction calls using List.reverseRecOn with
  | nil => exact orderly_nil
  | append_singleton init c ih =>
    rw [run, List.foldl_append]
    exact owned_call ih c

end Owned

/-- After any calls, what is open is the descriptor of an object with the flag
set, and no call was out of order. -/
theorem descriptors_proper (calls : List Call) :
    openHandles (run calls).log =
        (if (run calls).object.initialized then [(run calls).object.sock] else []) ∧
      Proper (run calls).log := by
  have howned := owned_run calls
  refine ⟨?_, howned.proper⟩
  rw [howned.openHandles_eq, Socket.owned]
  split
  · rfl
  · rfl

end UdpSocket

end MarkitNode
