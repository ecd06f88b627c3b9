import Udpdk.BindTable.Table
import Udpdk.Foundation.Simulation
import Udpdk.Syscall.Transfer

/-!
# What the socket calls are for

The library as its user sees it: sockets with options and perhaps a name, for every port the
list of its bindings, and for every socket two queues of packets. There are no pointers, no
allocators and no iterators here, a closed socket has no options and no name, and every call
is a case distinction on its arguments and on this state.

## Main definitions

* `Sockets` — the state
* `Sockets.socket`, `Sockets.bind`, … — the calls
* `SocketCall`, `SocketCall.spec` — any of the calls, with its reply
-/

namespace Udpdk

open Foundation

/-- An open socket: its options, and the address and port it is bound to, if any. -/
structure Socket where
  options : BitVec 32
  name : Option (InAddr × Port)

/-- The state of the library as its user sees it. -/
structure Sockets where
  sockets : ℕ → Option Socket
  /-- how many calls have opened or closed a socket -/
  counted : ℕ
  bindings : Port → List BindInfo
  rxQ : ℕ → BoundedQueue (Option Mbuf)
  txQ : ℕ → BoundedQueue Mbuf
  freed : List ℕ
  interrupted : Bool

abbrev SocketProg := Prog Fault Sockets

/-- The socket as a descriptor of a slot, with what a send reads of it. -/
def Socket.slot (sock : Socket) : ExchSlotInfo where
  used := true
  bound := sock.name.isSome
  sockfd := 0
  udpPort := (sock.name.map Prod.snd).getD 0
  ipAddr := (sock.name.map Prod.fst).getD 0
  soOptions := sock.options

namespace Sockets

/-- No socket is open, and nothing is bound or queued. -/
def init : Sockets where
  sockets _ := none
  counted := 0
  bindings _ := []
  rxQ _ := rteRingCreate exchRingSize
  txQ _ := rteRingCreate exchRingSize
  freed := []
  interrupted := false

section Updates

variable (S : Sockets) (s : ℕ) (sock : Socket)

/-- A socket is opened. -/
def opened : Sockets :=
  { S with
    sockets := Function.update S.sockets s (some { options := 0, name := none })
    counted := (S.counted + 1) % 2 ^ 64 }

/-- An option of the socket is set or reset. -/
def withOption (option value : BitVec 32) : Sockets :=
  { S with
    sockets := Function.update S.sockets s
      (some { sock with options := updateOption sock.options option value }) }

/-- The socket gets a name. -/
def named (ip : InAddr) (port : Port) : Sockets :=
  { S with
    sockets := Function.update S.sockets s (some { sock with name := some (ip, port) })
    bindings := Function.update S.bindings port
      (insertBinding (newBinding s ip sock.options) (S.bindings port)) }

/-- The socket is closed. -/
def closed : Sockets :=
  { S with
    sockets := Function.update S.sockets s none
    counted := (S.counted + 1) % 2 ^ 64
    bindings := match sock.name with
      | none => S.bindings
      | some (_, port) => Function.update S.bindings port (removeBinding s (S.bindings port)) }

/-- The lowest port without bindings. -/
def freePort : Option Port :=
  ((List.range udpMaxPort).find? fun i => (S.bindings (BitVec.ofNat 16 i)).isEmpty).map
    (BitVec.ofNat 16)

end Updates

/-! ## The calls -/

section Calls

variable {α : Type}

/-- The call fails, and nothing has changed. -/
def refuse (e : Errno) : SocketProg (Except Errno α) := fun S => .ok (.error e, S)

/-- A call on an open socket. There are as many descriptors as slots; others are looked up
outside the array. -/
def onSocket (fd : ℤ) (call : ℕ → Socket → SocketProg (Except Errno α)) :
    SocketProg (Except Errno α) := fun S =>
  if 0 ≤ fd ∧ fd.toNat < numSocketsMax then
    match S.sockets fd.toNat with
    | none => refuse .EBADF S
    | some sock => call fd.toNat sock S
  else .error .outOfBounds

/-- `udpdk_socket` opens the lowest descriptor without a socket. -/
def socket (domain type protocol : ℤ) : SocketProg (Except Errno ℕ) := fun S =>
  match socketValidateArgs domain type protocol with
  | .error e => refuse e S
  | .ok () =>
    if numSocketsMax < S.counted then refuse .ENOBUFS S
    else match (List.range numSocketsMax).find? fun s => (S.sockets s).isNone with
      | none => refuse .ENOBUFS S
      | some s => .ok (.ok s, S.opened s)

/-- What both option calls check once the socket is known to be open. -/
def checkOption (level optname : ℤ) (null : Bool) : Except Errno Unit :=
  if level ≠ solSocket then .error .EINVAL
  else if optname ∉ supportedOptions then .error .ENOPROTOOPT
  else if null then .error .EFAULT
  else .ok ()

/-- `udpdk_getsockopt`. -/
def getsockopt (fd level optname : ℤ) (optvalNull optlenNull : Bool) :
    SocketProg (Except Errno (BitVec 32)) :=
  onSocket fd fun _ sock S =>
    match checkOption level optname (optvalNull || optlenNull) with
    | .error e => refuse e S
    | .ok () => .ok (.ok (if hasOpt sock.options (BitVec.ofInt 32 optname) then 1 else 0), S)

/-- `udpdk_setsockopt`. -/
def setsockopt (fd level optname : ℤ) (optval : Option (BitVec 32)) :
    SocketProg (Except Errno Unit) :=
  onSocket fd fun s sock S =>
    match checkOption level optname optval.isNone with
    | .error e => refuse e S
    | .ok () => .ok (.ok (), S.withOption s sock (BitVec.ofInt 32 optname) (optval.getD 0))

/-- `udpdk_bind` names a socket that has no name, if the bindings of the port allow it. -/
def bind (fd : ℤ) (addr : Option SockaddrIn) (addrlen : ℕ) : SocketProg (Except Errno Unit) :=
  onSocket fd fun s sock S =>
    if sock.name.isSome then refuse .EINVAL S
    else match addr with
      | none => .error .nullDeref
      | some a =>
        if a.sinFamily ≠ afInet ∨ addrlen ≠ sizeofSockaddrIn then refuse .EINVAL S
        else if canBind (S.bindings a.sinPort) a.sinAddr sock.options then
          .ok (.ok (), S.named s sock a.sinAddr a.sinPort)
        else refuse .EADDRINUSE S

/-- The packet goes into the tx queue of a socket that has a name. -/
def submit (dpdk : Dpdk) (config : Configuration) (pkt : Option ℕ) (buf : List Byte)
    (dest : SockaddrIn) (s : ℕ) (sock : Socket) : SocketProg (Except Errno (Mbuf × ℕ)) := fun S =>
  match pkt with
  | none => refuse .ENOMEM S
  | some addr =>
    if mbufDataRoom < sizeofHeaders + buf.length then .error .outOfBounds
    else
      let m := fillMbuf addr (buildFrame dpdk config sock.slot dest buf)
      match (S.txQ s).enqueue m with
      | none => refuse .ENOBUFS { S with freed := S.freed ++ [m.addr] }
      | some q => .ok (.ok (m, buf.length), { S with txQ := Function.update S.txQ s q })

/-- `udpdk_sendto`. A socket without a name gets the wildcard address and the lowest port that
is free, and keeps them also where the packet is not submitted. -/
def sendto (dpdk : Dpdk) (config : Configuration) (pkt : Option ℕ) (fd : ℤ) (buf : List Byte)
    (flags : ℤ) (destAddr : Option SockaddrIn) (addrlen : ℕ) :
    SocketProg (Except Errno (Mbuf × ℕ)) :=
  if numSocketsMax ≤ fd then refuse .ENOTSOCK
  else onSocket fd fun s sock S =>
    match destAddr with
    | none => refuse .EINVAL S
    | some dest =>
      if flags ≠ 0 ∨ addrlen = 0 then refuse .EINVAL S
      else match sock.name, S.freePort with
        | some _, _ => submit dpdk config pkt buf dest s sock S
        | none, some port => submit dpdk config pkt buf dest s
            { sock with name := some (inaddrAny, port) } (S.named s sock inaddrAny port)
        | none, none => refuse .EADDRINUSE S

/-- `udpdk_recvfrom` takes the oldest packet out of the rx queue. -/
def recvfrom (fd : ℤ) (bufNull : Bool) (len : ℕ) (flags : ℤ) (srcAddr : Bool)
    (addrlen : Option ℕ) : SocketProg (Except Errno (Mbuf × Received)) :=
  if numSocketsMax ≤ fd then refuse .ENOTSOCK
  else onSocket fd fun s _ S =>
    if flags ≠ 0 ∨ bufNull ∧ addrlen.isSome then refuse .EINVAL S
    else if S.interrupted then refuse .EINTR S
    else match (S.rxQ s).dequeue with
      | none => .error .noReturn
      | some (none, _) => .error .nullDeref
      | some (some pkt, q) =>
        let received := readDatagram pkt len (if srcAddr then addrlen else none)
        if srcAddr ∧ addrlen.isNone ∨ bufNull ∧ received.bytes ≠ [] then .error .nullDeref
        else .ok (.ok (pkt, received),
          { S with rxQ := Function.update S.rxQ s q, freed := S.freed ++ [pkt.addr] })

/-- `udpdk_close`. -/
def close (fd : ℤ) : SocketProg (Except Errno Unit) :=
  onSocket fd fun s sock S => .ok (.ok (), S.closed s sock)

/-- `udpdk_interrupt`. -/
def interrupt : SocketProg Unit := Prog.update fun S => { S with interrupted := true }

end Calls

end Sockets

/-! ## Any call -/

/-- A call of the application with its arguments. -/
inductive SocketCall
  | socket (domain type protocol : ℤ)
  | getsockopt (sockfd level optname : ℤ) (optvalNull optlenNull : Bool)
  | setsockopt (sockfd level optname : ℤ) (optval : Option (BitVec 32))
  | bind (sockfd : ℤ) (addr : Option SockaddrIn) (addrlen : ℕ)
  | sendto (pkt : Option ℕ) (sockfd : ℤ) (buf : List Byte) (flags : ℤ)
      (destAddr : Option SockaddrIn) (addrlen : ℕ)
  | recvfrom (sockfd : ℤ) (bufNull : Bool) (len : ℕ) (flags : ℤ) (srcAddr : Bool)
      (addrlen : Option ℕ)
  | close (s : ℤ)
  | interrupt

/-- What a call gives back. -/
inductive SocketReply
  | descriptor (ret : Except Errno ℕ)
  | value (ret : Except Errno (BitVec 32))
  | sent (ret : Except Errno (Mbuf × ℕ))
  | received (ret : Except Errno (Mbuf × Received))
  | done (ret : Except Errno Unit)
  | nothing

namespace SocketCall

variable (dpdk : Dpdk) (config : Configuration)

/-- The call as the library makes it. -/
def run : SocketCall → SharedProg SocketReply
  | socket domain type protocol => .descriptor <$> udpdkSocket domain type protocol
  | getsockopt sockfd level optname optvalNull optlenNull =>
    .value <$> udpdkGetsockopt sockfd level optname optvalNull optlenNull
  | setsockopt sockfd level optname optval =>
    .done <$> udpdkSetsockopt sockfd level optname optval
  | bind sockfd addr addrlen => .done <$> udpdkBind sockfd addr addrlen
  | sendto pkt sockfd buf flags destAddr addrlen =>
    .sent <$> udpdkSendto dpdk config pkt sockfd buf flags destAddr addrlen
  | recvfrom sockfd bufNull len flags srcAddr addrlen =>
    .received <$> udpdkRecvfrom sockfd bufNull len flags srcAddr addrlen
  | close s => .done <$> udpdkClose s
  | interrupt => (fun _ => .nothing) <$> udpdkInterrupt

/-- The call as it is meant. -/
def spec : SocketCall → SocketProg SocketReply
  | socket domain type protocol => .descriptor <$> Sockets.socket domain type protocol
  | getsockopt sockfd level optname optvalNull optlenNull =>
    .value <$> Sockets.getsockopt sockfd level optname optvalNull optlenNull
  | setsockopt sockfd level optname optval =>
    .done <$> Sockets.setsockopt sockfd level optname optval
  | bind sockfd addr addrlen => .done <$> Sockets.bind sockfd addr addrlen
  | sendto pkt sockfd buf flags destAddr addrlen =>
    .sent <$> Sockets.sendto dpdk config pkt sockfd buf flags destAddr addrlen
  | recvfrom sockfd bufNull len flags srcAddr addrlen =>
    .received <$> Sockets.recvfrom sockfd bufNull len flags srcAddr addrlen
  | close s => .done <$> Sockets.close s
  | interrupt => (fun _ => .nothing) <$> Sockets.interrupt

end SocketCall

end Udpdk
