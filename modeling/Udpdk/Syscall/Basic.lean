import Udpdk.BindTable.Basic
import Udpdk.Foundation.BoundedQueue
import Udpdk.Mbuf

/-!
# The socket calls

`udpdk_syscall.c`. A call reads and rewrites what the application shares with the poller
and returns a value or fails with an `errno`. An access outside `slots` or a null
dereference stops it, as does a receive that would wait forever.
-/

namespace Udpdk

open Foundation

/-- The part of `configuration` that the socket calls read. -/
structure Configuration where
  srcMacAddr : Fin 6 → Byte
  dstMacAddr : Fin 6 → Byte
  srcIpAddr : InAddr

/-- The configuration before it is read. -/
def Configuration.zero : Configuration where
  srcMacAddr _ := 0
  dstMacAddr _ := 0
  srcIpAddr := 0

/-- What application and poller share: the descriptor of the exchange zone, the bind
table, the rings of the exchange slots, the buffers given back to their pools so far, and
the flag that `udpdk_interrupt` raises. -/
structure Shared where
  desc : ExchZoneInfo
  mem : Mem
  rxQ : ℕ → BoundedQueue (Option Mbuf)
  txQ : ℕ → BoundedQueue Mbuf
  freed : List ℕ
  interrupted : Bool

/-- A ring of `count` entries holds one fewer. -/
def rteRingCreate {α : Type} (count : ℕ) : BoundedQueue α := .empty (count - 1)

/-- The shared state after `udpdk_init`: `udpdk_list_init`, `init_exch_memzone`,
`init_udp_bind_table` and `init_exchange_slots`. -/
def sharedInit (zones : AllocatorZones) : Shared where
  desc := initExchMemzone
  mem := btableInit zones
  rxQ _ := rteRingCreate exchRingSize
  txQ _ := rteRingCreate exchRingSize
  freed := []
  interrupted := false

/-- A call on the shared state. Where it returns an `Except Errno`, `.error` is a return
of -1 with `errno` set. -/
abbrev SharedProg := Prog Fault Shared

/-! ## Accesses -/

/-- Run an operation of the bind table. -/
def onMem {α : Type} (x : MemProg α) : SharedProg α :=
  Prog.zoom Shared.mem (fun m σ => { σ with mem := m }) x

/-- Replace the descriptor of slot `i`. -/
def ExchZoneInfo.modifySlot (desc : ExchZoneInfo) (i : ℕ) (f : ExchSlotInfo → ExchSlotInfo) :
    ExchZoneInfo :=
  { desc with slots := Function.update desc.slots i (f (desc.slots i)) }

def getSlot (s : ℤ) : SharedProg ExchSlotInfo :=
  if 0 ≤ s ∧ s.toNat < numSocketsMax then do return (← Prog.read).desc.slots s.toNat
  else Prog.stop .outOfBounds

def setSlot (s : ℤ) (f : ExchSlotInfo → ExchSlotInfo) : SharedProg Unit :=
  if 0 ≤ s ∧ s.toNat < numSocketsMax then
    Prog.update fun σ => { σ with desc := σ.desc.modifySlot s.toNat f }
  else Prog.stop .outOfBounds

/-- `exch_zone_desc->n_zones_active++`, a 64-bit counter. -/
def incrementZonesActive : SharedProg Unit :=
  Prog.update fun σ =>
    { σ with desc := { σ.desc with nZonesActive := (σ.desc.nZonesActive + 1) % 2 ^ 64 } }

def rtePktmbufFree (m : Mbuf) : SharedProg Unit :=
  Prog.update fun σ => { σ with freed := σ.freed ++ [m.addr] }

/-! ## udpdk_socket -/

/-- `socket_validate_args`. -/
def socketValidateArgs (domain type protocol : ℤ) : Except Errno Unit :=
  if domain ≠ afInet then .error .EAFNOSUPPORT
  else if type ≠ sockDgram then .error .EPROTONOSUPPORT
  else if protocol ≠ 0 ∧ protocol ≠ ipprotoUdp then .error .EINVAL
  else .ok ()

/-- `udpdk_socket`: the lowest free slot. -/
def udpdkSocket (domain type protocol : ℤ) : SharedProg (Except Errno ℕ) := do
  match socketValidateArgs domain type protocol with
  | .error e => return .error e
  | .ok () =>
    let σ ← Prog.read
    -- Fail if reached the maximum number of open sockets
    if numSocketsMax < σ.desc.nZonesActive then
      return .error .ENOBUFS
    -- Allocate a free sock_id
    else
      match (List.range numSocketsMax).find? fun i => !(σ.desc.slots i).used with
      | none => return .error .ENOBUFS
      | some sockId =>
        setSlot sockId fun slot =>
          { slot with used := true, bound := false, sockfd := sockId, soOptions := 0 }
        incrementZonesActive
        return .ok sockId

/-! ## Socket options -/

/-- The options that the two calls accept. -/
def supportedOptions : List ℤ := [soReuseaddr.toInt, soReuseport.toInt]

/-- `getsetsockopt_validate_args`, given whether `optval` and `optlen` are null. -/
def getsetsockoptValidateArgs (sockfd level optname : ℤ) (optvalNull optlenNull : Bool) :
    SharedProg (Except Errno Unit) := do
  let slot ← getSlot sockfd
  if !slot.used then return .error .EBADF
  else if level ≠ solSocket then return .error .EINVAL
  else if optname ∉ supportedOptions then return .error .ENOPROTOOPT
  else if optvalNull ∨ optlenNull then return .error .EFAULT
  else return .ok ()

/-- `udpdk_getsockopt`: the value written through `optval`. -/
def udpdkGetsockopt (sockfd level optname : ℤ) (optvalNull optlenNull : Bool) :
    SharedProg (Except Errno (BitVec 32)) := do
  match ← getsetsockoptValidateArgs sockfd level optname optvalNull optlenNull with
  | .error e => return .error e
  | .ok () =>
    let slot ← getSlot sockfd
    if level = solSocket then
      if optname = soReuseaddr.toInt then
        return .ok (if hasOpt slot.soOptions soReuseaddr then 1 else 0)
      else if optname = soReuseport.toInt then
        return .ok (if hasOpt slot.soOptions soReuseport then 1 else 0)
      else return .error .ENOPROTOOPT
    else return .error .EINVAL

/-- The update of `so_options` for one option, guarded by its previous value. -/
def updateOption (soOptions option optval : BitVec 32) : BitVec 32 :=
  if optval ≠ 0 ∧ !hasOpt soOptions option then soOptions ||| option           -- set
  else if optval = 0 ∧ hasOpt soOptions option then soOptions &&& ~~~option    -- reset
  else soOptions

/-- `udpdk_setsockopt`, with the value that `optval` points to. -/
def udpdkSetsockopt (sockfd level optname : ℤ) (optval : Option (BitVec 32)) :
    SharedProg (Except Errno Unit) := do
  match ← getsetsockoptValidateArgs sockfd level optname optval.isNone false with
  | .error e => return .error e
  | .ok () =>
    match optval with
    | none => Prog.stop .nullDeref
    | some value =>
      if level = solSocket then
        if optname = soReuseaddr.toInt then
          setSlot sockfd fun slot =>
            { slot with soOptions := updateOption slot.soOptions soReuseaddr value }
          return .ok ()
        else if optname = soReuseport.toInt then
          setSlot sockfd fun slot =>
            { slot with soOptions := updateOption slot.soOptions soReuseport value }
          return .ok ()
        else return .error .ENOPROTOOPT
      else return .error .EINVAL

/-! ## udpdk_bind -/

/-- `bind_validate_args`. -/
def bindValidateArgs (sockfd : ℤ) (addr : Option SockaddrIn) (addrlen : ℕ) :
    SharedProg (Except Errno SockaddrIn) := do
  let slot ← getSlot sockfd
  if !slot.used then return .error .EBADF
  else if slot.bound then return .error .EINVAL
  else match addr with
    | none => Prog.stop .nullDeref
    | some addr =>
      if addr.sinFamily ≠ afInet then return .error .EINVAL
      else if addrlen ≠ sizeofSockaddrIn then return .error .EINVAL
      else return .ok addr

/-- `udpdk_bind`. -/
def udpdkBind (sockfd : ℤ) (addr : Option SockaddrIn) (addrlen : ℕ) :
    SharedProg (Except Errno Unit) := do
  match ← bindValidateArgs sockfd addr addrlen with
  | .error e => return .error e
  | .ok addrIn =>
    -- Try to bind the socket
    let port := addrIn.sinPort
    let slot ← getSlot sockfd
    let ret ← onMem (btableAddBinding sockfd addrIn.sinAddr port slot.soOptions)
    if ret < 0 then
      return .error .EADDRINUSE
    else
      -- Mark the slot as bound, and store the corresponding IP and port
      setSlot sockfd fun slot =>
        { slot with bound := true, udpPort := port, ipAddr := addrIn.sinAddr }
      return .ok ()

/-! ## udpdk_close -/

/-- `udpdk_close`. -/
def udpdkClose (s : ℤ) : SharedProg (Except Errno Unit) := do
  let slot ← getSlot s
  -- close_validate_args: the socket must be open
  if !slot.used then
    return .error .EBADF
  else
    -- Unbind
    if slot.bound then
      onMem (btableDelBinding s slot.udpPort)
    -- Reset slot
    setSlot s fun slot => { slot with bound := false, used := false, soOptions := 0 }
    -- Decrement counter of active slots
    incrementZonesActive
    return .ok ()

/-- `udpdk_interrupt`. -/
def udpdkInterrupt : SharedProg Unit := Prog.update fun σ => { σ with interrupted := true }

end Udpdk
