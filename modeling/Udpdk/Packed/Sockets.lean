import Udpdk.Packed.BindTable
import Udpdk.Syscall.Basic

/-!
# Sockets over the packed bind table

`udpdk_bind` and `udpdk_close`, whose bindings are the bytes of `Udpdk.Packed.BindTable`.
-/

namespace Udpdk

open Foundation

/-- The state that application and poller share, with `table` for its bind table. The one inside
`shared` is not used. -/
structure PackedShared where
  shared : Shared
  table : PackedMem

abbrev PackedSharedProg := Prog Fault PackedShared

/-- The shared state after `udpdk_init`. -/
def packedSharedInit (zones : AllocatorZones) (memory : ByteMemory) : PackedShared where
  shared := sharedInit zones
  table := packedInit zones memory

namespace Packed

/-- Run an operation that does not use the bind table. -/
def onShared {α : Type} (x : SharedProg α) : PackedSharedProg α :=
  Prog.zoom PackedShared.shared (fun σ P => { P with shared := σ }) x

/-- Run an operation of the bind table. -/
def onTable {α : Type} (x : PackedProg α) : PackedSharedProg α :=
  Prog.zoom PackedShared.table (fun m P => { P with table := m }) x

/-- `udpdk_bind`. -/
def udpdkBind (sockfd : ℤ) (addr : Option SockaddrIn) (addrlen : ℕ) :
    PackedSharedProg (Except Errno Unit) := do
  match ← onShared (bindValidateArgs sockfd addr addrlen) with
  | .error e => return .error e
  | .ok addrIn =>
    -- Try to bind the socket
    let port := addrIn.sinPort
    let slot ← onShared (getSlot sockfd)
    let ret ← onTable (btableAddBinding sockfd addrIn.sinAddr port slot.soOptions)
    if ret < 0 then
      return .error .EADDRINUSE
    else
      -- Mark the slot as bound, and store the corresponding IP and port
      onShared (setSlot sockfd fun slot =>
        { slot with bound := true, udpPort := port, ipAddr := addrIn.sinAddr })
      return .ok ()

/-- `udpdk_close`. -/
def udpdkClose (s : ℤ) : PackedSharedProg (Except Errno Unit) := do
  let slot ← onShared (getSlot s)
  if !slot.used then
    return .error .EBADF
  else
    -- Unbind
    if slot.bound then
      onTable (btableDelBinding s slot.udpPort)
    -- Reset slot
    onShared (setSlot s fun slot => { slot with bound := false, used := false, soOptions := 0 })
    -- Decrement counter of active slots
    onShared incrementZonesActive
    return .ok ()

/-- A call of the application with what it returned. -/
inductive SocketCall
  | socket (domain type protocol : ℤ) (ret : Except Errno ℕ)
  | bind (sockfd : ℤ) (addr : Option SockaddrIn) (addrlen : ℕ) (ret : Except Errno Unit)
  | close (s : ℤ) (ret : Except Errno Unit)

/-- The state after the call, where it returns what is logged. -/
def SocketCall.next : SocketCall → PackedShared → Option PackedShared
  | .socket domain type protocol ret => (onShared (udpdkSocket domain type protocol)).outcome ret
  | .bind sockfd addr addrlen ret => (udpdkBind sockfd addr addrlen).outcome ret
  | .close s ret => (udpdkClose s).outcome ret

def SocketCall.step (call : SocketCall) (P P' : PackedShared) : Prop := call.next P = some P'

end Packed

end Udpdk
