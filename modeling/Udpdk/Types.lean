import Mathlib.Data.BitVec

/-!
# Constants and data types

The constants of `udpdk_constants.h`, the socket constants of the platform headers, and
the structures of `udpdk_types.h` that the application and the poller share.

Addresses and ports keep the raw value they have in memory, in network byte order: that
raw port is also the index into the bind table, and addresses are only ever compared.
-/

namespace Udpdk

/-! ## Constants -/

def numSocketsMax : ℕ := 1024

def udpMaxPort : ℕ := 65536

def burstSize : ℕ := 128

def rxMbufTableSize : ℕ := burstSize

/-- `RTE_LIBRTE_IP_FRAG_MAX_FRAG` of the default DPDK configuration. -/
def maxPacketFrag : ℕ := 4

def txMbufTableSize : ℕ := 2 * max burstSize maxPacketFrag

def exchRingSize : ℕ := 2048

def exchBufSize : ℕ := burstSize

/-- `RTE_ETHER_MTU`. -/
def ipv4MtuDefault : ℕ := 1500

/-- Elements of the pool of list iterators. -/
def listIteratorPoolSize : ℕ := 10

/-! The values of `<sys/socket.h>` and `<netinet/in.h>` on Linux. -/

def afInet : ℤ := 2

def sockDgram : ℤ := 2

def ipprotoUdp : ℤ := 17

def solSocket : ℤ := 1

def soReuseaddr : BitVec 32 := 2

def soReuseport : BitVec 32 := 15

def sizeofSockaddrIn : ℕ := 16

/-! ## Addresses -/

/-- A raw `s_addr`. -/
abbrev InAddr := BitVec 32

/-- A raw `sin_port`. -/
abbrev Port := BitVec 16

def inaddrAny : InAddr := 0

/-- A `struct sockaddr_in`. -/
structure SockaddrIn where
  sinFamily : ℤ
  sinPort : Port
  sinAddr : InAddr
  deriving DecidableEq, Repr

/-! ## Errors -/

/-- The values the system calls leave in `errno`. -/
inductive Errno
  | EAFNOSUPPORT | EPROTONOSUPPORT | EINVAL | ENOBUFS | EBADF | ENOPROTOOPT | EFAULT
  | EADDRINUSE | ENOTSOCK | ENOMEM | EINTR
  deriving DecidableEq, Repr

/-- The ways a call leaves the program with no defined state to go on from. -/
inductive Fault
  /-- a null pointer is dereferenced -/
  | nullDeref
  /-- an array is accessed outside its bounds -/
  | outOfBounds
  /-- the call does not come back -/
  | noReturn
  deriving DecidableEq, Repr

/-! ## Shared structures -/

/-- Descriptor for a binding of a socket to (IP, port). -/
structure BindInfo where
  sockfd : ℤ
  ipAddr : InAddr
  reuseAddr : Bool
  reusePort : Bool
  closed : Bool
  deriving DecidableEq, Repr

/-- Descriptor of a socket (current state and options). -/
structure ExchSlotInfo where
  used : Bool
  bound : Bool
  sockfd : ℤ
  udpPort : Port
  ipAddr : InAddr
  soOptions : BitVec 32
  deriving DecidableEq, Repr

/-- Descriptor of the zone in shared memory where packets are exchanged between app and
poller. -/
@[ext]
structure ExchZoneInfo where
  nZonesActive : ℕ
  slots : ℕ → ExchSlotInfo

/-- The contents of zeroed shared memory. -/
def ExchSlotInfo.zero : ExchSlotInfo where
  used := false
  bound := false
  sockfd := 0
  udpPort := 0
  ipAddr := 0
  soOptions := 0

/-- `init_exch_memzone`: the descriptor is cleared with `memset`. -/
def initExchMemzone : ExchZoneInfo where
  nZonesActive := 0
  slots _ := ExchSlotInfo.zero

end Udpdk
