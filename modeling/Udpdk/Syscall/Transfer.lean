import Udpdk.Syscall.Basic

/-!
# Sending and receiving

`udpdk_sendto` and `udpdk_recvfrom`. The mbuf pool is a parameter: whether
`rte_pktmbuf_alloc` succeeds, and with which buffer.
-/

namespace Udpdk

open Foundation

/-! ## udpdk_sendto -/

/-- `sendto_validate_args`. -/
def sendtoValidateArgs (sockfd flags : ℤ) (destAddr : Option SockaddrIn) (addrlen : ℕ) :
    SharedProg (Except Errno SockaddrIn) := do
  if numSocketsMax ≤ sockfd then return .error .ENOTSOCK
  else
    let slot ← getSlot sockfd
    if !slot.used then return .error .EBADF
    else if flags ≠ 0 then return .error .EINVAL
    else
      match destAddr with
      | none => return .error .EINVAL
      | some dest => if addrlen = 0 then return .error .EINVAL else return .ok dest

/-- If the socket was not explicitly bound, it is bound when the first packet is sent: to
the wildcard address on the first free port. -/
def bindIfUnbound (sockfd : ℤ) : SharedProg (Except Errno Unit) := do
  let slot ← getSlot sockfd
  if slot.bound then
    return .ok ()
  else
    let port ← onMem btableGetFreePort
    let addr : SockaddrIn := {
      sinFamily := afInet
      sinPort := BitVec.ofInt 16 port
      sinAddr := inaddrAny }
    udpdkBind sockfd (some addr) sizeofSockaddrIn

/-- The IPv4 header of a datagram of `len` bytes, with the given checksum. -/
def ipv4Header (len : ℕ) (src dst : InAddr) (cksum : BitVec 16) : List Byte :=
  -- version_ihl, type_of_service
  [0x45, 0] ++
  bytes16 (beToCpu16 (BitVec.ofNat 16 (len + sizeofIpv4Hdr + sizeofUdpHdr))) ++
  -- packet_id, fragment_offset
  [0, 0, 0, 0] ++
  -- time_to_live, next_proto_id
  [64, 17] ++ bytes16 cksum ++ bytes32 src ++ bytes32 dst

/-- The frame that `udpdk_sendto` writes: headers, then payload. -/
def buildFrame (dpdk : Dpdk) (config : Configuration) (slot : ExchSlotInfo)
    (dest : SockaddrIn) (payload : List Byte) : List Byte :=
  let len := payload.length
  let src := if slot.bound ∧ slot.ipAddr ≠ inaddrAny then slot.ipAddr else config.srcIpAddr
  let cksum := dpdk.ipv4Cksum (ipv4Header len src dest.sinAddr 0)
  List.ofFn config.dstMacAddr ++ List.ofFn config.srcMacAddr ++ [0x08, 0x00] ++
    ipv4Header len src dest.sinAddr cksum ++
    bytes16 slot.udpPort ++ bytes16 dest.sinPort ++
    bytes16 (beToCpu16 (BitVec.ofNat 16 (len + sizeofUdpHdr))) ++ bytes16 0 ++
    payload

/-- `RTE_PTYPE_L2_ETHER | RTE_PTYPE_L3_IPV4 | RTE_PTYPE_L4_UDP`. -/
def ptypeEtherIpv4Udp : BitVec 32 := 0x211

/-- The buffer at `addr` once the frame and its metadata were written. -/
def fillMbuf (addr : ℕ) (frame : List Byte) : Mbuf where
  addr := addr
  packetType := ptypeEtherIpv4Udp
  pktLen := BitVec.ofNat 32 frame.length
  head := {
    data := fun i => frame.getD i 0
    dataLen := (BitVec.ofNat 32 frame.length).setWidth 16 }
  chain := []

/-- Put a packet in the tx_ring of slot `s`; `false` when the ring is full. -/
def enqueueTx (s : ℕ) (m : Mbuf) : SharedProg Bool := do
  match ((← Prog.read).txQ s).enqueue m with
  | none => return false
  | some q =>
    Prog.update fun σ => { σ with txQ := Function.update σ.txQ s q }
    return true

/-- `udpdk_sendto`: the number of bytes sent, along with the packet that was submitted. `pkt`
is what `rte_pktmbuf_alloc` returns. A payload that does not fit into the buffer is copied
over its end all the same. -/
def udpdkSendto (dpdk : Dpdk) (config : Configuration) (pkt : Option ℕ) (sockfd : ℤ)
    (buf : List Byte) (flags : ℤ) (destAddr : Option SockaddrIn) (addrlen : ℕ) :
    SharedProg (Except Errno (Mbuf × ℕ)) := do
  match ← sendtoValidateArgs sockfd flags destAddr addrlen with
  | .error e => return .error e
  | .ok dest =>
    match ← bindIfUnbound sockfd with
    | .error e => return .error e
    | .ok () =>
      -- Allocate one mbuf for the packet
      match pkt with
      | none => return .error .ENOMEM
      | some addr =>
        let slot ← getSlot sockfd
        if mbufDataRoom < sizeofHeaders + buf.length then
          Prog.stop .outOfBounds
        else
          let m := fillMbuf addr (buildFrame dpdk config slot dest buf)
          -- Put the packet in the tx_ring
          if ← enqueueTx sockfd.toNat m then
            return .ok (m, buf.length)
          else
            rtePktmbufFree m
            return .error .ENOBUFS

/-! ## udpdk_recvfrom -/

/-- `recvfrom_validate_args`, given whether `buf` and `addrlen` are null. -/
def recvfromValidateArgs (sockfd flags : ℤ) (bufNull addrlenNull : Bool) :
    SharedProg (Except Errno Unit) := do
  if numSocketsMax ≤ sockfd then return .error .ENOTSOCK
  else
    let slot ← getSlot sockfd
    if !slot.used then return .error .EBADF
    else if flags ≠ 0 then return .error .EINVAL
    else if bufNull ∧ !addrlenNull then return .error .EINVAL
    else return .ok ()

/-- The copy loop of `udpdk_recvfrom` over the segments from number `s` on: the bytes
written so far and the number still wanted. The lengths are 32-bit unsigned. -/
def copySegments (dgramPaylLen : BitVec 16) (s : ℕ) :
    List Segment → List Byte → BitVec 32 → List Byte × BitVec 32
  | [], out, bytesLeft => (out, bytesLeft)
  | seg :: rest, out, bytesLeft =>
    -- The first segment includes eth + ipv4 + udp headers before the payload
    let offsetPayload := if s = 0 then sizeofHeaders else 0
    let segLen := seg.dataLen.setWidth 32 - BitVec.ofNat 32 offsetPayload
    -- for very small packets, Ethernet payload is padded to 46 bytes
    let segLen :=
      if s = 0 ∧ dgramPaylLen.setWidth 32 < segLen then dgramPaylLen.setWidth 32 else segLen
    let effLen := if segLen < bytesLeft then segLen else bytesLeft
    let out := out ++ (List.range effLen.toNat).map fun i => seg.data (offsetPayload + i)
    let bytesLeft := bytesLeft - effLen
    if bytesLeft = 0 then (out, bytesLeft)
    else copySegments dgramPaylLen (s + 1) rest out bytesLeft

/-- What `udpdk_recvfrom` returns and writes: the count, the bytes put into `buf`, and the
source address with the number of its bytes that went into `src_addr`. -/
structure Received where
  count : ℕ
  bytes : List Byte
  src : Option (SockaddrIn × ℕ)

/-- What `udpdk_recvfrom` reads out of a dequeued packet. `addrlen` is the room for the
source address, if one is wanted. -/
def readDatagram (pkt : Mbuf) (len : ℕ) (addrlen : Option ℕ) : Received :=
  let dgramPaylLen := beToCpu16 pkt.dgramLen - BitVec.ofNat 16 sizeofUdpHdr
  let addrIn : SockaddrIn := {
    sinFamily := afInet
    sinPort := pkt.srcPort
    sinAddr := pkt.srcAddr }
  let (bytes, bytesLeft) := copySegments dgramPaylLen 0 pkt.segments [] (BitVec.ofNat 32 len)
  { count := (len + 2 ^ 64 - bytesLeft.toNat) % 2 ^ 64
    bytes := bytes
    src := addrlen.map fun room => (addrIn, min sizeofSockaddrIn room) }

/-- `udpdk_recvfrom` into a buffer of `len` bytes: the packet that was taken, and what is
read out of it. `srcAddr` says whether a source address is wanted. While the ring is empty
and no interrupt has come, the call does not return. -/
def udpdkRecvfrom (sockfd : ℤ) (bufNull : Bool) (len : ℕ) (flags : ℤ) (srcAddr : Bool)
    (addrlen : Option ℕ) : SharedProg (Except Errno (Mbuf × Received)) := do
  match ← recvfromValidateArgs sockfd flags bufNull addrlen.isNone with
  | .error e => return .error e
  | .ok () =>
    let σ ← Prog.read
    if σ.interrupted then
      return .error .EINTR
    else
      -- Dequeue one packet (busy wait until one is available)
      match (σ.rxQ sockfd.toNat).dequeue with
      | none => Prog.stop .noReturn
      | some (pkt, q) =>
        Prog.update fun σ => { σ with rxQ := Function.update σ.rxQ sockfd.toNat q }
        match pkt with
        | none => Prog.stop .nullDeref
        | some pkt =>
          if srcAddr ∧ addrlen.isNone then Prog.stop .nullDeref
          else
            let received := readDatagram pkt len (if srcAddr then addrlen else none)
            if bufNull ∧ received.bytes ≠ [] then Prog.stop .nullDeref
            else
              rtePktmbufFree pkt
              return .ok (pkt, received)

end Udpdk
