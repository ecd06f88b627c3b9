import Udpdk.Types

/-!
# Message buffers

A received or submitted frame is a chain of segments. The bytes of a segment are the
memory from its data pointer on; `data_len` says how many of them belong to the frame. A
buffer is identified by its address, which is what the rings and tables hold.

The parts of DPDK that look into a frame are parameters.
-/

namespace Udpdk

abbrev Byte := BitVec 8

/-- A segment of a chain of mbufs. -/
structure Segment where
  data : ℕ → Byte
  dataLen : BitVec 16

/-- `struct rte_mbuf`: the head segment and those chained to it. -/
structure Mbuf where
  addr : ℕ
  packetType : BitVec 32
  pktLen : BitVec 32
  head : Segment
  chain : List Segment

namespace Mbuf

variable (m : Mbuf)

/-- The segments of the chain; there are `nb_segs` of them. -/
def segments : List Segment := m.head :: m.chain

/-- A byte at an offset from `rte_pktmbuf_mtod`. -/
def load8 (off : ℕ) : Byte := m.head.data off

/-- A 16-bit field as the processor reads it from memory. -/
def load16 (off : ℕ) : BitVec 16 := m.load8 (off + 1) ++ m.load8 off

/-- A 32-bit field as the processor reads it from memory. -/
def load32 (off : ℕ) : BitVec 32 := m.load16 (off + 2) ++ m.load16 off

end Mbuf

/-- `rte_be_to_cpu_16`, which is its own inverse. -/
def beToCpu16 (x : BitVec 16) : BitVec 16 := x.extractLsb' 0 8 ++ x.extractLsb' 8 8

/-- The bytes of a 16-bit field as the processor writes it to memory. -/
def bytes16 (x : BitVec 16) : List Byte := [x.extractLsb' 0 8, x.extractLsb' 8 8]

/-- The bytes of a 32-bit field as the processor writes it to memory. -/
def bytes32 (x : BitVec 32) : List Byte :=
  bytes16 (x.extractLsb' 0 16) ++ bytes16 (x.extractLsb' 16 16)

/-! ## Layout of a frame -/

def sizeofEtherHdr : ℕ := 14

def sizeofIpv4Hdr : ℕ := 20

def sizeofUdpHdr : ℕ := 8

/-- The three headers before the payload. -/
def sizeofHeaders : ℕ := sizeofEtherHdr + sizeofIpv4Hdr + sizeofUdpHdr

/-- `RTE_MBUF_DEFAULT_BUF_SIZE` less the headroom. -/
def mbufDataRoom : ℕ := 2048

namespace Mbuf

variable (m : Mbuf)

/-- `ip_hdr->fragment_offset`. -/
def fragmentOffset : BitVec 16 := m.load16 (sizeofEtherHdr + 6)

/-- `ip_hdr->next_proto_id`. -/
def nextProtoId : Byte := m.load8 (sizeofEtherHdr + 9)

/-- `ip_hdr->src_addr`. -/
def srcAddr : InAddr := m.load32 (sizeofEtherHdr + 12)

/-- `ip_hdr->dst_addr`. -/
def dstAddr : InAddr := m.load32 (sizeofEtherHdr + 16)

/-- `udp_hdr->src_port`, with `udp_hdr` at `ip_hdr + 1`. -/
def srcPort : Port := m.load16 (sizeofEtherHdr + sizeofIpv4Hdr)

/-- `udp_hdr->dst_port`. -/
def dstPort : Port := m.load16 (sizeofEtherHdr + sizeofIpv4Hdr + 2)

/-- `udp_hdr->dgram_len`. -/
def dgramLen : BitVec 16 := m.load16 (sizeofEtherHdr + sizeofIpv4Hdr + 4)

end Mbuf

/-! ## The DPDK functions that look into a frame -/

/-- `RTE_ETH_IS_IPV4_HDR`, `rte_ipv4_frag_pkt_is_fragmented` and `rte_ipv4_cksum`, as
functions of what they read. -/
structure Dpdk where
  ethIsIpv4Hdr : BitVec 32 → Bool
  ipv4FragPktIsFragmented : BitVec 16 → Bool
  ipv4Cksum : List Byte → BitVec 16

/-- The sum of the 16-bit words of a header. -/
def sumWords : List Byte → ℕ
  | lo :: hi :: rest => lo.toNat + 256 * hi.toNat + sumWords rest
  | [last] => last.toNat
  | [] => 0

/-- The three functions as DPDK documents them: a flag of the packet type, the fragment
flag or a fragment offset, and the one's complement sum of the header. -/
def Dpdk.reference : Dpdk where
  ethIsIpv4Hdr packetType := packetType &&& 0x10 ≠ 0
  ipv4FragPktIsFragmented fragmentOffset := beToCpu16 fragmentOffset &&& 0x3fff ≠ 0
  ipv4Cksum hdr :=
    let sum := sumWords hdr
    let sum := sum % 65536 + sum / 65536
    let sum := BitVec.ofNat 16 (sum % 65536 + sum / 65536)
    if sum = 0xffff then sum else ~~~sum

end Udpdk
