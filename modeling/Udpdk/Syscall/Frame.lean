import Udpdk.Syscall.Transfer

/-!
# Frames

What the fields of a frame read as once `udpdk_sendto` has built it. The writer fills in
raw bytes and the reader picks fields out of them at fixed offsets; here the two meet.

## Main definitions

* `Mbuf.bytes` — the bytes of a frame, over all segments
* `frameHeaders` — the headers in front of the payload
* `sourceAddr` — the source address of a socket

## Main results

* `buildFrame_eq` — a frame is its headers followed by the payload
* `dstAddr_fillMbuf`, `dstPort_fillMbuf` and the like — the fields of a built frame
-/

namespace Udpdk

/-- The bytes of a segment that belong to the frame. -/
def Segment.bytes (seg : Segment) : List Byte := (List.range seg.dataLen.toNat).map seg.data

def Mbuf.bytes (m : Mbuf) : List Byte := m.segments.flatMap Segment.bytes

/-- `ip_hdr->total_length`. -/
def Mbuf.totalLength (m : Mbuf) : BitVec 16 := m.load16 (sizeofEtherHdr + 2)

/-- `ip_hdr->packet_id`. -/
def Mbuf.packetId (m : Mbuf) : BitVec 16 := m.load16 (sizeofEtherHdr + 4)

@[simp] theorem Segment.length_bytes (seg : Segment) : seg.bytes.length = seg.dataLen.toNat := by
  simp [Segment.bytes]

theorem Mbuf.bytes_eq (m : Mbuf) : m.bytes = m.head.bytes ++ m.chain.flatMap Segment.bytes := rfl

/-! ## Byte order -/

theorem append_bytes16 (x : BitVec 16) : x.extractLsb' 8 8 ++ x.extractLsb' 0 8 = x :=
  (BitVec.extractLsb'_append_extractLsb'_eq_extractLsb' rfl).trans (BitVec.extractLsb'_eq_self)

theorem append_halves (x : BitVec 32) : x.extractLsb' 16 16 ++ x.extractLsb' 0 16 = x :=
  (BitVec.extractLsb'_append_extractLsb'_eq_extractLsb' rfl).trans (BitVec.extractLsb'_eq_self)

@[simp] theorem beToCpu16_beToCpu16 (x : BitVec 16) : beToCpu16 (beToCpu16 x) = x := by
  unfold beToCpu16
  ext i hi
  simp only [BitVec.getElem_append, BitVec.getElem_extractLsb', BitVec.getLsbD_append,
    BitVec.getLsbD_extractLsb']
  grind

/-! ## The fields of a built frame -/

/-- The source address that `udpdk_sendto` puts into the header. -/
def sourceAddr (config : Configuration) (slot : ExchSlotInfo) : InAddr :=
  if slot.bound ∧ slot.ipAddr ≠ inaddrAny then slot.ipAddr else config.srcIpAddr

/-- The headers of a frame with a payload of `len` bytes. -/
def frameHeaders (dpdk : Dpdk) (config : Configuration) (slot : ExchSlotInfo)
    (dest : SockaddrIn) (len : ℕ) : List Byte :=
  let src := sourceAddr config slot
  let cksum := dpdk.ipv4Cksum (ipv4Header len src dest.sinAddr 0)
  List.ofFn config.dstMacAddr ++ List.ofFn config.srcMacAddr ++ [0x08, 0x00] ++
    ipv4Header len src dest.sinAddr cksum ++
    bytes16 slot.udpPort ++ bytes16 dest.sinPort ++
    bytes16 (beToCpu16 (BitVec.ofNat 16 (len + sizeofUdpHdr))) ++ bytes16 0

section Fields

variable {dpdk : Dpdk} {config : Configuration} {slot : ExchSlotInfo} {dest : SockaddrIn}
  {payload frame : List Byte} {addr len : ℕ}

theorem buildFrame_eq : buildFrame dpdk config slot dest payload =
    frameHeaders dpdk config slot dest payload.length ++ payload := rfl

theorem length_frameHeaders : (frameHeaders dpdk config slot dest len).length = sizeofHeaders := by
  simp [frameHeaders, ipv4Header, bytes32, bytes16, sizeofHeaders, sizeofEtherHdr, sizeofIpv4Hdr,
    sizeofUdpHdr]

theorem length_buildFrame :
    (buildFrame dpdk config slot dest payload).length = sizeofHeaders + payload.length := by
  rw [buildFrame_eq, List.length_append, length_frameHeaders]

theorem load8_skip {n off : ℕ} {front rest : List Byte} (hn : front.length = n) :
    (fillMbuf addr (front ++ rest)).load8 (n + off) = (fillMbuf addr rest).load8 off := by
  change (front ++ rest).getD (n + off) 0 = rest.getD off 0
  rw [← hn, List.getD_eq_getElem?_getD, List.getElem?_append_right (Nat.le_add_right _ _),
    Nat.add_sub_cancel_left, List.getD_eq_getElem?_getD]

theorem load16_skip {n off : ℕ} {front rest : List Byte} (hn : front.length = n) :
    (fillMbuf addr (front ++ rest)).load16 (n + off) = (fillMbuf addr rest).load16 off := by
  rw [Mbuf.load16, Mbuf.load16, Nat.add_assoc, load8_skip hn, load8_skip hn]

/-- The UDP header with its payload. -/
def udpDatagram (slot : ExchSlotInfo) (dest : SockaddrIn) (payload : List Byte) : List Byte :=
  bytes16 slot.udpPort ++ bytes16 dest.sinPort ++
    bytes16 (beToCpu16 (BitVec.ofNat 16 (payload.length + sizeofUdpHdr))) ++ bytes16 0 ++ payload

/-- The IPv4 header with what follows it. -/
def ipv4Packet (dpdk : Dpdk) (config : Configuration) (slot : ExchSlotInfo) (dest : SockaddrIn)
    (payload : List Byte) : List Byte :=
  let src := sourceAddr config slot
  let cksum := dpdk.ipv4Cksum (ipv4Header payload.length src dest.sinAddr 0)
  ipv4Header payload.length src dest.sinAddr cksum ++ udpDatagram slot dest payload

theorem buildFrame_eq_packet : buildFrame dpdk config slot dest payload =
    (List.ofFn config.dstMacAddr ++ List.ofFn config.srcMacAddr ++ [0x08, 0x00]) ++
      ipv4Packet dpdk config slot dest payload := by
  simp only [buildFrame, ipv4Packet, udpDatagram, sourceAddr, List.append_assoc]

theorem load16_behindEther (off : ℕ) :
    (fillMbuf addr (buildFrame dpdk config slot dest payload)).load16 (sizeofEtherHdr + off) =
      (fillMbuf addr (ipv4Packet dpdk config slot dest payload)).load16 off := by
  rw [buildFrame_eq_packet]
  exact load16_skip (by simp [sizeofEtherHdr])

theorem load16_behindIpv4 (off : ℕ) :
    (fillMbuf addr (buildFrame dpdk config slot dest payload)).load16
        (sizeofEtherHdr + sizeofIpv4Hdr + off) =
      (fillMbuf addr (udpDatagram slot dest payload)).load16 off := by
  rw [Nat.add_assoc, load16_behindEther, ipv4Packet]
  exact load16_skip rfl

theorem dstPort_fillMbuf :
    (fillMbuf addr (buildFrame dpdk config slot dest payload)).dstPort = dest.sinPort :=
  (load16_behindIpv4 2).trans (append_bytes16 _)

theorem srcPort_fillMbuf :
    (fillMbuf addr (buildFrame dpdk config slot dest payload)).srcPort = slot.udpPort :=
  (load16_behindIpv4 0).trans (append_bytes16 _)

theorem load32_of_bytes {m : Mbuf} {off : ℕ} {x : BitVec 32}
    (hlow : m.load16 off = x.extractLsb' 0 16) (hhigh : m.load16 (off + 2) = x.extractLsb' 16 16) :
    m.load32 off = x := by
  rw [Mbuf.load32, hlow, hhigh, append_halves]

theorem dstAddr_fillMbuf :
    (fillMbuf addr (buildFrame dpdk config slot dest payload)).dstAddr = dest.sinAddr :=
  load32_of_bytes ((load16_behindEther 16).trans (append_bytes16 _))
    ((load16_behindEther 18).trans (append_bytes16 _))

theorem srcAddr_fillMbuf :
    (fillMbuf addr (buildFrame dpdk config slot dest payload)).srcAddr = sourceAddr config slot :=
  load32_of_bytes ((load16_behindEther 12).trans (append_bytes16 _))
    ((load16_behindEther 14).trans (append_bytes16 _))

theorem fragmentOffset_fillMbuf :
    (fillMbuf addr (buildFrame dpdk config slot dest payload)).fragmentOffset = 0 :=
  (load16_behindEther 6).trans (append_bytes16 0)

theorem packetId_fillMbuf :
    (fillMbuf addr (buildFrame dpdk config slot dest payload)).packetId = 0 :=
  (load16_behindEther 4).trans (append_bytes16 0)

theorem totalLength_fillMbuf :
    (fillMbuf addr (buildFrame dpdk config slot dest payload)).totalLength =
      beToCpu16 (BitVec.ofNat 16 (payload.length + sizeofIpv4Hdr + sizeofUdpHdr)) :=
  (load16_behindEther 2).trans (append_bytes16 _)

theorem dgramLen_fillMbuf :
    (fillMbuf addr (buildFrame dpdk config slot dest payload)).dgramLen =
      beToCpu16 (BitVec.ofNat 16 (payload.length + sizeofUdpHdr)) :=
  (load16_behindIpv4 4).trans (append_bytes16 _)

theorem bytes_fillMbuf (h : frame.length < 2 ^ 16) : (fillMbuf addr frame).bytes = frame := by
  have hlen : ((BitVec.ofNat 32 frame.length).setWidth 16).toNat = frame.length := by
    rw [BitVec.toNat_setWidth, BitVec.toNat_ofNat]
    omega
  have hbytes : (fillMbuf addr frame).bytes =
      ((List.range ((BitVec.ofNat 32 frame.length).setWidth 16).toNat).map
        fun i => frame.getD i 0) ++ [] := rfl
  rw [hbytes, hlen, List.append_nil]
  apply List.ext_getElem
  · simp
  · intro i _ hi
    simp [List.getElem?_eq_getElem hi]

end Fields

end Udpdk
