import Udpdk.Syscall.Frame
import Udpdk.Syscall.View

/-!
# What a receive copies

The copy loop of `udpdk_recvfrom` over the segments of a packet. The first segment is cut to
the length in the UDP header, the others are taken whole; the count of bytes still wanted is
32 bits wide while the request is 64 bits wide.

## Main definitions

* `Mbuf.payloadLen` — the length of the payload after the UDP header
* `Mbuf.available` — the bytes that the loop would copy into a large buffer
* `Mbuf.CarriesDatagram`, `Mbuf.PaddedInHead` — conditions on a packet
* `Received.IsPayload` — what was received is the payload

## Main results

* `readDatagram_eq` — what the loop copies and returns
* `recvfrom_payload_iff` — when that is the payload
-/

namespace Udpdk

open Foundation

/-- `dgram_payl_len`, 16 bits wide. -/
def Mbuf.payloadLen (m : Mbuf) : BitVec 16 :=
  beToCpu16 m.dgramLen - BitVec.ofNat 16 sizeofUdpHdr

/-- The offset at which the payload starts in segment `s`. -/
def payloadOffset (s : ℕ) : ℕ := if s = 0 then sizeofHeaders else 0

/-- The bytes taken from segment `s` in a round of the loop. -/
def effLen (dgramPaylLen : BitVec 16) (s : ℕ) (seg : Segment) (bytesLeft : BitVec 32) :
    BitVec 32 :=
  let segLen := seg.dataLen.setWidth 32 - BitVec.ofNat 32 (payloadOffset s)
  let segLen :=
    if s = 0 ∧ dgramPaylLen.setWidth 32 < segLen then dgramPaylLen.setWidth 32 else segLen
  if segLen < bytesLeft then segLen else bytesLeft

/-- The bytes of a segment from an offset on. -/
def Segment.slice (seg : Segment) (off len : ℕ) : List Byte :=
  (List.range len).map fun i => seg.data (off + i)

section Loop

variable {P : BitVec 16} {s : ℕ} {seg : Segment} {segs rest : List Segment} {out : List Byte}
  {bytesLeft : BitVec 32} {off n : ℕ}

theorem copySegments_cons : copySegments P s (seg :: rest) out bytesLeft =
    let eff := effLen P s seg bytesLeft
    let out := out ++ seg.slice (payloadOffset s) eff.toNat
    if bytesLeft - eff = 0 then (out, bytesLeft - eff)
    else copySegments P (s + 1) rest out (bytesLeft - eff) := rfl

theorem slice_eq (h : off + n ≤ seg.dataLen.toNat) :
    seg.slice off n = (seg.bytes.drop off).take n := by
  apply List.ext_getElem
  · simp [Segment.slice]
    omega
  · intro i hi hi'
    simp [Segment.slice, Segment.bytes]

theorem toNat_effLen (hs : s ≠ 0) :
    (effLen P s seg bytesLeft).toNat = min seg.dataLen.toNat bytesLeft.toNat := by
  have hlen : (seg.dataLen.setWidth 32 - BitVec.ofNat 32 0).toNat = seg.dataLen.toNat := by
    have := seg.dataLen.isLt
    rw [BitVec.toNat_sub, BitVec.toNat_setWidth, BitVec.toNat_ofNat]
    omega
  simp only [effLen, payloadOffset, hs, if_false, false_and, BitVec.lt_def, hlen]
  split
  · rw [hlen]
    omega
  · omega

/-- The first segment has headers before its payload, and may have padding behind it. -/
theorem toNat_effLen_zero (h : sizeofHeaders ≤ seg.dataLen.toNat) :
    (effLen P 0 seg bytesLeft).toNat =
      min (min (seg.dataLen.toNat - sizeofHeaders) P.toNat) bytesLeft.toNat := by
  have hheaders : sizeofHeaders = 42 := rfl
  have hdata := seg.dataLen.isLt
  have hP := P.isLt
  have hlen : (seg.dataLen.setWidth 32 - BitVec.ofNat 32 sizeofHeaders).toNat =
      seg.dataLen.toNat - sizeofHeaders := by
    rw [BitVec.toNat_sub, BitVec.toNat_setWidth, BitVec.toNat_ofNat]
    omega
  have hcap : (P.setWidth 32).toNat = P.toNat := by
    rw [BitVec.toNat_setWidth]
    omega
  simp only [effLen, payloadOffset, if_true, true_and, BitVec.lt_def, hlen, hcap]
  split_ifs with h1 h2 h2 <;> omega

theorem toNat_sub_effLen (h : (effLen P s seg bytesLeft).toNat ≤ bytesLeft.toNat) :
    (bytesLeft - effLen P s seg bytesLeft).toNat =
      bytesLeft.toNat - (effLen P s seg bytesLeft).toNat :=
  BitVec.toNat_sub_of_le h

private theorem take_front {front back : List Byte} {taken : ℕ}
    (h : taken = min front.length n) :
    (front ++ back).take n = front.take taken ++ back.take (n - taken) := by
  rw [List.take_append, h]
  by_cases hle : n ≤ front.length
  · rw [min_eq_right hle, Nat.sub_self, Nat.sub_eq_zero_of_le hle]
  · have hlt : front.length ≤ n := by omega
    rw [min_eq_left hlt, List.take_of_length_le hlt, List.take_length]

/-- **The loop over later segments** copies their bytes up to what is wanted. -/
theorem copySegments_chain (hs : s ≠ 0) :
    (copySegments P s segs out bytesLeft).1 =
        out ++ (segs.flatMap Segment.bytes).take bytesLeft.toNat ∧
      (copySegments P s segs out bytesLeft).2.toNat =
        bytesLeft.toNat - (segs.flatMap Segment.bytes).length := by
  -- the loop variables change from round to round: index, bytes that are out, bytes still wanted
  induction segs generalizing s out bytesLeft with
  | nil => simp [copySegments]
  | cons seg rest ih =>
    have heff : (effLen P s seg bytesLeft).toNat = min seg.dataLen.toNat bytesLeft.toNat :=
      toNat_effLen hs
    have hleft : (bytesLeft - effLen P s seg bytesLeft).toNat =
        bytesLeft.toNat - (effLen P s seg bytesLeft).toNat :=
      toNat_sub_effLen (by omega)
    have hoff : payloadOffset s = 0 := if_neg hs
    have hslice : seg.slice 0 (effLen P s seg bytesLeft).toNat =
        seg.bytes.take (effLen P s seg bytesLeft).toNat :=
      slice_eq (by omega)
    have hbytes : seg.bytes.length = seg.dataLen.toNat := seg.length_bytes
    have hsplit : (seg.bytes ++ rest.flatMap Segment.bytes).take bytesLeft.toNat =
        seg.bytes.take (effLen P s seg bytesLeft).toNat ++
          (rest.flatMap Segment.bytes).take
            (bytesLeft.toNat - (effLen P s seg bytesLeft).toNat) :=
      take_front (by rw [hbytes, heff])
    rw [copySegments_cons, List.flatMap_cons, List.length_append]
    dsimp only
    rw [hoff, hslice, hsplit]
    by_cases hdone : bytesLeft - effLen P s seg bytesLeft = 0
    · have hzero : bytesLeft.toNat - (effLen P s seg bytesLeft).toNat = 0 :=
        hleft.symm.trans (congrArg BitVec.toNat hdone)
      rw [if_pos hdone, hzero, List.take_zero, List.append_nil, hleft]
      exact ⟨rfl, by omega⟩
    · obtain ⟨hout, hrest⟩ := @ih (s + 1)
        (out ++ seg.bytes.take (effLen P s seg bytesLeft).toNat)
        (bytesLeft - effLen P s seg bytesLeft) (Nat.succ_ne_zero s)
      rw [if_neg hdone, hout, hrest, hleft, List.append_assoc]
      exact ⟨rfl, by omega⟩

end Loop

/-! ## The copy as a whole -/

/-- The bytes that the loop copies into a buffer that is large enough. -/
def Mbuf.available (m : Mbuf) : List Byte :=
  (m.head.bytes.drop sizeofHeaders).take m.payloadLen.toNat ++ m.chain.flatMap Segment.bytes

/-- The bytes behind the headers: the payload and what padding there is. -/
def Mbuf.body (m : Mbuf) : List Byte := m.bytes.drop sizeofHeaders

section Copy

variable {m : Mbuf} {len : ℕ} {addrlen : Option ℕ}

theorem readDatagram_bytes : (readDatagram m len addrlen).bytes =
    (copySegments m.payloadLen 0 m.segments [] (BitVec.ofNat 32 len)).1 := rfl

theorem readDatagram_count : (readDatagram m len addrlen).count = (len + 2 ^ 64 -
    (copySegments m.payloadLen 0 m.segments [] (BitVec.ofNat 32 len)).2.toNat) % 2 ^ 64 := rfl

theorem readDatagram_src : (readDatagram m len addrlen).src =
    addrlen.map fun room => (⟨afInet, m.srcPort, m.srcAddr⟩, min sizeofSockaddrIn room) := rfl

theorem length_available : m.available.length =
    min (m.head.dataLen.toNat - sizeofHeaders) m.payloadLen.toNat +
      (m.chain.flatMap Segment.bytes).length := by
  rw [Mbuf.available, List.length_append, List.length_take, List.length_drop,
    Segment.length_bytes, min_comm]

/-- The loop copies what is available up to the number of bytes wanted. -/
theorem copySegments_segments (h : sizeofHeaders ≤ m.head.dataLen.toNat) (wanted : BitVec 32) :
    (copySegments m.payloadLen 0 m.segments [] wanted).1 = m.available.take wanted.toNat ∧
      (copySegments m.payloadLen 0 m.segments [] wanted).2.toNat =
        wanted.toNat - m.available.length := by
  have heff : (effLen m.payloadLen 0 m.head wanted).toNat = min
      (min (m.head.dataLen.toNat - sizeofHeaders) m.payloadLen.toNat) wanted.toNat :=
    toNat_effLen_zero h
  have hleft : (wanted - effLen m.payloadLen 0 m.head wanted).toNat =
      wanted.toNat - (effLen m.payloadLen 0 m.head wanted).toNat :=
    toNat_sub_effLen (by omega)
  have hslice : m.head.slice sizeofHeaders (effLen m.payloadLen 0 m.head wanted).toNat =
      (m.head.bytes.drop sizeofHeaders).take (effLen m.payloadLen 0 m.head wanted).toNat :=
    slice_eq (by omega)
  have hfront : ((m.head.bytes.drop sizeofHeaders).take m.payloadLen.toNat).length =
      min (m.head.dataLen.toNat - sizeofHeaders) m.payloadLen.toNat := by
    rw [List.length_take, List.length_drop, Segment.length_bytes, min_comm]
  have hsplit : ((m.head.bytes.drop sizeofHeaders).take m.payloadLen.toNat ++
        m.chain.flatMap Segment.bytes).take wanted.toNat =
      ((m.head.bytes.drop sizeofHeaders).take m.payloadLen.toNat).take
          (effLen m.payloadLen 0 m.head wanted).toNat ++
        (m.chain.flatMap Segment.bytes).take
          (wanted.toNat - (effLen m.payloadLen 0 m.head wanted).toNat) :=
    take_front (by rw [hfront, heff])
  have htake : ((m.head.bytes.drop sizeofHeaders).take m.payloadLen.toNat).take
      (effLen m.payloadLen 0 m.head wanted).toNat =
      (m.head.bytes.drop sizeofHeaders).take (effLen m.payloadLen 0 m.head wanted).toNat := by
    rw [List.take_take, min_eq_left (by omega)]
  have hlen := length_available (m := m)
  have hfirst : payloadOffset 0 = sizeofHeaders := rfl
  rw [Mbuf.segments, copySegments_cons]
  dsimp only
  rw [Mbuf.available, hsplit, htake, hfirst, hslice, List.nil_append]
  by_cases hdone : wanted - effLen m.payloadLen 0 m.head wanted = 0
  · have hzero : wanted.toNat - (effLen m.payloadLen 0 m.head wanted).toNat = 0 :=
      hleft.symm.trans (congrArg BitVec.toNat hdone)
    rw [if_pos hdone, hzero, List.take_zero, List.append_nil, hleft, ← Mbuf.available, hlen]
    exact ⟨rfl, by omega⟩
  · obtain ⟨hout, hrest⟩ := @copySegments_chain m.payloadLen 1 m.chain
      ((m.head.bytes.drop sizeofHeaders).take (effLen m.payloadLen 0 m.head wanted).toNat)
      (wanted - effLen m.payloadLen 0 m.head wanted) Nat.one_ne_zero
    rw [if_neg hdone, hout, hrest, hleft, ← Mbuf.available, hlen]
    exact ⟨rfl, by omega⟩

/-- **What a receive copies and returns.** -/
theorem readDatagram_eq (h : sizeofHeaders ≤ m.head.dataLen.toNat) (hlen : len < 2 ^ 64)
    (addrlen : Option ℕ) :
    (readDatagram m len addrlen).bytes = m.available.take (len % 2 ^ 32) ∧
      (readDatagram m len addrlen).count = len - (len % 2 ^ 32 - m.available.length) := by
  obtain ⟨hout, hrest⟩ := copySegments_segments h (BitVec.ofNat 32 len)
  rw [readDatagram_bytes, readDatagram_count, hout, hrest, BitVec.toNat_ofNat]
  refine ⟨rfl, ?_⟩
  omega

end Copy

/-! ## The payload -/

/-- Padding, if any, is in the first segment: the others hold no more than what the payload
still lacks after the first. -/
def Mbuf.PaddedInHead (m : Mbuf) : Prop :=
  (m.chain.flatMap Segment.bytes).length ≤
    m.payloadLen.toNat - (m.head.dataLen.toNat - sizeofHeaders)

section Payload

variable {m : Mbuf} {len : ℕ} {addrlen : Option ℕ}

theorem body_eq (h : sizeofHeaders ≤ m.head.dataLen.toNat) :
    m.body = m.head.bytes.drop sizeofHeaders ++ m.chain.flatMap Segment.bytes := by
  rw [Mbuf.body, Mbuf.bytes_eq, List.drop_append_of_le_length]
  rwa [Segment.length_bytes]

theorem length_body (h : sizeofHeaders ≤ m.head.dataLen.toNat) : m.body.length =
    m.head.dataLen.toNat - sizeofHeaders + (m.chain.flatMap Segment.bytes).length := by
  rw [body_eq h, List.length_append, List.length_drop, Segment.length_bytes]

theorem length_available_eq_iff (h : sizeofHeaders ≤ m.head.dataLen.toNat)
    (hbody : m.payloadLen.toNat ≤ m.body.length) :
    m.available.length = m.payloadLen.toNat ↔ m.PaddedInHead := by
  rw [length_body h] at hbody
  rw [length_available, Mbuf.PaddedInHead]
  omega

theorem take_available (h : sizeofHeaders ≤ m.head.dataLen.toNat) {n : ℕ}
    (hn : n ≤ m.payloadLen.toNat) : m.available.take n = m.body.take n := by
  rw [Mbuf.available, body_eq h, List.take_append, List.take_append, List.take_take,
    min_eq_left hn, List.length_take]
  congr 2
  omega

/-- **The payload.** The bytes copied and the count returned are those of the payload just
when the request fits into 32 bits and no padding is reached. -/
theorem readDatagram_payload_iff (h : sizeofHeaders ≤ m.head.dataLen.toNat)
    (hbody : m.payloadLen.toNat ≤ m.body.length) (hlen : len < 2 ^ 64) :
    ((readDatagram m len addrlen).count = min len m.payloadLen.toNat ∧
      (readDatagram m len addrlen).bytes = m.body.take (min len m.payloadLen.toNat)) ↔
      len < 2 ^ 32 ∧ (len ≤ m.payloadLen.toNat ∨ m.PaddedInHead) := by
  obtain ⟨hbytes, hcount⟩ := readDatagram_eq h hlen addrlen
  have hpad := length_available_eq_iff h hbody
  have hle : m.payloadLen.toNat ≤ m.available.length := by
    rw [length_body h] at hbody
    rw [length_available]
    omega
  have hP := m.payloadLen.isLt
  rw [hcount, hbytes, ← hpad]
  constructor
  · -- a count that is right leaves no room for a request of more than 32 bits or for padding
    rintro ⟨hret, -⟩
    omega
  · rintro ⟨hsmall, hfit⟩
    have hmod : len % 2 ^ 32 = len := Nat.mod_eq_of_lt hsmall
    rw [hmod]
    refine ⟨by omega, ?_⟩
    have htake : m.available.take len = m.available.take (min len m.payloadLen.toNat) := by
      rcases le_or_gt len m.payloadLen.toNat with hshort | hlong
      · rw [min_eq_left hshort]
      · -- the whole payload is wanted, and nothing else is available
        have hall : m.available.length = m.payloadLen.toNat := hfit.resolve_left (by omega)
        rw [min_eq_right hlong.le, List.take_of_length_le (by omega), ← hall, List.take_length]
    rw [htake, take_available h (min_le_right _ _)]

end Payload

/-! ## The call -/

section Call

variable {σ : Shared} {s : ℕ} {pkt : Mbuf} {q : BoundedQueue (Option Mbuf)}

/-- A receive into a buffer returns when a packet is there, whatever its contents. -/
theorem exists_udpdkRecvfrom (hs : s < numSocketsMax) (used : (σ.desc.slots s).used)
    (awake : σ.interrupted = false) (hq : (σ.rxQ s).dequeue = some (some pkt, q)) (len : ℕ)
    {srcAddr : Bool} {addrlen : Option ℕ} (haddr : srcAddr → addrlen.isSome) :
    ∃ σ', udpdkRecvfrom s false len 0 srcAddr addrlen σ =
      .ok (.ok (pkt, readDatagram pkt len (if srcAddr then addrlen else none)), σ') := by
  have hmax : ¬ (numSocketsMax : ℤ) ≤ s := by omega
  have hvalid : Prog.wp (fun _ => False) (recvfromValidateArgs s 0 false addrlen.isNone)
      (fun ret σ' => ret = .ok () ∧ σ' = σ) σ := by
    rw [recvfromValidateArgs, if_neg hmax, Prog.wp_bind, wp_getSlot hs, used]
    exact ⟨rfl, rfl⟩
  have hnull : ¬ (srcAddr ∧ addrlen.isNone) := by
    rintro ⟨hsrc, hnone⟩
    rw [Option.isNone_iff_eq_none.mp hnone] at haddr
    exact absurd (haddr hsrc) Bool.false_ne_true
  have spec : Prog.wp (fun _ => False) (udpdkRecvfrom s false len 0 srcAddr addrlen)
      (fun ret _ => ret = .ok (pkt, readDatagram pkt len (if srcAddr then addrlen else none)))
      σ := by
    rw [udpdkRecvfrom, Prog.wp_bind]
    apply Prog.wp_mono hvalid
    rintro _ σ' ⟨rfl, rfl⟩
    dsimp only
    rw [Prog.wp_bind, Prog.wp_read, awake]
    simp only [Bool.false_eq_true, if_false, Int.toNat_natCast, hq, Prog.wp_bind, Prog.wp_update,
      if_neg hnull, false_and]
    rfl
  obtain ⟨ret, σ', hret, rfl⟩ := Prog.exists_ok_of_wp spec
  exact ⟨σ', hret⟩

end Call

/-! ## Receiving the payload -/

/-- A frame with a 20-byte IPv4 header and a UDP datagram in it: the headers are in the first
segment, and behind them is the payload that the UDP header announces, and maybe padding. -/
structure Mbuf.CarriesDatagram (m : Mbuf) : Prop where
  head : sizeofHeaders ≤ m.head.dataLen.toNat
  dgram : sizeofUdpHdr ≤ (beToCpu16 m.dgramLen).toNat
  body : (beToCpu16 m.dgramLen).toNat - sizeofUdpHdr ≤ m.body.length

/-- What was received is the payload of the packet, up to `len` bytes of it. -/
structure Received.IsPayload (received : Received) (m : Mbuf) (len : ℕ) : Prop where
  count : received.count = min len ((beToCpu16 m.dgramLen).toNat - sizeofUdpHdr)
  bytes : received.bytes =
    m.body.take (min len ((beToCpu16 m.dgramLen).toNat - sizeofUdpHdr))

theorem Mbuf.CarriesDatagram.toNat_payloadLen {m : Mbuf} (h : m.CarriesDatagram) :
    m.payloadLen.toNat = (beToCpu16 m.dgramLen).toNat - sizeofUdpHdr :=
  BitVec.toNat_sub_of_le h.dgram

theorem readDatagram_isPayload_iff {m : Mbuf} (h : m.CarriesDatagram) {len : ℕ}
    (hlen : len < 2 ^ 64) (addrlen : Option ℕ) :
    (readDatagram m len addrlen).IsPayload m len ↔
      len < 2 ^ 32 ∧ (len ≤ (beToCpu16 m.dgramLen).toNat - sizeofUdpHdr ∨ m.PaddedInHead) := by
  have hbody := h.body
  rw [← h.toNat_payloadLen] at hbody ⊢
  rw [← @readDatagram_payload_iff m len addrlen h.head hbody hlen, h.toNat_payloadLen]
  exact ⟨fun received => ⟨received.count, received.bytes⟩, fun ⟨count, bytes⟩ => ⟨count, bytes⟩⟩

/-- **Receiving the payload.** A receive of `len` bytes returns and writes just the payload
of the packet, or its first `len` bytes, exactly when `len` fits into 32 bits and either no
more than the payload is wanted or the padding is in the first segment. -/
theorem recvfrom_payload_iff {σ : Shared} {s : ℕ} (hs : s < numSocketsMax)
    (used : (σ.desc.slots s).used) (awake : σ.interrupted = false) {pkt : Mbuf}
    {q : BoundedQueue (Option Mbuf)} (hq : (σ.rxQ s).dequeue = some (some pkt, q))
    (hpkt : pkt.CarriesDatagram) {len : ℕ} (hlen : len < 2 ^ 64) {srcAddr : Bool}
    {addrlen : Option ℕ} (haddr : srcAddr → addrlen.isSome) :
    ∃ received σ', udpdkRecvfrom s false len 0 srcAddr addrlen σ =
      .ok (.ok (pkt, received), σ') ∧
      (received.IsPayload pkt len ↔ len < 2 ^ 32 ∧
        (len ≤ (beToCpu16 pkt.dgramLen).toNat - sizeofUdpHdr ∨ pkt.PaddedInHead)) := by
  obtain ⟨σ', hret⟩ := exists_udpdkRecvfrom hs used awake hq len haddr
  exact ⟨_, σ', hret, readDatagram_isPayload_iff hpkt hlen _⟩

/-- A datagram whose payload ends in the second segment, with a byte of padding behind. -/
def paddedBehind : Mbuf where
  addr := 0
  packetType := ptypeEtherIpv4Udp
  pktLen := 44
  head := {
    data := fun i => if i = sizeofEtherHdr + sizeofIpv4Hdr + 5 then 9 else 0
    dataLen := 42 }
  chain := [{ data := fun _ => 1, dataLen := 2 }]

theorem carriesDatagram_paddedBehind : paddedBehind.CarriesDatagram where
  head := by decide
  dgram := by decide
  body := by decide

/-- A socket whose ring holds one packet. -/
def sharedHolding (m : Mbuf) : Shared where
  desc := {
    nZonesActive := 1
    slots := fun _ => { ExchSlotInfo.zero with used := true } }
  mem := btableInit ⟨0, 0, 0, 0⟩
  rxQ := fun _ => {
    capacity := exchRingSize - 1
    items := [some m]
    bounded := Nat.le_of_ble_eq_true rfl }
  txQ := fun _ => rteRingCreate exchRingSize
  freed := []
  interrupted := false

/-- The padding of a later segment is returned as payload. -/
theorem not_recvfrom_payload : ¬ ∀ (σ : Shared) (s : ℕ), s < numSocketsMax →
    (σ.desc.slots s).used → σ.interrupted = false → ∀ (pkt : Mbuf)
    (q : BoundedQueue (Option Mbuf)), (σ.rxQ s).dequeue = some (some pkt, q) →
    pkt.CarriesDatagram → ∀ len < 2 ^ 64, ∀ (srcAddr : Bool) (addrlen : Option ℕ),
    (srcAddr → addrlen.isSome) → ∃ received σ', udpdkRecvfrom s false len 0 srcAddr addrlen σ =
      .ok (.ok (pkt, received), σ') ∧ received.IsPayload pkt len := by
  intro h
  have hroom : true → (some sizeofSockaddrIn).isSome := fun _ => rfl
  obtain ⟨received, σ', hret, hpayload⟩ := h (sharedHolding paddedBehind) 0 (by decide) rfl rfl
    paddedBehind _ rfl carriesDatagram_paddedBehind 2 (by decide) true _ hroom
  obtain ⟨σ'', hret'⟩ := exists_udpdkRecvfrom (σ := sharedHolding paddedBehind) (s := 0)
    (by decide) rfl rfl rfl 2 hroom
  obtain ⟨hpair, -⟩ := Prod.mk.inj (Except.ok.inj (hret.symm.trans hret'))
  obtain ⟨-, rfl⟩ := Prod.mk.inj (Except.ok.inj hpair)
  obtain ⟨-, hfit⟩ :=
    (readDatagram_isPayload_iff carriesDatagram_paddedBehind (by decide) _).mp hpayload
  have hlen : ¬ 2 ≤ (beToCpu16 paddedBehind.dgramLen).toNat - sizeofUdpHdr := by decide
  have hpadded : ¬ paddedBehind.PaddedInHead := by
    unfold Mbuf.PaddedInHead
    decide
  exact hfit.elim hlen hpadded

/-- The byte of payload in front of the padding. -/
theorem recvfrom_payload_of_short : ∃ received σ',
    udpdkRecvfrom 0 false 1 0 true (some sizeofSockaddrIn) (sharedHolding paddedBehind) =
      .ok (.ok (paddedBehind, received), σ') ∧ received.IsPayload paddedBehind 1 := by
  have hone : 1 < 2 ^ 64 := by decide
  have hroom : true → (some sizeofSockaddrIn).isSome := fun _ => rfl
  obtain ⟨received, σ', hret, hiff⟩ := recvfrom_payload_iff (σ := sharedHolding paddedBehind)
    (s := 0) (by decide) rfl rfl rfl carriesDatagram_paddedBehind hone hroom
  exact ⟨received, σ', hret, hiff.mpr ⟨by decide, .inl (by decide)⟩⟩

end Udpdk
