import Udpdk.Poller.Delivery
import Udpdk.Syscall.Receive

/-!
# Where the UDP header is

Both receive stages take the UDP header to be 20 bytes behind the start of the IPv4 header.
The length of that header is in the frame; with options in it, both stages read options, or
what is left of them, as ports and lengths.

## Main definitions

* `Mbuf.ihl`, `Mbuf.udpOffset` — the header length that the frame declares
* `Mbuf.withoutOptions` — the frame with its options cut out
* `Mbuf.IsUdp` — the frames that get to the lookup
* `Mbuf.DemuxedByHeader`, `Mbuf.ReceivedByHeader` — the two stages follow the header

## Main results

* `load8_withoutOptions` — what a reader finds behind 20 bytes once the options are cut out
* `demuxedByHeader_iff`, `receivedByHeader_iff` — which frames the two stages follow
* `header_location_iff` — for which header lengths the two stages follow the header
-/

namespace Udpdk

open Foundation

namespace Mbuf

variable (m : Mbuf)

/-- The low nibble of `version_ihl`: the length of the IPv4 header in words. -/
def ihl : ℕ := (m.load8 sizeofEtherHdr).toNat % 16

/-- Where the UDP header starts. -/
def udpOffset : ℕ := sizeofEtherHdr + 4 * m.ihl

/-- Bytes of options. -/
def optionBytes : ℕ := 4 * m.ihl - sizeofIpv4Hdr

/-- The frame with the options of the IPv4 header cut out: the UDP header follows 20 bytes
behind the start of the IPv4 header. -/
def withoutOptions : Mbuf :=
  { m with
    head := {
      data := fun i =>
        if i < sizeofEtherHdr + sizeofIpv4Hdr then m.head.data i
        else m.head.data (i + m.optionBytes)
      dataLen := m.head.dataLen - BitVec.ofNat 16 m.optionBytes } }

/-- An unfragmented IPv4 packet with a UDP datagram in it. -/
structure IsUdp (m : Mbuf) (dpdk : Dpdk) : Prop where
  ipv4 : dpdk.ethIsIpv4Hdr m.packetType
  whole : dpdk.ipv4FragPktIsFragmented m.fragmentOffset = false
  udp : m.nextProtoId = BitVec.ofInt 8 ipprotoUdp

end Mbuf

section Fields

variable {m : Mbuf} {i ihl : ℕ}

theorem optionBytes_of_ihl (h5 : 5 ≤ m.ihl) :
    sizeofEtherHdr + sizeofIpv4Hdr + m.optionBytes = m.udpOffset := by
  have hip : sizeofIpv4Hdr = 20 := rfl
  unfold Mbuf.optionBytes Mbuf.udpOffset
  omega

theorem load8_withoutOptions (h5 : 5 ≤ m.ihl) :
    m.withoutOptions.load8 (sizeofEtherHdr + sizeofIpv4Hdr + i) = m.load8 (m.udpOffset + i) := by
  have hi : ¬ sizeofEtherHdr + sizeofIpv4Hdr + i < sizeofEtherHdr + sizeofIpv4Hdr := by omega
  have hmoved : sizeofEtherHdr + sizeofIpv4Hdr + i + m.optionBytes = m.udpOffset + i := by
    rw [← optionBytes_of_ihl h5]
    omega
  change (if sizeofEtherHdr + sizeofIpv4Hdr + i < sizeofEtherHdr + sizeofIpv4Hdr then _
    else m.head.data (sizeofEtherHdr + sizeofIpv4Hdr + i + m.optionBytes)) = _
  rw [if_neg hi, hmoved]
  rfl

theorem load16_withoutOptions (h5 : 5 ≤ m.ihl) :
    m.withoutOptions.load16 (sizeofEtherHdr + sizeofIpv4Hdr + i) = m.load16 (m.udpOffset + i) := by
  rw [Mbuf.load16, Mbuf.load16, load8_withoutOptions h5, Nat.add_assoc, load8_withoutOptions h5,
    Nat.add_assoc]

theorem fields_withoutOptions (h5 : 5 ≤ m.ihl) :
    m.withoutOptions.srcPort = m.load16 m.udpOffset ∧
      m.withoutOptions.dstPort = m.load16 (m.udpOffset + 2) ∧
      m.withoutOptions.dgramLen = m.load16 (m.udpOffset + 4) ∧
      ∀ i, m.withoutOptions.load8 (sizeofHeaders + i) =
        m.load8 (m.udpOffset + sizeofUdpHdr + i) := by
  refine ⟨load16_withoutOptions (i := 0) h5, load16_withoutOptions h5, load16_withoutOptions h5,
    fun i => ?_⟩
  rw [sizeofHeaders, Nat.add_assoc, load8_withoutOptions h5, Nat.add_assoc]

/-- Without options there is nothing to cut out. -/
theorem withoutOptions_eq (h : m.ihl = 5) : m.withoutOptions = m := by
  have hnone : m.optionBytes = 0 := by
    rw [Mbuf.optionBytes, h]
    rfl
  have hdata : (fun i => if i < sizeofEtherHdr + sizeofIpv4Hdr then m.head.data i
      else m.head.data (i + m.optionBytes)) = m.head.data := by
    funext i
    rw [hnone, Nat.add_zero, ite_self]
  have hlen : m.head.dataLen - BitVec.ofNat 16 m.optionBytes = m.head.dataLen := by
    rw [hnone]
    exact BitVec.sub_zero _
  rw [Mbuf.withoutOptions, hdata, hlen]

end Fields

/-! ## The two stages -/

/-- In every reachable state `reassemble` delivers the frame to the bindings of the port behind
the header. -/
def Mbuf.DemuxedByHeader (m : Mbuf) (dpdk : Dpdk) (config : Configuration)
    (zones : AllocatorZones) : Prop :=
  ∀ log S, Run (SystemEvent.step dpdk config) (systemInit zones) log S →
    ∀ choices delivered T, reassemble dpdk choices m S = .ok (delivered, T) →
      delivered.map Prod.fst =
        receivers m.dstAddr (S.shared.mem.bindings (m.load16 (m.udpOffset + 2)))

/-- What `udpdk_recvfrom` returns of the frame, the source port, the length of the datagram and
its payload, is what is behind the header. -/
def Mbuf.ReceivedByHeader (m : Mbuf) : Prop :=
  ∀ (σ σ' : Shared) (sockfd : ℤ) (bufNull : Bool) (len : ℕ) (flags : ℤ) (srcAddr : Bool)
    (addrlen : Option ℕ) (received : Received),
    udpdkRecvfrom sockfd bufNull len flags srcAddr addrlen σ = .ok (.ok (m, received), σ') →
      received = readDatagram m.withoutOptions len (if srcAddr then addrlen else none)

section Stages

variable {dpdk : Dpdk} {config : Configuration} {zones : AllocatorZones} {choices : DpdkChoices}
  {S T : System} {m : Mbuf} {delivered : List Delivery}

theorem datagramOf_of_isUdp (h : m.IsUdp dpdk) : datagramOf dpdk choices m = some m := by
  rw [datagramOf, if_pos h.ipv4, h.whole]
  simp [h.udp]

/-- `reassemble` looks up the port 20 bytes behind the start of the IPv4 header. -/
theorem receivers_of_reassemble (ok : S.shared.mem.Ok) (h : m.IsUdp dpdk)
    (hret : reassemble dpdk choices m S = .ok (delivered, T)) :
    delivered.map Prod.fst = receivers m.dstAddr (S.shared.mem.bindings m.dstPort) := by
  rw [(handed_of_reassemble ok hret).receivers, datagramOf_of_isUdp h]
  rfl

/-- `reassemble` follows the header of a frame exactly when the port is the same 20 bytes behind
the start of the IPv4 header: if it is not, a single socket bound to the port behind the header
gets nothing. -/
theorem demuxedByHeader_iff (config : Configuration) (zones : AllocatorZones)
    (h : m.IsUdp dpdk) :
    m.DemuxedByHeader dpdk config zones ↔ m.dstPort = m.load16 (m.udpOffset + 2) := by
  constructor
  · intro demuxed
    by_contra hne
    have first := run_sharedOpen dpdk config zones 1 (by decide)
    obtain ⟨σ, hbind, -, hview⟩ := ApiEvent.exists_step_bind (p := m.load16 (m.udpOffset + 2))
      (s := 0) (i := inaddrAny) (Shared.Ok.run first) (by decide) rfl rfl (by
        change canBind ((btableInit zones).bindings _) _ _
        rw [bindings_btableInit]
        rfl)
    have run := run_api (S := systemInit zones) (first.snoc hbind)
    have ok := (Shared.Ok.systemRun run).mem
    have hfree : σ.mem.bindings m.dstPort = [] := by
      rw [bindings_of_boundTo_of_ne hview hne]
      exact congrFun (bindings_btableInit zones) _
    have hbound : σ.mem.bindings (m.load16 (m.udpOffset + 2)) =
        [newBinding 0 inaddrAny ((sharedOpen zones 1).desc.slots 0).soOptions] := by
      rw [bindings_of_boundTo hview]
      change insertBinding _ ((btableInit zones).bindings _) = _
      rw [bindings_btableInit]
      rfl
    have hroom : System.HasRoom { systemInit zones with shared := σ }
        (datagramOf dpdk (.smooth []) m) := by
      rw [datagramOf_of_isUdp h]
      apply hasRoom_of_empty fun _ => rfl
      rw [hfree]
      exact Nat.zero_le _
    obtain ⟨delivered, T, hret, -⟩ :=
      exists_reassemble ok (fun n => Option.some_ne_none n) hroom
    have hwire := demuxed _ _ run (.smooth []) delivered T hret
    -- nothing was delivered, but the header asks for one delivery
    rw [receivers_of_reassemble ok h hret, hfree, hbound, receivers_cons,
      if_pos (.inr rfl)] at hwire
    split at hwire
    · cases hwire
    · cases hwire
  · intro hport log S run choices delivered T hret
    rw [← hport]
    exact receivers_of_reassemble (Shared.Ok.systemRun run).mem h hret

/-- `udpdk_recvfrom` follows the header exactly when it reads the same without the options. -/
theorem receivedByHeader_iff : m.ReceivedByHeader ↔
    ∀ len room, readDatagram m len room = readDatagram m.withoutOptions len room := by
  constructor
  · intro received len room
    have hroom : room.isSome → room.isSome := id
    obtain ⟨σ', hret⟩ := exists_udpdkRecvfrom (σ := sharedHolding m) (s := 0) (by decide) rfl rfl
      rfl len hroom
    have hread := received _ _ _ _ _ _ _ _ _ hret
    cases room with
    | none => exact hread
    | some n => exact hread
  · intro hread σ σ' sockfd bufNull len flags srcAddr addrlen received hret
    have spec : Prog.wp (fun _ => True)
        (udpdkRecvfrom sockfd bufNull len flags srcAddr addrlen) _ σ :=
      udpdkRecvfrom_spec sockfd bufNull len flags srcAddr addrlen (fun _ => trivial) trivial
        trivial
    obtain ⟨s, -, -, -, q, -, hreceived, -⟩ := Prog.wp_of_ok spec hret
    rw [hreceived]
    exact hread len _

theorem followsHeader_of_plain (config : Configuration) (zones : AllocatorZones)
    (h : m.IsUdp dpdk) (hihl : m.ihl = 5) :
    m.DemuxedByHeader dpdk config zones ∧ m.ReceivedByHeader := by
  rw [demuxedByHeader_iff config zones h, receivedByHeader_iff, withoutOptions_eq hihl]
  refine ⟨?_, fun _ _ => rfl⟩
  rw [Mbuf.udpOffset, hihl]
  rfl

end Stages

/-! ## A frame with options -/

/-- `RTE_PTYPE_L2_ETHER | RTE_PTYPE_L3_IPV4_EXT | RTE_PTYPE_L4_UDP`. -/
def ptypeEtherIpv4ExtUdp : BitVec 32 := 0x231

/-- A frame with options that are all zero, and behind them an empty datagram between two ports
that are not. -/
def optionFrame (ihl : ℕ) : Mbuf where
  addr := 0
  packetType := ptypeEtherIpv4ExtUdp
  pktLen := BitVec.ofNat 32 (sizeofEtherHdr + 4 * ihl + sizeofUdpHdr)
  head := {
    data := fun i =>
      if i = sizeofEtherHdr then BitVec.ofNat 8 (0x40 + ihl)
      else if i = sizeofEtherHdr + 9 then BitVec.ofInt 8 ipprotoUdp
      else if sizeofEtherHdr + 4 * ihl ≤ i ∧ i < sizeofEtherHdr + 4 * ihl + 4 then 1
      else if i = sizeofEtherHdr + 4 * ihl + 5 then 8
      else 0
    dataLen := BitVec.ofNat 16 (sizeofEtherHdr + 4 * ihl + sizeofUdpHdr) }
  chain := []

section OptionFrame

variable {dpdk : Dpdk} {ihl i : ℕ}

theorem ihl_optionFrame (h15 : ihl ≤ 15) : (optionFrame ihl).ihl = ihl := by
  change (BitVec.ofNat 8 (0x40 + ihl)).toNat % 16 = ihl
  rw [BitVec.toNat_ofNat]
  omega

theorem load8_optionFrame_front (hi : i < sizeofEtherHdr + 4 * ihl) (hversion : i ≠ sizeofEtherHdr)
    (hproto : i ≠ sizeofEtherHdr + 9) : (optionFrame ihl).load8 i = 0 := by
  change (if i = sizeofEtherHdr then _ else if i = sizeofEtherHdr + 9 then _
    else if sizeofEtherHdr + 4 * ihl ≤ i ∧ i < sizeofEtherHdr + 4 * ihl + 4 then _
    else if i = sizeofEtherHdr + 4 * ihl + 5 then _ else _) = (0 : Byte)
  rw [if_neg hversion, if_neg hproto, if_neg (by omega), if_neg (by omega)]

theorem load16_optionFrame_front (hi : i + 1 < sizeofEtherHdr + 4 * ihl)
    (hlow : sizeofEtherHdr < i) (hproto : i ≠ sizeofEtherHdr + 9)
    (hproto' : i + 1 ≠ sizeofEtherHdr + 9) : (optionFrame ihl).load16 i = 0 := by
  rw [Mbuf.load16, load8_optionFrame_front hi (by omega) hproto',
    load8_optionFrame_front (Nat.lt_of_succ_lt hi) hlow.ne' hproto]
  rfl

theorem load16_optionFrame_ports (h5 : 5 ≤ ihl) (hi : i + 1 < 4) :
    (optionFrame ihl).load16 (sizeofEtherHdr + 4 * ihl + i) = 257 := by
  have hbyte : ∀ j < 4, (optionFrame ihl).load8 (sizeofEtherHdr + 4 * ihl + j) = 1 := by
    intro j hj
    change (if sizeofEtherHdr + 4 * ihl + j = sizeofEtherHdr then _
      else if sizeofEtherHdr + 4 * ihl + j = sizeofEtherHdr + 9 then _
      else if sizeofEtherHdr + 4 * ihl ≤ sizeofEtherHdr + 4 * ihl + j ∧
        sizeofEtherHdr + 4 * ihl + j < sizeofEtherHdr + 4 * ihl + 4 then _ else _) = (1 : Byte)
    rw [if_neg (by omega), if_neg (by omega), if_pos (by omega)]
  rw [Mbuf.load16, Nat.add_assoc, hbyte (i + 1) hi, hbyte i (Nat.lt_of_succ_lt hi)]
  rfl

theorem isUdp_optionFrame (hptype : dpdk.ethIsIpv4Hdr ptypeEtherIpv4ExtUdp)
    (hwhole : dpdk.ipv4FragPktIsFragmented 0 = false) (h5 : 5 ≤ ihl) :
    (optionFrame ihl).IsUdp dpdk where
  ipv4 := hptype
  whole := by
    have hoffset : (optionFrame ihl).fragmentOffset = 0 :=
      load16_optionFrame_front (by unfold sizeofEtherHdr; omega) (by decide) (by decide)
        (by decide)
    rw [hoffset]
    exact hwhole
  udp := rfl

/-- With options, both stages read zeros as ports. -/
theorem ports_optionFrame (h6 : 6 ≤ ihl) :
    (optionFrame ihl).srcPort = 0 ∧ (optionFrame ihl).dstPort = 0 := by
  have hip : sizeofIpv4Hdr = 20 := rfl
  have heth : sizeofEtherHdr = 14 := rfl
  constructor
  · exact load16_optionFrame_front (by omega) (by omega) (by omega) (by omega)
  · exact load16_optionFrame_front (by omega) (by omega) (by omega) (by omega)

/-- Neither stage follows the header of a frame with options. -/
theorem not_followsHeader (config : Configuration) (zones : AllocatorZones)
    (h : (optionFrame ihl).IsUdp dpdk) (h6 : 6 ≤ ihl) (h15 : ihl ≤ 15) :
    ¬ (optionFrame ihl).DemuxedByHeader dpdk config zones ∧
      ¬ (optionFrame ihl).ReceivedByHeader := by
  have hihl := ihl_optionFrame h15
  have h5 : 5 ≤ ihl := Nat.le_of_succ_le h6
  rw [demuxedByHeader_iff config zones h, receivedByHeader_iff]
  constructor
  · have hport : (optionFrame ihl).load16 ((optionFrame ihl).udpOffset + 2) = 257 := by
      rw [Mbuf.udpOffset, hihl]
      exact load16_optionFrame_ports h5 (by decide)
    rw [(ports_optionFrame h6).2, hport]
    decide
  · intro hread
    have hport : (optionFrame ihl).withoutOptions.srcPort = 257 := by
      rw [(fields_withoutOptions (hihl.symm ▸ h5)).1, Mbuf.udpOffset, hihl]
      exact load16_optionFrame_ports (i := 0) h5 (by decide)
    have hsrc := congrArg Received.src (hread 0 (some sizeofSockaddrIn))
    rw [readDatagram_src, readDatagram_src, (ports_optionFrame h6).1, hport] at hsrc
    cases congrArg (fun a => a.map fun r : SockaddrIn × ℕ => r.1.sinPort) hsrc

end OptionFrame

/-- **Header location.** For each legal header length, `reassemble` follows the header of all
frames of that length exactly when there are no options, and so does `udpdk_recvfrom`. -/
theorem header_location_iff (dpdk : Dpdk) (config : Configuration) (zones : AllocatorZones)
    (hptype : dpdk.ethIsIpv4Hdr ptypeEtherIpv4ExtUdp)
    (hwhole : dpdk.ipv4FragPktIsFragmented 0 = false) {ihl : ℕ} (h5 : 5 ≤ ihl) (h15 : ihl ≤ 15) :
    ((∀ m : Mbuf, m.IsUdp dpdk → m.ihl = ihl → m.DemuxedByHeader dpdk config zones) ↔ ihl = 5) ∧
      ((∀ m : Mbuf, m.IsUdp dpdk → m.ihl = ihl → m.ReceivedByHeader) ↔ ihl = 5) := by
  have hframe := isUdp_optionFrame hptype hwhole h5
  have hihl := ihl_optionFrame h15
  constructor
  · constructor
    · intro demuxed
      by_contra hne
      exact (not_followsHeader config zones hframe (by omega) h15).1 (demuxed _ hframe hihl)
    · rintro rfl m hm hihl
      exact (followsHeader_of_plain config zones hm hihl).1
  · constructor
    · intro received
      by_contra hne
      exact (not_followsHeader config zones hframe (by omega) h15).2 (received _ hframe hihl)
    · rintro rfl m hm hihl
      exact (followsHeader_of_plain config zones hm hihl).2

/-- A frame without options is delivered and read as its header says. -/
theorem header_location_of_plain :
    (datagramTo 7 53).DemuxedByHeader Dpdk.reference Configuration.zero ⟨0, 0, 0, 0⟩ ∧
      (datagramTo 7 53).ReceivedByHeader := by
  have hplain : (datagramTo 7 53).ihl = 5 := by decide
  have hframe : (datagramTo 7 53).IsUdp Dpdk.reference := ⟨by decide, by decide, by decide⟩
  obtain ⟨demuxed, received⟩ := header_location_iff Dpdk.reference Configuration.zero
    ⟨0, 0, 0, 0⟩ (by decide) (by decide) (le_refl 5) (by decide)
  exact ⟨demuxed.mpr rfl _ hframe hplain, received.mpr rfl _ hframe hplain⟩

/-- A frame with one word of options is delivered by what its options say. -/
theorem not_header_location : ¬ ∀ (dpdk : Dpdk) (config : Configuration) (zones : AllocatorZones)
    (m : Mbuf), m.IsUdp dpdk → 5 ≤ m.ihl → m.DemuxedByHeader dpdk config zones ∧
      m.ReceivedByHeader := by
  intro h
  have hframe : (optionFrame 6).IsUdp Dpdk.reference :=
    isUdp_optionFrame (by decide) (by decide) (by decide)
  have located :=
    h Dpdk.reference Configuration.zero ⟨0, 0, 0, 0⟩ (optionFrame 6) hframe (by decide)
  exact (not_followsHeader Configuration.zero ⟨0, 0, 0, 0⟩ hframe (by decide) (by decide)).2
    located.2

end Udpdk
