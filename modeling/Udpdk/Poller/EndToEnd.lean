import Udpdk.Poller.Delivery
import Udpdk.Poller.Fragments
import Udpdk.Syscall.Receive
import Udpdk.Syscall.Send

/-!
# From sender to receiver

A payload on its way: the frame that `udpdk_sendto` builds, the frames that the poller sends for
it, their arrival at a peer, the packet that the poller there delivers, and what
`udpdk_recvfrom` reads out of it.

## Main definitions

* `Carries` — a packet has the headers and the payload of a frame, and maybe padding
* `Journey` — the way of a frame to a socket of the peer

## Main results

* `sendto_truthful_iff` — when the lengths in a frame are those of the frame
* `end_to_end` — the payload and the address of the sender get to the receiver
-/

namespace Udpdk

open Foundation

/-! ## The sender -/

/-- **Lengths of frames.** In every reachable state, `udpdk_sendto` emits a frame with exact
lengths or fails and emits nothing just when the descriptor is not negative and either the
arguments are not accepted, or there is no buffer, or headers and payload fit into one. -/
theorem sendto_truthful_iff (dpdk : Dpdk) (config : Configuration) (zones : AllocatorZones)
    {log : List SystemEvent} {S : System}
    (run : Run (SystemEvent.step dpdk config) (systemInit zones) log S) (pkt : Option ℕ)
    (sockfd : ℤ) (buf : List Byte) (flags : ℤ) (destAddr : Option SockaddrIn) (addrlen : ℕ) :
    S.shared.SendsTruthfully dpdk config pkt sockfd buf flags destAddr addrlen ↔
      S.shared.SendFits pkt sockfd buf flags destAddr addrlen :=
  (Shared.Ok.systemRun run).sendsTruthfully_iff

/-- A payload of 2007 bytes is written over the end of the buffer. -/
theorem not_sendto_truthful : ¬ ∀ (dpdk : Dpdk) (config : Configuration) (zones : AllocatorZones)
    (log : List SystemEvent) (S : System),
    Run (SystemEvent.step dpdk config) (systemInit zones) log S →
    ∀ (pkt : Option ℕ) (sockfd : ℤ) (buf : List Byte) (flags : ℤ)
      (destAddr : Option SockaddrIn) (addrlen : ℕ), 0 ≤ sockfd →
      S.shared.SendsTruthfully dpdk config pkt sockfd buf flags destAddr addrlen := by
  intro h
  have hopen := run_sharedOpen Dpdk.reference Configuration.zero ⟨0, 0, 0, 0⟩ 1 (by decide)
  have run := run_api (S := systemInit ⟨0, 0, 0, 0⟩) hopen
  have htruthful := h _ _ _ _ _ run (some 0) 0 (List.replicate 2007 0) 0
    (some ⟨afInet, 53, 7⟩) sizeofSockaddrIn le_rfl
  have hfits := (Shared.Ok.systemRun run).sendsTruthfully_iff.mp htruthful
  have hroom := hfits.fits ⟨0, _, by decide, rfl, rfl, rfl, rfl, by decide⟩ rfl
  rw [List.length_replicate] at hroom
  exact absurd hroom (by decide)

/-- A payload of 2006 bytes just fits. -/
theorem sendto_truthful_of_fits : ∃ S : System, S.shared.SendsTruthfully Dpdk.reference
    Configuration.zero (some 0) 0 (List.replicate 2006 0) 0 (some ⟨afInet, 53, 7⟩)
    sizeofSockaddrIn := by
  have hopen := run_sharedOpen Dpdk.reference Configuration.zero ⟨0, 0, 0, 0⟩ 1 (by decide)
  have run := run_api (S := systemInit ⟨0, 0, 0, 0⟩) hopen
  refine ⟨_, (sendto_truthful_iff _ _ _ run _ _ _ _ _ _).mpr ⟨le_rfl, fun _ _ => ?_⟩⟩
  rw [List.length_replicate]
  decide

/-! ## On the way -/

/-- The packet `d` has the headers of the frame `m`, but for what fragmentation rewrites, and its
payload, with `padding` behind it. A padded packet has one segment. -/
structure Carries (m d : Mbuf) (padding : List Byte) : Prop where
  head : sizeofHeaders ≤ d.head.dataLen.toNat
  header : ∀ i < sizeofEtherHdr + sizeofIpv4Hdr, i ∉ rewrittenBytes → d.load8 i = m.load8 i
  payload : d.bytes.drop (sizeofEtherHdr + sizeofIpv4Hdr) =
    m.bytes.drop (sizeofEtherHdr + sizeofIpv4Hdr) ++ padding
  padded : padding ≠ [] → d.chain.flatMap Segment.bytes = []

/-- The poller takes the packet `m` out of a ring, and puts `frames` into its table for it. -/
def Transmits (choices : DpdkChoices) (m : Mbuf) (frames : List Mbuf) : Prop :=
  ∃ (V V' : System) (more : Bool), V.txCount < burstSize ∧ choices.Admissible V ∧
    stageTx choices m V = .ok (more, V') ∧ V'.staged = V.staged ++ frames.map some

section Way

variable {m d f r first last : Mbuf} {padding : List Byte} {choices : DpdkChoices}
  {frames : List Mbuf} {i : ℕ}

theorem Transmits.eq_txFrames (h : Transmits choices m frames) : frames = txFrames choices m := by
  obtain ⟨V, V', more, hroom, adm, hret, hstaged⟩ := h
  have spec : Prog.wp (fun _ => True) (stageTx choices m) _ V :=
    stageTx_stages hroom adm.fragments
  have hstages := (Prog.wp_of_ok spec hret).staged
  rw [hstaged] at hstages
  exact List.map_injective_iff.mpr (Option.some_injective Mbuf) (List.append_cancel_left hstages)

theorem transmits_of_small (h : m.pktLen.toNat ≤ ipv4MtuDefault) :
    Transmits { DpdkChoices.smooth [] with fragments := none } m [m] := by
  have adm : { DpdkChoices.smooth [] with fragments := none }.Admissible
      (systemInit ⟨0, 0, 0, 0⟩) := ⟨Nat.zero_le _, nofun, le_rfl⟩
  have spec : Prog.wp (fun _ => False)
      (stageTx { DpdkChoices.smooth [] with fragments := none } m) _ (systemInit ⟨0, 0, 0, 0⟩) :=
    stageTx_stages (Nat.lt_of_sub_eq_succ rfl) adm.fragments
  obtain ⟨more, V', hret, hstages⟩ := Prog.exists_ok_of_wp spec
  refine ⟨_, V', more, Nat.lt_of_sub_eq_succ rfl, adm, hret, ?_⟩
  rw [hstages.staged, txFrames, if_pos h]

theorem Carries.copy {d' : Mbuf} (h : Carries m d padding) (hcopy : d.IsCopy d') :
    Carries m d' padding := by
  obtain ⟨addr, rfl⟩ := hcopy
  exact ⟨h.head, h.header, h.payload, h.padded⟩

theorem PieceOf.length_bytes {off : ℕ} {more : Bool} {piece : List Byte}
    (h : PieceOf m f off more piece) :
    f.bytes.length = sizeofEtherHdr + sizeofIpv4Hdr + piece.length := by
  have hhead := h.head.trans (length_head_le_bytes f)
  rw [← h.bytes, List.length_drop]
  omega

theorem ArrivesAs.load8_eq (h : ArrivesAs f r)
    (hhead : sizeofEtherHdr + sizeofIpv4Hdr ≤ f.head.dataLen.toNat)
    (hi : i < sizeofEtherHdr + sizeofIpv4Hdr) : r.load8 i = f.load8 i := by
  obtain ⟨padding, hbytes, -⟩ := h.bytes
  have hfront : sizeofEtherHdr + sizeofIpv4Hdr = 34 := rfl
  have hroom : mbufDataRoom = 2048 := rfl
  have hlen := length_head_le_bytes f
  have hrlen : r.bytes.length = f.bytes.length + padding.length := by
    rw [hbytes, List.length_append]
  have hfilled := h.filled
  have hf : f.bytes[i]? = some (f.load8 i) := getElem?_bytes (by omega)
  have hr : r.bytes[i]? = some (r.load8 i) := getElem?_bytes (by omega)
  rw [hbytes, List.getElem?_append_left (by omega), hf] at hr
  exact (Option.some.inj hr).symm

theorem ArrivesAs.fragmentOffset_eq (h : ArrivesAs f r)
    (hhead : sizeofEtherHdr + sizeofIpv4Hdr ≤ f.head.dataLen.toNat) :
    r.fragmentOffset = f.fragmentOffset :=
  congrArg₂ (· ++ ·) (h.load8_eq hhead (by decide)) (h.load8_eq hhead (by decide))

/-- A frame that arrives whole carries the packet, and what padding there is. -/
theorem carries_of_arrives (hm : sizeofHeaders ≤ m.bytes.length)
    (hpiece : PieceOf m f 0 false (m.bytes.drop (sizeofEtherHdr + sizeofIpv4Hdr)))
    (harrives : ArrivesAs f r) : ∃ padding, Carries m r padding := by
  obtain ⟨padding, hbytes, hshort⟩ := harrives.bytes
  have hheaders : sizeofHeaders = 42 := rfl
  have hfront : sizeofEtherHdr + sizeofIpv4Hdr = 34 := rfl
  have hroom : mbufDataRoom = 2048 := rfl
  have hlen := hpiece.length_bytes
  rw [List.length_drop] at hlen
  have hrlen : r.bytes.length = f.bytes.length + padding.length := by
    rw [hbytes, List.length_append]
  have hfilled := harrives.filled
  refine ⟨padding, by omega, fun i hi hrewritten => ?_, ?_, fun hpad => ?_⟩
  · rw [harrives.load8_eq hpiece.head hi, hpiece.header i hi hrewritten]
  · rw [hbytes, List.drop_append_of_le_length (by omega), hpiece.bytes]
  · have hone := hshort hpad
    rw [← List.length_eq_zero_iff]
    have hsegments : r.bytes.length =
        r.head.dataLen.toNat + (r.chain.flatMap Segment.bytes).length := by
      rw [Mbuf.bytes_eq, List.length_append, Segment.length_bytes]
    omega

/-- A packet that was put together from a first and a last fragment carries the original. -/
theorem carries_of_reassembly
    (hlen : fragSize < (m.bytes.drop (sizeofEtherHdr + sizeofIpv4Hdr)).length)
    (hfirst : PieceOf m first 0 true
      ((m.bytes.drop (sizeofEtherHdr + sizeofIpv4Hdr)).take fragSize))
    (hlast : PieceOf m last fragSize false
      ((m.bytes.drop (sizeofEtherHdr + sizeofIpv4Hdr)).drop fragSize))
    (hre : ReassemblyOf [first, last] d) : Carries m d [] where
  head := by
    have hheaders : sizeofHeaders ≤ sizeofEtherHdr + sizeofIpv4Hdr + fragSize := by decide
    have hhead := hre.head first rfl
    rw [hfirst.length_bytes, List.length_take, min_eq_left hlen.le] at hhead
    exact hheaders.trans hhead
  header i hi hrewritten :=
    (hre.header first rfl i hi hrewritten).trans (hfirst.header i hi hrewritten)
  payload := by
    rw [hre.payload, List.flatMap_cons, List.flatMap_singleton, hfirst.bytes, hlast.bytes,
      List.take_append_drop, List.append_nil]
  padded h := absurd rfl h

end Way

/-! ## The receiver -/

section Receiver

variable {dpdk : Dpdk} {config : Configuration} {slot : ExchSlotInfo} {dest : SockaddrIn}
  {m d : Mbuf} {buf padding : List Byte} {addr i off : ℕ}

/-- The headers are where they were. -/
theorem Carries.load8_eq (h : Carries m d padding) (hm : sizeofHeaders ≤ m.head.dataLen.toNat)
    (hi : i < sizeofHeaders) (hrewritten : i ∉ rewrittenBytes) : d.load8 i = m.load8 i := by
  by_cases hfront : i < sizeofEtherHdr + sizeofIpv4Hdr
  · exact h.header i hfront hrewritten
  · -- the UDP header is the start of what the fragments carry
    obtain ⟨j, rfl⟩ := Nat.exists_eq_add_of_le (not_lt.mp hfront)
    have hd : d.bytes[sizeofEtherHdr + sizeofIpv4Hdr + j]? = some (d.load8 _) :=
      getElem?_bytes (by have := h.head; omega)
    have hm' : m.bytes[sizeofEtherHdr + sizeofIpv4Hdr + j]? = some (m.load8 _) :=
      getElem?_bytes (by omega)
    have hj : j < (m.bytes.drop (sizeofEtherHdr + sizeofIpv4Hdr)).length := by
      have := length_head_le_bytes m
      rw [List.length_drop]
      omega
    rw [← List.getElem?_drop] at hd hm'
    rw [h.payload, List.getElem?_append_left hj, hm'] at hd
    exact (Option.some.inj hd).symm

theorem Carries.load16_eq (h : Carries m d padding) (hm : sizeofHeaders ≤ m.head.dataLen.toNat)
    (hoff : off + 1 < sizeofHeaders) (hlow : off ∉ rewrittenBytes)
    (hhigh : off + 1 ∉ rewrittenBytes) : d.load16 off = m.load16 off := by
  rw [Mbuf.load16, h.load8_eq hm (by omega) hlow, h.load8_eq hm hoff hhigh]
  rfl

theorem Carries.body_eq (h : Carries m d padding) (hm : sizeofHeaders ≤ m.bytes.length) :
    d.body = m.body ++ padding := by
  have hsplit : ∀ x : Mbuf, x.body =
      (x.bytes.drop (sizeofEtherHdr + sizeofIpv4Hdr)).drop sizeofUdpHdr :=
    fun x => List.drop_drop.symm
  have hheaders : sizeofHeaders = sizeofEtherHdr + sizeofIpv4Hdr + sizeofUdpHdr := rfl
  rw [hsplit, hsplit, h.payload, List.drop_append_of_le_length]
  rw [List.length_drop]
  omega

theorem length_head_fillMbuf (h : sizeofHeaders + buf.length ≤ mbufDataRoom) :
    (fillMbuf addr (buildFrame dpdk config slot dest buf)).head.dataLen.toNat =
      sizeofHeaders + buf.length :=
  (lengthsExact_fillMbuf h).data.trans (add_comm _ _)

/-- Behind the headers is the payload that was sent, and padding. -/
theorem Carries.body_eq_payload
    (h : Carries (fillMbuf addr (buildFrame dpdk config slot dest buf)) d padding)
    (hfits : sizeofHeaders + buf.length ≤ mbufDataRoom) : d.body = buf ++ padding := by
  have hhead : (fillMbuf addr (buildFrame dpdk config slot dest buf)).head.dataLen.toNat =
      sizeofHeaders + buf.length := length_head_fillMbuf hfits
  have hroom : mbufDataRoom = 2048 := rfl
  have hbytes : (fillMbuf addr (buildFrame dpdk config slot dest buf)).bytes =
      buildFrame dpdk config slot dest buf := by
    apply bytes_fillMbuf
    rw [length_buildFrame]
    omega
  have hm : sizeofHeaders ≤
      (fillMbuf addr (buildFrame dpdk config slot dest buf)).head.dataLen.toNat := by omega
  rw [h.body_eq (hm.trans (length_head_le_bytes _)), Mbuf.body, hbytes, buildFrame_eq,
    List.drop_left' length_frameHeaders]

theorem Carries.dgramLen_eq_payload
    (h : Carries (fillMbuf addr (buildFrame dpdk config slot dest buf)) d padding)
    (hfits : sizeofHeaders + buf.length ≤ mbufDataRoom) :
    (beToCpu16 d.dgramLen).toNat = buf.length + sizeofUdpHdr := by
  have hm : sizeofHeaders ≤
      (fillMbuf addr (buildFrame dpdk config slot dest buf)).head.dataLen.toNat := by
    rw [length_head_fillMbuf hfits]
    exact Nat.le_add_right _ _
  rw [← (lengthsExact_fillMbuf hfits).dgram]
  exact congrArg (fun x => (beToCpu16 x).toNat)
    (h.load16_eq hm (by decide) (by decide) (by decide))

/-- A packet that carries a frame carries a datagram, with its padding in the first segment. -/
theorem Carries.carriesDatagram
    (h : Carries (fillMbuf addr (buildFrame dpdk config slot dest buf)) d padding)
    (hfits : sizeofHeaders + buf.length ≤ mbufDataRoom) : d.CarriesDatagram ∧ d.PaddedInHead := by
  have hbody := h.body_eq_payload hfits
  have hdgram := h.dgramLen_eq_payload hfits
  have hcarries : d.CarriesDatagram := by
    refine ⟨h.head, by omega, ?_⟩
    rw [hdgram, hbody, List.length_append]
    omega
  refine ⟨hcarries, ?_⟩
  have hlen := length_body h.head
  rw [hbody, List.length_append] at hlen
  rw [Mbuf.PaddedInHead, hcarries.toNat_payloadLen, hdgram]
  cases padding with
  | nil =>
    rw [List.length_nil] at hlen
    omega
  | cons x xs => simp [h.padded (List.cons_ne_nil x xs)]

/-- **Reading what was sent.** -/
theorem Carries.read (h : Carries (fillMbuf addr (buildFrame dpdk config slot dest buf)) d padding)
    (hfits : sizeofHeaders + buf.length ≤ mbufDataRoom) {n : ℕ} (hn : n < 2 ^ 32) {room : ℕ}
    (hroom : sizeofSockaddrIn ≤ room) :
    (readDatagram d n (some room)).count = min n buf.length ∧
      (readDatagram d n (some room)).bytes = buf.take (min n buf.length) ∧
      (readDatagram d n (some room)).src =
        some (⟨afInet, slot.udpPort, sourceAddr config slot⟩, sizeofSockaddrIn) := by
  have hm : sizeofHeaders ≤
      (fillMbuf addr (buildFrame dpdk config slot dest buf)).head.dataLen.toNat := by
    rw [length_head_fillMbuf hfits]
    exact Nat.le_add_right _ _
  have hport : d.srcPort = slot.udpPort :=
    (h.load16_eq hm (by decide) (by decide) (by decide)).trans srcPort_fillMbuf
  have hsrc : d.srcAddr = (fillMbuf addr (buildFrame dpdk config slot dest buf)).srcAddr :=
    congrArg₂ (· ++ ·) (h.load16_eq hm (by decide) (by decide) (by decide))
      (h.load16_eq hm (by decide) (by decide) (by decide))
  have haddr : d.srcAddr = sourceAddr config slot := hsrc.trans srcAddr_fillMbuf
  obtain ⟨hcarries, hpadded⟩ := h.carriesDatagram hfits
  have hlen : n < 2 ^ 64 := by omega
  obtain ⟨hcount, hread⟩ :=
    (readDatagram_isPayload_iff hcarries hlen (some room)).mpr ⟨hn, .inr hpadded⟩
  rw [h.dgramLen_eq_payload hfits, Nat.add_sub_cancel] at hcount hread
  refine ⟨hcount, ?_, ?_⟩
  · rw [hread, h.body_eq_payload hfits, List.take_append_of_le_length (min_le_right _ _)]
  · rw [readDatagram_src, Option.map_some, hport, haddr, min_eq_left hroom]

end Receiver

/-! ## From one to the other -/

/-- The way of the frame `m` to a peer in the state `T`: the poller puts frames into its table
for it, one of them arrives, and when the peer demultiplexes that, `d` goes to the socket of
the binding `b`. -/
structure Journey (dpdk : Dpdk) (m : Mbuf) (T : System) (b : BindInfo) (d : Mbuf) where
  choices : DpdkChoices
  frames : List Mbuf
  transmits : Transmits choices m frames
  fragments : ∀ frags ∈ choices.fragments, FragmentsOf m frags
  frame : Mbuf
  sent : frame ∈ frames
  received : Mbuf
  arrives : ArrivesAs frame received
  peerChoices : DpdkChoices
  assembled : ∀ whole ∈ peerChoices.assembled, ReassemblyOf frames whole
  delivered : List Delivery
  after : System
  demultiplexes : reassemble dpdk peerChoices received T = .ok (delivered, after)
  delivers : (b, some d) ∈ delivered

section Journey

variable {dpdk peerDpdk : Dpdk} {config : Configuration} {choices : DpdkChoices} {m d r : Mbuf}
  {T : System} {b : BindInfo} {frags : List Mbuf}

/-- A packet that is demultiplexed was received whole, or was put together from fragments. -/
theorem datagramOf_cases (h : d ∈ datagramOf dpdk choices r) :
    dpdk.ethIsIpv4Hdr r.packetType = true ∧
      (dpdk.ipv4FragPktIsFragmented r.fragmentOffset = true ∧ choices.assembled = some d ∨
        dpdk.ipv4FragPktIsFragmented r.fragmentOffset = false ∧ r = d) := by
  have hwhole := (Option.filter_eq_some_iff.mp h).1
  split_ifs at hwhole with hip hfrag
  · exact ⟨hip, .inl ⟨hfrag, hwhole⟩⟩
  · exact ⟨hip, .inr ⟨by simpa using hfrag, Option.some.inj hwhole⟩⟩

theorem exists_isCopy_of_delivered (ok : T.shared.mem.Ok) {delivered : List Delivery}
    {T' : System} (h : reassemble dpdk choices r T = .ok (delivered, T'))
    (hd : (b, some d) ∈ delivered) : ∃ whole ∈ datagramOf dpdk choices r, whole.IsCopy d :=
  (handed_of_reassemble ok h).copies _ hd d rfl

/-- What the peer delivers carries the frame. -/
theorem Journey.carries (way : Journey peerDpdk m T b d) (ok : T.shared.mem.Ok)
    (hfragmented : peerDpdk.ipv4FragPktIsFragmented = Dpdk.reference.ipv4FragPktIsFragmented)
    (hm : sizeofHeaders ≤ m.head.dataLen.toNat) (hwhole : m.fragmentOffset = 0)
    (hmax : m.bytes.length ≤ mbufDataRoom) : ∃ padding, Carries m d padding := by
  obtain ⟨whole, hmem, hcopy⟩ := exists_isCopy_of_delivered ok way.demultiplexes way.delivers
  suffices h : ∃ padding, Carries m whole padding from h.imp fun _ h => h.copy hcopy
  have hframes := way.transmits.eq_txFrames
  have hsent := way.sent
  have hassembled := way.assembled
  have hbytes := hm.trans (length_head_le_bytes m)
  have hheaders : sizeofHeaders = 42 := rfl
  have hfront : sizeofEtherHdr + sizeofIpv4Hdr = 34 := rfl
  have hroom : mbufDataRoom = 2048 := rfl
  have hfull : fragSize = 1480 := rfl
  have hcases := (datagramOf_cases hmem).2
  rw [hfragmented] at hcases
  have hpos : 0 < (m.bytes.drop (sizeofEtherHdr + sizeofIpv4Hdr)).length := by
    rw [List.length_drop]
    omega
  have hlen : (m.bytes.drop (sizeofEtherHdr + sizeofIpv4Hdr)).length ≤ 2 * fragSize := by
    rw [List.length_drop]
    omega
  rw [hframes] at hsent hassembled
  rcases txFrames_pieces way.fragments (by omega) hwhole hpos hlen with
    hnil | ⟨f, hone, hpiece⟩ | ⟨first, last, htwo, hlong, hfirst, hlast⟩
  · rw [hnil] at hsent
    cases hsent
  · -- a frame by itself is no fragment, so it is what is demultiplexed
    rw [hone, List.mem_singleton] at hsent
    have harrives := way.arrives
    rw [hsent] at harrives
    have hoffset : way.received.fragmentOffset = fragmentField 0 false :=
      (harrives.fragmentOffset_eq hpiece.head).trans hpiece.offset
    rw [hoffset] at hcases
    rcases hcases with ⟨htrue, -⟩ | ⟨-, rfl⟩
    · exact absurd htrue (by decide)
    · exact carries_of_arrives hbytes hpiece harrives
  · -- either of two fragments goes to the fragment table, and what comes out was put together
    rw [htwo] at hsent hassembled
    have harrives := way.arrives
    have hoffset : Dpdk.reference.ipv4FragPktIsFragmented way.received.fragmentOffset = true := by
      rcases List.mem_pair.mp hsent with hf | hf
      · rw [hf] at harrives
        rw [harrives.fragmentOffset_eq hfirst.head, hfirst.offset]
        decide
      · rw [hf] at harrives
        rw [harrives.fragmentOffset_eq hlast.head, hlast.offset]
        decide
    rcases hcases with ⟨-, hsome⟩ | ⟨hfalse, -⟩
    · exact ⟨[], carries_of_reassembly hlong hfirst hlast (hassembled whole hsome)⟩
    · rw [hoffset] at hfalse
      cases hfalse

end Journey

/-- **Round trip.** Whatever socket of the peer a payload gets to, `udpdk_recvfrom` returns it
there, cut to the size of the buffer, with the address that the socket of the sender is bound
to. -/
theorem end_to_end (dpdk peerDpdk : Dpdk) (config peerConfig : Configuration)
    (zones peerZones : AllocatorZones) {log peerLog : List SystemEvent} {S T : System}
    (run : Run (SystemEvent.step dpdk config) (systemInit zones) log S)
    (peerRun : Run (SystemEvent.step peerDpdk peerConfig) (systemInit peerZones) peerLog T)
    (hfragmented : peerDpdk.ipv4FragPktIsFragmented = Dpdk.reference.ipv4FragPktIsFragmented)
    {pkt : Option ℕ} {sockfd flags : ℤ} {buf : List Byte} {destAddr : Option SockaddrIn}
    {addrlen count : ℕ} {m d : Mbuf} {σ σ' : Shared} {b : BindInfo}
    (hsend : udpdkSendto dpdk config pkt sockfd buf flags destAddr addrlen S.shared =
      .ok (.ok (m, count), σ'))
    (way : Journey peerDpdk m T b d) {s : ℕ} (hs : s < numSocketsMax)
    (used : (σ.desc.slots s).used) (awake : σ.interrupted = false)
    {q : BoundedQueue (Option Mbuf)} (hq : (σ.rxQ s).dequeue = some (some d, q))
    {n room : ℕ} (hn : n < 2 ^ 32) (hroom : sizeofSockaddrIn ≤ room) :
    let slot := σ'.desc.slots sockfd.toNat
    slot.bound ∧ ∃ received σ'', udpdkRecvfrom s false n 0 true (some room) σ =
        .ok (.ok (d, received), σ'') ∧
      received.count = min n buf.length ∧ received.bytes = buf.take (min n buf.length) ∧
      received.src = some (⟨afInet, slot.udpPort,
        if slot.ipAddr = inaddrAny then config.srcIpAddr else slot.ipAddr⟩, sizeofSockaddrIn) := by
  have ok := Shared.Ok.systemRun run
  have okPeer := Shared.Ok.systemRun peerRun
  have spec :
      Prog.wp _ (udpdkSendto dpdk config pkt sockfd buf flags destAddr addrlen) _ S.shared :=
    udpdkSendto_outcome ok
  obtain ⟨-, t, dest, haccepts, hsent⟩ := Prog.wp_of_ok spec hsend
  obtain ⟨addr, -, rfl⟩ := hsent.frame
  have hfits := hsent.fits
  have hhead :
      (fillMbuf addr (buildFrame dpdk config (σ'.desc.slots t) dest buf)).head.dataLen.toNat
        = sizeofHeaders + buf.length := length_head_fillMbuf hfits
  have hlen : (fillMbuf addr (buildFrame dpdk config (σ'.desc.slots t) dest buf)).bytes.length ≤
      mbufDataRoom := by
    rw [Mbuf.bytes_eq, List.length_append, Segment.length_bytes, hhead]
    exact hfits
  obtain ⟨padding, hcarries⟩ := way.carries okPeer.mem hfragmented (hhead ▸ Nat.le_add_right _ _)
    fragmentOffset_fillMbuf hlen
  obtain ⟨hcount, hbytes, hsrc⟩ := hcarries.read hfits hn hroom
  have haddr : true → (some room).isSome := fun _ => rfl
  obtain ⟨σ'', hret⟩ := exists_udpdkRecvfrom hs used awake hq n haddr
  have hslot : sockfd.toNat = t := by rw [haccepts.fd, Int.toNat_natCast]
  have hsource : sourceAddr config (σ'.desc.slots t) =
      if (σ'.desc.slots t).ipAddr = inaddrAny then config.srcIpAddr
      else (σ'.desc.slots t).ipAddr := by
    unfold sourceAddr
    by_cases hany : (σ'.desc.slots t).ipAddr = inaddrAny
    · rw [if_neg (fun h => h.2 hany), if_pos hany]
    · rw [if_pos ⟨hsent.bound, hany⟩, if_neg hany]
  rw [hsource] at hsrc
  dsimp only
  rw [hslot]
  exact ⟨hsent.bound, _, σ'', hret, hcount, hbytes, hsrc⟩

/-- Three bytes that a socket sends to a socket of a host like its own, which reads two. -/
theorem end_to_end_of_bytes : ∃ (S : System) (σ' : Shared) (m d : Mbuf) (received : Received),
    udpdkSendto Dpdk.reference Configuration.zero (some 0) 0 [1, 2, 3] 0 (some ⟨afInet, 53, 7⟩)
      sizeofSockaddrIn S.shared = .ok (.ok (m, 3), σ') ∧
    (∃ σ'', udpdkRecvfrom 0 false 2 0 true (some sizeofSockaddrIn) (sharedHolding d) =
      .ok (.ok (d, received), σ'')) ∧
    received.bytes = [1, 2] := by
  obtain ⟨σ, run, ⟨hbindings, hσ, hslot, -⟩⟩ :=
    exists_run_bound ⟨0, 0, 0, 0⟩ (s := 0) (by decide) 7 53
  have run' := run_api (S := systemInit ⟨0, 0, 0, 0⟩) run
  obtain ⟨m, hm⟩ : ∃ m, m = fillMbuf 0 (buildFrame Dpdk.reference Configuration.zero
      (σ.desc.slots 0) ⟨afInet, 53, 7⟩ [1, 2, 3]) := ⟨_, rfl⟩
  obtain ⟨q, hq⟩ : ∃ q, (σ.txQ 0).enqueue m = some q := by
    rw [hσ]
    exact ⟨_, rfl⟩
  have hsend := udpdkSendto_eq (σ := σ) (s := 0) (by decide) (by rw [hslot]) (by rw [hslot])
    (by decide) (hm ▸ hq)
  rw [← hm] at hsend
  have hd : datagramOf Dpdk.reference (.smooth []) m = some m := hm ▸ datagramOf_fillMbuf _
  have hrec : newBinding 0 7 0 ∈ receivers m.dstAddr (σ.mem.bindings m.dstPort) := by
    rw [hm, dstAddr_fillMbuf, dstPort_fillMbuf, hbindings]
    decide
  have hspace : System.HasRoom { systemInit ⟨0, 0, 0, 0⟩ with shared := σ } (some m) := by
    apply hasRoom_of_empty fun _ => rfl
    rw [hm, dstPort_fillMbuf, hbindings]
    decide
  obtain ⟨delivered, T', d, hret, hmem, -⟩ := exists_delivered
    (Shared.Ok.systemRun run') (fun n => Option.some_ne_none n) hd hspace hrec
  have hbytes : m.bytes.length = 45 ∧ m.head.dataLen.toNat = 45 ∧ m.pktLen.toNat = 45 := by
    rw [hm, hslot]
    decide
  have way : Journey Dpdk.reference m { systemInit ⟨0, 0, 0, 0⟩ with shared := σ }
      (newBinding 0 7 0) d := {
    choices := { DpdkChoices.smooth [] with fragments := none }
    frames := [m]
    transmits := transmits_of_small (hbytes.2.2 ▸ Nat.le_of_ble_eq_true rfl)
    fragments := fun _ h => by cases h
    frame := m
    sent := List.mem_singleton_self m
    received := m
    arrives := ⟨⟨[], (List.append_nil _).symm, fun h => absurd rfl h⟩, by
      rw [hbytes.1, hbytes.2.1]
      rfl⟩
    peerChoices := .smooth []
    assembled := fun _ h => by cases h
    delivered := delivered
    after := T'
    demultiplexes := hret
    delivers := hmem }
  obtain ⟨-, received, σ'', hrecv, -, hread, -⟩ := end_to_end Dpdk.reference Dpdk.reference
    Configuration.zero Configuration.zero ⟨0, 0, 0, 0⟩ ⟨0, 0, 0, 0⟩ run' run' rfl hsend way
    (σ := sharedHolding d) (s := 0) (by decide) rfl rfl rfl (n := 2) (by decide) le_rfl
  exact ⟨{ systemInit ⟨0, 0, 0, 0⟩ with shared := σ }, _, m, d, received, hsend, ⟨σ'', hrecv⟩,
    hread⟩

end Udpdk
