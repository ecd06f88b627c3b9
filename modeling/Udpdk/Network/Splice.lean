import Udpdk.Network.Hosts

/-!
# Spliced datagrams

`udpdk_sendto` writes the same `packet_id` into every header, so the fragments of two calls
between the same addresses look alike to the fragment table. As long as there are no two such
calls outstanding nothing is spliced; and two of them, with a fragment of each lost, are enough.

## Main results

* `no_spliced_datagrams` — identified calls are not spliced, in any run
* `reassemblyOf_samples` — fragments of two packets make a datagram
* `not_no_spliced_datagrams` — a datagram made from fragments of two calls
-/

namespace Udpdk

open Foundation

/-- **No spliced datagrams.** In every run in which no two calls that need fragmentation have
the same addresses, every datagram that the poller of the peer delivers was passed whole to one
call, whatever frames are lost or overtake each other. -/
theorem no_spliced_datagrams (dpdk peerDpdk : Dpdk) (config peerConfig : Configuration)
    (zones peerZones : AllocatorZones)
    (hfragmented : peerDpdk.ipv4FragPktIsFragmented = Dpdk.reference.ipv4FragPktIsFragmented)
    {log : List HostsEvent} {N : Hosts}
    (run : Run (fun e N N' => e.step dpdk peerDpdk config peerConfig N N' ∧ e.Identified config N)
      (hostsInit zones peerZones) log N) : N.Unspliced := by
  have inv : N.Inv dpdk config :=
    run.state_invariant .init fun _ _ _ inv h => inv.step hfragmented h.1 h.2
  exact inv.unspliced

/-! ## Fragments, one by one -/

/-- A fragment with its header in one segment and its payload in another. -/
def sampleFragment (m : Mbuf) (off : ℕ) (more : Bool) (piece : List Byte) : Mbuf where
  addr := 0
  packetType := ptypeEtherIpv4Udp
  pktLen := BitVec.ofNat 32 (sizeofIpv4Hdr + piece.length)
  head := {
    data := fun i =>
      if i = 6 then (fragmentField off more).extractLsb' 0 8
      else if i = 7 then (fragmentField off more).extractLsb' 8 8
      else m.load8 (sizeofEtherHdr + i)
    dataLen := BitVec.ofNat 16 sizeofIpv4Hdr }
  chain := [{ data := fun i => piece.getD i 0, dataLen := BitVec.ofNat 16 piece.length }]

def sampleSplit (m : Mbuf) : List Mbuf :=
  [sampleFragment m 0 true ((m.bytes.drop (sizeofEtherHdr + sizeofIpv4Hdr)).take fragSize),
    sampleFragment m fragSize false
      ((m.bytes.drop (sizeofEtherHdr + sizeofIpv4Hdr)).drop fragSize)]

section Samples

variable {m f : Mbuf} {off : ℕ} {more : Bool} {piece bufA bufB : List Byte} {addr : ℕ}

theorem bytes_getD (h : piece.length < 2 ^ 16) :
    ({ data := fun i => piece.getD i 0, dataLen := BitVec.ofNat 16 piece.length } : Segment).bytes =
      piece := by
  have hlen : (BitVec.ofNat 16 piece.length).toNat = piece.length := by
    rw [BitVec.toNat_ofNat, Nat.mod_eq_of_lt h]
  rw [Segment.bytes, hlen]
  apply List.ext_getElem
  · simp
  · intro i _ hi
    simp [List.getElem?_eq_getElem hi]

theorem bytes_sampleFragment (h : piece.length < 2 ^ 16) :
    (sampleFragment m off more piece).bytes.drop sizeofIpv4Hdr = piece ∧
      (sampleFragment m off more piece).bytes.length = sizeofIpv4Hdr + piece.length := by
  have hhead : (sampleFragment m off more piece).head.bytes.length = sizeofIpv4Hdr :=
    Segment.length_bytes _
  have hchain : (sampleFragment m off more piece).chain.flatMap Segment.bytes = piece := by
    rw [sampleFragment, List.flatMap_singleton, bytes_getD h]
  rw [Mbuf.bytes_eq, hchain]
  exact ⟨List.drop_left' hhead, by rw [List.length_append, hhead]⟩

/-- The two fragments are what DPDK documents. -/
theorem fragmentsOf_sampleSplit
    (hlong : fragSize < (m.bytes.drop (sizeofEtherHdr + sizeofIpv4Hdr)).length)
    (hmax : (m.bytes.drop (sizeofEtherHdr + sizeofIpv4Hdr)).length ≤ 2 * fragSize) :
    FragmentsOf m (sampleSplit m) := by
  have hfull : fragSize = 1480 := rfl
  generalize hbody : m.bytes.drop (sizeofEtherHdr + sizeofIpv4Hdr) = body at hlong hmax
  have hsplit : sampleSplit m = [sampleFragment m 0 true (body.take fragSize),
      sampleFragment m fragSize false (body.drop fragSize)] := by rw [sampleSplit, hbody]
  have hfirstLen : (body.take fragSize).length = fragSize := by
    rw [List.length_take, min_eq_left hlong.le]
  have hlastLen : (body.drop fragSize).length = body.length - fragSize := List.length_drop
  have hfirst : (sampleFragment m 0 true (body.take fragSize)).bytes.drop sizeofIpv4Hdr =
      body.take fragSize ∧ (sampleFragment m 0 true (body.take fragSize)).bytes.length =
        sizeofIpv4Hdr + (body.take fragSize).length := bytes_sampleFragment (by omega)
  have hlast : (sampleFragment m fragSize false (body.drop fragSize)).bytes.drop sizeofIpv4Hdr =
      body.drop fragSize ∧ (sampleFragment m fragSize false (body.drop fragSize)).bytes.length =
        sizeofIpv4Hdr + (body.drop fragSize).length := bytes_sampleFragment (by omega)
  rw [hsplit]
  refine ⟨fun frag hfrag => ?_, fun frag hfrag i hi hrewritten => ?_, fun k hk => ?_, ?_,
    fun frag hfrag => ?_, fun frag hfrag => ?_⟩
  · rcases List.mem_pair.mp hfrag with rfl | rfl
    · rfl
    · rfl
  · have hsix : i ≠ 6 := fun h => hrewritten (h ▸ by decide)
    have hseven : i ≠ 7 := fun h => hrewritten (h ▸ by decide)
    rcases List.mem_pair.mp hfrag with rfl | rfl
    · exact (if_neg hsix).trans (if_neg hseven)
    · exact (if_neg hsix).trans (if_neg hseven)
  · -- each of the two has its own offset field
    match k, hk with
    | 0, _ => exact append_bytes16 _
    | 1, _ => exact append_bytes16 _
  · rw [hbody, List.flatMap_cons, List.flatMap_singleton, hfirst.1, hlast.1,
      List.take_append_drop]
  · obtain rfl := List.mem_singleton.mp hfrag
    rw [hfirst.2, hfirstLen]
  · rcases List.mem_pair.mp hfrag with rfl | rfl
    · rw [hfirst.2, hfirstLen]
      omega
    · rw [hlast.2, hlastLen]
      omega

theorem arrivesAs_fillMbuf (h : f.bytes.length ≤ mbufDataRoom) :
    ArrivesAs f (fillMbuf addr f.bytes) := by
  have hroom : mbufDataRoom = 2048 := rfl
  have hbytes : (fillMbuf addr f.bytes).bytes = f.bytes := bytes_fillMbuf (by omega)
  refine ⟨⟨[], by rw [hbytes, List.append_nil], fun h => absurd rfl h⟩, ?_⟩
  have hlen : (fillMbuf addr f.bytes).head.dataLen.toNat = f.bytes.length := by
    change ((BitVec.ofNat 32 f.bytes.length).setWidth 16).toNat = f.bytes.length
    rw [BitVec.toNat_setWidth, BitVec.toNat_ofNat]
    omega
  rw [hlen, hbytes, min_eq_left h]

end Samples

/-! ## A sender and a peer -/

/-- The socket that sends, and the one that receives. -/
def sampleSlot : ExchSlotInfo :=
  { ExchSlotInfo.zero with
    used := true, bound := true, sockfd := (0 : ℕ), udpPort := 53, ipAddr := 7 }

def sampleDest : SockaddrIn := ⟨afInet, 53, 7⟩

def samplePkt (buf : List Byte) : Mbuf :=
  fillMbuf 0 (buildFrame Dpdk.reference Configuration.zero sampleSlot sampleDest buf)

/-- A payload that takes two fragments. -/
structure NeedsTwo (buf : List Byte) : Prop where
  long : fragSize < buf.length + sizeofUdpHdr
  fits : sizeofHeaders + buf.length ≤ mbufDataRoom

section Pieces

variable {bufA bufB buf : List Byte} {first last : Mbuf} {choices : DpdkChoices} {i : ℕ}

theorem bytes_samplePkt (h : NeedsTwo buf) : (samplePkt buf).bytes =
    frameHeaders Dpdk.reference Configuration.zero sampleSlot sampleDest buf.length ++ buf := by
  have hroom : mbufDataRoom = 2048 := rfl
  have hfits := h.fits
  have hlen : (buildFrame Dpdk.reference Configuration.zero sampleSlot sampleDest buf).length <
      2 ^ 16 := by
    rw [length_buildFrame]
    omega
  exact bytes_fillMbuf hlen

theorem length_samplePkt (h : NeedsTwo buf) : (samplePkt buf).head.dataLen.toNat =
    sizeofHeaders + buf.length := length_head_fillMbuf h.fits

theorem load8_samplePkt (hi : i < sizeofHeaders) : (samplePkt buf).load8 i =
    (frameHeaders Dpdk.reference Configuration.zero sampleSlot sampleDest buf.length).getD i 0 := by
  have hlen : i < (frameHeaders Dpdk.reference Configuration.zero sampleSlot sampleDest
      buf.length).length := hi
  change (frameHeaders Dpdk.reference Configuration.zero sampleSlot sampleDest buf.length ++
    buf).getD i 0 = _
  rw [List.getD_eq_getElem?_getD, List.getD_eq_getElem?_getD, List.getElem?_append_left hlen]

theorem drop_samplePkt (h : NeedsTwo buf) :
    (samplePkt buf).bytes.drop (sizeofEtherHdr + sizeofIpv4Hdr) =
      (frameHeaders Dpdk.reference Configuration.zero sampleSlot sampleDest buf.length).drop
        (sizeofEtherHdr + sizeofIpv4Hdr) ++ buf := by
  rw [bytes_samplePkt h, List.drop_append_of_le_length]
  exact Nat.le_of_ble_eq_true rfl

theorem length_drop_samplePkt (h : NeedsTwo buf) :
    ((samplePkt buf).bytes.drop (sizeofEtherHdr + sizeofIpv4Hdr)).length =
      sizeofUdpHdr + buf.length := by
  rw [drop_samplePkt h, List.length_append, List.length_drop, length_frameHeaders]
  rfl

/-- The two frames of a packet that needs two. -/
theorem exists_pieces (h : NeedsTwo buf)
    (hfrags : choices.fragments = some (sampleSplit (samplePkt buf)))
    (hprepend : choices.prependFails = false) : ∃ first last,
      txFrames choices (samplePkt buf) = [first, last] ∧
      PieceOf (samplePkt buf) first 0 true
        (((samplePkt buf).bytes.drop (sizeofEtherHdr + sizeofIpv4Hdr)).take fragSize) ∧
      PieceOf (samplePkt buf) last fragSize false
        (((samplePkt buf).bytes.drop (sizeofEtherHdr + sizeofIpv4Hdr)).drop fragSize) := by
  have hfull : fragSize = 1480 := rfl
  have hudp : sizeofUdpHdr = 8 := rfl
  have hheaders : sizeofHeaders = 42 := rfl
  have hfront : sizeofEtherHdr + sizeofIpv4Hdr = 34 := rfl
  have hroom : mbufDataRoom = 2048 := rfl
  have hlong := h.long
  have hfits := h.fits
  have hbody := length_drop_samplePkt h
  have hhead := length_samplePkt h
  have hdocs : ∀ frags ∈ choices.fragments, FragmentsOf (samplePkt buf) frags := by
    intro frags hmem
    rw [hfrags] at hmem
    obtain rfl := Option.some.inj hmem
    exact fragmentsOf_sampleSplit (by omega) (by omega)
  have htwo : (txFrames choices (samplePkt buf)).length = 2 := by
    have hpktLen : (samplePkt buf).pktLen.toNat = sizeofHeaders + buf.length := by
      rw [samplePkt, fillMbuf, length_buildFrame, BitVec.toNat_ofNat]
      omega
    have hmtu : ¬ (samplePkt buf).pktLen.toNat ≤ ipv4MtuDefault := by
      have : ipv4MtuDefault = 1500 := rfl
      omega
    rw [txFrames, if_neg hmtu, hprepend, hfrags]
    rfl
  -- of the three ways to send the packet only the one with two frames is left
  rcases txFrames_pieces hdocs (by omega) fragmentOffset_fillMbuf (by omega) (by omega) with
    hnil | ⟨f, hone, -⟩ | ⟨first, last, hpair, -, hfirst, hlast⟩
  · rw [hnil] at htwo
    cases htwo
  · rw [hone] at htwo
    cases htwo
  · exact ⟨first, last, hpair, hfirst, hlast⟩

/-- The first fragment of one packet and the last of another one make a packet, if the payloads
have the same length. -/
theorem reassemblyOf_samples (hA : NeedsTwo bufA) (hB : NeedsTwo bufB)
    (hlen : bufB.length = bufA.length)
    (hfirst : PieceOf (samplePkt bufA) first 0 true
      (((samplePkt bufA).bytes.drop (sizeofEtherHdr + sizeofIpv4Hdr)).take fragSize))
    (hlast : PieceOf (samplePkt bufB) last fragSize false
      (((samplePkt bufB).bytes.drop (sizeofEtherHdr + sizeofIpv4Hdr)).drop fragSize)) :
    ReassemblyOf [first, last] (samplePkt
      (bufA.take (fragSize - sizeofUdpHdr) ++ bufB.drop (fragSize - sizeofUdpHdr))) := by
  have hfull : fragSize = 1480 := rfl
  have hudp : sizeofUdpHdr = 8 := rfl
  have hheaders : sizeofHeaders = 42 := rfl
  have hfront : sizeofEtherHdr + sizeofIpv4Hdr = 34 := rfl
  obtain ⟨spliced, hspliced⟩ : ∃ spliced, spliced =
      bufA.take (fragSize - sizeofUdpHdr) ++ bufB.drop (fragSize - sizeofUdpHdr) := ⟨_, rfl⟩
  have hsplicedLen : spliced.length = bufA.length := by
    rw [hspliced, List.length_append, List.length_take, List.length_drop, hlen]
    have := hA.long
    omega
  have htwo : NeedsTwo spliced := ⟨by rw [hsplicedLen]; exact hA.long,
    by rw [hsplicedLen]; exact hA.fits⟩
  rw [← hspliced]
  refine ⟨fun f hf => ?_, fun f hf i hi hrewritten => ?_, ?_⟩
  · obtain rfl := Option.some.inj hf
    have hbody := length_drop_samplePkt hA
    rw [length_samplePkt htwo, hsplicedLen, hfirst.length_bytes, List.length_take, hbody]
    omega
  · -- payloads of the same length have the same headers
    obtain rfl := Option.some.inj hf
    rw [hfirst.header i hi hrewritten, load8_samplePkt (by omega), load8_samplePkt (by omega),
      hsplicedLen]
  · -- behind the UDP header, the pieces are cut at the same place
    obtain ⟨udp, hudpHdr⟩ : ∃ udp, udp = (frameHeaders Dpdk.reference Configuration.zero sampleSlot
        sampleDest bufA.length).drop (sizeofEtherHdr + sizeofIpv4Hdr) := ⟨_, rfl⟩
    have hudpLen : udp.length = sizeofUdpHdr := by
      rw [hudpHdr, List.length_drop, length_frameHeaders]
      rfl
    have hcut : fragSize = udp.length + (fragSize - sizeofUdpHdr) := by omega
    rw [List.flatMap_cons, List.flatMap_singleton, hfirst.bytes, hlast.bytes, drop_samplePkt htwo,
      drop_samplePkt hA, drop_samplePkt hB, hsplicedLen, hlen, ← hudpHdr, hspliced,
      ← List.append_assoc]
    conv_rhs => rw [hcut]
    rw [List.take_length_add_append, List.drop_length_add_append]

theorem PieceOf.flowKey_eq {m f : Mbuf} {off : ℕ} {more : Bool} {piece : List Byte}
    (h : PieceOf m f off more piece) : f.flowKey = m.flowKey := by
  have hload : ∀ j, j < sizeofEtherHdr + sizeofIpv4Hdr → j ∉ rewrittenBytes →
      f.load8 j = m.load8 j := h.header
  simp only [Mbuf.flowKey, Mbuf.srcAddr, Mbuf.dstAddr, Mbuf.packetId, Mbuf.load32, Mbuf.load16]
  rw [hload _ (by decide) (by decide), hload _ (by decide) (by decide),
    hload _ (by decide) (by decide), hload _ (by decide) (by decide),
    hload _ (by decide) (by decide), hload _ (by decide) (by decide),
    hload _ (by decide) (by decide), hload _ (by decide) (by decide),
    hload _ (by decide) (by decide), hload _ (by decide) (by decide)]

theorem flowKey_samplePkt : (samplePkt bufB).flowKey = (samplePkt bufA).flowKey := by
  rw [Mbuf.flowKey, Mbuf.flowKey, samplePkt, samplePkt, srcAddr_fillMbuf, srcAddr_fillMbuf,
    dstAddr_fillMbuf, dstAddr_fillMbuf, packetId_fillMbuf, packetId_fillMbuf]

/-- What the network card of the peer makes of a frame. -/
def receivedAs (f : Mbuf) : Mbuf := fillMbuf 0 f.bytes

theorem fragmented_receivedAs {m f : Mbuf} {off : ℕ} {more : Bool} {piece : List Byte}
    (h : PieceOf m f off more piece) (hlen : f.bytes.length ≤ mbufDataRoom)
    (hfield : Dpdk.reference.ipv4FragPktIsFragmented (fragmentField off more) = true) :
    Dpdk.reference.ethIsIpv4Hdr (receivedAs f).packetType = true ∧
      Dpdk.reference.ipv4FragPktIsFragmented (receivedAs f).fragmentOffset = true := by
  have harrives : ArrivesAs f (receivedAs f) := arrivesAs_fillMbuf hlen
  have hip : Dpdk.reference.ethIsIpv4Hdr ptypeEtherIpv4Udp = true := by decide
  rw [harrives.fragmentOffset_eq h.head, h.offset]
  exact ⟨hip, hfield⟩

theorem tiles_pieces (hA : NeedsTwo bufA)
    (hfirst : PieceOf (samplePkt bufA) first 0 true
      (((samplePkt bufA).bytes.drop (sizeofEtherHdr + sizeofIpv4Hdr)).take fragSize))
    (hlast : PieceOf (samplePkt bufB) last fragSize false
      (((samplePkt bufB).bytes.drop (sizeofEtherHdr + sizeofIpv4Hdr)).drop fragSize)) :
    Tiles Mbuf.fragmentStart Mbuf.fragmentLen Mbuf.isLastFragment 0 [first, last] := by
  have hlong := hA.long
  have hbody := length_drop_samplePkt hA
  obtain ⟨hstart, hlen, hmore⟩ := hfirst.kind_first (by omega)
  obtain ⟨hbehind, hend⟩ := hlast.kind_last
  refine .cons hstart hmore (.last ?_ hend)
  rw [hbehind, hlen, Nat.zero_add]

end Pieces

/-! ## Two hosts with a socket each -/

/-- A run of the sample hosts in which every call is identified. -/
abbrev SampleRun (N : Hosts) (log : List HostsEvent) (N' : Hosts) : Prop :=
  Run (fun e N N' =>
    e.step Dpdk.reference Dpdk.reference Configuration.zero Configuration.zero N N' ∧
    e.Identified Configuration.zero N) N log N'

/-- The poller is at the start of its loop with an empty table, slot 0 is bound, no other slot is
in use, and the tx ring of slot 0 has the packets `ms`. -/
structure System.Waiting (S : System) (ms : List Mbuf) : Prop where
  place : S.pc = .txSlot 0
  count : S.txCount = 0
  slot : S.shared.desc.slots 0 = sampleSlot
  unused : ∀ t, 0 < t → (S.shared.desc.slots t).used = false
  items : (S.shared.txQ 0).items = ms
  room : 0 < (S.shared.txQ 0).capacity

/-- What DPDK does with a packet that needs two fragments. -/
def sampleChoices (buf : List Byte) : DpdkChoices :=
  { DpdkChoices.whole [] with fragments := some (sampleSplit (samplePkt buf)) }

def sampleSend (buf : List Byte) : SystemEvent :=
  .api (.sendto (some 0) 0 buf 0 (some sampleDest) sizeofSockaddrIn
    (.ok (samplePkt buf, buf.length)))

section Steps

variable {N : Hosts} {S : System} {buf : List Byte} {log : List SystemEvent} {first last : Mbuf}

theorem fragments_of_quiet {e : SystemEvent} (h : e.moves = false) : e.Fragments := by
  cases e with
  | api e => trivial
  | poller choices happened =>
    cases happened with
    | txTake => cases h
    | _ => trivial

theorem identified_of_quiet {e : SystemEvent} (h : e.moves = false) :
    (HostsEvent.sender e).Identified Configuration.zero N := by
  cases e with
  | poller => trivial
  | api e =>
    cases e with
    | sendto pkt sockfd buf flags destAddr addrlen ret =>
      cases ret with
      | error e => cases destAddr <;> trivial
      | ok r => cases h
    | _ => trivial

theorem run_sender (run : Run (SystemEvent.step Dpdk.reference Configuration.zero) N.sender log S)
    (quiet : ∀ e ∈ log, e.moves = false) :
    SampleRun N (log.map .sender) { N with sender := S } := by
  induction run with
  | nil => exact .nil
  | @snoc T U log e run hstep ih =>
    have hquiet : e.moves = false := quiet e (by simp)
    rw [List.map_append]
    refine (ih fun e he => quiet e (List.mem_append_left _ he)).snoc
      ⟨⟨fragments_of_quiet hquiet, U, hstep, ?_⟩, identified_of_quiet hquiet⟩
    rw [Hosts.note_eq hquiet]

theorem run_peer (run : Run (SystemEvent.step Dpdk.reference Configuration.zero) N.peer log S)
    (quiet : ∀ e ∈ log, e.demultiplexes = false) :
    SampleRun N (log.map .peer) { N with peer := S } := by
  induction run with
  | nil => exact .nil
  | @snoc T U log e run hstep ih =>
    rw [List.map_append]
    exact (ih fun e he => quiet e (List.mem_append_left _ he)).snoc
      ⟨⟨quiet e (by simp), U, hstep, rfl⟩, trivial⟩

/-- The socket sends. -/
theorem step_sampleSend (h : S.Waiting []) (two : NeedsTwo buf) :
    ∃ S', (sampleSend buf).step Dpdk.reference Configuration.zero S S' ∧
      S'.Waiting [samplePkt buf] ∧ S'.sent = S.sent := by
  obtain ⟨q, hq⟩ : ∃ q, (S.shared.txQ 0).enqueue (samplePkt buf) = some q := by
    cases hq : (S.shared.txQ 0).enqueue (samplePkt buf) with
    | some q => exact ⟨q, rfl⟩
    | none =>
      have hfull := BoundedQueue.enqueue_eq_none_iff.mp hq
      rw [h.items, List.length_nil] at hfull
      exact absurd h.room (not_lt.mpr hfull)
  obtain ⟨-, hcapacity, hitems⟩ := BoundedQueue.enqueue_eq_some_iff.mp hq
  have hsend : udpdkSendto Dpdk.reference Configuration.zero (some 0) (0 : ℕ) buf 0
      (some sampleDest) sizeofSockaddrIn S.shared = _ :=
    udpdkSendto_eq (by decide) (by rw [h.slot]; rfl) (by rw [h.slot]; rfl) two.fits
      (by rw [h.slot]; exact hq)
  rw [h.slot] at hsend
  refine ⟨_, ⟨_, hsend, rfl⟩, ⟨h.place, h.count, h.slot, h.unused, ?_, ?_⟩, rfl⟩
  · change (Function.update S.shared.txQ 0 q 0).items = _
    rw [Function.update_self, hitems, h.items]
    rfl
  · change 0 < (Function.update S.shared.txQ 0 q 0).capacity
    rw [Function.update_self, hcapacity]
    exact h.room

/-- Since `S`, the packet in the ring was taken, and its two frames are in the table. -/
structure System.Holding (S T : System) (first last : Mbuf) : Prop where
  place : T.pc = .txDrain 0
  desc : T.shared.desc = S.shared.desc
  items : (T.shared.txQ 0).items = []
  room : 0 < (T.shared.txQ 0).capacity
  staged : T.staged = [some first, some last]
  sent : T.sent = S.sent

/-- The poller visits slot 0 and takes the packet. -/
theorem exists_taken (h : S.Waiting [samplePkt buf])
    (hframes : txFrames (sampleChoices buf) (samplePkt buf) = [first, last]) :
    ∃ T T', (SystemEvent.poller (.whole []) .internal).step Dpdk.reference Configuration.zero S T ∧
      (SystemEvent.poller (sampleChoices buf) (.txTake 0 (samplePkt buf))).step Dpdk.reference
        Configuration.zero T T' ∧ S.Holding T' first last := by
  have hvisit : pollerStep Dpdk.reference (.whole []) S =
      .ok (.internal, { S with pc := .txDrain 0 }) := by
    rw [pollerStep_txSlot h.place (by decide), h.slot]
    rfl
  obtain ⟨T, hT⟩ : ∃ T : System, T = { S with pc := .txDrain 0 } := ⟨_, rfl⟩
  rw [← hT] at hvisit
  obtain ⟨q, hq⟩ : ∃ q, (S.shared.txQ 0).dequeue = some (samplePkt buf, q) := by
    cases hq : (S.shared.txQ 0).dequeue with
    | none =>
      have hnil := BoundedQueue.dequeue_eq_none_iff.mp hq
      rw [h.items] at hnil
      cases hnil
    | some mq =>
      obtain ⟨m, q⟩ := mq
      have hitems := (BoundedQueue.dequeue_eq_some_iff.mp hq).2
      rw [h.items] at hitems
      rw [(List.cons.inj hitems).1]
      exact ⟨q, rfl⟩
  obtain ⟨hcapacity, hitems⟩ := BoundedQueue.dequeue_eq_some_iff.mp hq
  rw [h.items] at hitems
  have hcount : T.txCount = 0 := by rw [hT]; exact h.count
  have hfit : ∀ frags ∈ (sampleChoices buf).fragments, T.txCount + frags.length ≤
      txMbufTableSize := by
    intro frags hmem
    obtain rfl := Option.some.inj hmem
    rw [hcount]
    exact Nat.le_of_ble_eq_true rfl
  have hroom : T.txCount < burstSize := by rw [hcount]; decide
  have htaken : ∃ T', pollerStep Dpdk.reference (sampleChoices buf) T =
      .ok (.txTake 0 (samplePkt buf), T') ∧ _ :=
    pollerStep_txDrain_cons (by rw [hT]) (by rw [hT]; exact hq) hroom hfit
      (by rw [sampleChoices]; exact Option.some_ne_none _)
  obtain ⟨T', htake, hstages⟩ := htaken
  have htxQ : T'.shared.txQ = Function.update S.shared.txQ 0 q := by rw [hstages.rx.txQ, hT]
  have hring : T'.shared.txQ 0 = q := by rw [htxQ, Function.update_self]
  refine ⟨T, T', ⟨admissible_whole (Nat.zero_le _), hvisit⟩,
    ⟨⟨Nat.zero_le _, hfit, Nat.zero_le _⟩, htake⟩, ?_⟩
  refine ⟨by rw [hstages.rx.pc, hT], by rw [hstages.rx.desc, hT], ?_, ?_, ?_,
    by rw [hstages.sent, hT]⟩
  · rw [hring]
    exact (List.cons.inj hitems).2.symm
  · rw [hring, hcapacity]
    exact h.room
  · have hnone : T.staged = [] := by
      rw [← List.length_eq_zero_iff, length_staged, hcount]
    have hboth : T'.staged = T.staged ++ (txFrames (sampleChoices buf) (samplePkt buf)).map some :=
      hstages.staged
    rw [hboth, hnone, hframes]
    rfl

/-- The ring is empty, the other slots are not in use, and the table is flushed. -/
theorem System.Holding.exists_flushed {T : System} {items : List Mbuf}
    (hold : S.Holding T first last) (h : S.Waiting items) :
    ∃ log S', Run (SystemEvent.step Dpdk.reference Configuration.zero) T log S' ∧
      (∀ e ∈ log, e.moves = false) ∧ S'.Waiting [] ∧ S'.sent = S.sent ++ [first, last] := by
  have hcount : T.txCount = 2 := by rw [← length_staged, hold.staged]; rfl
  have hroom : T.txCount < burstSize := by rw [hcount]; decide
  have hdrained : (SystemEvent.poller (.whole []) .internal).step Dpdk.reference
      Configuration.zero T { T with pc := .txBatch 0 } :=
    ⟨admissible_whole (Nat.zero_le _), pollerStep_txDrain_nil hold.place hroom
      (BoundedQueue.dequeue_eq_none_iff.mpr hold.items)⟩
  have hbatch : (SystemEvent.poller (.whole []) .internal).step Dpdk.reference
      Configuration.zero { T with pc := .txBatch 0 } { T with pc := .txSlot 1 } :=
    ⟨admissible_whole (Nat.zero_le _), pollerStep_txBatch (S := { T with pc := .txBatch 0 }) rfl
      hroom⟩
  have hslots : Run (SystemEvent.step Dpdk.reference Configuration.zero)
      { T with pc := .txSlot 1 } (List.replicate 1023 (.poller (.whole []) .internal))
      { T with pc := .txSlot numSocketsMax } :=
    run_txSlots (S := { T with pc := .txSlot 1 }) 1023 rfl rfl fun t ht _ => by
      change (T.shared.desc.slots t).used = false
      rw [hold.desc]
      exact h.unused t ht
  obtain ⟨U, hflushes, hburst⟩ := @pollerStep_burst Dpdk.reference
    { DpdkChoices.whole [] with txSent := 2 } { T with pc := .txSlot numSocketsMax } _ rfl
    (lt_irrefl numSocketsMax) (by rw [hcount]; exact Nat.zero_lt_two)
  have hburstStep : (SystemEvent.poller { DpdkChoices.whole [] with txSent := 2 }
      (.rxBurst [])).step Dpdk.reference Configuration.zero
      { T with pc := .txSlot numSocketsMax } { U with pc := .txSlot 0 } :=
    ⟨⟨Nat.zero_le _, fun _ hmem => absurd hmem (Option.not_mem_none _), hcount.ge⟩, hburst⟩
  have run := (hslots.snoc hburstStep).cons hbatch |>.cons hdrained
  have hdesc : U.shared.desc = S.shared.desc := hflushes.rx.desc.trans hold.desc
  have hring : U.shared.txQ = T.shared.txQ := hflushes.rx.txQ
  refine ⟨_, _, run, fun e he => ?_, ⟨rfl, ?_, ?_, fun t ht => ?_, ?_, ?_⟩, ?_⟩
  · simp only [List.mem_cons, List.mem_append, List.mem_replicate, List.not_mem_nil, or_false] at he
    rcases he with rfl | rfl | ⟨-, rfl⟩ | rfl
    · rfl
    · rfl
    · rfl
    · rfl
  · rw [← length_staged]
    exact congrArg List.length hflushes.staged
  · rw [← h.slot, ← hdesc]
  · rw [← h.unused t ht, ← hdesc]
  · change (U.shared.txQ 0).items = []
    rw [hring, hold.items]
  · change 0 < (U.shared.txQ 0).capacity
    rw [hring]
    exact hold.room
  · have hall : U.sent = T.sent ++ (T.staged.take 2).filterMap id := hflushes.sent
    change U.sent = _
    rw [hall, hold.sent, hold.staged]
    rfl

/-- The poller goes once through its loop, and sends two frames. -/
theorem exists_transmit (h : S.Waiting [samplePkt buf])
    (hframes : txFrames (sampleChoices buf) (samplePkt buf) = [first, last]) :
    ∃ T T' S' front back,
      Run (SystemEvent.step Dpdk.reference Configuration.zero) S front T ∧
      (∀ e ∈ front, e.moves = false) ∧
      (SystemEvent.poller (sampleChoices buf) (.txTake 0 (samplePkt buf))).step Dpdk.reference
        Configuration.zero T T' ∧
      Run (SystemEvent.step Dpdk.reference Configuration.zero) T' back S' ∧
      (∀ e ∈ back, e.moves = false) ∧
      S'.Waiting [] ∧ S'.sent = S.sent ++ [first, last] := by
  obtain ⟨T, T', hvisit, htake, hold⟩ := exists_taken h hframes
  obtain ⟨back, S', hback, hquiet, hidle, hsent⟩ := hold.exists_flushed h
  refine ⟨T, T', S', _, back, .single hvisit, fun e he => ?_, htake, hback, hquiet, hidle, hsent⟩
  rw [List.mem_singleton.mp he]
  rfl

end Steps

/-! ## Calls, one after the other -/

/-- The call that sends a payload, as the hosts note it. -/
def sampleCall (number : ℕ) (buf : List Byte) : Call where
  number := number
  src := sourceAddr Configuration.zero sampleSlot
  dst := sampleDest.sinAddr
  payload := buf
  pkt := samplePkt buf

/-- The frames `xs` of the calls `cs` have been sent, and the peer has not started. -/
structure Hosts.Sent (N : Hosts) (cs : List Call) (xs : List WireFrame) : Prop where
  sender : N.sender.Waiting []
  peer : N.peer = systemInit ⟨0, 0, 0, 0⟩
  calls : N.calls = cs
  queued : ∀ s, N.queued s = []
  wire : N.wire = xs
  sent : ∀ x ∈ xs, x.frame ∈ N.sender.sent
  table : N.table = []
  delivered : N.delivered = []

section Calls

variable {N : Hosts} {buf : List Byte} {cs : List Call} {xs : List WireFrame}

/-- The sender opens its socket and binds it. -/
theorem exists_run_opened : ∃ log N, SampleRun (hostsInit ⟨0, 0, 0, 0⟩ ⟨0, 0, 0, 0⟩) log N ∧
    N.Sent [] [] := by
  obtain ⟨σ, run, hbound⟩ := exists_run_bound ⟨0, 0, 0, 0⟩ (s := 0) (by decide) 7 53
  have hrun := run_sender (N := hostsInit ⟨0, 0, 0, 0⟩ ⟨0, 0, 0, 0⟩)
    (run_api (S := systemInit ⟨0, 0, 0, 0⟩) run) fun e he => by
      obtain ⟨a, ha, rfl⟩ := List.mem_map.mp he
      rcases List.mem_append.mp ha with hopen | hbind
      · obtain ⟨t, -, rfl⟩ := List.mem_map.mp hopen
        rfl
      · rw [List.mem_singleton.mp hbind]
        rfl
  refine ⟨_, _, hrun, ⟨rfl, rfl, hbound.slot, hbound.unused, ?_, ?_⟩, rfl, rfl, fun _ => rfl, rfl,
    fun _ h => absurd h List.not_mem_nil, rfl, rfl⟩
  · change (σ.txQ 0).items = []
    rw [hbound.frame]
    rfl
  · change 0 < (σ.txQ 0).capacity
    rw [hbound.frame]
    exact Nat.lt_of_sub_eq_succ rfl

/-- A call, and what the poller sends for it. -/
theorem Hosts.Sent.exists_call (h : N.Sent cs xs) (two : NeedsTwo buf) :
    ∃ N₁ log N₂ first last,
      (HostsEvent.sender (sampleSend buf)).step Dpdk.reference Dpdk.reference Configuration.zero
        Configuration.zero N N₁ ∧
      SampleRun N₁ log N₂ ∧
      N₂.Sent (cs ++ [sampleCall cs.length buf]) (xs ++
        [⟨sampleCall cs.length buf, first⟩, ⟨sampleCall cs.length buf, last⟩]) ∧
      PieceOf (samplePkt buf) first 0 true
        (((samplePkt buf).bytes.drop (sizeofEtherHdr + sizeofIpv4Hdr)).take fragSize) ∧
      PieceOf (samplePkt buf) last fragSize false
        (((samplePkt buf).bytes.drop (sizeofEtherHdr + sizeofIpv4Hdr)).drop fragSize) := by
  have hpieces : ∃ first last, txFrames (sampleChoices buf) (samplePkt buf) = [first, last] ∧ _ :=
    exists_pieces two rfl rfl
  obtain ⟨first, last, hframes, hfirst, hlast⟩ := hpieces
  obtain ⟨S, hsend, hwaiting, hsent⟩ := step_sampleSend h.sender two
  obtain ⟨T, T', S', front, back, hfront, hquiet, htake, hback, hquiet', hidle, hall⟩ :=
    exists_transmit hwaiting hframes
  obtain ⟨c, hc⟩ : ∃ c, c = sampleCall cs.length buf := ⟨_, rfl⟩
  rw [← hc]
  obtain ⟨N₁, hN₁⟩ : ∃ N₁ : Hosts, N₁ = { N with
      calls := cs ++ [c]
      queued := Function.update N.queued 0 [c]
      sender := S } := ⟨_, rfl⟩
  have hnote : { N.note Configuration.zero (sampleSend buf) with sender := S } = N₁ := by
    have hslot : N.sender.shared.desc.slots 0 = sampleSlot := h.sender.slot
    have hmade : { N.note Configuration.zero (sampleSend buf) with sender := S } = { N with
        calls := N.calls ++ [c]
        queued := Function.update N.queued 0 (N.queued 0 ++ [c])
        sender := S } := by
      rw [hc, sampleCall, ← hslot, ← h.calls]
      rfl
    rw [hmade, h.queued 0, List.nil_append, h.calls, hN₁]
  obtain ⟨N₂, hN₂⟩ : ∃ N₂ : Hosts, N₂ = { N₁ with
      queued := N.queued
      wire := xs ++ [⟨c, first⟩, ⟨c, last⟩]
      sender := T' } := ⟨_, rfl⟩
  have hput : { ({ N₁ with sender := T } : Hosts).note Configuration.zero
      (.poller (sampleChoices buf) (.txTake 0 (samplePkt buf))) with sender := T' } = N₂ := by
    have hone : N₁.queued = Function.update N.queued 0 [c] := by rw [hN₁]
    have hqueued : N₁.queued 0 = [c] := by rw [hone, Function.update_self]
    have htail : Function.update N₁.queued 0 [] = N.queued := by
      rw [hone, Function.update_idem, ← h.queued 0, Function.update_eq_self]
    have hwire : N₁.wire = xs := by
      rw [hN₁]
      exact h.wire
    rw [Hosts.note_txTake (N := { N₁ with sender := T }) hqueued, hframes, htail, hwire, hN₂]
    rfl
  have hfront' : SampleRun N₁ (front.map .sender) { N₁ with sender := T } :=
    run_sender (by rw [hN₁]; exact hfront) hquiet
  have htake' : (HostsEvent.sender (.poller (sampleChoices buf)
      (.txTake 0 (samplePkt buf)))).step Dpdk.reference Dpdk.reference Configuration.zero
        Configuration.zero { N₁ with sender := T } N₂ := by
    refine ⟨fun frags hmem => ?_, T', htake, hput.symm⟩
    obtain rfl := Option.some.inj hmem
    have hlong := two.long
    have hfits := two.fits
    have hbody := length_drop_samplePkt two
    have hfull : fragSize = 1480 := rfl
    have hudp : sizeofUdpHdr = 8 := rfl
    have hroom : mbufDataRoom = 2048 := rfl
    exact fragmentsOf_sampleSplit (by omega) (by omega)
  have hback' : SampleRun N₂ (back.map .sender) { N₂ with sender := S' } :=
    run_sender (by rw [hN₂]; exact hback) hquiet'
  refine ⟨N₁, _, { N₂ with sender := S' }, first, last, ⟨trivial, S, hsend, hnote.symm⟩,
    (hfront'.snoc ⟨htake', trivial⟩).append hback', ?_, hfirst, hlast⟩
  subst hN₂ hN₁
  refine ⟨hidle, h.peer, rfl, h.queued, rfl, fun x hx => ?_, h.table, h.delivered⟩
  change x.frame ∈ S'.sent
  rw [hall, hsent]
  rcases List.mem_append.mp hx with hx | hx
  · exact List.mem_append_left _ (h.sent x hx)
  · rcases List.mem_pair.mp hx with rfl | rfl
    · simp
    · simp

end Calls

/-! ## The peer -/

section Peer

variable {N : Hosts} {bufA bufB : List Byte} {cs : List Call} {xs : List WireFrame}
  {x y : WireFrame} {before after before' after' : List WireFrame}

/-- The poller of the peer receives two frames, and the peer binds its socket. -/
theorem Hosts.Sent.exists_received (h : N.Sent cs xs) (r r' : Mbuf) : ∃ log P,
    SampleRun N log { N with peer := P } ∧ P.shared.Ok ∧ P.pc = .rx [r, r'] ∧
      (∀ s, P.rxBuffer s = []) ∧ P.shared.mem.bindings 53 = [newBinding 0 7 0] := by
  have hburst := run_firstBurst Dpdk.reference Configuration.zero ⟨0, 0, 0, 0⟩
    (Nat.le_of_ble_eq_true rfl) (List.cons_ne_nil r [r'])
  obtain ⟨σ, run, hbound⟩ := exists_run_bound ⟨0, 0, 0, 0⟩ (s := 0) (by decide) 7 53
  have hall := hburst.append
    (run_api (S := { systemInit ⟨0, 0, 0, 0⟩ with pc := .rx [r, r'] }) run)
  rw [← h.peer] at hall
  refine ⟨_, _, run_peer hall fun e he => ?_, Shared.Ok.run run, rfl,
    fun s => congrArg (fun P => P.rxBuffer s) h.peer, hbound.bindings⟩
  simp only [List.mem_append, List.mem_replicate, List.mem_singleton, List.mem_map] at he
  rcases he with (⟨-, rfl⟩ | rfl) | ⟨e, -, rfl⟩
  · rfl
  · rfl
  · rfl

/-- A fragment waits in the table of the poller. -/
theorem exists_waits {P : System} {m : Mbuf} {pending : List Mbuf} (ok : P.shared.Ok)
    (hplace : P.pc = .rx (m :: pending)) (hip : Dpdk.reference.ethIsIpv4Hdr m.packetType)
    (hfrag : Dpdk.reference.ipv4FragPktIsFragmented m.fragmentOffset) :
    ∃ T : System,
      (SystemEvent.poller (.whole []) (.rxPacket m [])).step Dpdk.reference Configuration.zero P
        { T with pc := .rx pending } ∧ T.shared.Ok ∧ T.rxBuffer = P.rxBuffer ∧
        T.shared.mem.bindings = P.shared.mem.bindings := by
  have hnone : datagramOf Dpdk.reference (.whole []) m = none := by
    rw [datagramOf, if_pos hip, if_pos hfrag]
    rfl
  have hsmooth : ¬ ∃ n, (DpdkChoices.whole []).clone n = none := by
    rintro ⟨n, hn⟩
    exact absurd hn (Option.some_ne_none n)
  have spec : Prog.wp (fun _ => False) (reassemble Dpdk.reference (.whole []) m) _ P :=
    reassemble_spec ok.mem hsmooth fun hfull => hfull (hnone ▸ P.roomFor_nil)
  obtain ⟨delivered, T, hret, hdemux⟩ := Prog.exists_ok_of_wp spec
  rw [hnone] at hdemux
  obtain rfl : delivered = [] := List.map_eq_nil_iff.mp hdemux.receivers
  have hbuffer : T.rxBuffer = P.rxBuffer := by
    rw [hdemux.frame]
    exact funext fun s => List.append_nil (P.rxBuffer s)
  have hstep : (SystemEvent.poller (.whole []) (.rxPacket m [])).step Dpdk.reference
      Configuration.zero P { T with pc := .rx pending } :=
    ⟨admissible_whole (Nat.zero_le _), pollerStep_rx_cons hplace hret⟩
  have ok' : ({ T with pc := .rx pending } : System).shared.Ok := ok.systemStep hstep
  obtain ⟨-, hview, -⟩ := poller_view ok hstep
  exact ⟨T, hstep, ok', hbuffer, congrArg SocketView.bindings hview⟩

/-- What DPDK decides when it puts `d` together. -/
def assembling (d : Mbuf) : DpdkChoices := { DpdkChoices.whole [] with assembled := some d }

/-- The fragment that completes a datagram for the socket is delivered. -/
theorem exists_completed {T : System} {m : Mbuf} {pending : List Mbuf} (ok : T.shared.Ok)
    (hip : Dpdk.reference.ethIsIpv4Hdr m.packetType)
    (hfrag : Dpdk.reference.ipv4FragPktIsFragmented m.fragmentOffset)
    (hempty : ∀ s, T.rxBuffer s = [])
    (hbindings : T.shared.mem.bindings 53 = [newBinding 0 7 0]) (buf : List Byte) :
    ∃ (delivered : List Delivery) (T' : System) (d : Mbuf),
      (SystemEvent.poller (assembling (samplePkt buf))
        (.rxPacket m delivered)).step Dpdk.reference Configuration.zero
          { T with pc := .rx (m :: pending) } { T' with pc := .rx pending } ∧
      (newBinding 0 7 0, some d) ∈ delivered := by
  have hclone : ∀ n, (assembling (samplePkt buf)).clone n ≠ none := fun n =>
    Option.some_ne_none n
  have hsome : datagramOf Dpdk.reference (assembling (samplePkt buf)) m = some (samplePkt buf) := by
    have hpassed : datagramOf Dpdk.reference (assembling (samplePkt buf)) (samplePkt buf) =
      some (samplePkt buf) := datagramOf_fillMbuf _
    rw [datagramOf, if_pos hip, if_pos hfrag]
    exact Option.filter_eq_some_iff.mpr ⟨rfl, (Option.filter_eq_some_iff.mp hpassed).2⟩
  have hrec : newBinding 0 7 0 ∈ receivers (samplePkt buf).dstAddr
      (T.shared.mem.bindings (samplePkt buf).dstPort) := by
    rw [samplePkt, dstAddr_fillMbuf, dstPort_fillMbuf]
    change _ ∈ receivers 7 (T.shared.mem.bindings 53)
    rw [hbindings]
    decide
  have hroom : System.HasRoom { T with pc := .rx (m :: pending) } (some (samplePkt buf)) := by
    apply hasRoom_of_empty hempty
    rw [samplePkt, dstPort_fillMbuf]
    change (T.shared.mem.bindings 53).length ≤ exchBufSize
    rw [hbindings]
    decide
  obtain ⟨delivered, T', d, hret, hmem, -⟩ :=
    Udpdk.exists_delivered (S := { T with pc := .rx (m :: pending) }) ok hclone hsome hroom hrec
  have hadm : (assembling (samplePkt buf)).Admissible { T with pc := .rx (m :: pending) } :=
    ⟨Nat.zero_le _, fun _ hmem => absurd hmem (Option.not_mem_none _), Nat.zero_le _⟩
  exact ⟨delivered, T', d, ⟨hadm, pollerStep_rx_cons rfl hret⟩, hmem⟩

/-- The peer delivers what it puts together from the first fragment of one packet and the last of
another one. -/
theorem Hosts.Sent.exists_delivered (h : N.Sent cs xs) (hA : NeedsTwo bufA) (hB : NeedsTwo bufB)
    (hlen : bufB.length = bufA.length)
    (hfirst : PieceOf (samplePkt bufA) x.frame 0 true
      (((samplePkt bufA).bytes.drop (sizeofEtherHdr + sizeofIpv4Hdr)).take fragSize))
    (hlast : PieceOf (samplePkt bufB) y.frame fragSize false
      (((samplePkt bufB).bytes.drop (sizeofEtherHdr + sizeofIpv4Hdr)).drop fragSize))
    (hx : xs = before ++ x :: after) (hy : before ++ after = before' ++ y :: after') :
    ∃ log N', SampleRun N log N' ∧ ∃ d, ([x, y], d) ∈ N'.delivered := by
  have hfull : fragSize = 1480 := rfl
  have hudp : sizeofUdpHdr = 8 := rfl
  have hheaders : sizeofHeaders = 42 := rfl
  have hfront : sizeofEtherHdr + sizeofIpv4Hdr = 34 := rfl
  have hroom : mbufDataRoom = 2048 := rfl
  have hfits := hB.fits
  have hbody := length_drop_samplePkt hB
  have hfirstLen : x.frame.bytes.length ≤ mbufDataRoom := by
    rw [hfirst.length_bytes, List.length_take]
    omega
  have hlastLen : y.frame.bytes.length ≤ mbufDataRoom := by
    rw [hlast.length_bytes, List.length_drop, hbody]
    omega
  obtain ⟨hip, hfrag⟩ := fragmented_receivedAs hfirst hfirstLen (by decide)
  obtain ⟨hip', hfrag'⟩ := fragmented_receivedAs hlast hlastLen (by decide)
  obtain ⟨log, P, run, ok, hplace, hempty, hbindings⟩ :=
    h.exists_received (receivedAs x.frame) (receivedAs y.frame)
  have hmemX : x ∈ xs := by rw [hx]; simp
  have hmemY : y ∈ xs := by
    have hrest : y ∈ before ++ after := by rw [hy]; simp
    rw [hx]
    exact ((List.sublist_cons_self x after).append_left before).subset hrest
  obtain ⟨T, hstep, ok', hbuffer, hkept⟩ := exists_waits ok hplace hip hfrag
  obtain ⟨d, hd⟩ : ∃ d, d = samplePkt
      (bufA.take (fragSize - sizeofUdpHdr) ++ bufB.drop (fragSize - sizeofUdpHdr)) := ⟨_, rfl⟩
  have hcompleted := @exists_completed T (receivedAs y.frame) [] ok' hip' hfrag'
    (fun s => (congrFun hbuffer s).trans (hempty s)) ((congrFun hkept 53).trans hbindings)
    (bufA.take (fragSize - sizeofUdpHdr) ++ bufB.drop (fragSize - sizeofUdpHdr))
  rw [← hd] at hcompleted
  obtain ⟨delivered, T', d', hstep', hmem⟩ := hcompleted
  obtain ⟨N₁, hN₁⟩ : ∃ N₁ : Hosts, N₁ = { N with
      peer := { T with pc := .rx [receivedAs y.frame] }
      wire := before ++ after
      table := [x] } := ⟨_, rfl⟩
  have hreceive : (HostsEvent.receive x (.whole []) (receivedAs x.frame) [] []).step Dpdk.reference
      Dpdk.reference Configuration.zero Configuration.zero { N with peer := P } N₁ := by
    refine ⟨h.sent x hmemX, arrivesAs_fillMbuf hfirstLen, before, after, _, [x],
      h.wire.trans hx, hstep, ?_, ?_⟩
    · rw [if_pos ⟨hip, hfrag⟩, h.table]
      exact .wait (List.Subperm.refl _)
    · rw [hN₁]
      dsimp only
      rw [h.delivered]
      rfl
  have hreceive' : (HostsEvent.receive y (assembling d) (receivedAs y.frame) delivered
      [x, y]).step Dpdk.reference Dpdk.reference Configuration.zero Configuration.zero N₁ { N₁ with
        peer := { T' with pc := .rx [] }
        wire := before' ++ after'
        table := []
        delivered := N₁.delivered ++
          (delivered.filterMap Prod.snd).map fun d => ([x, y], d) } := by
    have hsent : y.frame ∈ N₁.sender.sent := by rw [hN₁]; exact h.sent y hmemY
    have hwire : N₁.wire = before' ++ y :: after' := by rw [hN₁]; exact hy
    have hpeer : N₁.peer = { T with pc := .rx [receivedAs y.frame] } := by rw [hN₁]
    have htable : N₁.table = [x] := by rw [hN₁]
    refine ⟨hsent, arrivesAs_fillMbuf hlastLen, before', after', _, [], hwire, hpeer ▸ hstep', ?_,
      rfl⟩
    rw [if_pos ⟨hip', hfrag'⟩, htable, assembling]
    refine .complete ?_ (fun p hp => ?_) (tiles_pieces hA hfirst hlast)
      (hd ▸ reassemblyOf_samples hA hB hlen hfirst hlast)
    · rw [List.append_nil]
      exact (List.Perm.swap y x []).subperm
    · rcases List.mem_pair.mp hp with rfl | rfl
      · rw [hfirst.flowKey_eq, hlast.flowKey_eq, flowKey_samplePkt]
      · rfl
  refine ⟨_, _, (run.snoc ⟨hreceive, trivial⟩).snoc ⟨hreceive', trivial⟩, d', ?_⟩
  refine List.mem_append_right _ (List.mem_map.mpr ⟨d', ?_, rfl⟩)
  exact List.mem_filterMap.mpr ⟨_, hmem, rfl⟩

end Peer

/-! ## Fragments of two calls -/

theorem needsTwo_replicate (b : Byte) : NeedsTwo (List.replicate 2000 b) where
  long := by
    rw [List.length_replicate]
    exact Nat.le_of_ble_eq_true rfl
  fits := by
    rw [List.length_replicate]
    exact Nat.le_of_ble_eq_true rfl

/-- Two calls to the same peer, each with a fragment lost, make a datagram that was not sent. -/
theorem not_no_spliced_datagrams : ¬ ∀ (dpdk peerDpdk : Dpdk) (config peerConfig : Configuration)
    (zones peerZones : AllocatorZones),
    peerDpdk.ipv4FragPktIsFragmented = Dpdk.reference.ipv4FragPktIsFragmented →
    ∀ (log : List HostsEvent) (N : Hosts), Run (HostsEvent.step dpdk peerDpdk config peerConfig)
      (hostsInit zones peerZones) log N → N.Unspliced := by
  intro h
  obtain ⟨log₀, N₀, run₀, hsent₀⟩ := exists_run_opened
  obtain ⟨M₀, log₁, N₁, first, last', hstep₀, run₁, hsent₁, hfirst, -⟩ :=
    hsent₀.exists_call (needsTwo_replicate 1)
  obtain ⟨M₁, log₂, N₂, first', last, hstep₁, run₂, hsent₂, -, hlast⟩ :=
    hsent₁.exists_call (needsTwo_replicate 2)
  have hlen :
      (List.replicate 2000 (2 : Byte)).length = (List.replicate 2000 (1 : Byte)).length := by
    rw [List.length_replicate, List.length_replicate]
  have hrest : [] ++ [⟨sampleCall 0 (List.replicate 2000 1), last'⟩,
      ⟨sampleCall 1 (List.replicate 2000 2), first'⟩,
      ⟨sampleCall 1 (List.replicate 2000 2), last⟩] =
    [⟨sampleCall 0 (List.replicate 2000 1), last'⟩,
      (⟨sampleCall 1 (List.replicate 2000 2), first'⟩ : WireFrame)] ++
      ⟨sampleCall 1 (List.replicate 2000 2), last⟩ :: [] := rfl
  have hspliced : ∃ log N, SampleRun N₂ log N ∧ ∃ d,
      ([⟨sampleCall 0 (List.replicate 2000 1), first⟩,
        ⟨sampleCall 1 (List.replicate 2000 2), last⟩],
        d) ∈ N.delivered :=
    hsent₂.exists_delivered (needsTwo_replicate 1) (needsTwo_replicate 2) hlen hfirst hlast rfl
      hrest
  obtain ⟨log₃, N, run₃, d, hmem⟩ := hspliced
  have run := ((((run₀.forget.snoc hstep₀).append run₁.forget).snoc hstep₁).append
    run₂.forget).append run₃.forget
  obtain ⟨c, -, hcalls, -⟩ := h _ _ _ _ _ _ rfl _ _ run _ hmem
  have hsame := (hcalls _ (List.mem_cons_self)).trans
    (hcalls _ (List.mem_cons_of_mem _ (List.mem_singleton_self _))).symm
  exact absurd (congrArg Call.number hsame) Nat.zero_ne_one

/-- One call that needs two fragments, and its payload is delivered. -/
theorem no_spliced_datagrams_of_call : ∃ N : Hosts, N.delivered ≠ [] ∧ N.Unspliced := by
  obtain ⟨log₀, N₀, run₀, hsent₀⟩ := exists_run_opened
  obtain ⟨M₀, log₁, N₁, first, last, hstep₀, run₁, hsent₁, hfirst, hlast⟩ :=
    hsent₀.exists_call (needsTwo_replicate 1)
  obtain ⟨log₂, N, run₂, d, hmem⟩ := hsent₁.exists_delivered
    (needsTwo_replicate 1) (needsTwo_replicate 1) rfl hfirst hlast rfl rfl
  have hidentified : (HostsEvent.sender (sampleSend (List.replicate 2000 1))).Identified
      Configuration.zero N₀ := by
    rintro - c (⟨s, hs⟩ | ⟨x, hx, -⟩)
    · rw [hsent₀.queued] at hs
      cases hs
    · rw [hsent₀.wire, hsent₀.table] at hx
      cases hx
  have run := ((run₀.snoc ⟨hstep₀, hidentified⟩).append run₁).append run₂
  exact ⟨N, List.ne_nil_of_mem hmem, no_spliced_datagrams _ _ _ _ _ _ rfl run⟩

end Udpdk
