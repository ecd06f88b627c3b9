import Udpdk.Poller.Transmit
import Udpdk.Syscall.Frame

/-!
# Fragments

What DPDK documents about the fragments of a packet and about their reassembly, and what
follows for the frames that the poller puts on the wire. A buffer of the tx pool has room for
two fragments at most, so a packet goes out whole, or in a first and a last fragment.

## Main definitions

* `FragmentsOf` — the output of `rte_ipv4_fragment_packet`
* `ReassemblyOf` — the output of `rte_ipv4_frag_reassemble_packet`
* `ArrivesAs` — a frame as the network card of the peer receives it
* `PieceOf` — a frame with a piece of the IP payload of a packet

## Main results

* `txFrames_pieces` — the frames that are sent for a packet
-/

namespace Udpdk

/-! ## What DPDK documents -/

/-- The payload of a full fragment: the MTU less the header, in units of eight bytes. -/
def fragSize : ℕ := (ipv4MtuDefault - sizeofIpv4Hdr) / 8 * 8

/-- The bytes of the Ethernet and IPv4 headers that fragmentation and reassembly rewrite:
`total_length`, `fragment_offset` and `hdr_checksum`. -/
def rewrittenBytes : List ℕ := [16, 17, 20, 21, 24, 25]

/-- `fragment_offset` of a fragment: the offset in units of eight bytes, and the flag that says
that more fragments follow. -/
def fragmentField (off : ℕ) (more : Bool) : BitVec 16 :=
  beToCpu16 (BitVec.ofNat 16 (off / 8) ||| if more then 0x2000 else 0)

/-- The fragments that `rte_ipv4_fragment_packet` makes of a packet, without Ethernet headers.
Each is a buffer with a header of its own, chained to buffers with a piece of the payload; all
but the last are full. -/
structure FragmentsOf (pkt : Mbuf) (frags : List Mbuf) : Prop where
  head : ∀ frag ∈ frags, frag.head.dataLen.toNat = sizeofIpv4Hdr
  header : ∀ frag ∈ frags, ∀ i < sizeofIpv4Hdr, sizeofEtherHdr + i ∉ rewrittenBytes →
    frag.load8 i = pkt.load8 (sizeofEtherHdr + i)
  offset : ∀ k (hk : k < frags.length),
    frags[k].load16 6 = fragmentField (k * fragSize) (decide (k + 1 < frags.length))
  payload : frags.flatMap (fun frag => frag.bytes.drop sizeofIpv4Hdr) =
    pkt.bytes.drop (sizeofEtherHdr + sizeofIpv4Hdr)
  full : ∀ frag ∈ frags.dropLast, frag.bytes.length = sizeofIpv4Hdr + fragSize
  size : ∀ frag ∈ frags, sizeofIpv4Hdr < frag.bytes.length ∧
    frag.bytes.length ≤ sizeofIpv4Hdr + fragSize

/-- A frame as it was received: it may be padded to the least length of an Ethernet frame, and a
segment is only chained to one that is full. -/
structure ArrivesAs (frame received : Mbuf) : Prop where
  bytes : ∃ padding, received.bytes = frame.bytes ++ padding ∧
    (padding ≠ [] → received.bytes.length ≤ 60)
  filled : received.head.dataLen.toNat = min received.bytes.length mbufDataRoom

/-- The packet that `rte_ipv4_frag_reassemble_packet` makes of the frames of one datagram: the
buffer of the first, with its headers, chained to those of the others without theirs. -/
structure ReassemblyOf (frames : List Mbuf) (d : Mbuf) : Prop where
  head : ∀ f ∈ frames.head?, f.bytes.length ≤ d.head.dataLen.toNat
  header : ∀ f ∈ frames.head?, ∀ i < sizeofEtherHdr + sizeofIpv4Hdr, i ∉ rewrittenBytes →
    d.load8 i = f.load8 i
  payload : d.bytes.drop (sizeofEtherHdr + sizeofIpv4Hdr) =
    frames.flatMap fun f => f.bytes.drop (sizeofEtherHdr + sizeofIpv4Hdr)

/-! ## Frames -/

/-- The frame `f` has the headers of the packet `m`, but for what fragmentation rewrites, and
behind them the bytes `piece`, which start at `off` and are the last ones unless `more`. -/
structure PieceOf (m f : Mbuf) (off : ℕ) (more : Bool) (piece : List Byte) : Prop where
  head : sizeofEtherHdr + sizeofIpv4Hdr ≤ f.head.dataLen.toNat
  header : ∀ i < sizeofEtherHdr + sizeofIpv4Hdr, i ∉ rewrittenBytes → f.load8 i = m.load8 i
  offset : f.fragmentOffset = fragmentField off more
  bytes : f.bytes.drop (sizeofEtherHdr + sizeofIpv4Hdr) = piece

section Frames

variable {m pkt frag f r : Mbuf} {frags : List Mbuf} {choices : DpdkChoices} {i off : ℕ}
  {more : Bool} {piece : List Byte}

theorem length_head_le_bytes (m : Mbuf) : m.head.dataLen.toNat ≤ m.bytes.length := by
  rw [Mbuf.bytes_eq, List.length_append, Segment.length_bytes]
  exact Nat.le_add_right _ _

theorem getElem?_bytes (h : i < m.head.dataLen.toNat) : m.bytes[i]? = some (m.load8 i) := by
  have hlen : i < m.head.bytes.length := by rwa [Segment.length_bytes]
  rw [Mbuf.bytes_eq, List.getElem?_append_left hlen, List.getElem?_eq_getElem hlen]
  simp [Segment.bytes, Mbuf.load8]

/-- The bytes of a fragment once it has an Ethernet header. -/
theorem bytes_reattachEtherHdr (h : frag.head.dataLen.toNat = sizeofIpv4Hdr) :
    (reattachEtherHdr pkt frag).bytes =
      (List.range sizeofEtherHdr).map pkt.load8 ++ frag.bytes := by
  have hlen : (frag.head.dataLen + BitVec.ofNat 16 sizeofEtherHdr).toNat =
      sizeofEtherHdr + frag.head.dataLen.toNat := by
    rw [BitVec.toNat_add, BitVec.toNat_ofNat, h]
    rfl
  have hhead : (reattachEtherHdr pkt frag).head.bytes =
      (List.range sizeofEtherHdr).map pkt.load8 ++ frag.head.bytes := by
    unfold Segment.bytes reattachEtherHdr
    dsimp only
    rw [hlen, List.range_add, List.map_append, List.map_map]
    congr 1
    apply List.map_congr_left
    intro i _
    have hge : ¬ sizeofEtherHdr + i < sizeofEtherHdr := by omega
    dsimp only [Function.comp]
    rw [if_neg hge, Nat.add_sub_cancel_left]
  rw [Mbuf.bytes_eq, hhead, List.append_assoc]
  rfl

/-- A fragment with its Ethernet header is a piece of the packet. -/
theorem pieceOf_reattachEtherHdr (hfrags : FragmentsOf m frags) {k : ℕ} (hk : k < frags.length) :
    PieceOf m (reattachEtherHdr m frags[k]) (k * fragSize) (decide (k + 1 < frags.length))
      (frags[k].bytes.drop sizeofIpv4Hdr) := by
  have hmem : frags[k] ∈ frags := List.getElem_mem hk
  have hhead := hfrags.head _ hmem
  refine ⟨?_, fun i hi hrewritten => ?_, ?_, ?_⟩
  · change _ ≤ (frags[k].head.dataLen + BitVec.ofNat 16 sizeofEtherHdr).toNat
    rw [BitVec.toNat_add, BitVec.toNat_ofNat, hhead]
    exact le_rfl
  · change (if i < sizeofEtherHdr then m.load8 i else frags[k].load8 (i - sizeofEtherHdr)) = _
    split
    · rfl
    · rename_i hether
      obtain ⟨j, rfl⟩ := Nat.exists_eq_add_of_le (not_lt.mp hether)
      rw [Nat.add_sub_cancel_left]
      exact hfrags.header _ hmem j (by omega) hrewritten
  · rw [← hfrags.offset k hk]
    rfl
  · rw [bytes_reattachEtherHdr hhead, ← List.drop_drop, List.drop_left']
    simp

/-- A payload of at most two full fragments goes into one fragment, or into two. -/
theorem FragmentsOf.cases (h : FragmentsOf m frags)
    (hpos : 0 < (m.bytes.drop (sizeofEtherHdr + sizeofIpv4Hdr)).length)
    (hmax : (m.bytes.drop (sizeofEtherHdr + sizeofIpv4Hdr)).length ≤ 2 * fragSize) :
    (∃ frag, frags = [frag] ∧
      frag.bytes.drop sizeofIpv4Hdr = m.bytes.drop (sizeofEtherHdr + sizeofIpv4Hdr) ∧
      (m.bytes.drop (sizeofEtherHdr + sizeofIpv4Hdr)).length ≤ fragSize) ∨
    ∃ first last, frags = [first, last] ∧
      first.bytes.drop sizeofIpv4Hdr =
        (m.bytes.drop (sizeofEtherHdr + sizeofIpv4Hdr)).take fragSize ∧
      last.bytes.drop sizeofIpv4Hdr =
        (m.bytes.drop (sizeofEtherHdr + sizeofIpv4Hdr)).drop fragSize ∧
      fragSize < (m.bytes.drop (sizeofEtherHdr + sizeofIpv4Hdr)).length := by
  have hpayload := h.payload
  generalize m.bytes.drop (sizeofEtherHdr + sizeofIpv4Hdr) = body at hpos hmax hpayload ⊢
  have hfull : ∀ frag ∈ frags.dropLast, (frag.bytes.drop sizeofIpv4Hdr).length = fragSize := by
    intro frag hfrag
    rw [List.length_drop, h.full frag hfrag, Nat.add_sub_cancel_left]
  have hsize : ∀ frag ∈ frags, 0 < (frag.bytes.drop sizeofIpv4Hdr).length ∧
      (frag.bytes.drop sizeofIpv4Hdr).length ≤ fragSize := by
    intro frag hfrag
    have := h.size frag hfrag
    rw [List.length_drop]
    omega
  match frags, hpayload, hfull, hsize with
  | [], hpayload, _, _ => exact absurd (congrArg List.length hpayload) (by simp; omega)
  | [frag], hpayload, _, hsize =>
    have hbytes : frag.bytes.drop sizeofIpv4Hdr = body := by simpa using hpayload
    exact .inl ⟨frag, rfl, hbytes, hbytes ▸ (hsize frag (by simp)).2⟩
  | [first, last], hpayload, hfull, hsize =>
    have hbytes : first.bytes.drop sizeofIpv4Hdr ++ last.bytes.drop sizeofIpv4Hdr = body := by
      simpa using hpayload
    have hfirst := hfull first (by simp)
    have hlast := (hsize last (by simp)).1
    refine .inr ⟨first, last, rfl, ?_, ?_, ?_⟩
    · rw [← hbytes, List.take_left' hfirst]
    · rw [← hbytes, List.drop_left' hfirst]
    · rw [← hbytes, List.length_append, hfirst]
      omega
  | first :: second :: third :: rest, hpayload, hfull, hsize =>
    exfalso
    have hfirst := hfull first (by simp)
    have hsecond := hfull second (by simp)
    have hthird := (hsize third (by simp)).1
    have hlen := congrArg List.length hpayload
    simp only [List.flatMap_cons, List.length_append, hfirst, hsecond] at hlen
    omega

/-- The frames that are put into the table for a packet: the packet as a whole, in one frame, or
a first and a last piece of it. -/
theorem txFrames_pieces (hfrags : ∀ frags ∈ choices.fragments, FragmentsOf m frags)
    (hhead : sizeofEtherHdr + sizeofIpv4Hdr ≤ m.head.dataLen.toNat) (hwhole : m.fragmentOffset = 0)
    (hpos : 0 < (m.bytes.drop (sizeofEtherHdr + sizeofIpv4Hdr)).length)
    (hmax : (m.bytes.drop (sizeofEtherHdr + sizeofIpv4Hdr)).length ≤ 2 * fragSize) :
    txFrames choices m = [] ∨
    (∃ f, txFrames choices m = [f] ∧
      PieceOf m f 0 false (m.bytes.drop (sizeofEtherHdr + sizeofIpv4Hdr))) ∨
    ∃ first last, txFrames choices m = [first, last] ∧
      fragSize < (m.bytes.drop (sizeofEtherHdr + sizeofIpv4Hdr)).length ∧
      PieceOf m first 0 true
        ((m.bytes.drop (sizeofEtherHdr + sizeofIpv4Hdr)).take fragSize) ∧
      PieceOf m last fragSize false
        ((m.bytes.drop (sizeofEtherHdr + sizeofIpv4Hdr)).drop fragSize) := by
  unfold txFrames
  split
  · exact .inr (.inl ⟨m, rfl, hhead, fun _ _ _ => rfl, hwhole, rfl⟩)
  cases choices.prependFails with
  | true => exact .inl rfl
  | false =>
    cases hout : choices.fragments with
    | none => exact .inl rfl
    | some frags =>
      have hfrags := hfrags frags hout
      rcases hfrags.cases hpos hmax with
        ⟨frag, rfl, hbytes, -⟩ | ⟨first, last, rfl, hfirst, hlast, hlen⟩
      · have hpiece := pieceOf_reattachEtherHdr hfrags (k := 0) Nat.zero_lt_one
        rw [List.getElem_singleton, hbytes] at hpiece
        exact .inr (.inl ⟨_, rfl, hpiece⟩)
      · have hpiece₀ := pieceOf_reattachEtherHdr hfrags (k := 0) Nat.zero_lt_two
        have hpiece₁ := pieceOf_reattachEtherHdr hfrags (k := 1) Nat.one_lt_two
        refine .inr (.inr ⟨_, _, rfl, hlen, ?_, ?_⟩)
        · rw [← hfirst]
          exact hpiece₀
        · rw [← hlast]
          exact hpiece₁

end Frames

end Udpdk
