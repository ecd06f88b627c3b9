import Udpdk.Foundation.Tiling
import Udpdk.Poller.EndToEnd
import Udpdk.Poller.Loop

/-!
# Two hosts

One host sends to another over a channel that loses and reorders frames, and the poller of the
other one puts fragments together. Both are whole systems; calls are numbered, and every frame
remembers the call that it goes back to.

DPDK keeps the fragments that have arrived in a table, grouped by the addresses and the
`packet_id` of the IP header. A datagram is complete when its fragments tile a range that ends
with a last fragment.

## Main definitions

* `Hosts`, `HostsEvent.step` — the two systems, and what happens to them
* `TableStep` — what the fragment table does with a fragment
* `Hosts.Unspliced` — every datagram delivered is one that was sent
* `HostsEvent.Identified` — a call whose fragments cannot be taken for those of an earlier one

## Main results

* `Hosts.Inv.step` — no step splices, if the calls are identified
-/

namespace Udpdk

open Foundation

/-! ## The fragment table -/

/-- The offset of a fragment, in bytes. -/
def Mbuf.fragmentStart (m : Mbuf) : ℕ := (beToCpu16 m.fragmentOffset &&& 0x1fff).toNat * 8

/-- The flag that says that more fragments follow is not set. -/
def Mbuf.isLastFragment (m : Mbuf) : Bool := beToCpu16 m.fragmentOffset &&& 0x2000 = 0

/-- The number of bytes behind the IP header. -/
def Mbuf.fragmentLen (m : Mbuf) : ℕ := m.bytes.length - (sizeofEtherHdr + sizeofIpv4Hdr)

/-- What the table tells datagrams apart by. -/
def Mbuf.flowKey (m : Mbuf) : InAddr × InAddr × BitVec 16 := (m.srcAddr, m.dstAddr, m.packetId)

/-- A call of `udpdk_sendto` that put a packet into a ring: its number, the addresses it sent
from and to, its payload, and the packet. -/
structure Call where
  number : ℕ
  src : InAddr
  dst : InAddr
  payload : List Byte
  pkt : Mbuf

/-- The payload and the UDP header do not fit into one fragment. -/
def Call.long (c : Call) : Prop := fragSize < c.payload.length + sizeofUdpHdr

/-- A frame on the wire, and the call that it was sent for. -/
structure WireFrame where
  call : Call
  frame : Mbuf

/-- What the table does when the fragment `x` arrives, with the packet that it puts together, if
any, the fragments that it uses for it, and the table from then on. Fragments may be dropped
at any time. -/
inductive TableStep (table : List WireFrame) (x : WireFrame) :
    Option Mbuf → List WireFrame → List WireFrame → Prop
  | wait {table' : List WireFrame} (kept : table'.Subperm (x :: table)) :
      TableStep table x none [] table'
  | complete {d : Mbuf} {parts table' : List WireFrame}
      (kept : (parts ++ table').Subperm (x :: table))
      (same : ∀ p ∈ parts, p.frame.flowKey = x.frame.flowKey)
      (tiles : Tiles Mbuf.fragmentStart Mbuf.fragmentLen Mbuf.isLastFragment 0
        (parts.map WireFrame.frame))
      (assembled : ReassemblyOf (parts.map WireFrame.frame) d) :
      TableStep table x (some d) parts table'

/-! ## The hosts -/

/-- The two systems. `queued` are the calls whose packets are in the tx rings, `wire` the frames
that were put into the tx table and have not been received, `table` the fragments in the table
of the peer, and `delivered` the buffers that its poller put into a staging buffer, each with
the frames that it was made from. -/
structure Hosts where
  sender : System
  peer : System
  calls : List Call
  queued : ℕ → List Call
  wire : List WireFrame
  table : List WireFrame
  delivered : List (List WireFrame × Mbuf)

def hostsInit (zones peerZones : AllocatorZones) : Hosts where
  sender := systemInit zones
  peer := systemInit peerZones
  calls := []
  queued _ := []
  wire := []
  table := []
  delivered := []

/-- What happens on the two hosts. -/
inductive HostsEvent
  /-- a step of the sender -/
  | sender (e : SystemEvent)
  /-- a step of the peer in which its poller demultiplexes nothing -/
  | peer (e : SystemEvent)
  /-- the poller of the peer demultiplexes a frame, out of `parts` -/
  | receive (x : WireFrame) (choices : DpdkChoices) (received : Mbuf) (delivered : List Delivery)
      (parts : List WireFrame)
  /-- a frame is lost -/
  | lose (x : WireFrame)

/-- The fragments that DPDK makes in this step are those of the packet. -/
def SystemEvent.Fragments : SystemEvent → Prop
  | .poller choices (.txTake _ m) => ∀ frags ∈ choices.fragments, FragmentsOf m frags
  | _ => True

/-- The poller demultiplexes a packet in this step. -/
def SystemEvent.demultiplexes : SystemEvent → Bool
  | .poller _ (.rxPacket _ _) => true
  | _ => false

/-- The step puts a packet into a ring, or takes one out of it. -/
def SystemEvent.moves : SystemEvent → Bool
  | .api (.sendto _ _ _ _ _ _ (.ok _)) => true
  | .poller _ (.txTake _ _) => true
  | _ => false

/-- A step of the sender is noted: a call that put a packet into a ring, or the frames that the
poller puts into its table for a packet. -/
def Hosts.note (config : Configuration) (N : Hosts) : SystemEvent → Hosts
  | .api (.sendto _ sockfd buf _ (some dest) _ (.ok (m, _))) =>
    let c : Call := {
      number := N.calls.length
      src := sourceAddr config (N.sender.shared.desc.slots sockfd.toNat)
      dst := dest.sinAddr
      payload := buf
      pkt := m }
    { N with
      calls := N.calls ++ [c]
      queued := Function.update N.queued sockfd.toNat (N.queued sockfd.toNat ++ [c]) }
  | .poller choices (.txTake s m) =>
    { N with
      queued := Function.update N.queued s (N.queued s).tail
      wire := N.wire ++ (N.queued s).head?.toList.flatMap fun c =>
        (txFrames choices m).map fun f => ⟨c, f⟩ }
  | _ => N

/-- The event takes the hosts from `N` to `N'`. A frame can be received once the network card of
the sender has taken it, and is received once. -/
def HostsEvent.step (dpdk peerDpdk : Dpdk) (config peerConfig : Configuration) :
    HostsEvent → Hosts → Hosts → Prop
  | .sender e, N, N' => e.Fragments ∧ ∃ S, e.step dpdk config N.sender S ∧
    N' = { N.note config e with sender := S }
  | .peer e, N, N' => e.demultiplexes = false ∧ ∃ T, e.step peerDpdk peerConfig N.peer T ∧
    N' = { N with peer := T }
  | .receive x choices r delivered parts, N, N' =>
    x.frame ∈ N.sender.sent ∧ ArrivesAs x.frame r ∧ ∃ before after T table',
      N.wire = before ++ x :: after ∧
      (SystemEvent.poller choices (.rxPacket r delivered)).step peerDpdk peerConfig N.peer T ∧
      (if peerDpdk.ethIsIpv4Hdr r.packetType ∧
          peerDpdk.ipv4FragPktIsFragmented r.fragmentOffset then
        TableStep N.table x choices.assembled parts table'
      else parts = [x] ∧ table' = N.table) ∧
      N' = { N with
        peer := T
        wire := before ++ after
        table := table'
        delivered := N.delivered ++ (delivered.filterMap Prod.snd).map fun d => (parts, d) }
  | .lose x, N, N' => ∃ before after, N.wire = before ++ x :: after ∧
    N' = { N with wire := before ++ after }

/-- The payload that the UDP header announces. -/
def Mbuf.payload (d : Mbuf) : List Byte := d.body.take d.payloadLen.toNat

/-- Every buffer that was delivered was made from frames of one call, and has the payload of
that call. -/
def Hosts.Unspliced (N : Hosts) : Prop :=
  ∀ x ∈ N.delivered, ∃ c ∈ N.calls, (∀ p ∈ x.1, p.call = c) ∧ x.2.payload = c.payload

/-- The packet of the call, or a frame of it, is under way or in the fragment table. -/
def Hosts.Outstanding (N : Hosts) (c : Call) : Prop :=
  (∃ s, c ∈ N.queued s) ∨ ∃ x ∈ N.wire ++ N.table, x.call = c

/-- A call that needs fragmentation does not have the addresses of an earlier one that did and
is still outstanding. -/
def HostsEvent.Identified (config : Configuration) (N : Hosts) : HostsEvent → Prop
  | .sender (.api (.sendto _ sockfd buf _ (some dest) _ (.ok _))) =>
    fragSize < buf.length + sizeofUdpHdr → ∀ c, N.Outstanding c → c.long →
      ¬ (c.src = sourceAddr config (N.sender.shared.desc.slots sockfd.toNat) ∧
        c.dst = dest.sinAddr)
  | _ => True

/-! ## Fragments of calls -/

/-- The packet of a call is the frame with its payload. -/
def Call.Built (dpdk : Dpdk) (config : Configuration) (c : Call) : Prop :=
  ∃ addr slot dest, c.pkt = fillMbuf addr (buildFrame dpdk config slot dest c.payload) ∧
    sizeofHeaders + c.payload.length ≤ mbufDataRoom ∧
    c.src = sourceAddr config slot ∧ c.dst = dest.sinAddr

/-- The frame is the first or the last fragment of the packet of its call. -/
inductive WireFrame.Fragment (x : WireFrame) : Prop
  | first (piece : PieceOf x.call.pkt x.frame 0 true
      ((x.call.pkt.bytes.drop (sizeofEtherHdr + sizeofIpv4Hdr)).take fragSize))
      (long : fragSize < (x.call.pkt.bytes.drop (sizeofEtherHdr + sizeofIpv4Hdr)).length)
  | last (piece : PieceOf x.call.pkt x.frame fragSize false
      ((x.call.pkt.bytes.drop (sizeofEtherHdr + sizeofIpv4Hdr)).drop fragSize))
      (long : fragSize < (x.call.pkt.bytes.drop (sizeofEtherHdr + sizeofIpv4Hdr)).length)

/-- The frame has the whole packet of its call. -/
def WireFrame.Whole (x : WireFrame) : Prop :=
  PieceOf x.call.pkt x.frame 0 false (x.call.pkt.bytes.drop (sizeofEtherHdr + sizeofIpv4Hdr))

section Fragments

variable {dpdk : Dpdk} {config : Configuration} {c : Call} {x y : WireFrame} {m f d : Mbuf}
  {piece : List Byte} {padding : List Byte} {off : ℕ} {more : Bool}

theorem Call.Built.length_bytes (h : c.Built dpdk config) :
    c.pkt.bytes.length = sizeofHeaders + c.payload.length := by
  obtain ⟨addr, slot, dest, hpkt, hfits, -⟩ := h
  have hroom : mbufDataRoom = 2048 := rfl
  rw [hpkt, bytes_fillMbuf, length_buildFrame]
  rw [length_buildFrame]
  omega

theorem Call.Built.head (h : c.Built dpdk config) :
    c.pkt.head.dataLen.toNat = sizeofHeaders + c.payload.length := by
  obtain ⟨addr, slot, dest, hpkt, hfits, -⟩ := h
  rw [hpkt, length_head_fillMbuf hfits]

theorem Call.Built.length_drop (h : c.Built dpdk config) :
    (c.pkt.bytes.drop (sizeofEtherHdr + sizeofIpv4Hdr)).length =
      c.payload.length + sizeofUdpHdr := by
  have hheaders : sizeofHeaders = sizeofEtherHdr + sizeofIpv4Hdr + sizeofUdpHdr := rfl
  rw [List.length_drop, h.length_bytes]
  omega

theorem Call.Built.payload_eq (h : c.Built dpdk config) (hcarries : Carries c.pkt d padding) :
    d.payload = c.payload := by
  obtain ⟨addr, slot, dest, hpkt, hfits, -⟩ := h
  rw [hpkt] at hcarries
  have hdatagram := (hcarries.carriesDatagram hfits).1
  rw [Mbuf.payload, hdatagram.toNat_payloadLen, hcarries.dgramLen_eq_payload hfits,
    Nat.add_sub_cancel, hcarries.body_eq_payload hfits, List.take_left]

/-- The addresses in a frame are those of its call. -/
theorem Call.Built.addrs_eq (h : c.Built dpdk config) (hpiece : PieceOf c.pkt f off more piece) :
    f.srcAddr = c.src ∧ f.dstAddr = c.dst := by
  obtain ⟨addr, slot, dest, hpkt, -, hsrc, hdst⟩ := h
  have hload : ∀ i < sizeofEtherHdr + sizeofIpv4Hdr, i ∉ rewrittenBytes →
      f.load8 i = c.pkt.load8 i := hpiece.header
  have hword : ∀ i, i + 3 < sizeofEtherHdr + sizeofIpv4Hdr → i ∉ rewrittenBytes →
      i + 1 ∉ rewrittenBytes → i + 2 ∉ rewrittenBytes → i + 3 ∉ rewrittenBytes →
      f.load32 i = c.pkt.load32 i := by
    intro i hi h0 h1 h2 h3
    simp only [Mbuf.load32, Mbuf.load16, hload i (by omega) h0, hload (i + 1) (by omega) h1,
      hload (i + 2) (by omega) h2, hload (i + 3) hi h3]
  constructor
  · have hsrc' : f.srcAddr = c.pkt.srcAddr := hword (sizeofEtherHdr + 12) (by decide) (by decide)
      (by decide) (by decide) (by decide)
    rw [hsrc', hpkt, srcAddr_fillMbuf, hsrc]
  · have hdst' : f.dstAddr = c.pkt.dstAddr := hword (sizeofEtherHdr + 16) (by decide) (by decide)
      (by decide) (by decide) (by decide)
    rw [hdst', hpkt, dstAddr_fillMbuf, hdst]

theorem WireFrame.Fragment.long (h : x.Fragment) (built : x.call.Built dpdk config) :
    x.call.long := by
  have hlen := built.length_drop
  unfold Call.long
  cases h with
  | first _ long => rwa [hlen] at long
  | last _ long => rwa [hlen] at long

theorem WireFrame.Fragment.addrs_eq (h : x.Fragment) (built : x.call.Built dpdk config) :
    x.frame.srcAddr = x.call.src ∧ x.frame.dstAddr = x.call.dst := by
  cases h with
  | first piece => exact built.addrs_eq piece
  | last piece => exact built.addrs_eq piece

/-- The frames of a packet are a whole packet, or fragments. -/
theorem Call.Built.frames (h : c.Built dpdk config) {choices : DpdkChoices}
    (hfrags : ∀ frags ∈ choices.fragments, FragmentsOf c.pkt frags)
    (hf : f ∈ txFrames choices c.pkt) :
    (⟨c, f⟩ : WireFrame).Whole ∨ (⟨c, f⟩ : WireFrame).Fragment := by
  have hheaders : sizeofHeaders = 42 := rfl
  have hfront : sizeofEtherHdr + sizeofIpv4Hdr = 34 := rfl
  have hroom : mbufDataRoom = 2048 := rfl
  have hfull : fragSize = 1480 := rfl
  have hudp : sizeofUdpHdr = 8 := rfl
  have hlen := h.length_drop
  have hhead := h.head
  obtain ⟨addr, slot, dest, hpkt, hfits, -⟩ := h
  have hwhole : c.pkt.fragmentOffset = 0 := hpkt ▸ fragmentOffset_fillMbuf
  rcases txFrames_pieces hfrags (by omega) hwhole (by omega) (by omega) with
    hnil | ⟨g, hone, hpiece⟩ | ⟨first, last, htwo, hlong, hfirst, hlast⟩
  · rw [hnil] at hf
    cases hf
  · rw [hone, List.mem_singleton] at hf
    exact .inl (hf ▸ hpiece)
  · rw [htwo] at hf
    rcases List.mem_pair.mp hf with rfl | rfl
    · exact .inr (.first hfirst hlong)
    · exact .inr (.last hlast hlong)

theorem PieceOf.kind_first (h : PieceOf m f 0 true
      ((m.bytes.drop (sizeofEtherHdr + sizeofIpv4Hdr)).take fragSize))
    (long : fragSize < (m.bytes.drop (sizeofEtherHdr + sizeofIpv4Hdr)).length) :
    f.fragmentStart = 0 ∧ f.fragmentLen = fragSize ∧ f.isLastFragment = false := by
  refine ⟨?_, ?_, ?_⟩
  · rw [Mbuf.fragmentStart, h.offset]
    decide
  · rw [Mbuf.fragmentLen, h.length_bytes, Nat.add_sub_cancel_left, List.length_take,
      min_eq_left long.le]
  · rw [Mbuf.isLastFragment, h.offset]
    decide

theorem PieceOf.kind_last (h : PieceOf m f fragSize false piece) :
    f.fragmentStart = fragSize ∧ f.isLastFragment = true := by
  constructor
  · rw [Mbuf.fragmentStart, h.offset]
    decide
  · rw [Mbuf.isLastFragment, h.offset]
    decide

theorem WireFrame.Fragment.kinds (h : x.Fragment) :
    (x.frame.fragmentStart = 0 ∧ x.frame.fragmentLen = fragSize ∧
      x.frame.isLastFragment = false) ∨
    (x.frame.fragmentStart = fragSize ∧ x.frame.isLastFragment = true) := by
  cases h with
  | first piece long => exact .inl (piece.kind_first long)
  | last piece => exact .inr piece.kind_last

end Fragments

/-! ## The invariant -/

/-- What holds of the hosts as long as the calls are identified. -/
structure Hosts.Inv (dpdk : Dpdk) (config : Configuration) (N : Hosts) : Prop where
  sender : N.sender.shared.Ok
  peer : N.peer.shared.Ok
  ring : ∀ s, (N.queued s).map Call.pkt = (N.sender.shared.txQ s).items
  queued : ∀ s, ∀ c ∈ N.queued s, c ∈ N.calls
  built : ∀ c ∈ N.calls, c.Built dpdk config
  wire : ∀ x ∈ N.wire, x.call ∈ N.calls ∧ (x.Whole ∨ x.Fragment)
  table : ∀ x ∈ N.table, x.call ∈ N.calls ∧ x.Fragment
  distinct : ∀ c c', N.Outstanding c → N.Outstanding c' → c.long → c'.long → c.src = c'.src →
    c.dst = c'.dst → c = c'
  unspliced : N.Unspliced

section Invariant

variable {dpdk peerDpdk : Dpdk} {config peerConfig : Configuration}
  {zones peerZones : AllocatorZones}
  {N N' : Hosts} {S T : System} {e : SystemEvent} {x : WireFrame} {m r d : Mbuf}
  {choices : DpdkChoices} {parts table' : List WireFrame} {delivered : List Delivery}

theorem Hosts.Inv.init : (hostsInit zones peerZones).Inv dpdk config where
  sender := ok_sharedInit zones
  peer := ok_sharedInit peerZones
  ring _ := rfl
  queued _ _ h := absurd h List.not_mem_nil
  built _ h := absurd h List.not_mem_nil
  wire _ h := absurd h List.not_mem_nil
  table _ h := absurd h List.not_mem_nil
  distinct := by
    rintro _ _ (⟨_, h⟩ | ⟨_, h, _⟩)
    · exact absurd h List.not_mem_nil
    · exact absurd h List.not_mem_nil
  unspliced _ h := absurd h List.not_mem_nil

theorem Hosts.Outstanding.mono {c : Call} (hqueued : N'.queued = N.queued)
    (hframes : ∀ x ∈ N'.wire ++ N'.table, x ∈ N.wire ++ N.table) (h : N'.Outstanding c) :
    N.Outstanding c := by
  obtain hring | ⟨x, hx, hcall⟩ := h
  · exact .inl (hqueued ▸ hring)
  · exact .inr ⟨x, hframes x hx, hcall⟩

theorem Hosts.note_eq (h : e.moves = false) : N.note config e = N := by
  cases e with
  | api e =>
    cases e with
    | sendto pkt sockfd buf flags destAddr addrlen ret =>
      cases ret with
      | error e => cases destAddr <;> rfl
      | ok r => cases h
    | _ => rfl
  | poller choices happened =>
    cases happened with
    | txTake => cases h
    | _ => rfl

/-- Any other step keeps the tx rings, and the invariant. -/
theorem Hosts.Inv.other (inv : N.Inv dpdk config) (h : e.step dpdk config N.sender S)
    (hmoves : e.moves = false) : ({ N with sender := S }).Inv dpdk config := by
  have hitems : ∀ s, (S.shared.txQ s).items = (N.sender.shared.txQ s).items := by
    intro s
    cases e with
    | api e =>
      obtain ⟨σ, hcall, rfl⟩ := h
      have hring := (api_tx inv.sender.mem hcall).ring s
      have hidle : txAction N.sender (.api e) = .idle := by
        cases e with
        | sendto pkt sockfd buf flags destAddr addrlen ret =>
          cases ret with
          | error e => rfl
          | ok r => cases hmoves
        | _ => rfl
      rw [hidle] at hring
      exact hring.symm.trans (List.append_nil _)
    | poller choices happened =>
      obtain ⟨-, -, hchange⟩ := poller_view inv.sender h
      cases hchange with
      | transmit same => rw [same.txQ]
      | take => cases hmoves
      | burst same => rw [same.txQ]
      | packet _ _ _ txQ => rw [txQ]
      | burstDone same => rw [same.txQ]
      | skip _ same => rw [same.txQ]
      | flush _ _ _ _ txQ => rw [txQ]
      | flushDone _ same => rw [same.txQ]
  refine ⟨inv.sender.systemStep h, inv.peer, fun s => ?_, inv.queued, inv.built, inv.wire,
    inv.table, inv.distinct, inv.unspliced⟩
  exact (inv.ring s).trans (hitems s).symm

/-- A new call, with its packet at the end of a ring, where no other packet under way that needs
fragmentation has the same addresses. -/
theorem Hosts.Inv.submit (inv : N.Inv dpdk config) {c : Call} {t : ℕ} {q : BoundedQueue Mbuf}
    (ok' : S.shared.Ok) (hbuilt : c.Built dpdk config)
    (hnew : c.long → ∀ c', N.Outstanding c' → c'.long → ¬ (c'.src = c.src ∧ c'.dst = c.dst))
    (hq : q.items = (N.sender.shared.txQ t).items ++ [c.pkt])
    (htxQ : S.shared.txQ = Function.update N.sender.shared.txQ t q) :
    ({ N with
      calls := N.calls ++ [c]
      queued := Function.update N.queued t (N.queued t ++ [c])
      sender := S } : Hosts).Inv dpdk config := by
  have hold : ∀ {c'}, c' ∈ N.calls → c' ∈ N.calls ++ [c] := List.mem_append_left _
  have hqueued : ∀ {s c'}, c' ∈ Function.update N.queued t (N.queued t ++ [c]) s →
      c' ∈ N.queued s ∨ c' = c := by
    intro s c' hc'
    by_cases hs : s = t
    · subst hs
      rw [Function.update_self, List.mem_append, List.mem_singleton] at hc'
      exact hc'
    · rw [Function.update_of_ne hs] at hc'
      exact .inl hc'
  -- the new call is the only one that gets outstanding
  have hunder : ∀ {c'}, Hosts.Outstanding { N with
      calls := N.calls ++ [c]
      queued := Function.update N.queued t (N.queued t ++ [c])
      sender := S } c' → N.Outstanding c' ∨ c' = c := by
    rintro c' (⟨s, hs⟩ | hframe)
    · exact (hqueued hs).imp_left fun h => .inl ⟨s, h⟩
    · exact .inl (.inr hframe)
  refine ⟨ok', inv.peer, fun s => ?_, fun s c' hc' => ?_, fun c' hc' => ?_, fun x hx => ?_,
    fun x hx => ?_, fun c₁ c₂ h₁ h₂ long₁ long₂ hsrc hdst => ?_, fun x hx => ?_⟩
  · change (Function.update N.queued t (N.queued t ++ [c]) s).map Call.pkt =
      (S.shared.txQ s).items
    rw [htxQ]
    by_cases hs : s = t
    · subst hs
      rw [Function.update_self, Function.update_self, hq, List.map_append, inv.ring]
      rfl
    · rw [Function.update_of_ne hs, Function.update_of_ne hs, inv.ring]
  · rcases hqueued hc' with h | rfl
    · exact hold (inv.queued s c' h)
    · exact List.mem_append_right _ (List.mem_singleton_self c')
  · rcases List.mem_append.mp hc' with h | h
    · exact inv.built c' h
    · rw [List.mem_singleton.mp h]
      exact hbuilt
  · exact ⟨hold (inv.wire x hx).1, (inv.wire x hx).2⟩
  · exact ⟨hold (inv.table x hx).1, (inv.table x hx).2⟩
  · -- the new call is identified, and so were the others
    rcases hunder h₁ with hold₁ | rfl
    · rcases hunder h₂ with hold₂ | rfl
      · exact inv.distinct c₁ c₂ hold₁ hold₂ long₁ long₂ hsrc hdst
      · exact absurd ⟨hsrc, hdst⟩ (hnew long₂ c₁ hold₁ long₁)
    · rcases hunder h₂ with hold₂ | rfl
      · exact absurd ⟨hsrc.symm, hdst.symm⟩ (hnew long₁ c₂ hold₂ long₂)
      · rfl
  · obtain ⟨c', hc', hparts, hpayload⟩ := inv.unspliced x hx
    exact ⟨c', hold hc', hparts, hpayload⟩

/-- A call that puts a packet into a ring keeps the invariant, if it is identified. -/
theorem Hosts.Inv.sendto (inv : N.Inv dpdk config) {pkt : Option ℕ} {sockfd flags : ℤ}
    {buf : List Byte} {destAddr : Option SockaddrIn} {addrlen n : ℕ}
    (h : (SystemEvent.api (.sendto pkt sockfd buf flags destAddr addrlen (.ok (m, n)))).step dpdk
      config N.sender S)
    (hid : (HostsEvent.sender (.api (.sendto pkt sockfd buf flags destAddr addrlen
      (.ok (m, n))))).Identified config N) :
    ({ N.note config (.api (.sendto pkt sockfd buf flags destAddr addrlen (.ok (m, n)))) with
      sender := S }).Inv dpdk config := by
  have ok' := inv.sender.systemStep h
  obtain ⟨σ, hcall, rfl⟩ := h
  have spec : Prog.wp _ (udpdkSendto dpdk config pkt sockfd buf flags destAddr addrlen) _
      N.sender.shared := udpdkSendto_outcome inv.sender
  obtain ⟨-, t, dest, haccepts, hsent⟩ := Prog.wp_of_ok spec hcall
  obtain ⟨addr, -, rfl⟩ := hsent.frame
  obtain ⟨q, hq, htxQ⟩ := hsent.queued
  obtain rfl := haccepts.dest
  obtain rfl : t = sockfd.toNat := by rw [haccepts.fd, Int.toNat_natCast]
  have hitems := (BoundedQueue.enqueue_eq_some_iff.mp hq).2.2
  obtain ⟨c, hc⟩ : ∃ c : Call, c = {
      number := N.calls.length
      src := sourceAddr config (N.sender.shared.desc.slots sockfd.toNat)
      dst := dest.sinAddr
      payload := buf
      pkt := fillMbuf addr (buildFrame dpdk config (σ.desc.slots sockfd.toNat) dest buf) } :=
    ⟨_, rfl⟩
  have hnote : N.note config (.api (.sendto pkt sockfd buf flags (some dest) addrlen (.ok (fillMbuf
      addr (buildFrame dpdk config (σ.desc.slots sockfd.toNat) dest buf), n)))) =
      { N with
        calls := N.calls ++ [c]
        queued := Function.update N.queued sockfd.toNat (N.queued sockfd.toNat ++ [c]) } := by
    rw [hc]
    rfl
  rw [hnote]
  apply inv.submit ok'
  · rw [hc]
    exact ⟨addr, _, dest, rfl, hsent.fits, hsent.source.symm, rfl⟩
  · rw [hc]
    exact hid
  · rw [hc]
    exact hitems
  · exact htxQ

theorem Hosts.note_txTake {s : ℕ} {c : Call} {rest : List Call} (hqueued : N.queued s = c :: rest) :
    N.note config (.poller choices (.txTake s m)) = { N with
      queued := Function.update N.queued s rest
      wire := N.wire ++ (txFrames choices m).map fun f => ⟨c, f⟩ } := by
  have hflat : (N.queued s).head?.toList.flatMap (fun c' =>
      (txFrames choices m).map fun f => (⟨c', f⟩ : WireFrame)) =
      (txFrames choices m).map fun f => ⟨c, f⟩ := by
    rw [hqueued]
    exact List.flatMap_singleton _ _
  have htail : (N.queued s).tail = rest := by
    rw [hqueued]
    rfl
  rw [Hosts.note, hflat, htail]

theorem Hosts.mem_queued_of_take {s t : ℕ} {c c' : Call} {rest : List Call}
    (hqueued : N.queued s = c :: rest) (hc' : c' ∈ Function.update N.queued s rest t) :
    c' ∈ N.queued t := by
  by_cases ht : t = s
  · subst ht
    rw [Function.update_self] at hc'
    rw [hqueued]
    exact List.mem_cons_of_mem c hc'
  · rwa [Function.update_of_ne ht] at hc'

theorem Hosts.Outstanding.of_take {s : ℕ} {c c' : Call} {rest : List Call} {frames : List Mbuf}
    (hqueued : N.queued s = c :: rest)
    (h : Hosts.Outstanding { N with
      queued := Function.update N.queued s rest
      wire := N.wire ++ frames.map fun f => ⟨c, f⟩
      sender := S } c') : N.Outstanding c' := by
  rcases h with ⟨t, ht⟩ | ⟨x, hx, rfl⟩
  · exact .inl ⟨t, mem_queued_of_take hqueued ht⟩
  · rcases List.mem_append.mp hx with hwire | htable
    · rcases List.mem_append.mp hwire with hold | hnew
      · exact .inr ⟨x, List.mem_append_left _ hold, rfl⟩
      · obtain ⟨f, -, rfl⟩ := List.mem_map.mp hnew
        exact .inl ⟨s, by rw [hqueued]; exact List.mem_cons_self⟩
    · exact .inr ⟨x, List.mem_append_right _ htable, rfl⟩

/-- The poller takes a packet out of a ring, and puts its frames on the wire. -/
theorem Hosts.Inv.take (inv : N.Inv dpdk config) {s : ℕ}
    (h : (SystemEvent.poller choices (.txTake s m)).step dpdk config N.sender S)
    (hfrags : ∀ frags ∈ choices.fragments, FragmentsOf m frags) :
    ({ N.note config (.poller choices (.txTake s m)) with sender := S }).Inv dpdk config := by
  have ok' := inv.sender.systemStep h
  obtain ⟨-, -, hchange⟩ := poller_view inv.sender h
  cases hchange with
  | @take i m q pc pc' taken rxQ rxBuffer txQ =>
    have hitems := (BoundedQueue.dequeue_eq_some_iff.mp taken).2
    have hring := inv.ring s
    rw [hitems] at hring
    obtain ⟨c, rest, hqueued, hpkt, hrest⟩ : ∃ c rest, N.queued s = c :: rest ∧ c.pkt = m ∧
        rest.map Call.pkt = q.items := by
      cases hq : N.queued s with
      | nil =>
        rw [hq] at hring
        cases hring
      | cons c rest =>
        rw [hq] at hring
        obtain ⟨hpkt, hrest⟩ := List.cons.inj hring
        exact ⟨c, rest, rfl, hpkt, hrest⟩
    subst hpkt
    have hcall : c ∈ N.calls := inv.queued s c (by rw [hqueued]; exact List.mem_cons_self)
    rw [Hosts.note_txTake hqueued]
    refine ⟨ok', inv.peer, fun t => ?_, fun t c' hc' => ?_, inv.built, fun x hx => ?_, inv.table,
      fun c₁ c₂ h₁ h₂ => inv.distinct c₁ c₂ (h₁.of_take hqueued) (h₂.of_take hqueued),
      inv.unspliced⟩
    · change (Function.update N.queued s rest t).map Call.pkt = (S.shared.txQ t).items
      rw [txQ]
      by_cases ht : t = s
      · subst ht
        rw [Function.update_self, Function.update_self, hrest]
      · rw [Function.update_of_ne ht, Function.update_of_ne ht, inv.ring]
    · exact inv.queued t c' (Hosts.mem_queued_of_take hqueued hc')
    · rcases List.mem_append.mp hx with hx | hx
      · exact inv.wire x hx
      · obtain ⟨f, hf, rfl⟩ := List.mem_map.mp hx
        exact ⟨hcall, (inv.built c hcall).frames hfrags hf⟩

theorem Hosts.Inv.call_mem (inv : N.Inv dpdk config) (hx : x ∈ N.wire ++ N.table) :
    x.call ∈ N.calls := by
  rcases List.mem_append.mp hx with hwire | htable
  · exact (inv.wire x hwire).1
  · exact (inv.table x htable).1

/-- Fragments of identified calls that are put together are those of one call. -/
theorem Hosts.Inv.carries_of_tiles (inv : N.Inv dpdk config) {key : InAddr × InAddr × BitVec 16}
    (hparts : ∀ p ∈ parts, p ∈ N.wire ++ N.table ∧ p.Fragment)
    (same : ∀ p ∈ parts, p.frame.flowKey = key)
    (tiles : Tiles Mbuf.fragmentStart Mbuf.fragmentLen Mbuf.isLastFragment 0
      (parts.map WireFrame.frame))
    (assembled : ReassemblyOf (parts.map WireFrame.frame) d) :
    ∃ c ∈ N.calls, (∀ p ∈ parts, p.call = c) ∧ Carries c.pkt d [] := by
  have hsize : 0 < fragSize := by decide
  have hkinds : ∀ f ∈ parts.map WireFrame.frame,
      (f.fragmentStart = 0 ∧ f.fragmentLen = fragSize ∧ f.isLastFragment = false) ∨
        (f.fragmentStart = fragSize ∧ f.isLastFragment = true) := by
    intro f hf
    obtain ⟨p, hp, rfl⟩ := List.mem_map.mp hf
    exact (hparts p hp).2.kinds
  obtain ⟨a, b, hpair, hmore, hlast⟩ := tiles.eq_pair hsize hkinds
  obtain ⟨x, y, rfl, rfl, rfl⟩ : ∃ x y, parts = [x, y] ∧ x.frame = a ∧ y.frame = b := by
    match parts, hpair with
    | [x, y], hpair =>
      obtain ⟨hx, hy⟩ := List.cons.inj hpair
      exact ⟨x, y, rfl, hx, (List.cons.inj hy).1⟩
  obtain ⟨hunder, hfirst⟩ := hparts x (by simp)
  obtain ⟨hunder', hsecond⟩ := hparts y (by simp)
  have hcall := inv.call_mem hunder
  have hcall' := inv.call_mem hunder'
  -- the key has the addresses of both calls
  have haddrs := hfirst.addrs_eq (inv.built _ hcall)
  have haddrs' := hsecond.addrs_eq (inv.built _ hcall')
  have hkey : x.frame.flowKey = y.frame.flowKey := (same x (by simp)).trans (same y (by simp)).symm
  obtain ⟨hsrc, hrest⟩ := Prod.mk.inj hkey
  obtain ⟨hdst, -⟩ := Prod.mk.inj hrest
  have hsame : x.call = y.call := inv.distinct _ _ (.inr ⟨x, hunder, rfl⟩)
    (.inr ⟨y, hunder', rfl⟩) (hfirst.long (inv.built _ hcall)) (hsecond.long (inv.built _ hcall'))
    (by rw [← haddrs.1, ← haddrs'.1, hsrc]) (by rw [← haddrs.2, ← haddrs'.2, hdst])
  refine ⟨x.call, hcall, fun p hp => ?_, ?_⟩
  · rcases List.mem_pair.mp hp with rfl | rfl
    · rfl
    · exact hsame.symm
  · -- the first of them is a first fragment, the second one a last
    cases hfirst with
    | last piece =>
      rw [Mbuf.isLastFragment, piece.offset] at hmore
      exact absurd hmore (by decide)
    | first piece long =>
      cases hsecond with
      | first piece' =>
        rw [Mbuf.isLastFragment, piece'.offset] at hlast
        exact absurd hlast (by decide)
      | last piece' =>
        rw [← hsame] at piece'
        exact carries_of_reassembly long piece piece' assembled

/-- A frame that is received is a fragment just when the test of the poller says so. -/
theorem Hosts.Inv.fragmented_cases (inv : N.Inv dpdk config) (hx : x ∈ N.wire)
    (harrives : ArrivesAs x.frame r) :
    Dpdk.reference.ipv4FragPktIsFragmented r.fragmentOffset = true ∧ x.Fragment ∨
      Dpdk.reference.ipv4FragPktIsFragmented r.fragmentOffset = false ∧ x.Whole := by
  rcases (inv.wire x hx).2 with hwhole | hfragment
  · refine .inr ⟨?_, hwhole⟩
    rw [harrives.fragmentOffset_eq hwhole.head, hwhole.offset]
    decide
  · refine .inl ⟨?_, hfragment⟩
    cases hfragment with
    | first piece =>
      rw [harrives.fragmentOffset_eq piece.head, piece.offset]
      decide
    | last piece =>
      rw [harrives.fragmentOffset_eq piece.head, piece.offset]
      decide

theorem TableStep.subset {table : List WireFrame} {assembled : Option Mbuf}
    (h : TableStep table x assembled parts table') : table' ⊆ x :: table ∧ parts ⊆ x :: table := by
  cases h with
  | wait kept => exact ⟨kept.subset, List.nil_subset _⟩
  | complete kept =>
    exact ⟨fun p hp => kept.subset (List.mem_append_right _ hp),
      fun p hp => kept.subset (List.mem_append_left _ hp)⟩

/-- What the peer makes of a frame, alone or with fragments that were waiting, carries the packet
of one call. -/
theorem Hosts.Inv.carries (inv : N.Inv dpdk config) (hx : x ∈ N.wire)
    (hfragmented : peerDpdk.ipv4FragPktIsFragmented = Dpdk.reference.ipv4FragPktIsFragmented)
    (harrives : ArrivesAs x.frame r)
    (htable : if peerDpdk.ethIsIpv4Hdr r.packetType ∧
        peerDpdk.ipv4FragPktIsFragmented r.fragmentOffset then
      TableStep N.table x choices.assembled parts table'
    else parts = [x] ∧ table' = N.table) :
    (∀ p ∈ table', p ∈ N.wire ++ N.table ∧ p.Fragment) ∧
      ∀ d ∈ datagramOf peerDpdk choices r, ∃ c ∈ N.calls, (∀ p ∈ parts, p.call = c) ∧
        ∃ padding, Carries c.pkt d padding := by
  have hcall := (inv.wire x hx).1
  have hkinds := inv.fragmented_cases hx harrives
  have hall : ∀ p ∈ x :: N.table, x.Fragment → p ∈ N.wire ++ N.table ∧ p.Fragment := by
    intro p hp hfragment
    rcases List.mem_cons.mp hp with rfl | hp
    · exact ⟨List.mem_append_left _ hx, hfragment⟩
    · exact ⟨List.mem_append_right _ hp, (inv.table p hp).2⟩
  rw [hfragmented] at htable
  split_ifs at htable with hfrag
  · -- the frame goes to the fragment table
    have hfragment : x.Fragment := by
      rcases hkinds with ⟨-, h⟩ | ⟨hfalse, -⟩
      · exact h
      · rw [hfrag.2] at hfalse
        cases hfalse
    refine ⟨fun p hp => hall p (htable.subset.1 hp) hfragment, fun d hd => ?_⟩
    obtain ⟨-, ⟨-, hsome⟩ | ⟨hfalse, -⟩⟩ := datagramOf_cases hd
    · have hparts : ∀ p ∈ parts, p ∈ N.wire ++ N.table ∧ p.Fragment :=
        fun p hp => hall p (htable.subset.2 hp) hfragment
      rw [hsome] at htable
      cases htable with
      | complete kept same tiles assembled =>
        obtain ⟨c, hc, hcalls, hcarries⟩ := inv.carries_of_tiles hparts same tiles assembled
        exact ⟨c, hc, hcalls, [], hcarries⟩
    · rw [hfragmented, hfrag.2] at hfalse
      cases hfalse
  · -- the frame is demultiplexed as it is
    obtain ⟨rfl, rfl⟩ := htable
    refine ⟨fun p hp => ⟨List.mem_append_right _ hp, (inv.table p hp).2⟩, fun d hd => ?_⟩
    obtain ⟨hip, ⟨htrue, -⟩ | ⟨hfalse, rfl⟩⟩ := datagramOf_cases hd
    · rw [hfragmented] at htrue
      exact absurd ⟨hip, htrue⟩ hfrag
    · rw [hfragmented] at hfalse
      rcases hkinds with ⟨htrue, -⟩ | ⟨-, hwhole⟩
      · rw [hfalse] at htrue
        cases htrue
      · have hlen : sizeofHeaders ≤ x.call.pkt.bytes.length := by
          rw [(inv.built _ hcall).length_bytes]
          exact Nat.le_add_right _ _
        obtain ⟨padding, hcarries⟩ := carries_of_arrives hlen hwhole harrives
        refine ⟨x.call, hcall, fun p hp => ?_, padding, hcarries⟩
        rw [List.mem_singleton.mp hp]

/-- The peer demultiplexes a frame. -/
theorem Hosts.Inv.receive (inv : N.Inv dpdk config)
    (hfragmented : peerDpdk.ipv4FragPktIsFragmented = Dpdk.reference.ipv4FragPktIsFragmented)
    (h : (HostsEvent.receive x choices r delivered parts).step dpdk peerDpdk config peerConfig
      N N') :
    N'.Inv dpdk config := by
  obtain ⟨-, harrives, before, after, T, table', hwire, hstep, htable, rfl⟩ := h
  have okPeer := inv.peer.systemStep hstep
  obtain ⟨pending, T₁, -, hret, -⟩ := reassemble_of_pollerStep inv.peer.mem hstep.2
  have hx : x ∈ N.wire := by rw [hwire]; simp
  obtain ⟨htable', hdelivered⟩ := inv.carries hx hfragmented harrives htable
  have hleft : ∀ y ∈ before ++ after, y ∈ N.wire := by
    rw [hwire]
    exact ((List.sublist_cons_self x after).append_left before).subset
  have hunder : ∀ c, Hosts.Outstanding { N with
      peer := T
      wire := before ++ after
      table := table'
      delivered := N.delivered ++ (delivered.filterMap Prod.snd).map fun d => (parts, d) } c →
      N.Outstanding c := by
    refine fun c => Hosts.Outstanding.mono rfl fun y hy => ?_
    rcases List.mem_append.mp hy with hy | hy
    · exact List.mem_append_left _ (hleft y hy)
    · exact (htable' y hy).1
  refine ⟨inv.sender, okPeer, inv.ring, inv.queued, inv.built, fun y hy => inv.wire y (hleft y hy),
    fun y hy => ⟨inv.call_mem (htable' y hy).1, (htable' y hy).2⟩,
    fun c c' h h' => inv.distinct c c' (hunder c h) (hunder c' h'), fun y hy => ?_⟩
  rcases List.mem_append.mp hy with hy | hy
  · exact inv.unspliced y hy
  · -- every buffer delivered is a copy of what was demultiplexed
    obtain ⟨d, hd, rfl⟩ := List.mem_map.mp hy
    obtain ⟨⟨b, o⟩, hmem, hsome⟩ := List.mem_filterMap.mp hd
    obtain rfl : o = some d := hsome
    obtain ⟨whole, hwhole, hcopy⟩ := exists_isCopy_of_delivered inv.peer.mem hret hmem
    obtain ⟨c, hc, hcalls, padding, hcarries⟩ := hdelivered whole hwhole
    exact ⟨c, hc, hcalls, (inv.built c hc).payload_eq (hcarries.copy hcopy)⟩

/-- **No step splices**, if the calls are identified. -/
theorem Hosts.Inv.step (inv : N.Inv dpdk config)
    (hfragmented : peerDpdk.ipv4FragPktIsFragmented = Dpdk.reference.ipv4FragPktIsFragmented)
    {e : HostsEvent} (h : e.step dpdk peerDpdk config peerConfig N N')
    (hid : e.Identified config N) : N'.Inv dpdk config := by
  cases e with
  | peer e =>
    obtain ⟨-, T, hstep, rfl⟩ := h
    exact ⟨inv.sender, inv.peer.systemStep hstep, inv.ring, inv.queued, inv.built, inv.wire,
      inv.table, inv.distinct, inv.unspliced⟩
  | receive => exact inv.receive hfragmented h
  | lose x =>
    obtain ⟨before, after, hwire, rfl⟩ := h
    have hleft : ∀ y ∈ before ++ after, y ∈ N.wire := by
      rw [hwire]
      exact ((List.sublist_cons_self x after).append_left before).subset
    have hunder : ∀ c, Hosts.Outstanding { N with wire := before ++ after } c →
        N.Outstanding c := by
      refine fun c => Hosts.Outstanding.mono rfl fun y hy => ?_
      rcases List.mem_append.mp hy with hy | hy
      · exact List.mem_append_left _ (hleft y hy)
      · exact List.mem_append_right _ hy
    exact ⟨inv.sender, inv.peer, inv.ring, inv.queued, inv.built,
      fun y hy => inv.wire y (hleft y hy), inv.table,
      fun c c' h h' => inv.distinct c c' (hunder c h) (hunder c' h'), inv.unspliced⟩
  | sender e =>
    obtain ⟨hfrags, S, hstep, rfl⟩ := h
    cases hmoves : e.moves with
    | false =>
      rw [Hosts.note_eq hmoves]
      exact inv.other hstep hmoves
    | true =>
      cases e with
      | api e =>
        cases e with
        | sendto pkt sockfd buf flags destAddr addrlen ret =>
          cases ret with
          | error e => cases hmoves
          | ok r =>
            obtain ⟨m, n⟩ := r
            exact inv.sendto hstep hid
        | _ => cases hmoves
      | poller choices happened =>
        cases happened with
        | txTake => exact inv.take hstep hfrags
        | _ => cases hmoves

end Invariant

end Udpdk
