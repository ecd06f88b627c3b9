import Udpdk.BindTable.Refinement
import Udpdk.Poller.Basic

/-!
# Demultiplexing

What `reassemble` delivers, as a function of the bindings of the destination port: the
scan passes the list from its front and stops at the first matching binding without flags.

## Main definitions

* `BindInfo.matchesDst`, `receivers` — the bindings a packet is delivered to
* `Shadowed` — a wildcard without flags hides a specific binding
* `datagramOf` — the packet that gets to the scan
* `stagedFor` — what a list of deliveries adds to the buffer of a slot
* `System.HasRoom` — the staging buffers take every delivery of a packet
* `handedOut`, `leftOver` — the buffers that go to the receivers, and the one that does not

## Main results

* `receivers_complete_iff` — on coexisting bindings, when nothing that matches is missed
* `reassemble_handed` — `reassemble` hands out these buffers to the receivers
* `reassemble_spec` — it delivers to the receivers, and to nothing else
* `exists_reassemble`, `reassemble_of_full` — it returns if the staging buffers have room
-/

namespace Udpdk

open Foundation

/-! ## The receivers of a packet -/

/-- The test of the scan. -/
def BindInfo.matchesDst (b : BindInfo) (ip : InAddr) : Prop := b.ipAddr = ip ∨ b.ipAddr = inaddrAny

instance (b : BindInfo) (ip : InAddr) : Decidable (b.matchesDst ip) :=
  inferInstanceAs (Decidable (_ ∨ _))

/-- Neither flag is set. -/
def BindInfo.flagless (b : BindInfo) : Bool := !b.reuseAddr && !b.reusePort

/-- The bindings of a list that a packet is delivered to. -/
def receivers (ip : InAddr) : List BindInfo → List BindInfo
  | [] => []
  | b :: bs =>
    if b.matchesDst ip then
      if b.flagless then [b] else b :: receivers ip bs
    else receivers ip bs

/-- A wildcard without flags and a binding to the destination itself. -/
def Shadowed (bs : List BindInfo) (ip : InAddr) : Prop :=
  (∃ w ∈ bs, w.ipAddr = inaddrAny ∧ w.flagless) ∧ ∃ b ∈ bs, b.ipAddr ≠ inaddrAny ∧ b.ipAddr = ip

section Receivers

variable {ip : InAddr} {b : BindInfo} {bs : List BindInfo}

theorem receivers_cons : receivers ip (b :: bs) =
    if b.matchesDst ip then (if b.flagless then [b] else b :: receivers ip bs)
    else receivers ip bs := rfl

theorem receivers_sublist : (receivers ip bs).Sublist (bs.filter fun b => b.matchesDst ip) := by
  induction bs with
  | nil => exact List.Sublist.refl _
  | cons b bs ih =>
    unfold receivers
    by_cases hmatch : b.matchesDst ip
    · rw [if_pos hmatch, List.filter_cons_of_pos (by simpa using hmatch)]
      split
      · exact (List.nil_sublist _).cons_cons b
      · exact ih.cons_cons b
    · rw [if_neg hmatch, List.filter_cons_of_neg (by simpa using hmatch)]
      exact ih

theorem mem_of_mem_receivers (h : b ∈ receivers ip bs) : b ∈ bs ∧ b.matchesDst ip := by
  simpa using receivers_sublist.mem h

/-- Among specific bindings a matching one without flags is the only one that matches. -/
theorem receivers_eq_filter (hco : Coexist bs) (specific : ∀ b ∈ bs, b.ipAddr ≠ inaddrAny) :
    receivers ip bs = bs.filter fun b => b.matchesDst ip := by
  induction bs with
  | nil => rfl
  | cons b bs ih =>
    obtain ⟨hlater, hrest⟩ := List.pairwise_cons.mp hco
    have ih := ih hrest fun c hc => specific c (List.mem_cons_of_mem b hc)
    unfold receivers
    by_cases hmatch : b.matchesDst ip
    · rw [if_pos hmatch, List.filter_cons_of_pos (by simpa using hmatch), ← ih]
      have hb : b.ipAddr = ip := hmatch.resolve_right (specific b List.mem_cons_self)
      cases hflag : b.flagless with
      | false => rfl
      | true =>
        -- a later match would share the address, and then both have `SO_REUSEPORT`
        have hnone : receivers ip bs = [] := by
          rw [List.eq_nil_iff_forall_not_mem]
          intro c hc
          obtain ⟨hmem, hcmatch⟩ := mem_of_mem_receivers hc
          have hcip := hcmatch.resolve_right (specific c (List.mem_cons_of_mem b hmem))
          have hreuse := ((hlater c hmem).same_ip (hb.trans hcip.symm)).1
          simp [BindInfo.flagless, hreuse] at hflag
        rw [hnone]
        rfl
    · rw [if_neg hmatch, List.filter_cons_of_neg (by simpa using hmatch), ih]

/-- After its first element a list of coexisting bindings is specific. -/
theorem Coexist.specific_tail (hco : Coexist (b :: bs)) : ∀ c ∈ bs, c.ipAddr ≠ inaddrAny :=
  fun c hc => ((List.pairwise_cons.mp hco).1 c hc).specific

/-- **Completeness of the scan.** On coexisting bindings every match is a receiver exactly
when no binding to the destination is shadowed. -/
theorem receivers_complete_iff (hco : Coexist bs) :
    (∀ b ∈ bs, b.matchesDst ip → b ∈ receivers ip bs) ↔ ¬ Shadowed bs ip := by
  cases bs with
  | nil => simp [Shadowed]
  | cons x rest =>
    obtain ⟨-, hrest⟩ := List.pairwise_cons.mp hco
    have hspecific := hco.specific_tail
    have htail : receivers ip rest = rest.filter fun b => b.matchesDst ip :=
      receivers_eq_filter hrest hspecific
    by_cases hx : x.ipAddr = inaddrAny
    · have hmatch : x.matchesDst ip := .inr hx
      cases hflag : x.flagless with
      | true =>
        have hrec : receivers ip (x :: rest) = [x] := by
          rw [receivers, if_pos hmatch, if_pos hflag]
        rw [hrec]
        constructor
        · rintro hall ⟨-, b, hb, hbspecific, hip⟩
          have := hall b hb (.inl hip)
          rw [List.mem_singleton] at this
          exact hbspecific (this ▸ hx)
        · intro hshadow b hb hbmatch
          rcases List.mem_cons.mp hb with rfl | hb
          · exact List.mem_singleton_self b
          · exfalso
            apply hshadow ⟨⟨x, List.mem_cons_self, hx, hflag⟩, b, List.mem_cons_of_mem x hb, ?_⟩
            exact ⟨hspecific b hb, hbmatch.resolve_right (hspecific b hb)⟩
      | false =>
        have hrec : receivers ip (x :: rest) = x :: rest.filter fun b => b.matchesDst ip := by
          rw [receivers, if_pos hmatch, hflag, htail]
          rfl
        rw [hrec]
        constructor
        · rintro - ⟨⟨w, hw, hwild, hwflag⟩, -⟩
          rcases List.mem_cons.mp hw with rfl | hw
          · rw [hflag] at hwflag
            cases hwflag
          · exact hspecific w hw hwild
        · intro _ b hb hbmatch
          rcases List.mem_cons.mp hb with rfl | hb
          · exact List.mem_cons_self
          · exact List.mem_cons_of_mem x (List.mem_filter.mpr ⟨hb, by simpa using hbmatch⟩)
    · have hall : ∀ c ∈ x :: rest, c.ipAddr ≠ inaddrAny := by
        simpa using ⟨hx, hspecific⟩
      rw [receivers_eq_filter hco hall]
      constructor
      · rintro - ⟨⟨w, hw, hwild, -⟩, -⟩
        exact hall w hw hwild
      · exact fun _ b hb hbmatch => List.mem_filter.mpr ⟨hb, by simpa using hbmatch⟩

end Receivers

/-! ## The scan -/

/-- The packet that `reassemble` demultiplexes: whole, and UDP. -/
def datagramOf (dpdk : Dpdk) (choices : DpdkChoices) (m : Mbuf) : Option Mbuf :=
  let whole :=
    if dpdk.ethIsIpv4Hdr m.packetType then
      if dpdk.ipv4FragPktIsFragmented m.fragmentOffset then choices.assembled else some m
    else none
  whole.filter fun m => m.nextProtoId = BitVec.ofInt 8 ipprotoUdp

/-- A delivery: the binding, and the buffer put into its slot. -/
abbrev Delivery := BindInfo × Option Mbuf

theorem excBufIdx_eq_self_iff {s : ℕ} : excBufIdx s = s ↔ s < 256 := by
  unfold excBufIdx
  omega

/-- What a list of deliveries adds to the staging buffer of slot `s`. -/
def stagedFor (delivered : List Delivery) (s : ℕ) : List (Option Mbuf) :=
  (delivered.filter fun d => excBufIdx d.1.sockfd = s).map Prod.snd

/-- The bindings that a packet demultiplexed in the state `S` is delivered to. -/
def System.receiversOf (S : System) (packet : Option Mbuf) : List BindInfo :=
  match packet with
  | none => []
  | some d => receivers d.dstAddr (S.shared.mem.bindings d.dstPort)

/-- How many of the bindings lead to the staging buffer of slot `s`. -/
def stagedCount (bs : List BindInfo) (s : ℕ) : ℕ :=
  (bs.filter fun b => excBufIdx b.sockfd = s).length

/-- The staging buffers take one more packet for each of the bindings. -/
def System.RoomFor (S : System) (bs : List BindInfo) : Prop :=
  ∀ b ∈ bs, (S.rxBuffer (excBufIdx b.sockfd)).length + stagedCount bs (excBufIdx b.sockfd) ≤
    exchBufSize

/-- The staging buffers take every delivery of the packet. -/
def System.HasRoom (S : System) (packet : Option Mbuf) : Prop := S.RoomFor (S.receiversOf packet)

instance (S : System) (bs : List BindInfo) : Decidable (S.RoomFor bs) :=
  inferInstanceAs (Decidable (∀ b ∈ bs, _))

/-- A buffer with the data of `m`. -/
def Mbuf.IsCopy (m m' : Mbuf) : Prop := ∃ addr, m' = { m with addr := addr }

/-- The buffers that are handed out for the packet `m`, in order: the packet itself, then
clones of it. -/
def handedOut (choices : DpdkChoices) (m : Mbuf) : ℕ → Option Mbuf
  | 0 => some m
  | n + 1 => (choices.clone n).map fun addr => { m with addr := addr }

/-- The buffer that is left over after a scan, unless the last one was kept by its receiver. -/
def leftOver (choices : DpdkChoices) (m : Mbuf) (delivered : List Delivery) : List ℕ :=
  if delivered.all fun x => !x.1.flagless then
    (handedOut choices m delivered.length).toList.map Mbuf.addr
  else []

/-- The buffers that are given back when a packet was demultiplexed in the state `S`. -/
def System.released (S : System) (packet : Option Mbuf) (choices : DpdkChoices)
    (delivered : List Delivery) : List ℕ :=
  match packet with
  | none => []
  | some d =>
    if S.shared.mem.bindings d.dstPort = [] then [] else leftOver choices d delivered

section Scan

variable {allowed : Fault → Prop} {dpdk : Dpdk} {choices : DpdkChoices} {S S' : System}
  {m : Mbuf} {delivered : List Delivery} {b : BindInfo} {o : Option Mbuf} {s : ℕ}

theorem wp_onTable {α : Type} (x : MemProg α) (post : α → System → Prop) :
    Prog.wp allowed (onTable x) post S ↔ Prog.wp allowed x (fun a m =>
      post a { S with shared := { S.shared with mem := m } }) S.shared.mem :=
  Prog.wp_zoom _ _ x post S

theorem wp_onShared {α : Type} (x : SharedProg α) (post : α → System → Prop) :
    Prog.wp allowed (onShared x) post S ↔
      Prog.wp allowed x (fun a σ => post a { S with shared := σ }) S.shared :=
  Prog.wp_zoom _ _ x post S

@[simp] theorem stagedFor_nil : stagedFor [] s = [] := rfl

theorem stagedFor_snoc : stagedFor (delivered ++ [(b, o)]) s =
    if excBufIdx b.sockfd = s then stagedFor delivered s ++ [o] else stagedFor delivered s := by
  unfold stagedFor
  rw [List.filter_append, List.map_append]
  split
  · rename_i h
    rw [List.filter_cons_of_pos (by simpa using h)]
    rfl
  · rename_i h
    rw [List.filter_cons_of_neg (by simpa using h)]
    simp

theorem length_stagedFor :
    (stagedFor delivered s).length = stagedCount (delivered.map Prod.fst) s := by
  rw [stagedFor, stagedCount, List.length_map, List.filter_map, List.length_map]
  rfl

theorem stagedCount_snoc (bs : List BindInfo) (b : BindInfo) (s : ℕ) :
    stagedCount (bs ++ [b]) s = stagedCount bs s + if excBufIdx b.sockfd = s then 1 else 0 := by
  rw [stagedCount, List.filter_append, List.length_append, stagedCount]
  split
  · rw [List.filter_cons_of_pos (by simpa using ‹_›)]
    rfl
  · rw [List.filter_cons_of_neg (by simpa using ‹_›)]
    rfl

theorem System.roomFor_nil : S.RoomFor [] := nofun

theorem System.RoomFor.snoc {bs : List BindInfo} (h : S.RoomFor bs)
    (room : (S.rxBuffer (excBufIdx b.sockfd)).length + stagedCount bs (excBufIdx b.sockfd) <
      exchBufSize) :
    S.RoomFor (bs ++ [b]) := by
  intro c hc
  rw [stagedCount_snoc]
  by_cases heq : excBufIdx b.sockfd = excBufIdx c.sockfd
  · rw [if_pos heq, ← heq]
    exact room
  · rw [if_neg heq]
    rcases List.mem_append.mp hc with hc | hc
    · exact h c hc
    · exact absurd (by rw [List.mem_singleton.mp hc]) heq

theorem System.roomFor_of_length {bs : List BindInfo}
    (h : ∀ s, (S.rxBuffer s).length + bs.length ≤ exchBufSize) : S.RoomFor bs := by
  intro b _
  have hfilter := List.length_filter_le (fun c => excBufIdx c.sockfd = excBufIdx b.sockfd) bs
  have hlength := h (excBufIdx b.sockfd)
  rw [stagedCount]
  omega

theorem System.RoomFor.next {bs rest : List BindInfo} (h : S.RoomFor (bs ++ b :: rest)) :
    (S.rxBuffer (excBufIdx b.sockfd)).length + stagedCount bs (excBufIdx b.sockfd) <
      exchBufSize := by
  have hb := h b (List.mem_append_right bs List.mem_cons_self)
  rw [stagedCount, List.filter_append, List.filter_cons_of_pos (by simp), List.length_append,
    List.length_cons] at hb
  rw [stagedCount]
  omega

/-- The state in the middle of a scan. -/
def System.scanning (S : System) (mem : Mem) (delivered : List Delivery) : System where
  shared := { S.shared with mem := mem }
  pc := S.pc
  rxBuffer := fun s => S.rxBuffer s ++ stagedFor delivered s
  deathRow := S.deathRow
  txMbufTable := S.txMbufTable
  txCount := S.txCount
  sent := S.sent

theorem scanning_nil (mem : Mem) :
    { S with shared := { S.shared with mem := mem } } = S.scanning mem [] := by
  simp [System.scanning]

/-- `enqueue_rx_packet` in the middle of a scan: it needs room for one packet more. -/
theorem wp_enqueueRxPacket {mem : Mem} {post : Unit → System → Prop}
    (full : ¬ (S.rxBuffer (excBufIdx b.sockfd)).length +
      stagedCount (delivered.map Prod.fst) (excBufIdx b.sockfd) < exchBufSize →
        allowed .outOfBounds)
    (room : (S.rxBuffer (excBufIdx b.sockfd)).length +
      stagedCount (delivered.map Prod.fst) (excBufIdx b.sockfd) < exchBufSize →
        post () (S.scanning mem (delivered ++ [(b, o)]))) :
    Prog.wp allowed (enqueueRxPacket b.sockfd o) post (S.scanning mem delivered) := by
  have hbuffer : Function.update (S.scanning mem delivered).rxBuffer (excBufIdx b.sockfd)
      ((S.scanning mem delivered).rxBuffer (excBufIdx b.sockfd) ++ [o]) =
      (S.scanning mem (delivered ++ [(b, o)])).rxBuffer := by
    funext s
    change _ = S.rxBuffer s ++ stagedFor (delivered ++ [(b, o)]) s
    rw [stagedFor_snoc]
    by_cases hs : s = excBufIdx b.sockfd
    · subst hs
      rw [Function.update_self, if_pos rfl, ← List.append_assoc]
      rfl
    · rw [Function.update_of_ne hs, if_neg (Ne.symm hs)]
      rfl
  have hlength : ((S.scanning mem delivered).rxBuffer (excBufIdx b.sockfd)).length =
      (S.rxBuffer (excBufIdx b.sockfd)).length +
        stagedCount (delivered.map Prod.fst) (excBufIdx b.sockfd) := by
    rw [← length_stagedFor]
    exact List.length_append
  rw [enqueueRxPacket, Prog.wp_bind, Prog.wp_read, hlength]
  split
  · rename_i hroom
    have hpost := room hroom
    rw [Prog.wp_update, hbuffer]
    exact hpost
  · exact full ‹_›

theorem enqueueRxPacket_eq_ok {sockfd : ℤ} (h : enqueueRxPacket sockfd o S = .ok ((), S')) :
    (S.rxBuffer (excBufIdx sockfd)).length < exchBufSize ∧ S' = { S with
      rxBuffer := Function.update S.rxBuffer (excBufIdx sockfd)
        (S.rxBuffer (excBufIdx sockfd) ++ [o]) } := by
  rw [enqueueRxPacket, Prog.bind_of_ok (Prog.read_apply S)] at h
  split at h
  · exact ⟨‹_›, (Prod.mk.inj (Except.ok.inj h)).2.symm⟩
  · cases h

theorem isCopy_of_handedOut {m' : Mbuf} {n : ℕ} (h : m' ∈ handedOut choices m n) :
    m.IsCopy m' := by
  cases n with
  | zero => exact ⟨m.addr, (Option.some.inj h).symm⟩
  | succ n =>
    obtain ⟨addr, -, rfl⟩ := Option.map_eq_some_iff.mp h
    exact ⟨addr, rfl⟩

theorem handedOut_eq_none {n : ℕ} (h : handedOut choices m n = none) :
    ∃ k, n = k + 1 ∧ choices.clone k = none := by
  cases n with
  | zero => cases h
  | succ n => exact ⟨n, rfl, Option.map_eq_none_iff.mp h⟩

/-- The loop variables of a scan that has `pending` bindings before it. -/
structure Demux.Inv (d : Demux) (m : Mbuf) (choices : DpdkChoices) (all pending : List BindInfo) :
    Prop where
  fuller : d.delivered.map Prod.fst ++ receivers m.dstAddr pending = receivers m.dstAddr all
  buffers : d.delivered.map Prod.snd =
    (List.range d.delivered.length).map (handedOut choices m)
  going : pending ≠ [] → d.deliveredLast = false
  next : d.deliveredLast = false → d.m = handedOut choices m d.delivered.length
  last : (d.delivered.all fun x => !x.1.flagless) = !d.deliveredLast

theorem Demux.Inv.exists_handedOut {d : Demux} {all pending : List BindInfo}
    (inv : d.Inv m choices all pending) {x : Delivery} (hx : x ∈ d.delivered) :
    ∃ n, handedOut choices m n = x.2 := by
  have hx' := List.mem_map_of_mem (f := Prod.snd) hx
  rw [inv.buffers] at hx'
  obtain ⟨n, -, hn⟩ := List.mem_map.mp hx'
  exact ⟨n, hn⟩

/-- The buffer that is left over after a scan is the one in the loop variable, unless the last
delivery kept it. -/
theorem Demux.Inv.leftOver_eq {d : Demux} {all pending : List BindInfo}
    (inv : d.Inv m choices all pending) :
    leftOver choices m d.delivered =
      if d.deliveredLast then [] else d.m.toList.map Mbuf.addr := by
  rw [leftOver, inv.last]
  cases hdelivered : d.deliveredLast with
  | true => rfl
  | false =>
    rw [inv.next hdelivered]
    rfl

/-- One round of the scan: a match is delivered, and the scan goes on with a clone, or
stops. -/
theorem wp_reassembleStep (S : System) (mem : Mem) {node : ℕ} {d : Demux}
    {all pending : List BindInfo}
    (hclone : (∃ n, n + 1 < (receivers m.dstAddr all).length ∧ choices.clone n = none) →
      allowed .nullDeref)
    (hroom : ¬ S.RoomFor (receivers m.dstAddr all) → allowed .outOfBounds)
    (inv : d.Inv m choices all (mem.info node :: pending))
    (roomy : S.RoomFor (d.delivered.map Prod.fst)) :
    Prog.wp allowed (reassembleStep choices m.dstAddr node d) (fun r t => match r with
        | .done d' => t = S.scanning mem d'.delivered ∧ d'.Inv m choices all [] ∧
          S.RoomFor (d'.delivered.map Prod.fst)
        | .yield d' => t = S.scanning mem d'.delivered ∧ d'.Inv m choices all pending ∧
          S.RoomFor (d'.delivered.map Prod.fst))
      (S.scanning mem d.delivered) := by
  obtain ⟨fuller, buffers, going, next, last⟩ := inv
  have hgoing : d.deliveredLast = false := going (List.cons_ne_nil _ _)
  have hnext : d.m = handedOut choices m d.delivered.length := next hgoing
  simp only [reassembleStep, Prog.wp_bind, wp_onTable, wp_load_some, udpdkListNodeTAlloc_get,
    bindInfoAlloc_get]
  have hinfo : mem.bindInfoAlloc.cells (mem.nodeAlloc.cells node).val = mem.info node := rfl
  have hstate : { S.scanning mem d.delivered with
      shared := { (S.scanning mem d.delivered).shared with mem := mem } } =
      S.scanning mem d.delivered := rfl
  have hmem : (S.scanning mem d.delivered).shared.mem = mem := rfl
  rw [hmem, hinfo, hstate]
  generalize mem.info node = b at *
  have buffers' : (d.delivered ++ [(b, d.m)]).map Prod.snd =
      (List.range (d.delivered ++ [(b, d.m)]).length).map (handedOut choices m) := by
    rw [List.map_append, buffers, List.length_append, List.length_singleton, List.range_succ,
      List.map_append, List.map_singleton, List.map_singleton, hnext]
  have last' : ((d.delivered ++ [(b, d.m)]).all fun x => !x.1.flagless) = !b.flagless := by
    rw [List.all_append, last, hgoing]
    simp
  by_cases hmatch : b.matchesDst m.dstAddr
  · have hmatch' : m.dstAddr = b.ipAddr ∨ b.ipAddr = inaddrAny := hmatch.imp_left Eq.symm
    rw [if_pos hmatch', Prog.wp_bind]
    rw [receivers_cons, if_pos hmatch] at fuller
    obtain ⟨rest, hrest⟩ : ∃ rest, (if b.flagless then [b] else b :: receivers m.dstAddr pending) =
        b :: rest := by
      split
      · exact ⟨[], rfl⟩
      · exact ⟨_, rfl⟩
    apply wp_enqueueRxPacket
    · intro hfull
      refine hroom fun room => hfull ?_
      rw [← fuller, hrest] at room
      exact room.next
    intro hnext'
    have roomy' : S.RoomFor ((d.delivered ++ [(b, d.m)]).map Prod.fst) := by
      rw [List.map_append]
      exact roomy.snoc hnext'
    cases hflag : b.flagless with
    | true =>
      have hnot : ¬ (b.reuseAddr ∨ b.reusePort) := by
        simpa [BindInfo.flagless] using hflag
      rw [if_neg hnot]
      rw [hflag] at last'
      refine ⟨rfl, ⟨?_, buffers', fun h => absurd rfl h, (fun h => by cases h), last'⟩, roomy'⟩
      simpa [hflag, receivers] using fuller
    | false =>
      have hor : b.reuseAddr ∨ b.reusePort := by
        simpa [BindInfo.flagless, ← Bool.or_eq_true, or_iff_not_imp_left] using hflag
      rw [if_pos hor]
      rw [hflag] at fuller last'
      cases hm : d.m with
      | none =>
        -- the clone that failed was meant for this binding
        obtain ⟨n, hn, hfailed⟩ := handedOut_eq_none (hnext.symm.trans hm)
        refine hclone ⟨n, ?_, hfailed⟩
        rw [← fuller, List.length_append, List.length_map, hn]
        simp
      | some m' =>
        rw [hm] at buffers' last' roomy'
        obtain ⟨addr, rfl⟩ := isCopy_of_handedOut (hnext.symm.trans hm)
        refine ⟨rfl, ⟨?_, buffers', fun _ => rfl, fun _ => ?_, last'⟩, roomy'⟩
        · simpa [receivers] using fuller
        · rw [List.length_append]
          rfl
  · have hmatch' : ¬ (m.dstAddr = b.ipAddr ∨ b.ipAddr = inaddrAny) := fun h =>
      hmatch (h.imp_left Eq.symm)
    rw [if_neg hmatch']
    refine ⟨rfl, ⟨?_, buffers, fun _ => hgoing, next, last⟩, roomy⟩
    rwa [receivers_cons, if_neg hmatch] at fuller

/-- `S'` is the state after `packet` was demultiplexed in the state `S`: it was delivered to
its receivers, in their order, and whatever was delivered is the packet or a clone of it. -/
structure System.Demuxed (S : System) (packet : Option Mbuf) (choices : DpdkChoices)
    (delivered : List Delivery) (S' : System) : Prop where
  mem : S.shared.mem.UpToIterators S'.shared.mem
  frame : S' = { S.scanning S'.shared.mem delivered with
    shared := { S.shared with mem := S'.shared.mem, freed := S'.shared.freed }
    deathRow := S'.deathRow }
  receivers : delivered.map Prod.fst = S.receiversOf packet
  room : S.HasRoom packet
  copies : ∀ x ∈ delivered, ∀ m' ∈ x.2, ∃ d ∈ packet, d.IsCopy m'
  failed : (∃ x ∈ delivered, x.2 = none) → ∃ n, choices.clone n = none

/-- The same with the buffers: what was handed out, and what was given back. -/
structure System.Handed (S : System) (packet : Option Mbuf) (choices : DpdkChoices)
    (delivered : List Delivery) (S' : System) : Prop extends
    S.Demuxed packet choices delivered S' where
  buffers : ∀ d ∈ packet, delivered.map Prod.snd =
    (List.range delivered.length).map (handedOut choices d)
  freed : S'.shared.freed = S.shared.freed ++ S.released packet choices delivered

/-- A packet that is dropped before the scan. -/
theorem handed_nil (ok : S.shared.mem.Ok) {packet : Option Mbuf}
    (hnone : ∀ d ∈ packet, S.shared.mem.bindings d.dstPort = []) :
    S.Handed packet choices [] S where
  mem := ⟨_, rfl, ok.rep.pools.iterators, rfl⟩
  frame := by simp [System.scanning]
  receivers := by
    cases packet with
    | none => rfl
    | some d =>
      rw [System.receiversOf, hnone d rfl]
      rfl
  room := by
    cases packet with
    | none => exact System.roomFor_nil
    | some d =>
      rw [System.HasRoom, System.receiversOf, hnone d rfl]
      exact System.roomFor_nil
  copies := nofun
  failed := by simp
  buffers _ _ := rfl
  freed := by
    cases packet with
    | none => exact (List.append_nil _).symm
    | some d =>
      rw [System.released, if_pos (hnone d rfl), List.append_nil]

/-- The scan of the bindings of a port, with a fresh iterator. -/
theorem wp_reassembleScan (ok : S.shared.mem.Ok)
    (hclone : (∃ n, n + 1 < (S.receiversOf (some m)).length ∧ choices.clone n = none) →
      allowed .nullDeref)
    (hroom : ¬ S.HasRoom (some m) → allowed .outOfBounds) {l : ℕ}
    (hl : S.shared.mem.sockBindTable m.dstPort = some l) (P : Pool ListIterator) (it : ℕ) :
    Prog.wp allowed (Prog.whileSome .noReturn (onTable (listIteratorNext (some it)))
      (reassembleStep choices m.dstAddr) scanFuel
      { m := some m, deliveredLast := false, delivered := [] }) (fun d t => ∃ pending,
        t = S.scanning (S.shared.mem.iterating P it pending) d.delivered ∧
          d.Inv m choices (S.shared.mem.bindings m.dstPort) [] ∧
            S.RoomFor (d.delivered.map Prod.fst))
      (S.scanning (S.shared.mem.iterating P it (S.shared.mem.nodesAt m.dstPort)) []) := by
  have hlinked := (ok.rep.list m.dstPort l hl).linked
  have hlen := (Nat.lt_succ_self _).trans (ok.rep.length_lt_scanFuel m.dstPort)
  let all := S.shared.mem.bindings m.dstPort
  apply wp_scan_zoom (fun _ => rfl) hlinked hlen (fun pending d t =>
    t = S.scanning (S.shared.mem.iterating P it pending) d.delivered ∧
      d.Inv m choices all (pending.map S.shared.mem.info) ∧
        S.RoomFor (d.delivered.map Prod.fst)) rfl
  · exact ⟨rfl, ⟨rfl, rfl, fun _ => rfl, fun _ => rfl, rfl⟩, System.roomFor_nil⟩
  · rintro d t - ⟨rfl, inv⟩
    exact ⟨[], rfl, inv⟩
  · rintro front a rest d t - - ⟨rfl, inv, roomy⟩
    apply Prog.wp_mono
      (wp_reassembleStep S (S.shared.mem.iterating P it rest) hclone hroom inv roomy)
    rintro (d' | d') u h
    · exact ⟨rest, h⟩
    · exact ⟨by rw [h.1]; rfl, h⟩

/-- After the scan, with the buffer left over freed, the packet has been handed out: only the
iterator is still to be destroyed. -/
theorem Demux.Inv.handed {d : Demux} (inv : d.Inv m choices (S.shared.mem.bindings m.dstPort) [])
    (roomy : S.RoomFor (d.delivered.map Prod.fst)) (hport : S.shared.mem.bindings m.dstPort ≠ [])
    {P : Pool ListIterator} {it : ℕ}
    (pending : List ℕ) (hok : P.mz.Ok) (hsize : 0 < P.mz.all.size) (hit : it ∈ P.mz.live)
    (hrest : P.mz.live.erase it = ∅) (hsame : S.shared.mem.iteratorAlloc.mz.SameGeometry P.mz)
    {freed : List ℕ} (hfreed : freed = S.shared.freed ++ leftOver choices m d.delivered) :
    Prog.wp allowed (do
      onTable (listIteratorDestroy (some it))
      return d.delivered) (S.Handed (some m) choices)
      { S.scanning (S.shared.mem.iterating P it pending) d.delivered with
        shared := { S.shared with
          mem := S.shared.mem.iterating P it pending
          freed := freed } } := by
  have hfuller : d.delivered.map Prod.fst =
      receivers m.dstAddr (S.shared.mem.bindings m.dstPort) := by
    simpa [receivers] using inv.fuller
  have hroom : S.HasRoom (some m) := by
    rw [System.HasRoom, System.receiversOf, ← hfuller]
    exact roomy
  rw [Prog.wp_bind, wp_onTable]
  apply Prog.wp_mono (listIteratorDestroy_spec hok hsize hit hrest)
  rintro _ mem' ⟨Q, rfl, hidle, hsame'⟩
  refine ⟨⟨⟨Q, rfl, hidle, hsame'.size.trans hsame.size⟩, rfl, hfuller, hroom, ?_, ?_⟩, ?_, ?_⟩
  · intro x hx m' hm'
    obtain ⟨n, hn⟩ := inv.exists_handedOut hx
    exact ⟨m, rfl, isCopy_of_handedOut (hn.trans hm')⟩
  · rintro ⟨x, hx, hnone⟩
    obtain ⟨n, hn⟩ := inv.exists_handedOut hx
    obtain ⟨k, -, hk⟩ := handedOut_eq_none (hn.trans hnone)
    exact ⟨k, hk⟩
  · rintro _ ⟨⟩
    exact inv.buffers
  · rw [System.released, if_neg hport]
    exact hfreed

/-- The part of `reassemble` from the lookup on. -/
theorem handed_spec (ok : S.shared.mem.Ok)
    (hclone : (∃ n, n + 1 < (S.receiversOf (some m)).length ∧ choices.clone n = none) →
      allowed .nullDeref)
    (hroom : ¬ S.HasRoom (some m) → allowed .outOfBounds) {l : ℕ}
    (hl : S.shared.mem.sockBindTable m.dstPort = some l) :
    Prog.wp allowed (do
      let it ← onTable (listIteratorNew (some l) .LIST_HEAD)
      let d ← Prog.whileSome .noReturn (onTable (listIteratorNext it))
        (reassembleStep choices m.dstAddr) scanFuel
        { m := some m, deliveredLast := false, delivered := [] }
      if !d.deliveredLast then
        freeMbuf d.m
      onTable (listIteratorDestroy it)
      return d.delivered) (S.Handed (some m) choices) S := by
  have idle := ok.rep.pools.iterators
  have hport : S.shared.mem.bindings m.dstPort ≠ [] := by
    intro hnil
    rw [(ok.null_iff m.dstPort).mpr hnil] at hl
    cases hl
  rw [Prog.wp_bind, wp_onTable]
  apply Prog.wp_mono (listIteratorNew_spec idle (ok.rep.list m.dstPort l hl).head)
  rintro o mem₁ ⟨it, P, rfl, rfl, hok, hit, hrest, hsame⟩
  have hsize : 0 < P.mz.all.size := by
    rw [hsame.size]
    exact idle.size
  rw [Prog.wp_bind, scanning_nil]
  apply Prog.wp_mono (wp_reassembleScan ok hclone hroom hl P it)
  rintro d t ⟨pending, rfl, inv, roomy⟩
  have hleft := inv.leftOver_eq
  cases hdelivered : d.deliveredLast with
  | true =>
    rw [hdelivered] at hleft
    have hfreed : S.shared.freed = S.shared.freed ++ leftOver choices m d.delivered := by
      rw [hleft]
      exact (List.append_nil _).symm
    exact inv.handed roomy hport pending hok hsize hit hrest hsame hfreed
  | false =>
    rw [hdelivered] at hleft
    cases hm : d.m with
    | none =>
      rw [hm] at hleft
      have hfreed : S.shared.freed = S.shared.freed ++ leftOver choices m d.delivered := by
        rw [hleft]
        exact (List.append_nil _).symm
      exact inv.handed roomy hport pending hok hsize hit hrest hsame hfreed
    | some m' =>
      rw [hm] at hleft
      have hfreed : S.shared.freed ++ [m'.addr] =
          S.shared.freed ++ leftOver choices m d.delivered := by
        rw [hleft]
        rfl
      have hend : Prog.wp allowed _ _ _ :=
        inv.handed roomy hport pending hok hsize hit hrest hsame hfreed
      exact hend

theorem System.Handed.of_deathRow {packet : Option Mbuf} {row : List ℕ}
    (h : { S with deathRow := row }.Handed packet choices delivered S') :
    S.Handed packet choices delivered S' where
  mem := h.mem
  frame := h.frame
  receivers := h.receivers
  room := h.room
  copies := h.copies
  failed := h.failed
  buffers := h.buffers
  freed := h.freed

/-- **Demultiplexing, with buffers.** `reassemble` hands the packet and clones of it to the
receivers. -/
theorem reassemble_handed (ok : S.shared.mem.Ok)
    (hclone : (∃ n, n + 1 < (S.receiversOf (datagramOf dpdk choices m)).length ∧
      choices.clone n = none) → allowed .nullDeref)
    (hroom : ¬ S.HasRoom (datagramOf dpdk choices m) → allowed .outOfBounds) :
    Prog.wp allowed (reassemble dpdk choices m)
      (S.Handed (datagramOf dpdk choices m) choices) S := by
  have hwhole : ∀ (S : System) (m : Mbuf), S.shared.mem.Ok →
      ((∃ n, n + 1 < (S.receiversOf
        ((some m).filter fun m => m.nextProtoId = BitVec.ofInt 8 ipprotoUdp)).length ∧
        choices.clone n = none) → allowed .nullDeref) →
      (¬ S.HasRoom ((some m).filter fun m => m.nextProtoId = BitVec.ofInt 8 ipprotoUdp) →
        allowed .outOfBounds) → Prog.wp allowed (do
      if m.nextProtoId ≠ BitVec.ofInt 8 ipprotoUdp then
        return []
      else
        let binds ← onTable (btableGetBindings m.dstPort)
        if binds = none then
          return []
        else
          let it ← onTable (listIteratorNew binds .LIST_HEAD)
          let d ← Prog.whileSome .noReturn (onTable (listIteratorNext it))
            (reassembleStep choices m.dstAddr) scanFuel
            { m := some m, deliveredLast := false, delivered := [] }
          if !d.deliveredLast then
            freeMbuf d.m
          onTable (listIteratorDestroy it)
          return d.delivered)
      (S.Handed ((some m).filter fun m => m.nextProtoId = BitVec.ofInt 8 ipprotoUdp) choices)
      S := by
    intro S m ok hclone hroom
    by_cases hudp : m.nextProtoId = BitVec.ofInt 8 ipprotoUdp
    · have hsome : (some m).filter (fun m => m.nextProtoId = BitVec.ofInt 8 ipprotoUdp) =
          some m := by simp [hudp]
      rw [hsome] at hclone hroom ⊢
      rw [if_neg (not_not.mpr hudp), Prog.wp_bind, wp_onTable, btableGetBindings,
        Prog.wp_bind, Prog.wp_read, Prog.wp_pure]
      cases hl : S.shared.mem.sockBindTable m.dstPort with
      | none =>
        apply handed_nil ok
        rintro _ ⟨⟩
        exact (ok.null_iff m.dstPort).mp hl
      | some l => exact handed_spec ok hclone hroom hl
    · have hnone : (some m).filter (fun m => m.nextProtoId = BitVec.ofInt 8 ipprotoUdp) =
          none := by simp [hudp]
      rw [hnone, if_pos hudp]
      exact handed_nil ok fun _ h => by cases h
  unfold reassemble wholePacket
  unfold datagramOf at hclone hroom ⊢
  split_ifs at hclone hroom ⊢ with hip hfrag
  · rw [Prog.wp_bind, Prog.wp_bind, Prog.wp_update, Prog.wp_pure]
    cases hmo : choices.assembled with
    | none =>
      apply System.Handed.of_deathRow
      exact handed_nil (S := { S with deathRow := S.deathRow ++ choices.dead }) ok
        fun _ h => by cases h
    | some mo =>
      rw [hmo] at hclone hroom
      apply Prog.wp_mono
        (hwhole { S with deathRow := S.deathRow ++ choices.dead } mo ok hclone hroom)
      exact fun delivered S' h => h.of_deathRow
  · exact hwhole S m ok hclone hroom
  · exact handed_nil ok fun _ h => by cases h

/-- **Demultiplexing.** `reassemble` delivers the packet to its receivers. -/
theorem reassemble_spec (ok : S.shared.mem.Ok)
    (hclone : (∃ n, choices.clone n = none) → allowed .nullDeref)
    (hroom : ¬ S.HasRoom (datagramOf dpdk choices m) → allowed .outOfBounds) :
    Prog.wp allowed (reassemble dpdk choices m)
      (S.Demuxed (datagramOf dpdk choices m) choices) S :=
  Prog.wp_mono (reassemble_handed ok (fun ⟨n, _, hn⟩ => hclone ⟨n, hn⟩) hroom)
    fun _ _ h => h.toDemuxed

/-- What a run of `reassemble` that returned has done. -/
theorem handed_of_reassemble (ok : S.shared.mem.Ok)
    (hret : reassemble dpdk choices m S = .ok (delivered, S')) :
    S.Handed (datagramOf dpdk choices m) choices delivered S' := by
  have spec : Prog.wp (fun _ => True) (reassemble dpdk choices m) _ S :=
    reassemble_handed ok (fun _ => trivial) fun _ => trivial
  exact Prog.wp_of_ok spec hret

/-- While clones can be made, `reassemble` returns if the staging buffers have room. -/
theorem exists_reassemble (ok : S.shared.mem.Ok) (hclone : ∀ n, choices.clone n ≠ none)
    (hroom : S.HasRoom (datagramOf dpdk choices m)) :
    ∃ delivered S', reassemble dpdk choices m S = .ok (delivered, S') ∧
      S.Demuxed (datagramOf dpdk choices m) choices delivered S' := by
  have spec : Prog.wp (fun _ => False) (reassemble dpdk choices m)
      (S.Demuxed (datagramOf dpdk choices m) choices) S :=
    reassemble_spec ok (fun ⟨n, hn⟩ => hclone n hn) fun hfull => hfull hroom
  exact Prog.exists_ok_of_wp spec

/-- Without room, it leaves a staging buffer. -/
theorem reassemble_of_full (ok : S.shared.mem.Ok) (hclone : ∀ n, choices.clone n ≠ none)
    (hfull : ¬ S.HasRoom (datagramOf dpdk choices m)) :
    reassemble dpdk choices m S = .error .outOfBounds := by
  have spec : Prog.wp (fun e => e = .outOfBounds) (reassemble dpdk choices m)
      (S.Demuxed (datagramOf dpdk choices m) choices) S :=
    reassemble_spec ok (fun ⟨n, hn⟩ => absurd hn (hclone n)) fun _ => rfl
  cases hret : reassemble dpdk choices m S with
  | error e => rw [Prog.allowed_of_wp spec hret]
  | ok r => exact absurd (Prog.wp_of_ok spec hret).room hfull

end Scan

end Udpdk
