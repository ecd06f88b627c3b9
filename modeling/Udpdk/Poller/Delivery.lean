import Udpdk.Poller.System
import Udpdk.Syscall.Frame
import Udpdk.Syscall.Options
import Udpdk.Syscall.Pools

/-!
# Who gets a packet

Two questions about the scan in `reassemble`, for every state that application and poller
can reach: does its early stop miss a socket, and does a packet get to the slot of the
socket it is meant for? The order of a port's list answers the first, the width of the
index parameter of `enqueue_rx_packet` the second.

## Main definitions

* `NarrowingHarmless` — no descriptor above 255 does damage
* `System.Isolated` — only slots of bound sockets get the packet, and at most once

## Main results

* `early_stop_complete_iff` — when the packet is delivered to all that match
* `rx_isolation_iff` — when it gets to the right slots
* `pools_never_dry` — no allocation behind the bind table fails in any run
-/

namespace Udpdk

open Foundation

/-- A matching binding in front of which the scan does not stop has a descriptor below
256. Where a wildcard without flags takes every packet, its own descriptor must be below
256, or fall by accident on a socket that is bound for the packet too. -/
structure NarrowingHarmless (bs : List BindInfo) (ip : InAddr) : Prop where
  wildcard : ∀ w ∈ bs, w.ipAddr = inaddrAny → w.flagless →
    w.sockfd < 256 ∨ ∃ b ∈ bs, b.matchesDst ip ∧ b.sockfd = w.sockfd % 256
  others : (∀ w ∈ bs, w.ipAddr = inaddrAny → w.flagless = false) →
    ∀ b ∈ bs, b.matchesDst ip → b.sockfd < 256

/-- The slots of the receivers are those of matching bindings, and no slot is hit twice. -/
structure ReceiversIsolated (bs : List BindInfo) (ip : InAddr) : Prop where
  once : ∀ s, ((receivers ip bs).filter fun b => excBufIdx b.sockfd = s).length ≤ 1
  bound : ∀ b ∈ receivers ip bs, ∃ c ∈ bs, c.matchesDst ip ∧ c.sockfd = excBufIdx b.sockfd

section Narrowing

variable {bs : List BindInfo} {ip : InAddr} {b : BindInfo}

theorem excBufIdx_cast (sockfd : ℤ) : (excBufIdx sockfd : ℤ) = sockfd % 256 :=
  Int.toNat_of_nonneg (Int.emod_nonneg _ (by decide))

theorem excBufIdx_of_lt {sockfd : ℤ} (hpos : 0 ≤ sockfd) (h : sockfd < 256) :
    (excBufIdx sockfd : ℤ) = sockfd := by
  rw [excBufIdx_cast, Int.emod_eq_of_lt hpos h]

/-- A port with a flagless wildcard has it in front, and the wildcard takes every packet. -/
theorem receivers_of_flagless_wildcard (hco : Coexist bs) {w : BindInfo} (hw : w ∈ bs)
    (hip : w.ipAddr = inaddrAny) (hflag : w.flagless) : receivers ip bs = [w] := by
  cases bs with
  | nil => cases hw
  | cons x rest =>
    obtain rfl : w = x := by
      rcases List.mem_cons.mp hw with rfl | hw
      · rfl
      · exact absurd hip (hco.specific_tail w hw)
    rw [receivers_cons, if_pos (.inr hip), if_pos hflag]

theorem mem_receivers_of_no_wildcard (hco : Coexist bs)
    (hnone : ∀ w ∈ bs, w.ipAddr = inaddrAny → w.flagless = false) (hb : b ∈ bs)
    (hmatch : b.matchesDst ip) : b ∈ receivers ip bs := by
  apply (receivers_complete_iff hco).mpr ?_ b hb hmatch
  rintro ⟨⟨w, hw, hip, hflag⟩, -⟩
  rw [hnone w hw hip] at hflag
  cases hflag

/-- Behind a wildcard without flags the only receiver is the wildcard itself. -/
theorem receiversIsolated_iff_of_wildcard (hco : Coexist bs) (hpos : ∀ b ∈ bs, 0 ≤ b.sockfd)
    {w : BindInfo} (hw : w ∈ bs) (hip : w.ipAddr = inaddrAny) (hflag : w.flagless) :
    ReceiversIsolated bs ip ↔ NarrowingHarmless bs ip := by
  have hrec : receivers ip bs = [w] := receivers_of_flagless_wildcard hco hw hip hflag
  have hothers : ¬ ∀ w ∈ bs, w.ipAddr = inaddrAny → w.flagless = false := by
    intro hnone
    rw [hnone w hw hip] at hflag
    cases hflag
  constructor
  · rintro ⟨-, hbound⟩
    refine ⟨fun v hv hvip hvflag => .inr ?_, fun hnone => absurd hnone hothers⟩
    have hv' : receivers ip bs = [v] := receivers_of_flagless_wildcard hco hv hvip hvflag
    obtain rfl : w = v := List.singleton_injective (hrec.symm.trans hv')
    obtain ⟨c, hc, hmatch, hfd⟩ := hbound w (by rw [hrec]; exact List.mem_singleton_self w)
    exact ⟨c, hc, hmatch, hfd.trans (excBufIdx_cast _)⟩
  · rintro ⟨hwildcard, -⟩
    constructor
    · intro s
      rw [hrec]
      exact List.length_filter_le _ _
    · intro b hb
      rw [hrec, List.mem_singleton] at hb
      subst hb
      rcases hwildcard b hw hip hflag with hlt | ⟨c, hc, hmatch, hfd⟩
      · exact ⟨b, hw, .inr hip, (excBufIdx_of_lt (hpos b hw) hlt).symm⟩
      · exact ⟨c, hc, hmatch, hfd.trans (excBufIdx_cast _).symm⟩

/-- Without one, every binding that matches is a receiver. -/
theorem receiversIsolated_iff_of_no_wildcard (hco : Coexist bs) (hpos : ∀ b ∈ bs, 0 ≤ b.sockfd)
    (honce : ∀ s, (ownedBy s bs).length ≤ 1)
    (hnone : ∀ w ∈ bs, w.ipAddr = inaddrAny → w.flagless = false) :
    ReceiversIsolated bs ip ↔ NarrowingHarmless bs ip := by
  have hwild : ∀ w ∈ bs, w.ipAddr = inaddrAny → ¬ w.flagless := by
    intro w hw hip
    rw [hnone w hw hip]
    exact Bool.false_ne_true
  constructor
  · rintro ⟨honly, hbound⟩
    refine ⟨fun w hw hip hflag => absurd hflag (hwild w hw hip), fun _ b hb hmatch => ?_⟩
    by_contra hlarge
    -- the slot of the narrowed descriptor is also reached through its own binding
    have hbrec := mem_receivers_of_no_wildcard hco hnone hb hmatch
    obtain ⟨c, hc, hcmatch, hfd⟩ := hbound b hbrec
    have hcrec := mem_receivers_of_no_wildcard hco hnone hc hcmatch
    have hcast := excBufIdx_cast b.sockfd
    have hlt : c.sockfd < 256 := by omega
    have hidx : excBufIdx c.sockfd = excBufIdx b.sockfd := by
      have := excBufIdx_of_lt (hpos c hc) hlt
      omega
    have heq : c = b := eq_of_mem_of_length_le_one (honly (excBufIdx b.sockfd))
      (List.mem_filter.mpr ⟨hcrec, by simpa using hidx⟩)
      (List.mem_filter.mpr ⟨hbrec, by simp⟩)
    rw [heq] at hlt
    exact hlarge hlt
  · rintro ⟨-, hsmall⟩
    have hidx : ∀ b ∈ receivers ip bs, (excBufIdx b.sockfd : ℤ) = b.sockfd := by
      intro b hb
      obtain ⟨hmem, hmatch⟩ := mem_of_mem_receivers hb
      exact excBufIdx_of_lt (hpos b hmem) (hsmall hnone b hmem hmatch)
    constructor
    · intro s
      have hfilter : (receivers ip bs).filter (fun b => excBufIdx b.sockfd = s) =
          ownedBy s (receivers ip bs) := by
        apply List.filter_congr
        intro b hb
        have := hidx b hb
        simp only [decide_eq_decide]
        omega
      rw [hfilter]
      have hsub : (receivers ip bs).Sublist bs := receivers_sublist.trans List.filter_sublist
      exact (hsub.filter _).length_le.trans (honce s)
    · intro b hb
      obtain ⟨hmem, hmatch⟩ := mem_of_mem_receivers hb
      exact ⟨b, hmem, hmatch, (hidx b hb).symm⟩

/-- **Narrowing.** The receivers of a packet are isolated exactly when no descriptor among
them does damage by being narrowed. -/
theorem receiversIsolated_iff (hco : Coexist bs)
    (hrange : ∀ b ∈ bs, ∃ s < numSocketsMax, b.sockfd = (s : ℕ))
    (honce : ∀ s, (ownedBy s bs).length ≤ 1) :
    ReceiversIsolated bs ip ↔ NarrowingHarmless bs ip := by
  have hpos : ∀ b ∈ bs, 0 ≤ b.sockfd := by
    intro b hb
    obtain ⟨s, -, hs⟩ := hrange b hb
    omega
  by_cases hwild : ∃ w ∈ bs, w.ipAddr = inaddrAny ∧ w.flagless
  · obtain ⟨w, hw, hip, hflag⟩ := hwild
    exact receiversIsolated_iff_of_wildcard hco hpos hw hip hflag
  · refine receiversIsolated_iff_of_no_wildcard hco hpos honce fun w hw hip => ?_
    by_contra hflag
    exact hwild ⟨w, hw, hip, by simpa using hflag⟩

end Narrowing

/-! ## What the buffers show -/

/-- Between the two states every staging buffer got at most one packet, and none unless its
socket is bound to the port and to the address or the wildcard. -/
def System.Isolated (S S' : System) (port : Port) (ip : InAddr) : Prop :=
  ∀ s, ∃ new, S'.rxBuffer s = S.rxBuffer s ++ new ∧ new.length ≤ 1 ∧
    (new ≠ [] → (S.shared.desc.slots s).bound ∧ (S.shared.desc.slots s).udpPort = port ∧
      ((S.shared.desc.slots s).ipAddr = ip ∨ (S.shared.desc.slots s).ipAddr = inaddrAny))

section Delivered

variable {dpdk : Dpdk} {choices : DpdkChoices} {S S' : System} {m d : Mbuf}
  {delivered : List Delivery} {s : ℕ} {port : Port} {ip : InAddr}

theorem stagedFor_ne_nil_iff : stagedFor delivered s ≠ [] ↔
    ∃ b ∈ delivered.map Prod.fst, excBufIdx b.sockfd = s := by
  rw [← List.length_pos_iff, length_stagedFor, stagedCount, List.length_pos_iff_exists_mem]
  simp only [List.mem_filter, decide_eq_true_eq]

/-- A socket is bound to the port, for the address, exactly when the port's list has a
matching binding of it. -/
theorem bound_iff_exists_mem (ok : S.shared.Ok) :
    ((S.shared.desc.slots s).bound ∧ (S.shared.desc.slots s).udpPort = port ∧
      ((S.shared.desc.slots s).ipAddr = ip ∨ (S.shared.desc.slots s).ipAddr = inaddrAny)) ↔
    ∃ b ∈ S.shared.mem.bindings port, b.matchesDst ip ∧ b.sockfd = (s : ℕ) := by
  constructor
  · rintro ⟨hbound, rfl, haddr⟩
    obtain ⟨b, hb, hfd, hip⟩ := ok.sockets.exists_mem_of_bound hbound
    rw [Shared.view_slot] at hip
    exact ⟨b, hb, haddr.imp hip.trans hip.trans, hfd⟩
  · rintro ⟨b, hb, hmatch, hfd⟩
    obtain ⟨hbound, hport, hip⟩ := ok.sockets.bound_of_mem hb hfd
    rw [Shared.view_slot] at hbound hport hip
    exact ⟨hbound, hport, hip ▸ hmatch⟩

/-- Isolation in terms of the receivers. -/
theorem isolated_iff (ok : S.shared.Ok)
    (hdemux : S.Demuxed (some d) choices delivered S') :
    S.Isolated S' d.dstPort d.dstAddr ↔
      ReceiversIsolated (S.shared.mem.bindings d.dstPort) d.dstAddr := by
  have hrec : delivered.map Prod.fst = receivers d.dstAddr (S.shared.mem.bindings d.dstPort) :=
    hdemux.receivers
  have hbuffer : ∀ s, S'.rxBuffer s = S.rxBuffer s ++ stagedFor delivered s := by
    intro s
    rw [hdemux.frame]
    rfl
  constructor
  · intro isolated
    constructor
    · intro s
      obtain ⟨new, hnew, hlen, -⟩ := isolated s
      obtain rfl := List.append_cancel_left (hnew.symm.trans (hbuffer s))
      rw [length_stagedFor, hrec] at hlen
      exact hlen
    · intro b hb
      obtain ⟨new, hnew, -, hbound⟩ := isolated (excBufIdx b.sockfd)
      obtain rfl := List.append_cancel_left (hnew.symm.trans (hbuffer _))
      exact (bound_iff_exists_mem ok).mp (hbound (stagedFor_ne_nil_iff.mpr ⟨b, hrec ▸ hb, rfl⟩))
  · rintro ⟨once, bound⟩ s
    refine ⟨stagedFor delivered s, hbuffer s, ?_, fun hne => ?_⟩
    · rw [length_stagedFor, hrec]
      exact once s
    · obtain ⟨b, hb, rfl⟩ := stagedFor_ne_nil_iff.mp hne
      exact (bound_iff_exists_mem ok).mpr (bound b (hrec ▸ hb))

theorem demuxed_of_ok (ok : S.shared.Ok) (hd : datagramOf dpdk choices m = some d)
    (hret : reassemble dpdk choices m S = .ok (delivered, S')) :
    S.Demuxed (some d) choices delivered S' :=
  hd ▸ (handed_of_reassemble ok.mem hret).toDemuxed

theorem exists_demuxed (ok : S.shared.Ok) (hclone : ∀ n, choices.clone n ≠ none)
    (hd : datagramOf dpdk choices m = some d) (hroom : S.HasRoom (some d)) :
    ∃ delivered S', reassemble dpdk choices m S = .ok (delivered, S') ∧
      S.Demuxed (some d) choices delivered S' := by
  rw [← hd] at hroom ⊢
  exact exists_reassemble ok.mem hclone hroom

/-- Empty staging buffers have room for a packet, unless its port has too many bindings. -/
theorem hasRoom_of_empty (hempty : ∀ s, S.rxBuffer s = [])
    (hlength : (S.shared.mem.bindings d.dstPort).length ≤ exchBufSize) : S.HasRoom (some d) := by
  apply System.roomFor_of_length
  intro s
  have hsub : (S.receiversOf (some d)).length ≤ (S.shared.mem.bindings d.dstPort).length :=
    (receivers_sublist.trans List.filter_sublist).length_le
  rw [hempty, List.length_nil]
  omega

/-- Every receiver gets a copy of the packet, if there is room for it. -/
theorem exists_delivered (ok : S.shared.Ok) (hclone : ∀ n, choices.clone n ≠ none)
    (hd : datagramOf dpdk choices m = some d) (hroom : S.HasRoom (some d)) {b : BindInfo}
    (hb : b ∈ receivers d.dstAddr (S.shared.mem.bindings d.dstPort)) :
    ∃ delivered S' d', reassemble dpdk choices m S = .ok (delivered, S') ∧
      (b, some d') ∈ delivered ∧ d.IsCopy d' := by
  obtain ⟨delivered, S', hret, hdemux⟩ := exists_demuxed ok hclone hd hroom
  have hrec : delivered.map Prod.fst = receivers d.dstAddr (S.shared.mem.bindings d.dstPort) :=
    hdemux.receivers
  rw [← hrec] at hb
  obtain ⟨⟨_, o⟩, hmem, rfl⟩ := List.mem_map.mp hb
  cases o with
  | none =>
    obtain ⟨n, hn⟩ := hdemux.failed ⟨_, hmem, rfl⟩
    exact absurd hn (hclone n)
  | some d' =>
    obtain ⟨e, he, hcopy⟩ := hdemux.copies _ hmem d' rfl
    obtain rfl := Option.some.inj he
    exact ⟨delivered, S', d', hret, hmem, hcopy⟩

/-- What the receivers of a packet miss. -/
theorem delivered_complete_iff (ok : S.shared.Ok)
    (hdemux : S.Demuxed (some d) choices delivered S') :
    (∀ b, b ∈ delivered.map Prod.fst ↔
      b ∈ S.shared.mem.bindings d.dstPort ∧ b.matchesDst d.dstAddr) ↔
      ¬ Shadowed (S.shared.mem.bindings d.dstPort) d.dstAddr := by
  have hcomplete : (∀ b ∈ S.shared.mem.bindings d.dstPort, b.matchesDst d.dstAddr →
      b ∈ S.receiversOf (some d)) ↔ ¬ Shadowed (S.shared.mem.bindings d.dstPort) d.dstAddr :=
    receivers_complete_iff (ok.sockets.coexist d.dstPort)
  rw [hdemux.receivers, ← hcomplete]
  constructor
  · exact fun h b hb hmatch => (h b).mpr ⟨hb, hmatch⟩
  · exact fun h b => ⟨mem_of_mem_receivers, fun hb => h b hb.1 hb.2⟩

end Delivered

/-! ## A packet from another host -/

/-- A frame that `udpdk_sendto` built is not a fragment, and it is demultiplexed. -/
theorem datagramOf_fillMbuf {config : Configuration} {slot : ExchSlotInfo} {dest : SockaddrIn}
    {buf : List Byte} {addr : ℕ} {dpdk : Dpdk} (choices : DpdkChoices) :
    datagramOf Dpdk.reference choices (fillMbuf addr (buildFrame dpdk config slot dest buf)) =
      some (fillMbuf addr (buildFrame dpdk config slot dest buf)) := by
  have hipv4 : Dpdk.reference.ethIsIpv4Hdr ptypeEtherIpv4Udp := by decide
  have hoffset : (fillMbuf addr (buildFrame dpdk config slot dest buf)).fragmentOffset = 0 :=
    fragmentOffset_fillMbuf
  have hfrag : Dpdk.reference.ipv4FragPktIsFragmented 0 = false := by decide
  have htype : (fillMbuf addr (buildFrame dpdk config slot dest buf)).packetType =
      ptypeEtherIpv4Udp := rfl
  rw [datagramOf, htype, hipv4, hoffset, hfrag]
  rfl

/-- A datagram without payload, as another host sends it. -/
def datagramTo (ip : InAddr) (port : Port) : Mbuf :=
  fillMbuf 0 (buildFrame Dpdk.reference Configuration.zero .zero ⟨afInet, port, ip⟩ [])

theorem datagramOf_datagramTo (choices : DpdkChoices) (ip : InAddr) (port : Port) :
    datagramOf Dpdk.reference choices (datagramTo ip port) = some (datagramTo ip port) :=
  datagramOf_fillMbuf choices

@[simp] theorem dstAddr_datagramTo (ip : InAddr) (port : Port) :
    (datagramTo ip port).dstAddr = ip := dstAddr_fillMbuf

@[simp] theorem dstPort_datagramTo (ip : InAddr) (port : Port) :
    (datagramTo ip port).dstPort = port := dstPort_fillMbuf

/-- Before the poller has received anything there is room for a datagram. -/
theorem hasRoom_datagramTo (zones : AllocatorZones) {σ : Shared} {port : Port} (ip : InAddr)
    (hlength : (σ.mem.bindings port).length ≤ exchBufSize) :
    System.HasRoom { systemInit zones with shared := σ } (some (datagramTo ip port)) := by
  apply hasRoom_of_empty fun _ => rfl
  rwa [dstPort_datagramTo]

/-! ## The early stop -/

/-- **The early stop.** In every reachable state a packet is delivered to exactly the
bindings of its port that match its destination, unless the port has a wildcard without
flags and also a binding to the destination itself, or a staging buffer has no room for it. -/
theorem early_stop_complete_iff (dpdk : Dpdk) (config : Configuration) (zones : AllocatorZones)
    {log : List SystemEvent} {S : System}
    (run : Run (SystemEvent.step dpdk config) (systemInit zones) log S)
    {choices : DpdkChoices} (hclone : ∀ n, choices.clone n ≠ none) {m d : Mbuf}
    (hd : datagramOf dpdk choices m = some d) :
    (∃ delivered S', reassemble dpdk choices m S = .ok (delivered, S') ∧
      ∀ b, b ∈ delivered.map Prod.fst ↔
        b ∈ S.shared.mem.bindings d.dstPort ∧ b.matchesDst d.dstAddr) ↔
      S.HasRoom (some d) ∧ ¬ Shadowed (S.shared.mem.bindings d.dstPort) d.dstAddr := by
  have ok := Shared.Ok.systemRun run
  constructor
  · rintro ⟨delivered, S', hret, hall⟩
    have hdemux := demuxed_of_ok ok hd hret
    exact ⟨hdemux.room, (delivered_complete_iff ok hdemux).mp hall⟩
  · rintro ⟨hroom, hshadow⟩
    obtain ⟨delivered, S', hret, hdemux⟩ := exists_demuxed ok hclone hd hroom
    exact ⟨delivered, S', hret, (delivered_complete_iff ok hdemux).mpr hshadow⟩

/-- The calls that open the sockets up to `s` and bind the last one. -/
def boundLog (s : ℕ) (i : InAddr) (p : Port) : List ApiEvent :=
  (List.range (s + 1)).map (fun t => .socket afInet sockDgram 0 (.ok t)) ++
    [.bind s (some ⟨afInet, p, i⟩) sizeofSockaddrIn (.ok ())]

/-- The state `σ` has the sockets up to `s` open, and `s` alone is bound. -/
structure Shared.OneBound (σ : Shared) (zones : AllocatorZones) (s : ℕ) (i : InAddr) (p : Port) :
    Prop where
  bindings : σ.mem.bindings p = [newBinding s i 0]
  frame : σ = { sharedOpen zones (s + 1) with desc := σ.desc, mem := σ.mem }
  slot : σ.desc.slots s = { ExchSlotInfo.zero with
    used := true, bound := true, sockfd := s, udpPort := p, ipAddr := i }
  unused : ∀ t, s < t → (σ.desc.slots t).used = false
  count : σ.desc.nZonesActive = s + 1
  single : ∀ q, (σ.mem.bindings q).length ≤ 1

theorem exists_run_bound (zones : AllocatorZones) {s : ℕ} (hs : s < numSocketsMax) (i : InAddr)
    (p : Port) : ∃ σ, Run (ApiEvent.step Dpdk.reference Configuration.zero) (sharedInit zones)
      (boundLog s i p) σ ∧ σ.OneBound zones s i p := by
  have run := run_sharedOpen Dpdk.reference Configuration.zero zones (s + 1) hs
  have hslot : (sharedOpen zones (s + 1)).desc.slots s =
      { ExchSlotInfo.zero with used := true, sockfd := s } := if_pos (Nat.lt_succ_self s)
  obtain ⟨σ, hbind, hframe, hview⟩ := ApiEvent.exists_step_bind (p := p) (i := i)
    (Shared.Ok.run run) hs (by rw [hslot]) (by rw [hslot]; rfl) rfl
  refine ⟨σ, run.snoc hbind, ?_, hframe, ?_, fun t ht => ?_,
    congrArg (fun v => v.desc.nZonesActive) hview, fun q => ?_⟩
  · have hnone : (sharedOpen zones (s + 1)).mem.bindings p = [] := rfl
    rw [bindings_of_boundTo hview, hslot, hnone, insertBinding]
    split
    · rfl
    · rfl
  · rw [← Shared.view_slot, hview, SocketView.slot_boundTo_self, Shared.view_slot, hslot]
  · have hfree : (sharedOpen zones (s + 1)).desc.slots t = .zero := if_neg (by omega)
    rw [← Shared.view_slot, hview, SocketView.slot_boundTo_of_ne ht.ne', Shared.view_slot, hfree]
    rfl
  · have hnone : ∀ q, (sharedOpen zones (s + 1)).view.bindings q = [] := fun _ => rfl
    change (σ.view.bindings q).length ≤ 1
    rw [hview, SocketView.boundTo]
    dsimp only
    by_cases hq : q = p
    · rw [hq, Function.update_self, hnone, insertBinding]
      split
      · exact le_rfl
      · exact le_rfl
    · rw [Function.update_of_ne hq, hnone]
      exact Nat.zero_le 1

/-- Sockets 0 and 1 are open, with the option words `o₀` and `o₁`, and not bound. -/
structure Shared.PairOpen (σ : Shared) (o₀ o₁ : BitVec 32) : Prop where
  first : σ.desc.slots 0 = { ExchSlotInfo.zero with used := true, soOptions := o₀ }
  second : σ.desc.slots 1 =
    { ExchSlotInfo.zero with used := true, sockfd := 1, soOptions := o₁ }
  bindings : ∀ p, σ.mem.bindings p = []

theorem exists_run_pairOpen (zones : AllocatorZones) (v₀ v₁ : BitVec 32) : ∃ log σ,
    Run (ApiEvent.step Dpdk.reference Configuration.zero) (sharedInit zones) log σ ∧
      σ.PairOpen (updateOption 0 soReuseaddr v₀) (updateOption 0 soReuseaddr v₁) := by
  have run := run_sharedOpen Dpdk.reference Configuration.zero zones 2 (by decide)
  obtain ⟨σ₀, hset₀, rfl⟩ := ApiEvent.exists_step_setsockopt Dpdk.reference Configuration.zero
    (s := 0) (σ := sharedOpen zones 2) (by decide) rfl .addr v₀
  obtain ⟨σ₁, hset₁, rfl⟩ := ApiEvent.exists_step_setsockopt Dpdk.reference Configuration.zero
    (s := 1) (σ := { sharedOpen zones 2 with
      desc := ((sharedOpen zones 2).view.withOption 0 soReuseaddr v₀).desc }) (by decide) rfl
    .addr v₁
  exact ⟨_, _, (run.snoc hset₀).snoc hset₁, rfl, rfl, fun _ => rfl⟩

/-- Two open sockets are bound to one port. -/
theorem exists_run_pairBound {zones : AllocatorZones} {log : List ApiEvent} {σ : Shared}
    (run : Run (ApiEvent.step Dpdk.reference Configuration.zero) (sharedInit zones) log σ)
    {o₀ o₁ : BitVec 32} (pair : σ.PairOpen o₀ o₁) (i₀ i₁ : InAddr) (p : Port)
    (specific : i₁ ≠ inaddrAny) (admits : (newBinding 0 i₀ o₀).admits i₁ o₁) : ∃ log σ,
    Run (ApiEvent.step Dpdk.reference Configuration.zero) (sharedInit zones) log σ ∧
      σ.mem.bindings p = [newBinding 0 i₀ o₀, newBinding 1 i₁ o₁] := by
  obtain ⟨first, second, bindings⟩ := pair
  obtain ⟨σ₀, hbind₀, -, hview₀⟩ := ApiEvent.exists_step_bind (p := p) (s := 0) (i := i₀)
    (Shared.Ok.run run) (by decide) (by rw [first]) (by rw [first]; rfl)
    (by rw [bindings]; rfl)
  have run₀ := run.snoc hbind₀
  have hslot : σ₀.desc.slots 1 = σ.desc.slots 1 := by
    rw [← Shared.view_slot, hview₀, SocketView.slot_boundTo_of_ne (by decide), Shared.view_slot]
  have hbindings₀ : σ₀.mem.bindings p = [newBinding 0 i₀ o₀] := by
    rw [bindings_of_boundTo hview₀, bindings, first, insertBinding]
    split
    · rfl
    · rfl
  obtain ⟨σ₁, hbind₁, -, hview₁⟩ := ApiEvent.exists_step_bind (p := p) (s := 1) (i := i₁)
    (Shared.Ok.run run₀) (by decide) (by rw [hslot, second]) (by rw [hslot, second]; rfl)
    (by rw [hbindings₀, hslot, second, canBind, List.all_cons, admits]; rfl)
  refine ⟨_, σ₁, run₀.snoc hbind₁, ?_⟩
  rw [bindings_of_boundTo hview₁, hbindings₀, hslot, second]
  exact if_neg specific

/-- A run in which socket 0 is bound to the wildcard, without flags, and socket 1 to the
address 7 with `SO_REUSEADDR`. -/
theorem exists_run_shadowed (zones : AllocatorZones) : ∃ log σ,
    Run (ApiEvent.step Dpdk.reference Configuration.zero) (sharedInit zones) log σ ∧
      σ.mem.bindings 53 = [newBinding 0 inaddrAny 0, newBinding 1 7 2] := by
  obtain ⟨log, σ, run, pair⟩ := exists_run_pairOpen zones 0 1
  exact exists_run_pairBound run pair inaddrAny 7 53 (by decide) (by decide)

/-- The wildcard without flags hides the binding to the address of the packet. -/
theorem not_early_stop_complete : ¬ ∀ (dpdk : Dpdk) (config : Configuration)
    (zones : AllocatorZones) (log : List SystemEvent) (S : System),
    Run (SystemEvent.step dpdk config) (systemInit zones) log S → ∀ (choices : DpdkChoices),
    (∀ n, choices.clone n ≠ none) → ∀ m d, datagramOf dpdk choices m = some d →
      ∀ delivered S', reassemble dpdk choices m S = .ok (delivered, S') →
        ∀ b, b ∈ delivered.map Prod.fst ↔
          b ∈ S.shared.mem.bindings d.dstPort ∧ b.matchesDst d.dstAddr := by
  intro h
  obtain ⟨log, σ, run, hbindings⟩ := exists_run_shadowed ⟨0, 0, 0, 0⟩
  have hclone : ∀ n, (DpdkChoices.smooth []).clone n ≠ none := fun n => Option.some_ne_none n
  have hd := datagramOf_datagramTo (.smooth []) 7 53
  have run' := run_api (S := systemInit ⟨0, 0, 0, 0⟩) run
  have ok := Shared.Ok.systemRun run'
  have hroom : System.HasRoom { systemInit ⟨0, 0, 0, 0⟩ with shared := σ }
      (some (datagramTo 7 53)) := hasRoom_datagramTo _ 7 (by rw [hbindings]; decide)
  obtain ⟨delivered, S', hret, hdemux⟩ := exists_demuxed ok hclone hd hroom
  apply (delivered_complete_iff ok hdemux).mp (h _ _ _ _ _ run' _ hclone _ _ hd _ _ hret)
  rw [dstPort_datagramTo, dstAddr_datagramTo]
  change Shadowed (σ.mem.bindings 53) 7
  rw [hbindings]
  exact ⟨⟨newBinding 0 inaddrAny 0, by simp, rfl, by decide⟩,
    newBinding 1 7 2, by simp, by decide, rfl⟩

/-- A wildcard and a binding to the address of the packet, both with `SO_REUSEADDR`: the packet
gets to both. -/
theorem early_stop_complete_of_bind : ∃ (delivered : List Delivery) (S S' : System),
    S.shared.mem.bindings 53 = [newBinding 0 inaddrAny 2, newBinding 1 7 2] ∧
      reassemble Dpdk.reference (.smooth []) (datagramTo 7 53) S = .ok (delivered, S') ∧
      ∀ b, b ∈ delivered.map Prod.fst ↔
        b ∈ S.shared.mem.bindings (datagramTo 7 53).dstPort ∧
          b.matchesDst (datagramTo 7 53).dstAddr := by
  obtain ⟨_, σ₀, run₀, pair⟩ := exists_run_pairOpen ⟨0, 0, 0, 0⟩ 1 1
  obtain ⟨log, σ, run, hbindings⟩ := exists_run_pairBound run₀ pair inaddrAny 7 53 (by decide)
    (by decide)
  have hroom : System.HasRoom { systemInit ⟨0, 0, 0, 0⟩ with shared := σ }
      (some (datagramTo 7 53)) := hasRoom_datagramTo _ 7 (by rw [hbindings]; decide)
  have hshadow : ¬ Shadowed (σ.mem.bindings 53) 7 := by
    rw [hbindings]
    rintro ⟨⟨w, hw, -, hflag⟩, -⟩
    have hflags : ∀ w ∈ [newBinding 0 inaddrAny (updateOption 0 soReuseaddr 1),
      newBinding 1 7 (updateOption 0 soReuseaddr 1)], w.flagless = false := by decide
    rw [hflags w hw] at hflag
    cases hflag
  obtain ⟨delivered, S', hret, hall⟩ := (early_stop_complete_iff Dpdk.reference
    Configuration.zero ⟨0, 0, 0, 0⟩ (run_api (S := systemInit ⟨0, 0, 0, 0⟩) run)
    (fun n => Option.some_ne_none n) (datagramOf_datagramTo (.smooth []) 7 53)).mpr
    ⟨hroom, by rwa [dstPort_datagramTo, dstAddr_datagramTo]⟩
  exact ⟨delivered, _, S', hbindings, hret, hall⟩

/-! ## Isolation -/

/-- **Isolation.** In every reachable state a packet is put only into the slots of sockets
that are bound to its port and address, and once into each, exactly when no descriptor
among the bindings of the port does damage by being narrowed to eight bits and the staging
buffers have room for it. -/
theorem rx_isolation_iff (dpdk : Dpdk) (config : Configuration) (zones : AllocatorZones)
    {log : List SystemEvent} {S : System}
    (run : Run (SystemEvent.step dpdk config) (systemInit zones) log S)
    {choices : DpdkChoices} (hclone : ∀ n, choices.clone n ≠ none) {m d : Mbuf}
    (hd : datagramOf dpdk choices m = some d) :
    (∃ delivered S', reassemble dpdk choices m S = .ok (delivered, S') ∧
      S.Isolated S' d.dstPort d.dstAddr) ↔
      S.HasRoom (some d) ∧ NarrowingHarmless (S.shared.mem.bindings d.dstPort) d.dstAddr := by
  have ok := Shared.Ok.systemRun run
  have narrowing : ReceiversIsolated (S.shared.mem.bindings d.dstPort) d.dstAddr ↔ _ :=
    receiversIsolated_iff (ok.sockets.coexist _) (ok.sockets.range _)
      fun s => ok.sockets.oneEach.once s _
  constructor
  · rintro ⟨delivered, S', hret, isolated⟩
    have hdemux := demuxed_of_ok ok hd hret
    exact ⟨hdemux.room, narrowing.mp ((isolated_iff ok hdemux).mp isolated)⟩
  · rintro ⟨hroom, harmless⟩
    obtain ⟨delivered, S', hret, hdemux⟩ := exists_demuxed ok hclone hd hroom
    exact ⟨delivered, S', hret, (isolated_iff ok hdemux).mpr (narrowing.mpr harmless)⟩

/-- Socket 256 is bound, and its packet gets to slot 0. -/
theorem not_rx_isolation : ¬ ∀ (dpdk : Dpdk) (config : Configuration)
    (zones : AllocatorZones) (log : List SystemEvent) (S : System),
    Run (SystemEvent.step dpdk config) (systemInit zones) log S → ∀ (choices : DpdkChoices),
    (∀ n, choices.clone n ≠ none) → ∀ m d, datagramOf dpdk choices m = some d →
      ∀ delivered S', reassemble dpdk choices m S = .ok (delivered, S') →
        S.Isolated S' d.dstPort d.dstAddr := by
  intro h
  obtain ⟨σ, run, ⟨hbindings, -⟩⟩ := exists_run_bound ⟨0, 0, 0, 0⟩ (s := 256) (by decide) 7 53
  have hclone : ∀ n, (DpdkChoices.smooth []).clone n ≠ none := fun n => Option.some_ne_none n
  have hd := datagramOf_datagramTo (.smooth []) 7 53
  have run' := run_api (S := systemInit ⟨0, 0, 0, 0⟩) run
  have ok := Shared.Ok.systemRun run'
  have hroom : System.HasRoom { systemInit ⟨0, 0, 0, 0⟩ with shared := σ }
      (some (datagramTo 7 53)) := hasRoom_datagramTo _ 7 (by rw [hbindings]; decide)
  obtain ⟨delivered, S', hret, hdemux⟩ := exists_demuxed ok hclone hd hroom
  obtain ⟨-, hbound⟩ :=
    (isolated_iff ok hdemux).mp (h _ _ _ _ _ run' _ hclone _ _ hd _ _ hret)
  rw [dstPort_datagramTo, dstAddr_datagramTo] at hbound
  change ∀ b ∈ receivers 7 (σ.mem.bindings 53), ∃ c ∈ σ.mem.bindings 53, _ at hbound
  rw [hbindings] at hbound
  obtain ⟨c, hc, -, hfd⟩ := hbound (newBinding 256 7 0) (by decide)
  rw [List.mem_singleton.mp hc] at hfd
  exact absurd hfd (by decide)

/-- Socket 0 is bound, and gets its packet. -/
theorem rx_isolation_of_bind : ∃ (delivered : List Delivery) (S S' : System),
    S.shared.mem.bindings 53 = [newBinding 0 7 0] ∧
      reassemble Dpdk.reference (.smooth []) (datagramTo 7 53) S = .ok (delivered, S') ∧
        S.Isolated S' (datagramTo 7 53).dstPort (datagramTo 7 53).dstAddr := by
  obtain ⟨σ, run, ⟨hbindings, -⟩⟩ := exists_run_bound ⟨0, 0, 0, 0⟩ (s := 0) (by decide) 7 53
  have hroom : System.HasRoom { systemInit ⟨0, 0, 0, 0⟩ with shared := σ }
      (some (datagramTo 7 53)) := hasRoom_datagramTo _ 7 (by rw [hbindings]; decide)
  have harmless : NarrowingHarmless (σ.mem.bindings 53) 7 := by
    rw [hbindings]
    refine ⟨fun w hw hip _ => ?_, fun _ b hb _ => ?_⟩
    · rw [List.mem_singleton.mp hw] at hip
      exact absurd hip (by decide)
    · rw [List.mem_singleton.mp hb]
      decide
  obtain ⟨delivered, S', hret, isolated⟩ := (rx_isolation_iff Dpdk.reference Configuration.zero
    ⟨0, 0, 0, 0⟩ (run_api (S := systemInit ⟨0, 0, 0, 0⟩) run)
    (fun n => Option.some_ne_none n) (datagramOf_datagramTo (.smooth []) 7 53)).mpr
    ⟨hroom, by rwa [dstPort_datagramTo, dstAddr_datagramTo]⟩
  exact ⟨delivered, _, S', hbindings, hret, isolated⟩

/-! ## The pools behind the bind table -/

/-- **The pools never run dry.** In every reachable state the live elements are counted by
the sockets; every iterator that a scan asks for is there, a list for a port without one, a
binding and a node for a socket that is still unbound; the operations of the bind table
return; demultiplexing returns too, unless a staging buffer has no room for the packet; and there
is a free port. -/
theorem pools_never_dry (dpdk : Dpdk) (config : Configuration) (zones : AllocatorZones)
    {log : List SystemEvent} {S : System}
    (run : Run (SystemEvent.step dpdk config) (systemInit zones) log S) :
    S.shared.Counted ∧ udpdkListIteratorTAlloc.Serves S.shared.mem ∧
      (∀ p, S.shared.mem.sockBindTable p = none → udpdkListTAlloc.Serves S.shared.mem) ∧
      (∀ s < numSocketsMax, (S.shared.desc.slots s).bound = false →
        bindInfoAlloc.Serves S.shared.mem ∧ udpdkListNodeTAlloc.Serves S.shared.mem ∧
        ∀ p ip opts, ∃ ret m', btableAddBinding s ip p opts S.shared.mem = .ok (ret, m')) ∧
      (∀ p, S.shared.mem.sockBindTable p ≠ none → ∀ s,
        ∃ m', btableDelBinding s p S.shared.mem = .ok ((), m')) ∧
      (∀ choices m, (∀ n, choices.clone n ≠ none) →
        (∃ delivered S', reassemble dpdk choices m S = .ok (delivered, S')) ∨
          reassemble dpdk choices m S = .error .outOfBounds ∧
            ¬ S.HasRoom (datagramOf dpdk choices m)) ∧
      ∃ p : Port, btableGetFreePort S.shared.mem = .ok (p.toNat, S.shared.mem) := by
  have ok := Shared.Ok.systemRun run
  have pools := ok.mem.rep.pools
  refine ⟨ok.counted, ?_, ?_, ?_, ?_, ?_, ?_⟩
  · exact serves_of_nFree_ne_zero pools.iterators.ok pools.iterators.nFree_ne_zero
  · exact fun p hp => serves_of_nFree_ne_zero pools.list (ok.mem.rep.list_nFree_ne_zero hp)
  · intro s hs hunbound
    obtain ⟨hbind, hnode⟩ := ok.serves_binding hs hunbound
    refine ⟨hbind, hnode, fun p ip opts => ?_⟩
    have hfree := ok.bindInfo_nFree_ne_zero hs hunbound
    have spec : Prog.wp (fun _ => False) (btableAddBinding s ip p opts) _ S.shared.mem :=
      btableAddBinding_spec ok.mem hfree
    obtain ⟨ret, m', hret, -⟩ := Prog.exists_ok_of_wp spec
    exact ⟨ret, m', hret⟩
  · intro p hp s
    have hne : S.shared.mem.bindings p ≠ [] := fun h => hp ((ok.mem.null_iff p).mpr h)
    have spec : Prog.wp (fun _ => False) (btableDelBinding s p) _ S.shared.mem :=
      btableDelBinding_spec ok.mem hne
    obtain ⟨_, m', hret, -⟩ := Prog.exists_ok_of_wp spec
    exact ⟨m', hret⟩
  · intro choices m hclone
    by_cases hroom : S.HasRoom (datagramOf dpdk choices m)
    · obtain ⟨delivered, S', hret, -⟩ := exists_reassemble ok.mem hclone hroom
      exact .inl ⟨delivered, S', hret⟩
    · exact .inr ⟨reassemble_of_full ok.mem hclone hroom, hroom⟩
  · obtain ⟨p, hret, -⟩ := ok.exists_btableGetFreePort
    exact ⟨p, hret⟩

/-- Two sockets share a port, and a packet is for both. -/
theorem pools_never_dry_of_shared : ∃ (delivered : List Delivery) (S S' : System),
    S.shared.mem.bindings 53 = [newBinding 0 inaddrAny 2, newBinding 1 7 2] ∧ S.shared.Counted ∧
      udpdkListIteratorTAlloc.Serves S.shared.mem ∧
      (∀ s, ∃ m', btableDelBinding s 53 S.shared.mem = .ok ((), m')) ∧
      reassemble Dpdk.reference (.smooth []) (datagramTo 7 53) S = .ok (delivered, S') := by
  obtain ⟨_, σ₀, run₀, pair⟩ := exists_run_pairOpen ⟨0, 0, 0, 0⟩ 1 1
  obtain ⟨log, σ, run, hbindings⟩ := exists_run_pairBound run₀ pair inaddrAny 7 53 (by decide)
    (by decide)
  have run' := run_api (S := systemInit ⟨0, 0, 0, 0⟩) run
  obtain ⟨counted, hiterators, -, -, hdel, hdemux, -⟩ :=
    pools_never_dry Dpdk.reference Configuration.zero ⟨0, 0, 0, 0⟩ run'
  have hlist : σ.mem.sockBindTable 53 ≠ none := fun h => by
    rw [((Shared.Ok.run run).mem.null_iff 53).mp h] at hbindings
    cases hbindings
  have hroom : System.HasRoom { systemInit ⟨0, 0, 0, 0⟩ with shared := σ }
      (datagramOf Dpdk.reference (.smooth []) (datagramTo 7 53)) := by
    rw [datagramOf_datagramTo]
    exact hasRoom_datagramTo _ 7 (by rw [hbindings]; decide)
  obtain ⟨delivered, S', hret⟩ := (hdemux (.smooth []) (datagramTo 7 53)
    fun n => Option.some_ne_none n).resolve_right fun h => h.2 hroom
  exact ⟨delivered, _, S', hbindings, counted, hiterators, hdel 53 hlist, hret⟩

end Udpdk
