import Udpdk.Poller.Delivery

/-!
# Buffers of received packets

Who owns a received buffer once `reassemble` has returned. The fragment table keeps a fragment;
any other packet, and every clone of it, has to be stored in a staging buffer or given back. The
packets that are dropped before the scan are neither, and a clone that failed is stored as a
null pointer if another binding matches.

## Main definitions

* `rxGiven`, `clonesMade` — the buffers that `reassemble` has to account for
* `System.RxConserved` — each of them is owned once
* `System.RxKept` — the packets for which that holds

## Main results

* `rx_conservation_iff` — when the buffers are conserved
-/

namespace Udpdk

open Foundation

/-! ## What there is to account for -/

/-- The buffer that `reassemble` has to account for: the packet itself, but for a fragment the
packet that was put together with it, if it was the last one. -/
def rxGiven (dpdk : Dpdk) (choices : DpdkChoices) (m : Mbuf) : List ℕ :=
  if dpdk.ethIsIpv4Hdr m.packetType ∧ dpdk.ipv4FragPktIsFragmented m.fragmentOffset then
    choices.assembled.toList.map Mbuf.addr
  else [m.addr]

/-- The clones that were created: one is asked for after each delivery to a binding with flags. -/
def clonesMade (choices : DpdkChoices) (delivered : List Delivery) : List ℕ :=
  (List.range (delivered.countP fun x => !x.1.flagless)).filterMap choices.clone

/-- Between `S` and `S'` every buffer that was given or created got one owner: a staging buffer,
in one entry, or the pool that it was given back to. No null pointer was stored. -/
structure System.RxConserved (S : System) (dpdk : Dpdk) (choices : DpdkChoices) (m : Mbuf)
    (delivered : List Delivery) (S' : System) : Prop where
  stored : ∀ s, S'.rxBuffer s = S.rxBuffer s ++ stagedFor delivered s
  noNull : ∀ x ∈ delivered, x.2 ≠ none
  balance : ∃ freed, S'.shared.freed = S.shared.freed ++ freed ∧
    (rxGiven dpdk choices m ++ clonesMade choices delivered).Perm
      ((delivered.filterMap Prod.snd).map Mbuf.addr ++ freed)

/-- The packet is a fragment of an incomplete datagram; or it is an IPv4 packet, or completes
one, that carries UDP to a port with a binding, and there is a clone for each receiver after
the first. -/
def System.RxKept (S : System) (dpdk : Dpdk) (choices : DpdkChoices) (m : Mbuf) : Prop :=
  (dpdk.ethIsIpv4Hdr m.packetType ∧ dpdk.ipv4FragPktIsFragmented m.fragmentOffset ∧
    choices.assembled = none) ∨
  ∃ d, datagramOf dpdk choices m = some d ∧ S.shared.mem.bindings d.dstPort ≠ [] ∧
    ∀ n, n + 1 < (receivers d.dstAddr (S.shared.mem.bindings d.dstPort)).length →
      choices.clone n ≠ none

section Balance

variable {dpdk : Dpdk} {choices : DpdkChoices} {m d : Mbuf} {S S' : System}
  {delivered : List Delivery} {ip : InAddr} {bs : List BindInfo}

/-- Only the last receiver can be without flags. -/
theorem countP_receivers : (receivers ip bs).countP (fun b => !b.flagless) +
    (if (receivers ip bs).all fun b => !b.flagless then 0 else 1) = (receivers ip bs).length := by
  induction bs with
  | nil => rfl
  | cons b bs ih =>
    rw [receivers_cons]
    by_cases hmatch : b.matchesDst ip
    · rw [if_pos hmatch]
      cases hflag : b.flagless with
      | true => simp [hflag]
      | false =>
        rw [if_neg Bool.false_ne_true, List.countP_cons_of_pos (by simp [hflag]), List.all_cons,
          hflag, List.length_cons, ← ih]
        simp only [Bool.not_false, Bool.true_and]
        omega
    · rw [if_neg hmatch]
      exact ih

theorem rxGiven_eq (h : datagramOf dpdk choices m = some d) :
    rxGiven dpdk choices m = [d.addr] := by
  have hwhole := (Option.filter_eq_some_iff.mp h).1
  unfold rxGiven
  split_ifs at hwhole with hip hfrag
  · rw [if_pos ⟨hip, hfrag⟩, hwhole]
    rfl
  · rw [if_neg (fun h => hfrag h.2), Option.some.inj hwhole]

theorem map_addr_handedOut (n : ℕ) :
    (List.range (n + 1)).filterMap (fun k => (handedOut choices d k).map Mbuf.addr) =
      d.addr :: (List.range n).filterMap choices.clone := by
  have hclone : ∀ k, (handedOut choices d (k + 1)).map Mbuf.addr = choices.clone k := by
    intro k
    rw [handedOut, Option.map_map]
    exact Option.map_id'
  have hfirst : (handedOut choices d 0).map Mbuf.addr = some d.addr := rfl
  have hrest : (fun k => (handedOut choices d k).map Mbuf.addr) ∘ Nat.succ = choices.clone := by
    funext k
    exact hclone k
  rw [List.range_succ_eq_map, List.filterMap_cons, hfirst, List.filterMap_map, hrest]

/-- **Balance of a scan.** The packet and its clones are stored, or left over. -/
theorem handedOut_balance (hbuffers : delivered.map Prod.snd =
      (List.range delivered.length).map (handedOut choices d))
    (hrec : delivered.map Prod.fst = receivers ip bs) :
    [d.addr] ++ clonesMade choices delivered =
      (delivered.filterMap Prod.snd).map Mbuf.addr ++ leftOver choices d delivered := by
  have hstored : (delivered.filterMap Prod.snd).map Mbuf.addr =
      (List.range delivered.length).filterMap fun k => (handedOut choices d k).map Mbuf.addr := by
    have hid : delivered.filterMap Prod.snd = (delivered.map Prod.snd).filterMap id := by
      rw [List.filterMap_map, Function.id_comp]
    rw [hid, hbuffers, List.filterMap_map, List.map_filterMap]
    rfl
  have hcount : delivered.countP (fun x => !x.1.flagless) =
      (receivers ip bs).countP fun b => !b.flagless := by
    rw [← hrec, List.countP_map]
    rfl
  have hall : (delivered.all fun x => !x.1.flagless) =
      (receivers ip bs).all fun b => !b.flagless := by
    rw [← hrec, List.all_map]
    rfl
  have hlen : delivered.length = (receivers ip bs).length := by
    rw [← hrec, List.length_map]
  have hlast : (receivers ip bs).countP (fun b => !b.flagless) +
      (if (receivers ip bs).all fun b => !b.flagless then 0 else 1) = (receivers ip bs).length :=
    countP_receivers
  rw [← hcount, ← hall, ← hlen] at hlast
  rw [hstored, leftOver, clonesMade, List.singleton_append, ← map_addr_handedOut]
  split_ifs at hlast ⊢
  · -- one buffer more was made than delivered
    rw [add_zero] at hlast
    rw [hlast, List.range_succ, List.filterMap_append]
    congr 1
    cases h : handedOut choices d delivered.length with
    | none => simp [h]
    | some m' => simp [h]
  · rw [hlast, List.append_nil]

/-- A packet that is demultiplexed is kept when its port has a binding and no clone is missing. -/
theorem rxKept_iff (hd : datagramOf dpdk choices m = some d) :
    S.RxKept dpdk choices m ↔ S.shared.mem.bindings d.dstPort ≠ [] ∧
      ∀ n, n + 1 < (receivers d.dstAddr (S.shared.mem.bindings d.dstPort)).length →
        choices.clone n ≠ none := by
  constructor
  · rintro (⟨hip, hfrag, hnone⟩ | ⟨d', hd', hbound, hclone⟩)
    · rw [datagramOf, if_pos hip, if_pos hfrag, hnone] at hd
      cases hd
    · obtain rfl := Option.some.inj (hd.symm.trans hd')
      exact ⟨hbound, hclone⟩
  · rintro ⟨hbound, hclone⟩
    exact .inr ⟨d, hd, hbound, hclone⟩

/-- No null pointer is delivered as long as no clone is missing. -/
theorem delivered_ne_none_iff (hbuffers : delivered.map Prod.snd =
      (List.range delivered.length).map (handedOut choices d)) :
    (∀ x ∈ delivered, x.2 ≠ none) ↔
      ∀ n, n + 1 < delivered.length → choices.clone n ≠ none := by
  have hmem : (∀ x ∈ delivered, x.2 ≠ none) ↔
      ∀ k < delivered.length, handedOut choices d k ≠ none := by
    have hsnd : (∀ x ∈ delivered, x.2 ≠ none) ↔ ∀ o ∈ delivered.map Prod.snd, o ≠ none :=
      (List.forall_mem_map (P := fun o => o ≠ none)).symm
    rw [hsnd, hbuffers, List.forall_mem_map]
    simp only [List.mem_range]
  rw [hmem]
  constructor
  · exact fun hall n hn hnone => hall (n + 1) hn (Option.map_eq_none_iff.mpr hnone)
  · intro hall k hk hnone
    obtain ⟨n, rfl, hclone⟩ := handedOut_eq_none hnone
    exact hall n hk hclone

/-- The buffers are conserved just for the packets that are kept. -/
theorem rxConserved_iff (h : S.Handed (datagramOf dpdk choices m) choices delivered S') :
    S.RxConserved dpdk choices m delivered S' ↔ S.RxKept dpdk choices m := by
  have hstored : ∀ s, S'.rxBuffer s = S.rxBuffer s ++ stagedFor delivered s := by
    intro s
    rw [h.frame]
    rfl
  cases hd : datagramOf dpdk choices m with
  | none =>
    rw [hd] at h
    obtain rfl : delivered = [] := List.map_eq_nil_iff.mp h.receivers
    have hfreed : S'.shared.freed = S.shared.freed ++ [] := h.freed
    constructor
    · rintro ⟨-, -, freed, hfreed', hperm⟩
      obtain rfl := List.append_cancel_left (hfreed'.symm.trans hfreed)
      have hgiven : rxGiven dpdk choices m = [] := by simpa [clonesMade] using hperm
      unfold rxGiven at hgiven
      split_ifs at hgiven with hfrag
      refine .inl ⟨hfrag.1, hfrag.2, ?_⟩
      simpa using hgiven
    · rintro (⟨hip, hfrag, hnone⟩ | ⟨d, hsome, -⟩)
      · refine ⟨hstored, fun x hx => absurd hx List.not_mem_nil, [], hfreed, ?_⟩
        rw [rxGiven, if_pos ⟨hip, hfrag⟩, hnone]
        exact List.Perm.refl _
      · rw [hd] at hsome
        cases hsome
  | some d =>
    have hgiven := rxGiven_eq hd
    rw [hd] at h
    have hrec : delivered.map Prod.fst = receivers d.dstAddr (S.shared.mem.bindings d.dstPort) :=
      h.receivers
    have hlen : (receivers d.dstAddr (S.shared.mem.bindings d.dstPort)).length =
        delivered.length := by
      rw [← hrec, List.length_map]
    have hbuffers := h.buffers d rfl
    have hfreed := h.freed
    rw [rxKept_iff hd, hlen, ← delivered_ne_none_iff hbuffers]
    constructor
    · rintro ⟨-, hno, freed, hfreed', hperm⟩
      refine ⟨fun hnil => ?_, hno⟩
      -- the packet is dropped, and nothing is done about its buffer
      have hnone : delivered = [] := by
        rw [hnil] at hrec
        exact List.map_eq_nil_iff.mp hrec
      rw [System.released, if_pos hnil] at hfreed
      obtain rfl := List.append_cancel_left (hfreed'.symm.trans hfreed)
      rw [hgiven, hnone] at hperm
      simp at hperm
    · rintro ⟨hbound, hno⟩
      refine ⟨hstored, hno, _, hfreed, ?_⟩
      rw [System.released, if_neg hbound, hgiven, handedOut_balance hbuffers hrec]

end Balance

/-! ## Conservation -/

/-- **Conservation of received buffers.** In every reachable state `reassemble` returns with one
owner for every buffer that it was given or created exactly when the packet is one that is kept
and the staging buffers have room for it: other packets leak, or put a null pointer into a staging
buffer. -/
theorem rx_conservation_iff (dpdk : Dpdk) (config : Configuration) (zones : AllocatorZones)
    {log : List SystemEvent} {S : System}
    (run : Run (SystemEvent.step dpdk config) (systemInit zones) log S) (choices : DpdkChoices)
    (m : Mbuf) :
    (∃ delivered S', reassemble dpdk choices m S = .ok (delivered, S') ∧
      S.RxConserved dpdk choices m delivered S') ↔
      S.RxKept dpdk choices m ∧ S.HasRoom (datagramOf dpdk choices m) := by
  have ok := Shared.Ok.systemRun run
  constructor
  · rintro ⟨delivered, S', hret, hconserved⟩
    have hhanded := handed_of_reassemble ok.mem hret
    exact ⟨(rxConserved_iff hhanded).mp hconserved, hhanded.room⟩
  · rintro ⟨hkept, hroom⟩
    have hclone : ¬ ∃ n, n + 1 < (S.receiversOf (datagramOf dpdk choices m)).length ∧
        choices.clone n = none := by
      rintro ⟨n, hn, hnone⟩
      rcases hkept with ⟨hip, hfrag, hassembled⟩ | ⟨d, hd, -, hall⟩
      · rw [datagramOf, if_pos hip, if_pos hfrag, hassembled] at hn
        exact absurd hn (Nat.not_lt_zero _)
      · rw [hd] at hn
        exact hall n hn hnone
    have spec : Prog.wp (fun _ => False) (reassemble dpdk choices m) _ S :=
      reassemble_handed ok.mem hclone fun hfull => hfull hroom
    obtain ⟨delivered, S', hret, hhanded⟩ := Prog.exists_ok_of_wp spec
    exact ⟨delivered, S', hret, (rxConserved_iff hhanded).mpr hkept⟩

/-- A packet to a port without a socket leaks. -/
theorem not_rx_conservation : ¬ ∀ (dpdk : Dpdk) (config : Configuration) (zones : AllocatorZones)
    (log : List SystemEvent) (S : System),
    Run (SystemEvent.step dpdk config) (systemInit zones) log S → ∀ (choices : DpdkChoices)
    (m : Mbuf) (delivered : List Delivery) (S' : System),
      reassemble dpdk choices m S = .ok (delivered, S') →
        S.RxConserved dpdk choices m delivered S' := by
  intro h
  have ok := (ok_sharedInit ⟨0, 0, 0, 0⟩).mem
  have hroom : System.HasRoom { systemInit ⟨0, 0, 0, 0⟩ with shared := sharedInit ⟨0, 0, 0, 0⟩ }
      (datagramOf Dpdk.reference (.smooth []) (datagramTo 7 53)) := by
    rw [datagramOf_datagramTo]
    exact hasRoom_datagramTo _ 7 (by decide)
  obtain ⟨delivered, S', hret, -⟩ := exists_reassemble ok (fun n => Option.some_ne_none n) hroom
  have hconserved := h Dpdk.reference Configuration.zero ⟨0, 0, 0, 0⟩ _ _ .nil (.smooth [])
    (datagramTo 7 53) delivered S' hret
  rcases (rxConserved_iff (handed_of_reassemble ok hret)).mp hconserved with
    ⟨-, hfrag, -⟩ | ⟨d, hd, hbound, -⟩
  · have hoffset : (datagramTo 7 53).fragmentOffset = 0 := fragmentOffset_fillMbuf
    rw [hoffset] at hfrag
    exact absurd hfrag (by decide)
  · obtain rfl := Option.some.inj ((datagramOf_datagramTo _ 7 53).symm.trans hd)
    exact hbound rfl

/-- A packet to the only socket that is bound is stored. -/
theorem rx_conservation_of_bind : ∃ (delivered : List Delivery) (S S' : System),
    S.shared.mem.bindings 53 = [newBinding 0 7 0] ∧
      reassemble Dpdk.reference (.smooth []) (datagramTo 7 53) S = .ok (delivered, S') ∧
        S.RxConserved Dpdk.reference (.smooth []) (datagramTo 7 53) delivered S' := by
  obtain ⟨σ, run, ⟨hbindings, -⟩⟩ := exists_run_bound ⟨0, 0, 0, 0⟩ (s := 0) (by decide) 7 53
  have hkept : ({ systemInit ⟨0, 0, 0, 0⟩ with shared := σ } : System).RxKept Dpdk.reference
      (.smooth []) (datagramTo 7 53) := by
    refine .inr ⟨_, datagramOf_datagramTo _ 7 53, ?_, fun n _ => Option.some_ne_none n⟩
    rw [dstPort_datagramTo]
    change σ.mem.bindings 53 ≠ []
    rw [hbindings]
    exact List.cons_ne_nil _ _
  have hroom : System.HasRoom { systemInit ⟨0, 0, 0, 0⟩ with shared := σ }
      (datagramOf Dpdk.reference (.smooth []) (datagramTo 7 53)) := by
    rw [datagramOf_datagramTo]
    exact hasRoom_datagramTo _ 7 (by rw [hbindings]; decide)
  obtain ⟨delivered, S', hret, hconserved⟩ := (rx_conservation_iff Dpdk.reference
    Configuration.zero ⟨0, 0, 0, 0⟩ (run_api (S := systemInit ⟨0, 0, 0, 0⟩) run) _ _).mpr
      ⟨hkept, hroom⟩
  exact ⟨delivered, _, S', hbindings, hret, hconserved⟩

end Udpdk
