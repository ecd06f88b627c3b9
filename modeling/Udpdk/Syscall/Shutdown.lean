import Udpdk.Syscall.Pools

/-!
# Shutdown

`udpdk_close_all_sockets` visits every slot and closes the sockets that are bound. What it
leaves depends on the sockets that are open without being bound: nothing else is left over.

## Main definitions

* `udpdkCloseAllSockets` — the loop over the slots
* `Shared.Clean` — nothing is in use any more

## Main results

* `exists_udpdkCloseAllSockets` — a bound socket is closed, any other slot stays as it was
* `clean_shutdown_iff` — when nothing is left over
-/

namespace Udpdk

open Foundation

/-- The body of the loop of `udpdk_close_all_sockets`. -/
def closeIfBound (s : ℕ) : SharedProg Unit := do
  let slot ← getSlot s
  if slot.bound then
    let _ ← udpdkClose s

/-- `udpdk_close_all_sockets`. -/
def udpdkCloseAllSockets : SharedProg Unit := (List.range numSocketsMax).forM closeIfBound

def Memzone.Unused (mz : Memzone) : Prop := mz.all.nFree = mz.all.size

/-- No socket is open or bound, no port has a list, and no element of a pool is in use. -/
structure Shared.Clean (σ : Shared) : Prop where
  slots : ∀ s < numSocketsMax, (σ.desc.slots s).used = false ∧ (σ.desc.slots s).bound = false
  table : ∀ p, σ.mem.sockBindTable p = none
  bindInfo : σ.mem.bindInfoAlloc.mz.Unused
  list : σ.mem.listAlloc.mz.Unused
  node : σ.mem.nodeAlloc.mz.Unused
  iterator : σ.mem.iteratorAlloc.mz.Unused

/-- The sockets in `visited` were closed if they were bound, and nothing else was. -/
structure Shared.ClosedBound (visited : List ℕ) (σ σ' : Shared) : Prop where
  ok : σ'.Ok
  closed : ∀ s ∈ visited, (σ.desc.slots s).bound →
    (σ'.desc.slots s).bound = false ∧ (σ'.desc.slots s).used = false
  kept : ∀ s, (s ∈ visited → (σ.desc.slots s).bound = false) → σ'.desc.slots s = σ.desc.slots s

section Loop

variable {allowed : Fault → Prop} {dpdk : Dpdk} {config : Configuration} {σ : Shared} {s : ℕ}

/-- One round of the loop. -/
theorem closeIfBound_spec (ok : σ.Ok) (hs : s < numSocketsMax) :
    Prog.wp allowed (closeIfBound s) (fun _ σ' => σ.ClosedBound [s] σ') σ := by
  rw [closeIfBound, Prog.wp_bind, wp_getSlot hs]
  split
  · rename_i hbound
    obtain ⟨σ', hclose, -, hview⟩ : ∃ σ',
        (ApiEvent.close s (.ok ())).step Dpdk.reference Configuration.zero σ σ' ∧
          σ' = { σ with desc := σ'.desc, mem := σ'.mem } ∧ σ'.view = σ.view.closed s :=
      ApiEvent.exists_step_close ok hs (ok.sockets.bound s hbound).1
    have ok' := ok.step hclose
    have hself : σ'.desc.slots s =
        { σ.desc.slots s with bound := false, used := false, soOptions := 0 } := by
      rw [← Shared.view_slot, hview, SocketView.slot_closed_self]
      rfl
    rw [Prog.wp_bind]
    apply Prog.wp_of_eq_ok hclose
    refine ⟨ok', fun t ht _ => ?_, fun t ht => ?_⟩
    · rw [List.mem_singleton.mp ht, hself]
      exact ⟨rfl, rfl⟩
    · have hts : t ≠ s := by
        rintro rfl
        rw [ht (List.mem_singleton_self t)] at hbound
        cases hbound
      rw [← Shared.view_slot, hview, SocketView.slot_closed_of_ne hts]
      rfl
  · rename_i hbound
    refine ⟨ok, fun t ht htbound => ?_, fun _ _ => rfl⟩
    rw [List.mem_singleton.mp ht] at htbound
    exact absurd htbound hbound

/-- The rounds compose. -/
theorem Shared.ClosedBound.trans {xs ys : List ℕ} {τ υ : Shared} (h : σ.ClosedBound xs τ)
    (h' : τ.ClosedBound ys υ) : σ.ClosedBound (xs ++ ys) υ := by
  have hsecond : ∀ s, (σ.desc.slots s).bound = false → υ.desc.slots s = σ.desc.slots s := by
    intro s hs
    have hτ : τ.desc.slots s = σ.desc.slots s := h.kept s fun _ => hs
    rw [← hτ]
    exact h'.kept s fun _ => hτ ▸ hs
  refine ⟨h'.ok, fun s hs hbound => ?_, fun s hs => ?_⟩
  · -- a slot that the first rounds have closed is unbound, and is kept by the others
    by_cases hx : s ∈ xs
    · obtain ⟨hb, hu⟩ := h.closed s hx hbound
      rw [h'.kept s fun _ => hb]
      exact ⟨hb, hu⟩
    · have hτ : τ.desc.slots s = σ.desc.slots s := h.kept s fun hx' => absurd hx' hx
      have hy : s ∈ ys := (List.mem_append.mp hs).resolve_left hx
      exact h'.closed s hy (by rw [hτ]; exact hbound)
  · cases hbound : (σ.desc.slots s).bound with
    | false => exact hsecond s hbound
    | true =>
      have hnot : s ∉ xs ++ ys := fun h => by
        rw [hs h] at hbound
        cases hbound
      rw [List.mem_append, not_or] at hnot
      rw [h'.kept s fun hy => absurd hy hnot.2, h.kept s fun hx => absurd hx hnot.1]

/-- The loop over any slots. -/
theorem closeIfBound_forM_spec (ok : σ.Ok) (xs : List ℕ) (hxs : ∀ s ∈ xs, s < numSocketsMax) :
    Prog.wp allowed (xs.forM closeIfBound) (fun _ σ' => σ.ClosedBound xs σ') σ := by
  induction xs generalizing σ with
  | nil => exact ⟨ok, nofun, fun _ _ => rfl⟩
  | cons s xs ih =>
    change Prog.wp allowed (closeIfBound s >>= fun _ => xs.forM closeIfBound) _ σ
    rw [Prog.wp_bind]
    apply Prog.wp_mono (closeIfBound_spec ok (hxs s List.mem_cons_self))
    intro _ τ h
    apply Prog.wp_mono (ih h.ok fun t ht => hxs t (List.mem_cons_of_mem s ht))
    exact fun _ υ h' => h.trans h'

/-- **Closing all sockets** returns, and closes the bound ones. -/
theorem exists_udpdkCloseAllSockets (ok : σ.Ok) : ∃ σ', udpdkCloseAllSockets σ = .ok ((), σ') ∧
    σ.ClosedBound (List.range numSocketsMax) σ' := by
  have hloop : ∀ xs : List ℕ, (∀ s ∈ xs, s < numSocketsMax) →
      ∃ σ', xs.forM closeIfBound σ = .ok ((), σ') ∧ σ.ClosedBound xs σ' := by
    intro xs hxs
    have spec : Prog.wp (fun _ => False) (xs.forM closeIfBound) _ σ :=
      closeIfBound_forM_spec ok xs hxs
    obtain ⟨_, σ', hret, h⟩ := Prog.exists_ok_of_wp spec
    exact ⟨σ', hret, h⟩
  exact hloop (List.range numSocketsMax) fun _ hs => List.mem_range.mp hs

end Loop

section Clean

variable {σ σ' : Shared}

theorem Memzone.Ok.unused {mz : Memzone} (ok : mz.Ok) (h : mz.live.card = 0) : mz.Unused := by
  have hcount := ok.nFree_add_card
  rw [h] at hcount
  exact hcount

/-- Once no socket is bound, the bind table and its pools are as they were at the start. -/
theorem Shared.Ok.table_unused (ok : σ.Ok)
    (hnone : ∀ s < numSocketsMax, (σ.desc.slots s).bound = false) :
    (∀ p, σ.mem.sockBindTable p = none) ∧ σ.mem.bindInfoAlloc.mz.Unused ∧
      σ.mem.listAlloc.mz.Unused ∧ σ.mem.nodeAlloc.mz.Unused ∧ σ.mem.iteratorAlloc.mz.Unused := by
  have pools := ok.mem.rep.pools
  have hbound : σ.desc.boundSlots = ∅ := by
    apply Finset.filter_false_of_mem
    intro s hs
    rw [hnone s (Finset.mem_range.mp hs)]
    exact Bool.false_ne_true
  have htable : ∀ p, σ.mem.sockBindTable p = none := by
    intro p
    rw [ok.mem.null_iff]
    by_contra hne
    obtain ⟨b, hb⟩ := List.exists_mem_of_ne_nil _ hne
    obtain ⟨s, hs, hfd⟩ := ok.sockets.range p b hb
    have hs' : (σ.desc.slots s).bound := (ok.sockets.bound_of_mem hb hfd).1
    rw [hnone s hs] at hs'
    cases hs'
  have hlisted : σ.mem.listedPorts = ∅ := by
    apply Finset.filter_false_of_mem
    intro p _
    exact not_not.mpr (htable _)
  refine ⟨htable, pools.bindInfo.unused ?_, pools.list.unused ?_, pools.node.unused ?_,
    pools.iterators.ok.unused ?_⟩
  · rw [ok.counted.bindInfo, hbound, Finset.card_empty]
  · rw [ok.counted.list, hlisted, Finset.card_empty]
  · rw [ok.counted.node, hbound, Finset.card_empty]
  · rw [ok.counted.iterator, Finset.card_empty]

/-- What closing all sockets leaves over. -/
theorem Shared.ClosedBound.clean_iff (h : σ.ClosedBound (List.range numSocketsMax) σ') :
    σ'.Clean ↔ ∀ s < numSocketsMax, (σ.desc.slots s).used → (σ.desc.slots s).bound := by
  constructor
  · -- the loop passes over a socket that is not bound
    intro clean s hs hused
    by_contra hunbound
    have hkept := h.kept s fun _ => by simpa using hunbound
    have hfree := (clean.slots s hs).1
    rw [hkept, hused] at hfree
    cases hfree
  · intro hall
    have hslots : ∀ s < numSocketsMax,
        (σ'.desc.slots s).used = false ∧ (σ'.desc.slots s).bound = false := by
      intro s hs
      cases hbound : (σ.desc.slots s).bound with
      | true => exact (h.closed s (List.mem_range.mpr hs) hbound).symm
      | false =>
        rw [h.kept s fun _ => hbound]
        refine ⟨?_, hbound⟩
        by_contra hused
        rw [hall s hs (by simpa using hused)] at hbound
        cases hbound
    obtain ⟨htable, hbind, hlist, hnode, hit⟩ := h.ok.table_unused fun s hs => (hslots s hs).2
    exact ⟨hslots, htable, hbind, hlist, hnode, hit⟩

end Clean

/-- **Clean shutdown.** After any run of calls `udpdk_close_all_sockets` returns, and leaves
nothing in use exactly when every open socket was bound. -/
theorem clean_shutdown_iff (dpdk : Dpdk) (config : Configuration) (zones : AllocatorZones)
    {log : List ApiEvent} {σ : Shared}
    (run : Run (ApiEvent.step dpdk config) (sharedInit zones) log σ) :
    ∃ σ', udpdkCloseAllSockets σ = .ok ((), σ') ∧
      (σ'.Clean ↔ ∀ s < numSocketsMax, (σ.desc.slots s).used → (σ.desc.slots s).bound) := by
  obtain ⟨σ', hret, h⟩ := exists_udpdkCloseAllSockets (Shared.Ok.run run)
  exact ⟨σ', hret, h.clean_iff⟩

/-- An open socket that was never bound stays open. -/
theorem not_clean_shutdown : ¬ ∀ (dpdk : Dpdk) (config : Configuration) (zones : AllocatorZones)
    (log : List ApiEvent) (σ : Shared),
    Run (ApiEvent.step dpdk config) (sharedInit zones) log σ →
      ∃ σ', udpdkCloseAllSockets σ = .ok ((), σ') ∧ σ'.Clean := by
  intro h
  have run := run_sharedOpen Dpdk.reference Configuration.zero ⟨0, 0, 0, 0⟩ 1 (by decide)
  obtain ⟨σ', hret, clean⟩ := h _ _ _ _ _ run
  obtain ⟨σ'', hret', closed⟩ := exists_udpdkCloseAllSockets (Shared.Ok.run run)
  obtain rfl := congrArg Prod.snd (Except.ok.inj (hret.symm.trans hret'))
  exact absurd (closed.clean_iff.mp clean 0 (by decide) rfl) (by decide)

/-- A bound socket leaves nothing behind. -/
theorem clean_shutdown_of_bind : ∃ σ σ', (σ.desc.slots 0).bound ∧
    udpdkCloseAllSockets σ = .ok ((), σ') ∧ σ'.Clean := by
  have first := run_sharedOpen Dpdk.reference Configuration.zero ⟨0, 0, 0, 0⟩ 1 (by decide)
  obtain ⟨σ, hbind, -, hview⟩ := ApiEvent.exists_step_bind (p := 53) (s := 0) (i := 7)
    (Shared.Ok.run first) (by decide) rfl rfl rfl
  have hslot : ∀ s, (σ.desc.slots s).used → (σ.desc.slots s).bound := by
    intro s hused
    rw [← Shared.view_slot, hview] at hused ⊢
    by_cases hs : s = 0
    · rw [hs, SocketView.slot_boundTo_self]
    · rw [SocketView.slot_boundTo_of_ne hs] at hused
      simp [sharedOpen, SocketView.slot, Shared.view, hs, ExchSlotInfo.zero] at hused
  obtain ⟨σ', hret, hiff⟩ := clean_shutdown_iff _ _ _ (first.snoc hbind)
  refine ⟨σ, σ', ?_, hret, hiff.mpr fun s _ => hslot s⟩
  rw [← Shared.view_slot, hview, SocketView.slot_boundTo_self]

end Udpdk
