import Udpdk.Syscall.Sockets

/-!
# The pools behind the bind table

No caller of the allocators checks for NULL. In every reachable state the live elements of
the four pools can be counted by what the sockets use, and what is left over is enough for
every operation to come.

## Main definitions

* `ExchZoneInfo.boundSlots` — the slots of bound sockets
* `PoolRef.Serves` — an allocation from the pool succeeds
* `Shared.Counted` — the live elements of the four pools

## Main results

* `Shared.Ok.counted` — the count
* `Shared.Ok.serves_binding`, `Shared.Ok.exists_btableGetFreePort` — what is left over
-/

namespace Udpdk

open Foundation

/-- The slots of bound sockets. -/
def ExchZoneInfo.boundSlots (desc : ExchZoneInfo) : Finset ℕ :=
  (Finset.range numSocketsMax).filter fun s => (desc.slots s).bound

/-- The ports that have a list. -/
def Mem.listedPorts (m : Mem) : Finset ℕ :=
  (Finset.range udpMaxPort).filter fun p => m.sockBindTable (BitVec.ofNat 16 p) ≠ none

/-- An allocation from the pool succeeds in `m`, and wherever the pool is as it is in `m`. -/
def PoolRef.Serves {α : Type} (r : PoolRef α) (m : Mem) : Prop :=
  ∀ m', (r.get m').mz = (r.get m).mz → ∃ a m'', shmalloc r m' = .ok (some a, m'')

/-- The live elements: one binding and one node for each bound socket, one list for each
port that has a socket, and no iterator. -/
structure Shared.Counted (σ : Shared) : Prop where
  bindInfo : σ.mem.bindInfoAlloc.mz.live.card = σ.desc.boundSlots.card
  node : σ.mem.nodeAlloc.mz.live.card = σ.desc.boundSlots.card
  list : σ.mem.listAlloc.mz.live.card = σ.mem.listedPorts.card
  iterator : σ.mem.iteratorAlloc.mz.live = ∅

section Count

variable {σ : Shared} {m : Mem} {s : ℕ} {p : Port}

theorem mem_boundSlots {desc : ExchZoneInfo} :
    s ∈ desc.boundSlots ↔ s < numSocketsMax ∧ (desc.slots s).bound := by
  simp [ExchZoneInfo.boundSlots]

theorem mem_listedPorts : p.toNat ∈ m.listedPorts ↔ m.sockBindTable p ≠ none := by
  have hp : p.toNat < udpMaxPort := p.isLt
  simp [Mem.listedPorts, hp]

/-- The node of a binding belongs to a bound socket, that of the binding. -/
theorem Shared.Ok.exists_slot_of_node (ok : σ.Ok) {a : ℕ} (ha : a ∈ σ.mem.nodeAlloc.mz.live) :
    ∃ s < numSocketsMax, (σ.mem.info a).sockfd = (s : ℕ) ∧ (σ.desc.slots s).bound := by
  obtain ⟨p, hp⟩ := (ok.mem.rep.nodeLive a).mp ha
  have hb : σ.mem.info a ∈ σ.mem.bindings p := List.mem_map_of_mem hp
  obtain ⟨s, hs, hfd⟩ := ok.sockets.range p _ hb
  exact ⟨s, hs, hfd, (ok.sockets.bound_of_mem hb hfd).1⟩

/-- Nodes and bound sockets are in bijection. -/
theorem Shared.Ok.card_nodes (ok : σ.Ok) :
    σ.mem.nodeAlloc.mz.live.card = σ.desc.boundSlots.card := by
  apply Finset.card_bij fun a _ => (σ.mem.info a).sockfd.toNat
  · intro a ha
    obtain ⟨s, hs, hfd, hbound⟩ := ok.exists_slot_of_node ha
    rw [hfd]
    exact mem_boundSlots.mpr ⟨hs, hbound⟩
  · intro a ha b hb heq
    obtain ⟨s, -, hfd, -⟩ := ok.exists_slot_of_node ha
    obtain ⟨t, -, hfd', -⟩ := ok.exists_slot_of_node hb
    exact ok.mem.injOn_sockfd ok.sockets.oneEach a ha b hb (by simpa [hfd, hfd'] using heq)
  · intro s hs
    obtain ⟨hs, hbound⟩ := mem_boundSlots.mp hs
    obtain ⟨b, hb, hfd, -⟩ := ok.sockets.exists_mem_of_bound hbound
    obtain ⟨a, ha, rfl⟩ := List.mem_map.mp hb
    exact ⟨a, ok.mem.rep.mem_nodeLive ha, by rw [hfd]; rfl⟩

/-- Lists and the ports that have one are in bijection. -/
theorem Mem.Rep.card_lists {G : Port → List ℕ} (rep : m.Rep G) :
    m.listAlloc.mz.live.card = m.listedPorts.card := by
  symm
  apply Finset.card_bij fun p _ => (m.sockBindTable (BitVec.ofNat 16 p)).getD 0
  · intro p hp
    obtain ⟨l, hl⟩ := Option.ne_none_iff_exists'.mp (Finset.mem_filter.mp hp).2
    rw [hl]
    exact (rep.listLive l).mpr ⟨_, hl⟩
  · intro p hp q hq heq
    obtain ⟨l, hl⟩ := Option.ne_none_iff_exists'.mp (Finset.mem_filter.mp hp).2
    obtain ⟨k, hk⟩ := Option.ne_none_iff_exists'.mp (Finset.mem_filter.mp hq).2
    rw [hl, hk] at heq
    obtain rfl : l = k := heq
    have hlt : p < 2 ^ 16 := Finset.mem_range.mp (Finset.mem_filter.mp hp).1
    have hlt' : q < 2 ^ 16 := Finset.mem_range.mp (Finset.mem_filter.mp hq).1
    have := congrArg BitVec.toNat (rep.listInj _ _ _ hl hk)
    simp only [BitVec.toNat_ofNat] at this
    omega
  · intro l hl
    obtain ⟨p, hp⟩ := (rep.listLive l).mp hl
    exact ⟨p.toNat, mem_listedPorts.mpr (by simp [hp]), by simp [hp]⟩

/-- **The count.** -/
theorem Shared.Ok.counted (ok : σ.Ok) : σ.Counted where
  bindInfo := ok.mem.rep.card_bindInfo.trans ok.card_nodes
  node := ok.card_nodes
  list := ok.mem.rep.card_lists
  iterator := ok.mem.rep.pools.iterators.live

end Count

/-! ## What is left over -/

section Serves

variable {σ : Shared} {m : Mem} {s : ℕ} {p : Port}

theorem serves_of_nFree_ne_zero {α : Type} {r : PoolRef α} (ok : (r.get m).mz.Ok)
    (h : (r.get m).mz.all.nFree ≠ 0) : r.Serves m := by
  intro m' hsame
  obtain ⟨a, mz, halloc, -⟩ := udpdkShmalloc_spec ok h
  refine ⟨a, r.set ((r.get m').setMz mz) m', ?_⟩
  rw [shmalloc, hsame, halloc]

/-- While a socket is unbound, bindings and nodes are left. -/
theorem Shared.Ok.serves_binding (ok : σ.Ok) (hs : s < numSocketsMax)
    (unbound : (σ.desc.slots s).bound = false) :
    bindInfoAlloc.Serves σ.mem ∧ udpdkListNodeTAlloc.Serves σ.mem := by
  have hlt : σ.desc.boundSlots.card < numSocketsMax := by
    have hmem : s ∉ σ.desc.boundSlots := fun h => by
      rw [(mem_boundSlots.mp h).2] at unbound
      cases unbound
    calc σ.desc.boundSlots.card < (Finset.range numSocketsMax).card := by
          have hsub : σ.desc.boundSlots ⊆ Finset.range numSocketsMax := Finset.filter_subset _ _
          apply Finset.card_lt_card
          rw [Finset.ssubset_iff_of_subset hsub]
          exact ⟨s, Finset.mem_range.mpr hs, hmem⟩
      _ = numSocketsMax := Finset.card_range _
  have pools := ok.mem.rep.pools
  have hbind := pools.bindInfo.nFree_add_card
  have hnode := pools.node.nFree_add_card
  rw [pools.bindInfoSize, ok.counted.bindInfo] at hbind
  rw [pools.nodeSize, ok.counted.node] at hnode
  constructor
  · apply serves_of_nFree_ne_zero pools.bindInfo
    rw [bindInfoAlloc_get]
    omega
  · apply serves_of_nFree_ne_zero pools.node
    rw [udpdkListNodeTAlloc_get]
    omega

/-- Sockets are fewer than ports, so some port has no list. -/
theorem Shared.Ok.exists_free_port (ok : σ.Ok) : ∃ p, σ.mem.sockBindTable p = none := by
  by_contra hall
  have hmaps : ∀ p ∈ Finset.range udpMaxPort, ∃ s ∈ σ.desc.boundSlots,
      (σ.desc.slots s).udpPort.toNat = p := by
    intro p hp
    have hp : p < 2 ^ 16 := Finset.mem_range.mp hp
    have hne : σ.mem.bindings (BitVec.ofNat 16 p) ≠ [] := fun h =>
      hall ⟨_, (ok.mem.null_iff _).mpr h⟩
    obtain ⟨b, hb⟩ := List.exists_mem_of_ne_nil _ hne
    obtain ⟨s, hs, hfd⟩ := ok.sockets.range _ b hb
    obtain ⟨hbound, hport, -⟩ := ok.sockets.bound_of_mem hb hfd
    refine ⟨s, mem_boundSlots.mpr ⟨hs, hbound⟩, ?_⟩
    rw [Shared.view_slot] at hport
    rw [hport, BitVec.toNat_ofNat]
    exact Nat.mod_eq_of_lt hp
  have hle : (Finset.range udpMaxPort).card ≤ numSocketsMax := by
    calc (Finset.range udpMaxPort).card
        ≤ (σ.desc.boundSlots.image fun s => (σ.desc.slots s).udpPort.toNat).card :=
          Finset.card_le_card fun p hp => Finset.mem_image.mpr (hmaps p hp)
      _ ≤ σ.desc.boundSlots.card := Finset.card_image_le
      _ ≤ (Finset.range numSocketsMax).card := Finset.card_filter_le _ _
      _ = numSocketsMax := Finset.card_range _
  rw [Finset.card_range] at hle
  exact absurd hle (by decide)

-- Checking a term that runs it must not unroll the scan of all ports.
attribute [local irreducible] btableGetFreePort

/-- `btable_get_free_port` finds a port. -/
theorem Shared.Ok.exists_btableGetFreePort (ok : σ.Ok) :
    ∃ p : Port, btableGetFreePort σ.mem = .ok (p.toNat, σ.mem) ∧ σ.mem.sockBindTable p = none ∧
      ∀ q : Port, q.toNat < p.toNat → σ.mem.sockBindTable q ≠ none := by
  have spec : Prog.wp (fun _ => False) btableGetFreePort _ σ.mem := btableGetFreePort_spec
  obtain ⟨r, m', hret, rfl, ⟨p, rfl, hp, hlow⟩ | ⟨-, hnone⟩⟩ := Prog.exists_ok_of_wp spec
  · exact ⟨p, hret, hp, hlow⟩
  · obtain ⟨p, hp⟩ := ok.exists_free_port
    exact absurd hp (hnone p)

end Serves

end Udpdk
