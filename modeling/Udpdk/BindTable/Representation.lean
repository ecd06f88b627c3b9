import Udpdk.BindTable.Table
import Udpdk.List.Representation

/-!
# The representation of the bind table

`Mem.Rep m G` says that the shared memory represents, for every port `p`, the node
sequence `G p`: every list is well formed, no node and no binding is shared, and each of
the four allocators has handed out exactly what the table uses. The lists of bindings
that a scan sees are read off the memory by `Mem.bindings`.

## Main definitions

* `Mem.Rep` — the representation invariant
* `Mem.nodesAt`, `Mem.bindings` — what a scan of a port's list visits
* `Mem.Ok` — represented, and no list is empty

## Main results

* `rep_btableInit` — the empty table
* `Mem.Rep.insert`, `Mem.Rep.remove`, `Mem.Rep.newList`, `Mem.Rep.dropList` — the updates
-/

namespace Udpdk

open Foundation

variable {m m' : Mem} {G : Port → List ℕ} {p q : Port} {l n a b : ℕ} {xs ys zs : List ℕ}

/-- The four allocators are in working order and have their configured sizes. -/
structure Mem.PoolsOk (m : Mem) : Prop where
  bindInfo : m.bindInfoAlloc.mz.Ok
  list : m.listAlloc.mz.Ok
  node : m.nodeAlloc.mz.Ok
  iterators : m.iteratorAlloc.Idle
  bindInfoSize : m.bindInfoAlloc.mz.all.size = numSocketsMax
  listSize : m.listAlloc.mz.all.size = udpMaxPort
  nodeSize : m.nodeAlloc.mz.all.size = numSocketsMax
  iteratorSize : m.iteratorAlloc.mz.all.size = listIteratorPoolSize

/-- The memory represents the node sequence `G p` of every port `p`. -/
structure Mem.Rep (m : Mem) (G : Port → List ℕ) : Prop where
  pools : m.PoolsOk
  null : ∀ p, m.sockBindTable p = none → G p = []
  list : ∀ p l, m.sockBindTable p = some l → m.ListAt l (G p)
  listLive : ∀ l, l ∈ m.listAlloc.mz.live ↔ ∃ p, m.sockBindTable p = some l
  listInj : ∀ p q l, m.sockBindTable p = some l → m.sockBindTable q = some l → p = q
  nodeLive : ∀ a, a ∈ m.nodeAlloc.mz.live ↔ ∃ p, a ∈ G p
  nodeInj : ∀ p q a, a ∈ G p → a ∈ G q → p = q
  vals : m.bindInfoAlloc.mz.live = m.nodeAlloc.mz.live.image m.val
  valInj : ∀ a ∈ m.nodeAlloc.mz.live, ∀ b ∈ m.nodeAlloc.mz.live, m.val a = m.val b → a = b

/-- The nodes that a scan of a port's list visits. -/
def Mem.nodesAt (m : Mem) (p : Port) : List ℕ :=
  match m.sockBindTable p with
  | none => []
  | some l => walk m.next scanFuel (m.listAlloc.cells l).head

/-- The binding of a node. -/
def Mem.info (m : Mem) (a : ℕ) : BindInfo := m.bindInfoAlloc.cells (m.val a)

/-- The bindings that a scan of a port's list visits. -/
def Mem.bindings (m : Mem) (p : Port) : List BindInfo := (m.nodesAt p).map m.info

/-! ## The empty table -/

private theorem ok_init_of_small {addr size elemSize : ℕ} (hsize : size ≤ udpMaxPort)
    (helem : 0 < elemSize ∧ elemSize ≤ 64) : (udpdkInitAllocator addr size elemSize).Ok := by
  obtain ⟨hpos, hle⟩ := helem
  have hone : u32 (elemSize + 64 - 1) / 64 = 1 := by
    unfold u32
    omega
  apply Memzone.ok_init
  · omega
  · rw [hone]
    unfold udpMaxPort at hsize
    omega

theorem rep_btableInit (zones : AllocatorZones) : (btableInit zones).Rep fun _ => [] where
  pools := {
    bindInfo := ok_init_of_small (by decide) (by decide)
    list := ok_init_of_small (by decide) (by decide)
    node := ok_init_of_small (by decide) (by decide)
    iterators := ⟨ok_init_of_small (by decide) (by decide), live_init _ _ _, Nat.succ_pos 9⟩
    bindInfoSize := rfl
    listSize := rfl
    nodeSize := rfl
    iteratorSize := rfl }
  null := fun _ _ => rfl
  list := fun p l h => by cases h
  listLive := fun l => by simp [btableInit]
  listInj := fun p q l h => by cases h
  nodeLive := fun a => by simp [btableInit]
  nodeInj := fun p q a h => by cases h
  vals := by simp [btableInit]
  valInj := fun a ha => by simp [btableInit] at ha

/-! ## Consequences -/

namespace Mem.Rep

variable (rep : m.Rep G)

include rep

/-- Bindings and nodes come in pairs. -/
theorem card_bindInfo : m.bindInfoAlloc.mz.live.card = m.nodeAlloc.mz.live.card := by
  rw [rep.vals, Finset.card_image_of_injOn]
  intro a ha b hb
  exact rep.valInj a ha b hb

theorem nodup (p : Port) : (G p).Nodup := by
  cases h : m.sockBindTable p with
  | none => rw [rep.null p h]; exact List.nodup_nil
  | some l => exact (rep.list p l h).nodup

theorem mem_nodeLive (ha : a ∈ G p) : a ∈ m.nodeAlloc.mz.live := (rep.nodeLive a).mpr ⟨p, ha⟩

theorem val_mem_live (ha : a ∈ G p) : m.val a ∈ m.bindInfoAlloc.mz.live := by
  rw [rep.vals]
  exact Finset.mem_image_of_mem m.val (rep.mem_nodeLive ha)

theorem card_node_le : m.nodeAlloc.mz.live.card ≤ numSocketsMax := by
  have := rep.pools.node.nFree_add_card
  rw [rep.pools.nodeSize] at this
  omega

theorem length_le (p : Port) : (G p).length ≤ numSocketsMax := by
  calc (G p).length = (G p).toFinset.card := (List.toFinset_card_of_nodup (rep.nodup p)).symm
    _ ≤ m.nodeAlloc.mz.live.card := by
      apply Finset.card_le_card
      intro a ha
      exact rep.mem_nodeLive (List.mem_toFinset.mp ha)
    _ ≤ numSocketsMax := rep.card_node_le

theorem length_lt_scanFuel (p : Port) : (G p).length + 1 < scanFuel :=
  (Nat.succ_le_succ (rep.length_le p)).trans_lt (by decide)

theorem nodesAt_eq : m.nodesAt = G := by
  funext p
  unfold nodesAt
  split
  · rename_i h
    exact (rep.null p h).symm
  · rename_i l h
    have hlist := rep.list p l h
    rw [hlist.head]
    apply hlist.linked.walk_eq
    have := rep.length_lt_scanFuel p
    omega

theorem bindings_eq (p : Port) : m.bindings p = (G p).map m.info := by
  rw [bindings, rep.nodesAt_eq]

/-- The list pool cannot run out while a port has no list. -/
theorem list_nFree_ne_zero (hp : m.sockBindTable p = none) : m.listAlloc.mz.all.nFree ≠ 0 := by
  have hsub : m.listAlloc.mz.live ⊆ ((Finset.range udpMaxPort).erase p.toNat).image
      fun i => (m.sockBindTable (BitVec.ofNat 16 i)).getD 0 := by
    intro l hl
    obtain ⟨q, hq⟩ := (rep.listLive l).mp hl
    refine Finset.mem_image.mpr ⟨q.toNat, Finset.mem_erase.mpr ⟨?_, ?_⟩, by simp [hq]⟩
    · intro hqp
      rw [BitVec.eq_of_toNat_eq hqp, hp] at hq
      cases hq
    · exact Finset.mem_range.mpr q.isLt
  have hcard : m.listAlloc.mz.live.card ≤ udpMaxPort - 1 := by
    calc m.listAlloc.mz.live.card ≤ _ := Finset.card_le_card hsub
      _ ≤ ((Finset.range udpMaxPort).erase p.toNat).card := Finset.card_image_le
      _ = udpMaxPort - 1 := by
        have hp : p.toNat ∈ Finset.range udpMaxPort := Finset.mem_range.mpr p.isLt
        rw [Finset.card_erase_of_mem hp, Finset.card_range]
  have hcount := rep.pools.list.nFree_add_card
  rw [rep.pools.listSize] at hcount
  have hpos : 0 < udpMaxPort := by decide
  omega

end Mem.Rep

/-! ## Updates -/

/-- A pool after an element was handed out or taken back. -/
structure Pool.Becomes {α : Type} (P P' : Pool α) (live : Finset ℕ) : Prop where
  ok : P'.mz.Ok
  size : P'.mz.all.size = P.mz.all.size
  live : P'.mz.live = live

theorem Pool.Becomes.congr {α : Type} {P P' Q : Pool α} {live : Finset ℕ}
    (h : P.Becomes P' live) (hmz : Q.mz = P'.mz) : P.Becomes Q live := by
  obtain ⟨ok, size, hlive⟩ := h
  exact ⟨hmz ▸ ok, hmz ▸ size, hmz ▸ hlive⟩

theorem Mem.PoolsOk.of_becomes {B N : Finset ℕ} (h : m.PoolsOk)
    (hbind : m.bindInfoAlloc.Becomes m'.bindInfoAlloc B) (hlist : m'.listAlloc.mz = m.listAlloc.mz)
    (hnode : m.nodeAlloc.Becomes m'.nodeAlloc N) (hit : m'.iteratorAlloc = m.iteratorAlloc) :
    m'.PoolsOk where
  bindInfo := hbind.ok
  list := hlist ▸ h.list
  node := hnode.ok
  iterators := hit ▸ h.iterators
  bindInfoSize := hbind.size.trans h.bindInfoSize
  listSize := hlist ▸ h.listSize
  nodeSize := hnode.size.trans h.nodeSize
  iteratorSize := hit ▸ h.iteratorSize

theorem Mem.PoolsOk.withList {L : Pool UdpdkList} {live : Finset ℕ} (h : m.PoolsOk)
    (hlist : m.listAlloc.Becomes L live) (table : Port → Option ℕ) :
    { m with listAlloc := L, sockBindTable := table }.PoolsOk where
  bindInfo := h.bindInfo
  list := hlist.ok
  node := h.node
  iterators := h.iterators
  bindInfoSize := h.bindInfoSize
  listSize := hlist.size.trans h.listSize
  nodeSize := h.nodeSize
  iteratorSize := h.iteratorSize

namespace Mem.Rep

private theorem null_of_edited (rep : m.Rep G) (hp : m.sockBindTable p = some l) (q : Port)
    (hq : m.sockBindTable q = none) : Function.update G p zs q = [] := by
  have hqp : q ≠ p := by
    rintro rfl
    rw [hp] at hq
    cases hq
  rw [Function.update_of_ne hqp]
  exact rep.null q hq

private theorem list_of_edited (rep : m.Rep G) (hp : m.sockBindTable p = some l)
    (hlist : m'.ListAt l zs) (hheader : ∀ k ≠ l, m'.listAlloc.cells k = m.listAlloc.cells k)
    (hlinks : ∀ a ∉ G p, a ∈ m.nodeAlloc.mz.live → m'.prev a = m.prev a ∧ m'.next a = m.next a)
    (q : Port) (k : ℕ) (hq : m.sockBindTable q = some k) :
    m'.ListAt k (Function.update G p zs q) := by
  by_cases hqp : q = p
  · subst hqp
    obtain rfl := Option.some_inj.mp (hp.symm.trans hq)
    simpa using hlist
  · rw [Function.update_of_ne hqp]
    refine (rep.list q k hq).congr (hheader k ?_) fun a ha => hlinks a ?_ (rep.mem_nodeLive ha)
    · rintro rfl
      exact hqp (rep.listInj q p _ hq hp)
    · exact fun hap => hqp (rep.nodeInj q p a ha hap)

/-- **Insertion.** A fresh node `n` with a fresh binding `b` was linked into the list of
`p`, and nothing else has changed. -/
theorem insert (rep : m.Rep G) (hp : m.sockBindTable p = some l)
    (hn : n ∉ m.nodeAlloc.mz.live) (hb : b ∉ m.bindInfoAlloc.mz.live)
    (hzs : ∀ a, a ∈ zs ↔ a = n ∨ a ∈ G p)
    (hbind : m.bindInfoAlloc.Becomes m'.bindInfoAlloc (insert b m.bindInfoAlloc.mz.live))
    (hnode : m.nodeAlloc.Becomes m'.nodeAlloc (insert n m.nodeAlloc.mz.live))
    (hlistMz : m'.listAlloc.mz = m.listAlloc.mz) (hit : m'.iteratorAlloc = m.iteratorAlloc)
    (htable : m'.sockBindTable = m.sockBindTable) (hlist : m'.ListAt l zs)
    (hheader : ∀ k ≠ l, m'.listAlloc.cells k = m.listAlloc.cells k)
    (hlinks : ∀ a ∉ G p, a ∈ m.nodeAlloc.mz.live → m'.prev a = m.prev a ∧ m'.next a = m.next a)
    (hval : m'.val n = b ∧ ∀ a ≠ n, m'.val a = m.val a) :
    m'.Rep (Function.update G p zs) := by
  have hmem : ∀ q a, a ∈ Function.update G p zs q ↔ (q = p ∧ a = n) ∨ a ∈ G q := by
    intro q a
    by_cases hqp : q = p
    · subst hqp
      simp [hzs]
    · simp [hqp]
  have hold : ∀ a ∈ m.nodeAlloc.mz.live, m'.val a = m.val a := fun a ha =>
    hval.2 a fun han => hn (han ▸ ha)
  have hfresh : ∀ a ∈ m.nodeAlloc.mz.live, m.val a ≠ b := fun a ha hab =>
    hb (rep.vals ▸ hab ▸ Finset.mem_image_of_mem m.val ha)
  exact {
    pools := rep.pools.of_becomes hbind hlistMz hnode hit
    null := by
      rw [htable]
      exact rep.null_of_edited hp
    list := by
      rw [htable]
      exact rep.list_of_edited hp hlist hheader hlinks
    listLive := by rw [htable, hlistMz]; exact rep.listLive
    listInj := by rw [htable]; exact rep.listInj
    nodeLive := by
      intro a
      rw [hnode.live, Finset.mem_insert, rep.nodeLive]
      constructor
      · rintro (rfl | ⟨q, hq⟩)
        · exact ⟨p, (hmem p a).mpr (.inl ⟨rfl, rfl⟩)⟩
        · exact ⟨q, (hmem q a).mpr (.inr hq)⟩
      · rintro ⟨q, hq⟩
        exact ((hmem q a).mp hq).imp And.right fun h => ⟨q, h⟩
    nodeInj := by
      intro q r a hq hr
      rcases (hmem q a).mp hq with ⟨hqp, han⟩ | hq' <;>
        rcases (hmem r a).mp hr with ⟨hrp, han'⟩ | hr'
      · rw [hqp, hrp]
      · exact absurd (han ▸ rep.mem_nodeLive hr') hn
      · exact absurd (han' ▸ rep.mem_nodeLive hq') hn
      · exact rep.nodeInj q r a hq' hr'
    vals := by
      rw [hbind.live, hnode.live, Finset.image_insert, hval.1, rep.vals]
      exact congrArg _ (Finset.image_congr fun a ha => (hold a ha).symm)
    valInj := by
      intro a ha c hc h
      rw [hnode.live, Finset.mem_insert] at ha hc
      rcases ha with rfl | ha <;> rcases hc with rfl | hc
      · rfl
      · rw [hval.1, hold c hc] at h
        exact absurd h.symm (hfresh c hc)
      · rw [hval.1, hold a ha] at h
        exact absurd h (hfresh a ha)
      · rw [hold a ha, hold c hc] at h
        exact rep.valInj a ha c hc h }

/-- **Removal.** The node `n` and its binding were taken out of the list of `p`. -/
theorem remove (rep : m.Rep G) (hp : m.sockBindTable p = some l) (hn : n ∈ G p)
    (hzs : ∀ a, a ∈ zs ↔ a ≠ n ∧ a ∈ G p)
    (hbind : m.bindInfoAlloc.Becomes m'.bindInfoAlloc (m.bindInfoAlloc.mz.live.erase (m.val n)))
    (hnode : m.nodeAlloc.Becomes m'.nodeAlloc (m.nodeAlloc.mz.live.erase n))
    (hlistMz : m'.listAlloc.mz = m.listAlloc.mz) (hit : m'.iteratorAlloc = m.iteratorAlloc)
    (htable : m'.sockBindTable = m.sockBindTable) (hlist : m'.ListAt l zs)
    (hheader : ∀ k ≠ l, m'.listAlloc.cells k = m.listAlloc.cells k)
    (hlinks : ∀ a ∉ G p, a ∈ m.nodeAlloc.mz.live → m'.prev a = m.prev a ∧ m'.next a = m.next a)
    (hval : m'.val = m.val) :
    m'.Rep (Function.update G p zs) := by
  have hmem : ∀ q a, a ∈ Function.update G p zs q ↔ a ≠ n ∧ a ∈ G q := by
    intro q a
    by_cases hqp : q = p
    · subst hqp
      simp [hzs]
    · rw [Function.update_of_ne hqp, iff_and_self]
      rintro ha rfl
      exact hqp (rep.nodeInj q p a ha hn)
  exact {
    pools := rep.pools.of_becomes hbind hlistMz hnode hit
    null := by
      rw [htable]
      exact rep.null_of_edited hp
    list := by
      rw [htable]
      exact rep.list_of_edited hp hlist hheader hlinks
    listLive := by rw [htable, hlistMz]; exact rep.listLive
    listInj := by rw [htable]; exact rep.listInj
    nodeLive := by
      intro a
      simp only [hnode.live, Finset.mem_erase, rep.nodeLive, hmem, exists_and_left]
    nodeInj := fun q r a hq hr =>
      rep.nodeInj q r a ((hmem q a).mp hq).2 ((hmem r a).mp hr).2
    -- two nodes have different bindings: only that of `n` is gone
    vals := by
      rw [hbind.live, hnode.live, hval, rep.vals]
      ext c
      simp only [Finset.mem_erase, Finset.mem_image]
      constructor
      · rintro ⟨hc, a, ha, rfl⟩
        exact ⟨a, ⟨fun han => hc (han ▸ rfl), ha⟩, rfl⟩
      · rintro ⟨a, ⟨han, ha⟩, rfl⟩
        exact ⟨fun h => han (rep.valInj a ha n (rep.mem_nodeLive hn) h), a, ha, rfl⟩
    valInj := by
      intro a ha c hc h
      rw [hnode.live, Finset.mem_erase] at ha hc
      rw [hval] at h
      exact rep.valInj a ha.2 c hc.2 h }

/-- **A new list.** An empty list was allocated for a port without one. -/
theorem newList (rep : m.Rep G) (hp : m.sockBindTable p = none) {L : Pool UdpdkList}
    (hl : l ∉ m.listAlloc.mz.live)
    (hlist : m.listAlloc.Becomes L (Insert.insert l m.listAlloc.mz.live))
    (hnew : L.cells l = { head := none, tail := none, len := 0 })
    (hold : ∀ k ≠ l, L.cells k = m.listAlloc.cells k) :
    { m with
      listAlloc := L
      sockBindTable := Function.update m.sockBindTable p (some l) }.Rep G := by
  have hne : ∀ q k, m.sockBindTable q = some k → k ≠ l := by
    rintro q k hq rfl
    exact hl ((rep.listLive k).mpr ⟨q, hq⟩)
  have htable : ∀ q k, Function.update m.sockBindTable p (some l) q = some k ↔
      (q = p ∧ k = l) ∨ m.sockBindTable q = some k := by
    intro q k
    by_cases hqp : q = p
    · simp [hqp, hp, eq_comm]
    · simp [hqp]
  exact {
    pools := rep.pools.withList hlist _
    null := by
      intro q hq
      by_cases hqp : q = p
      · exact hqp ▸ rep.null p hp
      · exact rep.null q (by simpa [hqp] using hq)
    list := by
      intro q k hq
      rcases (htable q k).mp hq with ⟨rfl, rfl⟩ | hq
      · rw [rep.null q hp]
        exact ⟨congrArg UdpdkList.head hnew, congrArg UdpdkList.tail hnew,
          congrArg UdpdkList.len hnew, linked_nil, List.nodup_nil⟩
      · exact (rep.list q k hq).congr (hold k (hne q k hq)) fun a _ => ⟨rfl, rfl⟩
    listLive := by
      intro k
      simp only [hlist.live, Finset.mem_insert, rep.listLive, htable, exists_or,
        exists_eq_left]
    listInj := by
      intro q r k hq hr
      rcases (htable q k).mp hq with ⟨hqp, hk⟩ | hq' <;>
        rcases (htable r k).mp hr with ⟨hrp, hk'⟩ | hr'
      · rw [hqp, hrp]
      · exact absurd hk (hne r k hr')
      · exact absurd hk' (hne q k hq')
      · exact rep.listInj q r k hq' hr'
    nodeLive := rep.nodeLive
    nodeInj := rep.nodeInj
    vals := rep.vals
    valInj := rep.valInj }

/-- **A list dropped.** The list of a port without bindings was freed. -/
theorem dropList (rep : m.Rep G) (hp : m.sockBindTable p = some l) (hempty : G p = [])
    {L : Pool UdpdkList} (hlist : m.listAlloc.Becomes L (m.listAlloc.mz.live.erase l))
    (hold : L.cells = m.listAlloc.cells) :
    { m with
      listAlloc := L
      sockBindTable := Function.update m.sockBindTable p none }.Rep G := by
  have htable : ∀ q k, Function.update m.sockBindTable p none q = some k ↔
      q ≠ p ∧ m.sockBindTable q = some k := by
    intro q k
    by_cases hqp : q = p
    · simp [hqp]
    · simp [hqp]
  exact {
    pools := rep.pools.withList hlist _
    null := by
      intro q hq
      by_cases hqp : q = p
      · exact hqp ▸ hempty
      · exact rep.null q (by simpa [hqp] using hq)
    list := by
      intro q k hq
      exact (rep.list q k ((htable q k).mp hq).2).congr (congrFun hold k) fun a _ => ⟨rfl, rfl⟩
    listLive := by
      intro k
      simp only [hlist.live, Finset.mem_erase, rep.listLive, htable]
      constructor
      · rintro ⟨hkl, q, hq⟩
        refine ⟨q, fun hqp => hkl ?_, hq⟩
        rw [hqp, hp] at hq
        exact (Option.some_inj.mp hq).symm
      · rintro ⟨q, hqp, hq⟩
        refine ⟨fun hkl => hqp ?_, q, hq⟩
        exact rep.listInj q p k hq (hkl ▸ hp)
    listInj := fun q r k hq hr =>
      rep.listInj q r k ((htable q k).mp hq).2 ((htable r k).mp hr).2
    nodeLive := rep.nodeLive
    nodeInj := rep.nodeInj
    vals := rep.vals
    valInj := rep.valInj }

/-- The iterators are no part of what is represented. -/
theorem withIterators (rep : m.Rep G) {Q : Pool ListIterator} (idle : Q.Idle)
    (hsize : Q.mz.all.size = m.iteratorAlloc.mz.all.size) :
    { m with iteratorAlloc := Q }.Rep G where
  pools := {
    bindInfo := rep.pools.bindInfo
    list := rep.pools.list
    node := rep.pools.node
    iterators := idle
    bindInfoSize := rep.pools.bindInfoSize
    listSize := rep.pools.listSize
    nodeSize := rep.pools.nodeSize
    iteratorSize := hsize.trans rep.pools.iteratorSize }
  null := rep.null
  list := fun p l hp => (rep.list p l hp).congr rfl fun _ _ => ⟨rfl, rfl⟩
  listLive := rep.listLive
  listInj := rep.listInj
  nodeLive := rep.nodeLive
  nodeInj := rep.nodeInj
  vals := rep.vals
  valInj := rep.valInj

end Mem.Rep

/-- The memory represents some table, and no port holds an empty list. -/
structure Mem.Ok (m : Mem) : Prop where
  rep : m.Rep m.nodesAt
  tidy : ∀ p l, m.sockBindTable p = some l → m.nodesAt p ≠ []

theorem Mem.Rep.ok (rep : m.Rep G) (tidy : ∀ p l, m.sockBindTable p = some l → G p ≠ []) :
    m.Ok where
  rep := by rw [rep.nodesAt_eq]; exact rep
  tidy := by rw [rep.nodesAt_eq]; exact tidy

theorem Mem.Ok.null_iff (ok : m.Ok) (p : Port) : m.sockBindTable p = none ↔ m.bindings p = [] := by
  rw [bindings, List.map_eq_nil_iff]
  constructor
  · exact ok.rep.null p
  · intro hnil
    cases h : m.sockBindTable p with
    | none => rfl
    | some l => exact absurd hnil (ok.tidy p l h)

theorem ok_btableInit (zones : AllocatorZones) : (btableInit zones).Ok :=
  (rep_btableInit zones).ok fun _ _ h => by cases h

theorem bindings_btableInit (zones : AllocatorZones) : (btableInit zones).bindings = fun _ => [] :=
  rfl

end Udpdk
