import Udpdk.BindTable.Representation

/-!
# The bind table operations on lists of bindings

Each operation of the bind table, run on a memory that represents a table, leaves a
memory that represents the updated table. The only run that does not return is an
insertion while all bindings are in use: it follows the null pointer that the allocator
returned.

## Main results

* `btableCanBind_spec` — the scan decides `canBind`
* `btableGetFreePort_spec` — the lowest port without bindings
* `btableAddBinding_spec`, `btableDelBinding_spec` — the updates of one port
-/

namespace Udpdk

open Foundation

variable {allowed : Fault → Prop} {m m' : Mem} {G : Port → List ℕ} {p q : Port} {s : ℤ}
  {ip : InAddr} {opts : BitVec 32}

/-- `m'` is `m` with other iterators, all of them free. -/
def Mem.UpToIterators (m m' : Mem) : Prop :=
  ∃ Q : Pool ListIterator, m' = { m with iteratorAlloc := Q } ∧ Q.Idle ∧
    Q.mz.all.size = m.iteratorAlloc.mz.all.size

theorem Mem.UpToIterators.ok (h : m.UpToIterators m') (ok : m.Ok) :
    m'.Ok ∧ m'.bindings = m.bindings := by
  obtain ⟨Q, rfl, idle, hsize⟩ := h
  exact ⟨⟨ok.rep.withIterators idle hsize, ok.tidy⟩, rfl⟩

/-! ## Acceptance -/

/-- One round of `btable_can_bind` asks whether the node's binding admits the new one. -/
theorem wp_btableCanBindStep {node : ℕ} {can : Bool} {post : ForInStep Bool → Mem → Prop} :
    Prog.wp allowed (btableCanBindStep ip opts node can) post m ↔
      post (if (m.info node).admits ip opts then .yield can else .done false) m := by
  simp only [btableCanBindStep, Prog.wp_bind, wp_load_some, udpdkListNodeTAlloc_get,
    bindInfoAlloc_get]
  have hinfo : m.bindInfoAlloc.cells (m.nodeAlloc.cells node).val = m.info node := rfl
  rw [hinfo]
  simp only [BindInfo.admits, decide_eq_true_eq]
  split_ifs <;> first | exact Iff.rfl | grind

/-- `btable_can_bind` decides `canBind` on any well-formed list, however long. -/
theorem btableCanBind_of_list {xs : List ℕ} (idle : m.iteratorAlloc.Idle)
    (hnull : m.sockBindTable p = none → xs = [])
    (hlist : ∀ l, m.sockBindTable p = some l → m.ListAt l xs) (hlen : xs.length < scanFuel) :
    Prog.wp allowed (btableCanBind ip p opts) (fun r m' =>
      r = canBind (xs.map m.info) ip opts ∧ m.UpToIterators m') m := by
  simp only [btableCanBind, Prog.wp_bind, Prog.wp_read]
  cases hp : m.sockBindTable p with
  | none =>
    simp only [if_true, Prog.wp_pure, hnull hp]
    exact ⟨rfl, m.iteratorAlloc, rfl, idle, rfl⟩
  | some l =>
    have hlist := hlist l hp
    simp only [reduceCtorEq, if_false, Prog.wp_bind]
    apply Prog.wp_mono (listIteratorNew_spec idle hlist.head)
    rintro o m₁ ⟨it, P, rfl, rfl, hok, hit, hrest, hsame⟩
    have hsize : 0 < P.mz.all.size := by rw [hsame.size]; exact idle.size
    -- while the scan goes on, the bindings still to come decide
    have scan : Prog.wp allowed (Prog.whileSome .noReturn (listIteratorNext (some it))
        (btableCanBindStep ip opts) scanFuel true) (fun r m₂ =>
          r = canBind (xs.map m.info) ip opts ∧ ∃ pending, m₂ = m.iterating P it pending)
        (m.iterating P it xs) := by
      apply wp_scan hlist.linked hlen fun pending can =>
        can = true ∧ canBind (xs.map m.info) ip opts = canBind (pending.map m.info) ip opts
      · exact ⟨rfl, rfl⟩
      · rintro b ⟨rfl, hall⟩
        exact ⟨hall.symm, [], rfl⟩
      · rintro front a rest b hxs ⟨rfl, hall⟩
        rw [wp_btableCanBindStep]
        have hinfo : (m.iterating P it rest).info a = m.info a := rfl
        rw [hinfo]
        cases hadm : (m.info a).admits ip opts with
        | true => exact ⟨rfl, rfl, by simpa [canBind, hadm] using hall⟩
        | false => exact ⟨by simpa [canBind, hadm] using hall.symm, rest, rfl⟩
    apply Prog.wp_mono scan
    rintro r m₂ ⟨rfl, pending, rfl⟩
    apply Prog.wp_mono (listIteratorDestroy_spec hok hsize hit hrest)
    rintro _ m₃ ⟨Q, rfl, hidle, hsame'⟩
    exact ⟨rfl, Q, rfl, hidle, hsame'.size.trans hsame.size⟩

/-- **Acceptance.** On a represented table `btable_can_bind` decides `canBind`. -/
theorem btableCanBind_spec (rep : m.Rep G) :
    Prog.wp allowed (btableCanBind ip p opts) (fun r m' =>
      r = canBind ((G p).map m.info) ip opts ∧ m.UpToIterators m') m := by
  have hlen : (G p).length < scanFuel := (Nat.lt_succ_self _).trans (rep.length_lt_scanFuel p)
  exact btableCanBind_of_list rep.pools.iterators (rep.null p) (rep.list p) hlen

/-- `btable_get_free_port` finds the lowest port without a list. -/
theorem btableGetFreePort_spec :
    Prog.wp allowed btableGetFreePort (fun r m' => m' = m ∧
      ((∃ p : Port, r = p.toNat ∧ m.sockBindTable p = none ∧
          ∀ q : Port, q.toNat < p.toNat → m.sockBindTable q ≠ none) ∨
        r = -1 ∧ ∀ q, m.sockBindTable q ≠ none)) m := by
  simp only [btableGetFreePort, Prog.wp_bind, Prog.wp_read]
  cases hfind : (List.range udpMaxPort).find? fun i =>
      m.sockBindTable (BitVec.ofNat 16 i) = none with
  | none =>
    refine ⟨rfl, .inr ⟨rfl, fun q hq => ?_⟩⟩
    have := List.find?_eq_none.mp hfind q.toNat (List.mem_range.mpr q.isLt)
    simp [hq] at this
  | some i =>
    obtain ⟨hnull, hi, hbefore⟩ := List.find?_range_eq_some.mp hfind
    have hi : i < 2 ^ 16 := List.mem_range.mp hi
    have htoNat : (BitVec.ofNat 16 i).toNat = i := Nat.mod_eq_of_lt hi
    refine ⟨rfl, .inl ⟨BitVec.ofNat 16 i, by rw [htoNat], by simpa using hnull, ?_⟩⟩
    intro q hq
    rw [htoNat] at hq
    simpa using hbefore q.toNat hq

/-! ## Insertion -/

/-- Pushing a fresh node with a fresh binding at the end that the binding's address
asks for. -/
private theorem push_spec {l n b : ℕ} (rep : m.Rep G) (hp : m.sockBindTable p = some l)
    (hn : n ∉ m.nodeAlloc.mz.live) (hb : b ∉ m.bindInfoAlloc.mz.live)
    {B : Pool BindInfo} (hB : m.bindInfoAlloc.Becomes B (insert b m.bindInfoAlloc.mz.live))
    (hnew : B.cells b = newBinding s ip opts)
    (hold : ∀ c ≠ b, B.cells c = m.bindInfoAlloc.cells c)
    {N : Pool ListNode} (hN : m.nodeAlloc.Becomes N (insert n m.nodeAlloc.mz.live))
    (hnode : (N.cells n).val = b) (hnodes : ∀ a ≠ n, N.cells a = m.nodeAlloc.cells a) :
    Prog.wp allowed (if ip = inaddrAny then do
        let _ ← listLpush (some l) (some n)
      else do
        let _ ← listRpush (some l) (some n)) (fun _ m' => ∃ zs,
      m'.Rep (Function.update G p zs) ∧ zs ≠ [] ∧ m'.sockBindTable = m.sockBindTable ∧
        zs.map m'.info = insertBinding (newBinding s ip opts) ((G p).map m.info) ∧
        ∀ q ≠ p, (G q).map m'.info = (G q).map m.info)
      { m with bindInfoAlloc := B, nodeAlloc := N } := by
  generalize hm₁ : { m with bindInfoAlloc := B, nodeAlloc := N } = m₁
  have hfresh : ∀ q, n ∉ G q := fun q hq => hn (rep.mem_nodeLive hq)
  have hlinks : ∀ a ≠ n, m₁.prev a = m.prev a ∧ m₁.next a = m.next a := by
    intro a ha
    subst hm₁
    simp [Mem.prev, Mem.next, hnodes a ha]
  have hvals : m₁.val n = b ∧ ∀ a ≠ n, m₁.val a = m.val a := by
    subst hm₁
    exact ⟨hnode, fun a ha => congrArg ListNode.val (hnodes a ha)⟩
  have hlist : m₁.ListAt l (G p) := by
    apply (rep.list p l hp).congr
    · subst hm₁
      rfl
    · exact fun a ha => hlinks a fun han => hfresh p (han ▸ ha)
  have hlen : (G p).length + 1 < 2 ^ 32 := rep.length_lt_scanFuel p
  have done : ∀ (m' : Mem) (zs : List ℕ), m'.ListAt l zs → Mem.Touches l (n :: G p) m₁ m' →
      m'.nodeAlloc.mz = m₁.nodeAlloc.mz → (∀ a, a ∈ zs ↔ a = n ∨ a ∈ G p) →
      m'.Rep (Function.update G p zs) ∧ m'.sockBindTable = m.sockBindTable ∧
        m'.info n = newBinding s ip opts ∧ ∀ q, (G q).map m'.info = (G q).map m.info := by
    intro m' zs hzs ht hmz hmem
    have hval' : m'.val n = b ∧ ∀ a ≠ n, m'.val a = m.val a := by
      rw [ht.val]
      exact hvals
    have hbind : m'.bindInfoAlloc = B := by rw [ht.bindInfoAlloc, ← hm₁]
    refine ⟨?_, ?_, ?_, fun q => ?_⟩
    · refine rep.insert hp hn hb hmem (hbind ▸ hB) (hN.congr ?_) ?_ ?_ ?_ hzs ?_ ?_ hval'
      · rw [hmz, ← hm₁]
      · rw [ht.listMz, ← hm₁]
      · rw [ht.iteratorAlloc, ← hm₁]
      · rw [ht.sockBindTable, ← hm₁]
      · intro k hk
        rw [ht.header k hk, ← hm₁]
      · intro a hap ha
        have han : a ≠ n := fun han => hn (han ▸ ha)
        obtain ⟨hprev, hnext⟩ := ht.links a (by simp [han, hap])
        exact ⟨hprev.trans (hlinks a han).1, hnext.trans (hlinks a han).2⟩
    · rw [ht.sockBindTable, ← hm₁]
    · rw [Mem.info, hval'.1, hbind, hnew]
    · apply List.map_congr_left
      intro a ha
      have han : a ≠ n := fun han => hfresh q (han ▸ ha)
      have hval : m.val a ≠ b := fun h => hb (h ▸ rep.val_mem_live ha)
      rw [Mem.info, Mem.info, hval'.2 a han, hbind, hold _ hval]
  by_cases hip : ip = inaddrAny
  · rw [if_pos hip, Prog.wp_bind]
    apply Prog.wp_mono (listLpush_spec hlist (hfresh p) hlen)
    rintro _ m' ⟨hzs, ht, hmz⟩
    obtain ⟨hrep, htable, hinfo, hrest⟩ := done m' _ hzs ht hmz fun a => List.mem_cons
    refine ⟨_, hrep, by simp, htable, ?_, fun q _ => hrest q⟩
    rw [List.map_cons, hinfo, hrest]
    exact (if_pos hip).symm
  · rw [if_neg hip, Prog.wp_bind]
    apply Prog.wp_mono (listRpush_spec hlist (hfresh p) hlen)
    rintro _ m' ⟨hzs, ht, hmz⟩
    obtain ⟨hrep, htable, hinfo, hrest⟩ := done m' _ hzs ht hmz fun a => by simp [or_comm]
    refine ⟨_, hrep, by simp, htable, ?_, fun q _ => hrest q⟩
    rw [List.map_append, List.map_singleton, hinfo, hrest]
    exact (if_neg hip).symm

/-- Storing an accepted binding in the list of its port. -/
theorem btableInsertBinding_spec {l : ℕ} (rep : m.Rep G) (hp : m.sockBindTable p = some l)
    (hfull : m.bindInfoAlloc.mz.all.nFree = 0 → allowed .nullDeref) :
    Prog.wp allowed (btableInsertBinding s ip p opts) (fun _ m' => ∃ zs,
      m'.Rep (Function.update G p zs) ∧ zs ≠ [] ∧ m'.sockBindTable = m.sockBindTable ∧
        zs.map m'.info = insertBinding (newBinding s ip opts) ((G p).map m.info) ∧
        ∀ q ≠ p, (G q).map m'.info = (G q).map m.info) m := by
  by_cases hnone : m.bindInfoAlloc.mz.all.nFree = 0
  · simp only [btableInsertBinding, Prog.wp_bind, wp_shmalloc, bindInfoAlloc_get,
      udpdkShmalloc_full hnone]
    exact hfull hnone
  have hnodeFree : m.nodeAlloc.mz.all.nFree ≠ 0 := by
    have h1 := rep.pools.bindInfo.nFree_add_card
    have h2 := rep.pools.node.nFree_add_card
    rw [rep.pools.bindInfoSize, rep.card_bindInfo] at h1
    rw [rep.pools.nodeSize] at h2
    omega
  obtain ⟨b, bmz, hballoc, hbok, hbsame, hb, hblive⟩ :=
    udpdkShmalloc_spec rep.pools.bindInfo hnone
  obtain ⟨n, nmz, hnalloc, hnok, hnsame, hn, hnlive⟩ :=
    udpdkShmalloc_spec rep.pools.node hnodeFree
  simp only [btableInsertBinding, listNodeNew, Prog.wp_bind, wp_shmalloc, bindInfoAlloc_get,
    hballoc, wp_store_some, bindInfoAlloc_set, udpdkListNodeTAlloc_get, udpdkListNodeTAlloc_set,
    hnalloc, Prog.wp_read, hp, Prog.wp_pure]
  apply push_spec rep hp hn hb
  · exact ⟨hbok, hbsame.size, hblive⟩
  · simp [newBinding]
  · exact fun c hc => by simp [Pool.modify_cells, hc]
  · exact ⟨hnok, hnsame.size, hnlive⟩
  · simp
  · exact fun a ha => by simp [Pool.modify_cells, ha]

/-- `list_new` serves a port that has no list. -/
private theorem listNew_spec (rep : m.Rep G) (hp : m.sockBindTable p = none) :
    Prog.wp allowed listNew (fun o m' => ∃ l, o = some l ∧
      { m' with sockBindTable := Function.update m'.sockBindTable p (some l) }.Rep G ∧
      m'.sockBindTable = m.sockBindTable ∧ m'.info = m.info ∧
      m'.bindInfoAlloc = m.bindInfoAlloc) m := by
  obtain ⟨l, mz, halloc, hok, hsame, hl, hlive⟩ :=
    udpdkShmalloc_spec rep.pools.list (rep.list_nFree_ne_zero hp)
  simp only [listNew, Prog.wp_bind, wp_shmalloc, udpdkListTAlloc_get, halloc, wp_store_some,
    udpdkListTAlloc_set, Prog.wp_pure]
  refine ⟨l, rfl, ?_, trivial, rfl, trivial⟩
  apply rep.newList hp hl
  · exact ⟨hok, hsame.size, hlive⟩
  · simp
  · exact fun k hk => by simp [Pool.modify_cells, hk]

/-- The insertion itself, once the port has a list: `m₂` is `m` after that was seen to. -/
private theorem insert_accepted_spec {m₂ : Mem} {l : ℕ} (ok : m.Ok) (rep₂ : m₂.Rep m.nodesAt)
    (hp : m₂.sockBindTable p = some l)
    (htable : ∀ q ≠ p, m₂.sockBindTable q = m.sockBindTable q) (hinfo : m₂.info = m.info)
    (hfull : m₂.bindInfoAlloc.mz.all.nFree = 0 → allowed .nullDeref) :
    Prog.wp allowed (btableInsertBinding s ip p opts) (fun _ m' => m'.Ok ∧
      m'.bindings = Function.update m.bindings p
        (insertBinding (newBinding s ip opts) (m.bindings p))) m₂ := by
  apply Prog.wp_mono (btableInsertBinding_spec rep₂ hp hfull)
  rintro _ m' ⟨zs, rep', hzs, htable', hnew, hold⟩
  rw [hinfo] at hnew hold
  constructor
  · apply rep'.ok
    intro q k hq
    by_cases hqp : q = p
    · subst hqp
      rwa [Function.update_self]
    · rw [Function.update_of_ne hqp]
      rw [htable', htable q hqp] at hq
      exact ok.tidy q k hq
  · funext q
    rw [rep'.bindings_eq]
    by_cases hqp : q = p
    · subst hqp
      rw [Function.update_self, Function.update_self, hnew]
      rfl
    · rw [Function.update_of_ne hqp, Function.update_of_ne hqp, hold q hqp]
      rfl

/-- **Binding.** `btable_add_binding` inserts an accepted binding and refuses any other;
only while all bindings are in use does it follow a null pointer. -/
theorem btableAddBinding_spec (ok : m.Ok)
    (hfull : m.bindInfoAlloc.mz.all.nFree = 0 → allowed .nullDeref) :
    Prog.wp allowed (btableAddBinding s ip p opts) (fun r m' => m'.Ok ∧
      if canBind (m.bindings p) ip opts then
        r = 0 ∧ m'.bindings = Function.update m.bindings p
          (insertBinding (newBinding s ip opts) (m.bindings p))
      else r = -1 ∧ m'.bindings = m.bindings) m := by
  rw [btableAddBinding, Prog.wp_bind]
  apply Prog.wp_mono (btableCanBind_spec ok.rep)
  rintro can m₁ ⟨hcan, Q, hm₁, hidle, hsize⟩
  have rep₁ : m₁.Rep m.nodesAt := hm₁ ▸ ok.rep.withIterators hidle hsize
  have htable₁ : m₁.sockBindTable = m.sockBindTable := by rw [hm₁]
  have hinfo₁ : m₁.info = m.info := by rw [hm₁]; rfl
  have hbind₁ : m₁.bindInfoAlloc = m.bindInfoAlloc := by rw [hm₁]
  obtain rfl : can = canBind (m.bindings p) ip opts := hcan
  by_cases hc : canBind (m.bindings p) ip opts
  · simp only [hc, Bool.not_true, Bool.false_eq_true, if_false, if_true, Prog.wp_bind,
      Prog.wp_read]
    cases hp : m₁.sockBindTable p with
    | none =>
      simp only [if_true]
      rw [Prog.wp_bind]
      apply Prog.wp_mono (listNew_spec rep₁ hp)
      rintro o m₂ ⟨l, rfl, rep₂, htable₂, hinfo₂, hbind₂⟩
      simp only [Prog.wp_bind, Prog.wp_update, Prog.wp_pure]
      have hother : ∀ q ≠ p,
          Function.update m₂.sockBindTable p (some l) q = m.sockBindTable q := by
        intro q hqp
        rw [Function.update_of_ne hqp, htable₂, htable₁]
      have hfull₂ : m₂.bindInfoAlloc.mz.all.nFree = 0 → allowed .nullDeref := by
        rwa [hbind₂, hbind₁]
      apply Prog.wp_mono (insert_accepted_spec ok rep₂ (Function.update_self ..) hother
        (hinfo₂.trans hinfo₁) hfull₂)
      exact fun _ m' h => ⟨h.1, trivial, h.2⟩
    | some l =>
      simp only [reduceCtorEq, if_false, Prog.wp_bind, Prog.wp_pure]
      apply Prog.wp_mono (insert_accepted_spec ok rep₁ hp (fun q _ => congrFun htable₁ q) hinfo₁
        (hbind₁ ▸ hfull))
      exact fun _ m' h => ⟨h.1, trivial, h.2⟩
  · simp only [hc, Bool.not_false, if_true, Bool.false_eq_true, if_false]
    refine ⟨rep₁.ok (htable₁ ▸ ok.tidy), rfl, funext fun q => ?_⟩
    rw [rep₁.bindings_eq, hinfo₁]
    rfl

/-- While a binding is free, an accepted one is inserted. -/
theorem exists_btableAddBinding (s : ℤ) (p : Port) (ok : m.Ok)
    (hfree : m.bindInfoAlloc.mz.all.nFree ≠ 0)
    (hcan : canBind (m.bindings p) ip opts) :
    ∃ m', btableAddBinding s ip p opts m = .ok (0, m') ∧ m'.Ok ∧
      m'.bindings = Function.update m.bindings p
        (insertBinding (newBinding s ip opts) (m.bindings p)) := by
  have spec : Prog.wp (fun _ => False) (btableAddBinding s ip p opts) _ m :=
    btableAddBinding_spec ok fun h => hfree h
  simp only [hcan, if_true] at spec
  obtain ⟨r, m', hret, ok', rfl, hbs⟩ := Prog.exists_ok_of_wp spec
  exact ⟨m', hret, ok', hbs⟩

/-! ## Removal -/

/-- Unlinking and freeing a node of the list of `p`, whose binding was freed just before.
An iterator is still in use then. -/
private theorem unlink_spec {m₁ : Mem} {l a : ℕ} {front rest : List ℕ} (rep : m.Rep G)
    (hp : m.sockBindTable p = some l) (hxs : G p = front ++ a :: rest)
    (hbind : m₁.bindInfoAlloc =
      m.bindInfoAlloc.setMz (udpdkShfree m.bindInfoAlloc.mz (m.val a)))
    (hlists : m₁.listAlloc = m.listAlloc) (hnodes : m₁.nodeAlloc = m.nodeAlloc)
    (htable : m₁.sockBindTable = m.sockBindTable) :
    Prog.wp allowed (listRemove (some l) (some a)) (fun _ m' =>
      m'.iteratorAlloc = m₁.iteratorAlloc ∧ m'.sockBindTable = m.sockBindTable ∧
        m'.info = m.info ∧
        { m' with iteratorAlloc := m.iteratorAlloc }.Rep
          (Function.update G p (front ++ rest))) m₁ := by
  have ha : a ∈ G p := by simp [hxs]
  have hlist := rep.list p l hp
  have hlen : (front ++ a :: rest).length < 2 ^ 32 := by
    have := rep.length_lt_scanFuel p
    rw [hxs] at this
    exact (Nat.lt_succ_self _).trans this
  rw [hxs] at hlist
  have hlinks : ∀ c, m₁.prev c = m.prev c ∧ m₁.next c = m.next c := by
    intro c
    simp only [Mem.prev, Mem.next, hnodes, and_self]
  have hval : m₁.val = m.val := by
    funext c
    simp only [Mem.val, hnodes]
  have hlist₁ : m₁.ListAt l (front ++ a :: rest) :=
    hlist.congr (by rw [hlists]) fun c _ => hlinks c
  obtain ⟨hbok, hbsame, hblive⟩ := udpdkShfree_spec rep.pools.bindInfo (rep.val_mem_live ha)
  obtain ⟨hnok, hnsame, hnlive⟩ := udpdkShfree_spec rep.pools.node (rep.mem_nodeLive ha)
  apply Prog.wp_mono (listRemove_spec hlist₁ hlen)
  rintro _ m' ⟨hzs, ht, hmz⟩
  have hmem : ∀ c, c ∈ front ++ rest ↔ c ≠ a ∧ c ∈ G p := by
    intro c
    have hnodup := hlist.nodup
    grind
  refine ⟨ht.iteratorAlloc, ht.sockBindTable.trans htable, ?_, ?_⟩
  · funext c
    rw [Mem.info, Mem.info, ht.val, hval, ht.bindInfoAlloc, hbind, Pool.setMz_cells]
  · refine rep.remove hp ha hmem ?_ ?_ ?_ rfl ?_ ?_ ?_ ?_ ?_
    · rw [ht.bindInfoAlloc, hbind]
      exact ⟨hbok, hbsame.size, hblive⟩
    · rw [hnodes] at hmz
      exact ⟨hmz ▸ hnok, hmz ▸ hnsame.size, hmz ▸ hnlive⟩
    · exact ht.listMz.trans (congrArg Pool.mz hlists)
    · exact ht.sockBindTable.trans htable
    · exact hzs.congr rfl fun c _ => ⟨rfl, rfl⟩
    · intro k hk
      exact (ht.header k hk).trans (by rw [hlists])
    · intro c hc _
      obtain ⟨hprev, hnext⟩ := ht.links c fun h => hc ((hmem c).mp h).2
      exact ⟨hprev.trans (hlinks c).1, hnext.trans (hlinks c).2⟩
    · exact ht.val.trans hval

private theorem removeBinding_map {info : ℕ → BindInfo} {front rest : List ℕ} {a : ℕ}
    (hfront : ∀ c ∈ front, (info c).sockfd ≠ s) (ha : (info a).sockfd = s) :
    removeBinding s ((front ++ a :: rest).map info) = (front ++ rest).map info := by
  rw [removeBinding, List.map_append, List.eraseP_append_right]
  · simp [ha]
  · simpa using hfront

/-- A port without bindings gives its list back. -/
private theorem dropEmpty_spec {l : ℕ} (rep : m.Rep G) (hp : m.sockBindTable p = some l)
    (tidy : ∀ q ≠ p, ∀ k, m.sockBindTable q = some k → G q ≠ []) :
    Prog.wp allowed (do
        let list := (← Prog.read).sockBindTable p
        let l ← load udpdkListTAlloc list
        if l.len = 0 then
          listDestroy list
          Prog.update fun m =>
            { m with sockBindTable := Function.update m.sockBindTable p none })
      (fun _ m' => m'.Ok ∧ m'.bindings = m.bindings) m := by
  have hlist := rep.list p l hp
  simp only [Prog.wp_bind, Prog.wp_read, hp, wp_load_some, udpdkListTAlloc_get, hlist.len]
  by_cases hempty : G p = []
  · have hl : l ∈ m.listAlloc.mz.live := (rep.listLive l).mpr ⟨p, hp⟩
    obtain ⟨hok, hsame, hlive⟩ := udpdkShfree_spec rep.pools.list hl
    simp only [hempty, List.length_nil, if_true, listDestroy, listDestroyNodes, Prog.wp_bind,
      wp_load_some, udpdkListTAlloc_get, hlist.len, Prog.wp_pure, wp_shfree_some,
      udpdkListTAlloc_set, Prog.wp_update]
    have rep' := rep.dropList hp hempty (L := m.listAlloc.setMz (udpdkShfree m.listAlloc.mz l))
      ⟨hok, hsame.size, hlive⟩ rfl
    constructor
    · apply rep'.ok
      intro q k hq
      by_cases hqp : q = p
      · subst hqp
        simp at hq
      · exact tidy q hqp k (by simpa [hqp] using hq)
    · funext q
      rw [rep'.bindings_eq, rep.bindings_eq]
      rfl
  · simp only [List.length_eq_zero_iff, hempty, if_false, Prog.wp_pure]
    refine ⟨rep.ok fun q k hq => ?_, trivial⟩
    by_cases hqp : q = p
    · exact hqp ▸ hempty
    · exact tidy q hqp k hq

/-- The scan of `btable_del_binding`: the first binding of the socket is gone from the list, and
the iterator is still in use. -/
private theorem delBindingScan_spec {l : ℕ} (rep : m.Rep m.nodesAt)
    (hp : m.sockBindTable p = some l) (P : Pool ListIterator) (it : ℕ) :
    Prog.wp allowed (Prog.whileSome .noReturn (listIteratorNext (some it))
      (btableDelBindingStep s p) scanFuel ()) (fun _ m' => ∃ pending zs,
        m'.iteratorAlloc = (m.iterating P it pending).iteratorAlloc ∧
        m'.sockBindTable = m.sockBindTable ∧
        { m' with iteratorAlloc := m.iteratorAlloc }.Rep (Function.update m.nodesAt p zs) ∧
        m'.info = m.info ∧
        zs.map m.info = removeBinding s (m.bindings p))
      (m.iterating P it (m.nodesAt p)) := by
  have hlinked := (rep.list p l hp).linked
  have hlen := (Nat.lt_succ_self _).trans (rep.length_lt_scanFuel p)
  apply wp_scan hlinked hlen fun pending _ =>
    ∃ front, m.nodesAt p = front ++ pending ∧ ∀ c ∈ front, (m.info c).sockfd ≠ s
  · exact ⟨[], rfl, by simp⟩
  · rintro _ ⟨front, hxs, hfront⟩
    rw [List.append_nil] at hxs
    refine ⟨[], m.nodesAt p, rfl, rfl, ?_, rfl, ?_⟩
    · rw [Function.update_eq_self]
      exact rep
    · rw [Mem.bindings, removeBinding, List.eraseP_of_forall_not]
      simpa [hxs] using hfront
  · rintro _ a rest _ - ⟨front, hxs, hfront⟩
    simp only [btableDelBindingStep, Prog.wp_bind, wp_load_some, udpdkListNodeTAlloc_get,
      bindInfoAlloc_get]
    have hinfo : (m.iterating P it rest).bindInfoAlloc.cells
        ((m.iterating P it rest).nodeAlloc.cells a).val = m.info a := rfl
    rw [hinfo]
    by_cases ha : (m.info a).sockfd = s
    · rw [if_pos ha]
      simp only [Prog.wp_bind, wp_shfree_some, bindInfoAlloc_get, bindInfoAlloc_set,
        Prog.wp_read, Prog.wp_pure]
      have hp' : (m.iterating P it rest).sockBindTable p = some l := hp
      rw [hp']
      apply Prog.wp_mono (unlink_spec rep hp hxs ?_ ?_ ?_ ?_)
      · rintro _ m' ⟨hiter, htable, hinfo, rep'⟩
        refine ⟨rest, front ++ rest, hiter, htable, rep', hinfo, ?_⟩
        rw [Mem.bindings, hxs, removeBinding_map hfront ha]
      all_goals rfl
    · rw [if_neg ha]
      refine ⟨rfl, front ++ [a], by simp [hxs], ?_⟩
      simpa [or_imp, forall_and, ha] using hfront

/-- **Unbinding.** `btable_del_binding` removes the first binding of the socket from the
port; only on a port without bindings does it follow a null pointer. -/
theorem btableDelBinding_spec (ok : m.Ok) (hnull : m.bindings p = [] → allowed .nullDeref) :
    Prog.wp allowed (btableDelBinding s p) (fun _ m' => m'.Ok ∧
      m'.bindings = Function.update m.bindings p (removeBinding s (m.bindings p))) m := by
  have rep := ok.rep
  rw [btableDelBinding]
  cases hp : m.sockBindTable p with
  | none =>
    simp only [Prog.wp_bind, Prog.wp_read, hp, listIteratorNew, wp_load_none]
    exact hnull ((ok.null_iff p).mp hp)
  | some l =>
    rw [Prog.wp_bind, Prog.wp_read, hp, Prog.wp_bind]
    apply Prog.wp_mono (listIteratorNew_spec rep.pools.iterators (rep.list p l hp).head)
    rintro o m₁ ⟨it, P, rfl, rfl, hok, hit, hrest, hsame⟩
    have hsize : 0 < P.mz.all.size := by rw [hsame.size]; exact rep.pools.iterators.size
    rw [Prog.wp_bind]
    apply Prog.wp_mono (delBindingScan_spec rep hp P it)
    rintro _ m₂ ⟨pending, zs, hiter, htable, rep₂, hinfo, hzs⟩
    have hiter' : m₂.iteratorAlloc =
        P.modify it fun _ => { next := pending.head?, direction := .LIST_HEAD } := hiter
    have hm₂ : m₂ = m₂.iterating P it pending := by rw [Mem.iterating, ← hiter']
    rw [Prog.wp_bind, hm₂]
    apply Prog.wp_mono (listIteratorDestroy_spec hok hsize hit hrest)
    rintro _ m₃ ⟨Q, rfl, hidle, hsame'⟩
    have rep₃ : { m₂ with iteratorAlloc := Q }.Rep (Function.update m.nodesAt p zs) :=
      rep₂.withIterators hidle (hsame'.size.trans hsame.size)
    have hp₃ : m₂.sockBindTable p = some l := by rw [htable, hp]
    have tidy₃ : ∀ q ≠ p, ∀ k, m₂.sockBindTable q = some k →
        Function.update m.nodesAt p zs q ≠ [] := by
      intro q hqp k hq
      rw [Function.update_of_ne hqp]
      exact ok.tidy q k (htable ▸ hq)
    apply Prog.wp_mono (dropEmpty_spec rep₃ hp₃ tidy₃)
    rintro _ m₄ ⟨ok₄, hbindings⟩
    refine ⟨ok₄, ?_⟩
    have hinfo₃ : { m₂ with iteratorAlloc := Q }.info = m.info := hinfo
    funext q
    rw [hbindings, rep₃.bindings_eq, hinfo₃]
    by_cases hqp : q = p
    · subst hqp
      rw [Function.update_self, Function.update_self, hzs]
    · rw [Function.update_of_ne hqp, Function.update_of_ne hqp]
      rfl

/-! ## Room for one more binding -/

theorem eq_of_mem_of_length_le_one {α : Type} {xs : List α} {x y : α}
    (h : xs.length ≤ 1) (hx : x ∈ xs) (hy : y ∈ xs) : x = y := by
  match xs, h with
  | [z], _ => rw [List.mem_singleton.mp hx, List.mem_singleton.mp hy]

theorem Mem.Ok.injOn_sockfd (ok : m.Ok) (one : OneEach m.bindings) :
    ∀ a ∈ m.nodeAlloc.mz.live, ∀ c ∈ m.nodeAlloc.mz.live,
      (m.info a).sockfd = (m.info c).sockfd → a = c := by
  intro a ha c hc hsock
  obtain ⟨p, hap⟩ := (ok.rep.nodeLive a).mp ha
  obtain ⟨q, hcq⟩ := (ok.rep.nodeLive c).mp hc
  obtain rfl := one.port p q _ (List.mem_map_of_mem hap) _ (List.mem_map_of_mem hcq) hsock
  -- both nodes pass the filter, which keeps at most one
  have honce := one.once (m.info c).sockfd p
  rw [Mem.bindings, ownedBy, List.filter_map, List.length_map] at honce
  apply eq_of_mem_of_length_le_one honce
  · simp [hap, hsock]
  · simp [hcq]

/-- While every socket holds at most one binding and some socket holds none, the pool of
bindings is not used up. -/
theorem Mem.Ok.bindInfo_nFree_ne_zero (ok : m.Ok) (one : OneEach m.bindings)
    (hrange : ∀ p, ∀ b ∈ m.bindings p, ∃ t < numSocketsMax, b.sockfd = (t : ℕ)) {t : ℕ}
    (ht : t < numSocketsMax) (habsent : ∀ p, ownedBy t (m.bindings p) = []) :
    m.bindInfoAlloc.mz.all.nFree ≠ 0 := by
  have rep := ok.rep
  have howner : ∀ a ∈ m.nodeAlloc.mz.live, ∃ u < numSocketsMax, u ≠ t ∧
      (m.info a).sockfd = (u : ℕ) := by
    intro a ha
    obtain ⟨p, hp⟩ := (rep.nodeLive a).mp ha
    have hb : m.info a ∈ m.bindings p := List.mem_map_of_mem hp
    obtain ⟨u, hu, hsock⟩ := hrange p _ hb
    refine ⟨u, hu, ?_, hsock⟩
    rintro rfl
    exact ownedBy_eq_nil_iff.mp (habsent p) _ hb hsock
  have hcard : m.nodeAlloc.mz.live.card ≤ numSocketsMax - 1 := by
    calc m.nodeAlloc.mz.live.card ≤ ((Finset.range numSocketsMax).erase t).card := by
          apply Finset.card_le_card_of_injOn fun a => (m.info a).sockfd.toNat
          · intro a ha
            obtain ⟨u, hu, hut, hsock⟩ := howner a ha
            simpa [hsock, hut] using hu
          · intro a ha c hc heq
            obtain ⟨u, -, -, hsock⟩ := howner a ha
            obtain ⟨v, -, -, hsock'⟩ := howner c hc
            exact ok.injOn_sockfd one a ha c hc (by simpa [hsock, hsock'] using heq)
      _ = numSocketsMax - 1 := by
        rw [Finset.card_erase_of_mem (Finset.mem_range.mpr ht), Finset.card_range]
  have hcount := rep.pools.bindInfo.nFree_add_card
  rw [rep.pools.bindInfoSize, rep.card_bindInfo] at hcount
  omega

end Udpdk
