import Udpdk.Foundation.DoublyLinked
import Udpdk.List.Basic
import Udpdk.Shmalloc.LiveSlots

/-!
# The list operations on their represented sequences

`Mem.ListAt m l xs` says that the list header at `l` represents the node sequence `xs`.
Each operation is specified by the sequence it leaves and by what it may touch: the
header and the link fields of the list's own nodes.

## Main results

* `listRpush_spec`, `listLpush_spec` — insertion at either end
* `listRemove_spec` — removal of any node
* `listIteratorNext_spec` — one step of an iterator over the rest of a list
-/

namespace Udpdk

open Foundation

variable {allowed : Fault → Prop} {m m' : Mem} {l n a : ℕ} {xs ys zs zs' : List ℕ}

namespace Mem

def prev (m : Mem) (a : ℕ) : Ptr := (m.nodeAlloc.cells a).prev

def next (m : Mem) (a : ℕ) : Ptr := (m.nodeAlloc.cells a).next

def val (m : Mem) (a : ℕ) : ℕ := (m.nodeAlloc.cells a).val

/-- The header at `l` represents the sequence `xs` of distinct nodes. -/
structure ListAt (m : Mem) (l : ℕ) (xs : List ℕ) : Prop where
  head : (m.listAlloc.cells l).head = xs.head?
  tail : (m.listAlloc.cells l).tail = xs.getLast?
  len : (m.listAlloc.cells l).len = xs.length
  linked : Linked m.prev m.next none xs none
  nodup : xs.Nodup

/-- Between `m` and `m'` only list headers and the node pool have changed. -/
structure SameRest (m m' : Mem) : Prop where
  bindInfoAlloc : m'.bindInfoAlloc = m.bindInfoAlloc
  iteratorAlloc : m'.iteratorAlloc = m.iteratorAlloc
  sockBindTable : m'.sockBindTable = m.sockBindTable
  listMz : m'.listAlloc.mz = m.listAlloc.mz

/-- Between `m` and `m'` at most the header of `l`, the link fields of the nodes in `ns`
and the bookkeeping of the node allocator have changed. -/
structure Touches (l : ℕ) (ns : List ℕ) (m m' : Mem) : Prop extends SameRest m m' where
  header : ∀ k ≠ l, m'.listAlloc.cells k = m.listAlloc.cells k
  links : ∀ a ∉ ns, m'.prev a = m.prev a ∧ m'.next a = m.next a
  val : m'.val = m.val

theorem ListAt.congr (h : m.ListAt l xs) (hheader : m'.listAlloc.cells l = m.listAlloc.cells l)
    (hlinks : ∀ a ∈ xs, m'.prev a = m.prev a ∧ m'.next a = m.next a) : m'.ListAt l xs where
  head := by rw [hheader, h.head]
  tail := by rw [hheader, h.tail]
  len := by rw [hheader, h.len]
  linked := h.linked.congr (fun a ha => (hlinks a ha).1) fun a ha => (hlinks a ha).2
  nodup := h.nodup

end Mem

open Mem

/-! ## Insertion -/

section Insertion

/-- What header and nodes must hold for `n` to have been linked in between `xs` and `ys`. -/
theorem Mem.ListAt.insert (xs ys : List ℕ) (h : m.ListAt l zs) (hzs : xs ++ ys = zs)
    (hzs' : xs ++ n :: ys = zs') (hn : n ∉ zs) (hrest : SameRest m m')
    (hlists : ∀ k ≠ l, m'.listAlloc.cells k = m.listAlloc.cells k)
    (hheader : m'.listAlloc.cells l =
      { head := zs'.head?, tail := zs'.getLast?, len := zs'.length })
    (hnode : m'.nodeAlloc.cells n = { prev := xs.getLast?, next := ys.head?, val := m.val n })
    (hothers : ∀ a ≠ n, m'.nodeAlloc.cells a = {
      prev := if ys.head? = some a then some n else m.prev a
      next := if xs.getLast? = some a then some n else m.next a
      val := m.val a }) :
    m'.ListAt l zs' ∧ Touches l (n :: zs) m m' := by
  subst hzs hzs'
  have hne : ∀ a ∈ xs ++ ys, a ≠ n := fun a ha hna => hn (hna ▸ ha)
  constructor
  · constructor
    · rw [hheader]
    · rw [hheader]
    · rw [hheader]
    · apply h.linked.insert h.nodup
      · exact ⟨congrArg ListNode.prev hnode, congrArg ListNode.next hnode⟩
      · exact fun a ha => congrArg ListNode.prev (hothers a (hne a ha))
      · exact fun a ha => congrArg ListNode.next (hothers a (hne a ha))
    · exact List.nodup_middle.mpr (List.nodup_cons.mpr ⟨hn, h.nodup⟩)
  · have hval : ∀ a, (m'.nodeAlloc.cells a).val = m.val a := by
      intro a
      by_cases han : a = n
      · rw [han, hnode]
      · rw [hothers a han]
    refine ⟨hrest, hlists, fun a ha => ?_, funext hval⟩
    obtain ⟨han, hout⟩ := not_or.mp (List.mem_cons.not.mp ha)
    have hhead : ys.head? ≠ some a := fun hd =>
      hout (List.mem_append_right xs (List.mem_of_mem_head? hd))
    have hlast : xs.getLast? ≠ some a := fun hd =>
      hout (List.mem_append_left ys (List.mem_of_getLast? hd))
    simp [Mem.prev, Mem.next, hothers a han, hhead, hlast]

/-- `list_rpush` appends. -/
theorem listRpush_spec (h : m.ListAt l xs) (hn : n ∉ xs) (hlen : xs.length + 1 < 2 ^ 32) :
    Prog.wp allowed (listRpush (some l) (some n)) (fun _ m' =>
      m'.ListAt l (xs ++ [n]) ∧ Touches l (n :: xs) m m' ∧ m'.nodeAlloc.mz = m.nodeAlloc.mz) m := by
  have hlength := h.len
  have htail := h.tail
  have hhead := h.head
  -- without a tail the node becomes the head as well, otherwise it is linked behind the tail
  rcases List.eq_nil_or_concat xs with rfl | ⟨front, t, rfl⟩
  · simp [listRpush, hlength]
    apply h.insert [] [] rfl rfl hn
    · constructor <;> rfl
    · exact fun k hk => by simp [Pool.modify_cells, hk]
    · simp [hlength, u32]
    · simp [Mem.val]
    · exact fun a ha => by simp [Pool.modify_cells, ha, Mem.prev, Mem.next, Mem.val]
  · rw [List.concat_eq_append] at *
    have htn : n ≠ t := fun htn => hn (by simp [htn])
    simp [listRpush, hlength, htail]
    apply h.insert (front ++ [t]) [] (by simp) (by simp) hn
    · constructor <;> rfl
    · exact fun k hk => by simp [Pool.modify_cells, hk]
    · simpa [hlength, hhead] using u32_of_lt hlen
    · simp [Pool.modify_cells, htn, Mem.val]
    · intro a ha
      by_cases hat : a = t
      · simp [Pool.modify_cells, hat, Mem.prev, Mem.val, htn.symm]
      · simp [Pool.modify_cells, ha, hat, Ne.symm hat, Mem.prev, Mem.next, Mem.val]

/-- `list_lpush` prepends. -/
theorem listLpush_spec (h : m.ListAt l xs) (hn : n ∉ xs) (hlen : xs.length + 1 < 2 ^ 32) :
    Prog.wp allowed (listLpush (some l) (some n)) (fun _ m' =>
      m'.ListAt l (n :: xs) ∧ Touches l (n :: xs) m m' ∧ m'.nodeAlloc.mz = m.nodeAlloc.mz) m := by
  have hlength := h.len
  have htail := h.tail
  have hhead := h.head
  -- the mirror image: without a head the node becomes the tail as well
  cases xs with
  | nil =>
    simp [listLpush, hlength]
    apply h.insert [] [] rfl rfl hn
    · constructor <;> rfl
    · exact fun k hk => by simp [Pool.modify_cells, hk]
    · simp [hlength, u32]
    · simp [Mem.val]
    · exact fun a ha => by simp [Pool.modify_cells, ha, Mem.prev, Mem.next, Mem.val]
  | cons t rest =>
    have htn : n ≠ t := fun htn => hn (by simp [htn])
    simp [listLpush, hlength, hhead]
    apply h.insert [] (t :: rest) rfl rfl hn
    · constructor <;> rfl
    · exact fun k hk => by simp [Pool.modify_cells, hk]
    · simpa [hlength, htail] using u32_of_lt hlen
    · simp [Pool.modify_cells, htn, Mem.val]
    · intro a ha
      by_cases hat : a = t
      · simp [Pool.modify_cells, hat, Mem.next, Mem.val, htn.symm]
      · simp [Pool.modify_cells, ha, hat, Ne.symm hat, Mem.prev, Mem.next, Mem.val]

end Insertion

/-! ## Removal -/

/-- What header and nodes must hold for `n` to have been unlinked from between `xs` and
`ys`. -/
theorem Mem.ListAt.remove (xs ys : List ℕ) (h : m.ListAt l zs) (hzs : xs ++ n :: ys = zs)
    (hzs' : xs ++ ys = zs') (hrest : SameRest m m')
    (hlists : ∀ k ≠ l, m'.listAlloc.cells k = m.listAlloc.cells k)
    (hheader : m'.listAlloc.cells l =
      { head := zs'.head?, tail := zs'.getLast?, len := zs'.length })
    (hnodes : ∀ a, m'.nodeAlloc.cells a = {
      prev := if ys.head? = some a then m.prev n else m.prev a
      next := if xs.getLast? = some a then m.next n else m.next a
      val := m.val a }) :
    m'.ListAt l zs' ∧ Touches l zs' m m' := by
  subst hzs hzs'
  constructor
  · constructor
    · rw [hheader]
    · rw [hheader]
    · rw [hheader]
    · apply h.linked.remove h.nodup
      · exact fun a _ => congrArg ListNode.prev (hnodes a)
      · exact fun a _ => congrArg ListNode.next (hnodes a)
    · exact h.nodup.sublist (by simp)
  · have hval : ∀ a, (m'.nodeAlloc.cells a).val = m.val a := fun a => by rw [hnodes a]
    refine ⟨hrest, hlists, fun a ha => ?_, funext hval⟩
    have hhead : ys.head? ≠ some a := fun hd =>
      ha (List.mem_append_right xs (List.mem_of_mem_head? hd))
    have hlast : xs.getLast? ≠ some a := fun hd =>
      ha (List.mem_append_left ys (List.mem_of_getLast? hd))
    simp [Mem.prev, Mem.next, hnodes a, hhead, hlast]

/-- `list_remove` takes the node out and frees it. -/
theorem listRemove_spec (h : m.ListAt l (xs ++ n :: ys)) (hlen : (xs ++ n :: ys).length < 2 ^ 32) :
    Prog.wp allowed (listRemove (some l) (some n)) (fun _ m' =>
      m'.ListAt l (xs ++ ys) ∧ Touches l (xs ++ ys) m m' ∧
        m'.nodeAlloc.mz = udpdkShfree m.nodeAlloc.mz n) m := by
  have hprev := h.linked.prev_eq
  have hnext := h.linked.next_eq
  have hlength := h.len
  have htail := h.tail
  have hhead := h.head
  have hnodup := h.nodup
  simp only [Mem.prev, Mem.next, Option.or_none] at hprev hnext
  simp only [List.length_append, List.length_cons] at hlen hlength
  -- four cases, as in the source: with or without a node before, with or without one behind
  rcases List.eq_nil_or_concat xs with rfl | ⟨front, p, rfl⟩
  · cases ys with
    | nil =>
      simp [listRemove, hprev, hnext]
      apply h.remove [] [] rfl rfl
      · constructor <;> rfl
      · exact fun k hk => by simp [Pool.modify_cells, hk]
      · simp [hlength, u32]
      · simp [Mem.val, Mem.prev, Mem.next]
    | cons q rest =>
      simp [listRemove, hprev, hnext]
      apply h.remove [] (q :: rest) rfl rfl
      · constructor <;> rfl
      · exact fun k hk => by simp [Pool.modify_cells, hk]
      · simp [hlength, htail, u32] at hlen ⊢
        omega
      · intro a
        by_cases haq : a = q
        · simp [Mem.val, Mem.prev, Mem.next, haq, hprev]
        · simp [Mem.val, Mem.prev, Mem.next, Pool.modify_cells, haq, Ne.symm haq]
  · rw [List.concat_eq_append] at *
    -- the writes to the neighbours go to different nodes
    have hnp : n ≠ p := by grind
    cases ys with
    | nil =>
      simp [listRemove, hprev, hnext, Pool.modify_cells_of_ne, hnp]
      apply h.remove (front ++ [p]) [] rfl (by simp)
      · constructor <;> rfl
      · exact fun k hk => by simp [Pool.modify_cells, hk]
      · simp [hlength, hhead, u32] at hlen ⊢
        omega
      · intro a
        by_cases haq : a = p
        · simp [Mem.val, Mem.prev, Mem.next, haq, hnext]
        · simp [Mem.val, Mem.prev, Mem.next, Pool.modify_cells, haq, Ne.symm haq]
    | cons q rest =>
      have hpq : p ≠ q := by grind
      simp [listRemove, hprev, hnext, Pool.modify_cells_of_ne, hnp]
      apply h.remove (front ++ [p]) (q :: rest) rfl (by simp)
      · constructor <;> rfl
      · exact fun k hk => by simp [Pool.modify_cells, hk]
      · simp [hlength, hhead, htail, u32] at hlen ⊢
        omega
      · intro a
        by_cases hap : a = p
        · simp [Mem.val, Mem.prev, Mem.next, hap, Pool.modify_cells_of_ne, hpq, hpq.symm, hnext]
        · by_cases haq : a = q
          · simp [Mem.val, Mem.prev, Mem.next, haq, hpq, hpq.symm, Pool.modify_cells_of_ne, hprev]
          · simp [Mem.val, Mem.prev, Mem.next, Pool.modify_cells, hap, haq, Ne.symm hap,
              Ne.symm haq]

/-! ## Iteration -/

/-- An allocator in working order with nothing allocated from it. -/
structure Pool.Idle {α : Type} (P : Pool α) : Prop where
  ok : P.mz.Ok
  live : P.mz.live = ∅
  size : 0 < P.mz.all.size

theorem Pool.Idle.nFree_ne_zero {α : Type} {P : Pool α} (idle : P.Idle) : P.mz.all.nFree ≠ 0 := by
  have hcount := idle.ok.nFree_add_card
  rw [idle.live, Finset.card_empty] at hcount
  have := idle.size
  omega

/-- `m` while the iterator `it`, taken from the pool `P`, still has to visit `pending`. -/
def Mem.iterating (m : Mem) (P : Pool ListIterator) (it : ℕ) (pending : List ℕ) : Mem :=
  { m with iteratorAlloc :=
      P.modify it fun _ => { next := pending.head?, direction := .LIST_HEAD } }

/-- `list_iterator_new` hands out an iterator over the whole list. -/
theorem listIteratorNew_spec (idle : m.iteratorAlloc.Idle)
    (hhead : (m.listAlloc.cells l).head = xs.head?) :
    Prog.wp allowed (listIteratorNew (some l) .LIST_HEAD) (fun o m' => ∃ it P, o = some it ∧
      m' = m.iterating P it xs ∧ P.mz.Ok ∧ it ∈ P.mz.live ∧ P.mz.live.erase it = ∅ ∧
        m.iteratorAlloc.mz.SameGeometry P.mz) m := by
  obtain ⟨it, mz, halloc, hok, hsame, hnew, hlive⟩ :=
    udpdkShmalloc_spec idle.ok idle.nFree_ne_zero
  simp only [listIteratorNew, Prog.wp_bind, wp_load_some, wp_shmalloc, udpdkListTAlloc_get,
    udpdkListIteratorTAlloc_get, halloc, if_true, hhead]
  refine ⟨it, m.iteratorAlloc.setMz mz, rfl, rfl, hok, ?_, ?_, hsame⟩
  · simp [hlive]
  · simp [hlive, idle.live]

/-- `list_iterator_next` yields the first pending node and advances past it. -/
theorem listIteratorNext_spec {P : Pool ListIterator} {it : ℕ} {pending : List ℕ}
    (hlinked : ∀ a ∈ pending.head?, m.next a = pending.tail.head?) :
    Prog.wp allowed (listIteratorNext (some it)) (fun o m' => o = pending.head? ∧
      m' = m.iterating P it pending.tail) (m.iterating P it pending) := by
  cases pending with
  | nil => simp [listIteratorNext, Mem.iterating]
  | cons a rest =>
    have hnext : (m.nodeAlloc.cells a).next = rest.head? := hlinked a rfl
    simp [listIteratorNext, Mem.iterating, hnext, Pool.modify]

/-- `list_iterator_destroy` returns the iterator to its pool. -/
theorem listIteratorDestroy_spec {P : Pool ListIterator} {it : ℕ} {pending : List ℕ}
    (hok : P.mz.Ok) (hsize : 0 < P.mz.all.size) (hit : it ∈ P.mz.live)
    (hrest : P.mz.live.erase it = ∅) :
    Prog.wp allowed (listIteratorDestroy (some it)) (fun _ m' => ∃ Q : Pool ListIterator,
      m' = { m with iteratorAlloc := Q } ∧ Q.Idle ∧ P.mz.SameGeometry Q.mz)
      (m.iterating P it pending) := by
  obtain ⟨hok', hsame, hlive⟩ := udpdkShfree_spec hok hit
  refine ⟨_, rfl, ⟨hok', ?_, ?_⟩, hsame⟩
  · exact hlive.trans hrest
  · exact hsize.trans_eq hsame.size.symm

/-- **A scan of a whole list** by a program on a state that has the memory as its part.
The loop variable is `b`, `inv` relates it and the state to the nodes still to come, and the
body leaves the memory alone unless it breaks off. -/
theorem wp_scan_zoom {τ β : Type} {get : τ → Mem} {set : Mem → τ → τ}
    (set_get : ∀ t, set (get t) t = t)
    {P : Pool ListIterator} {it fuel : ℕ} {before : Ptr}
    {body : ℕ → β → Prog Fault τ (ForInStep β)} {post : β → τ → Prop}
    (hlinked : Linked m.prev m.next before xs none) (hlen : xs.length < fuel)
    (inv : List ℕ → β → τ → Prop) {b : β} {t : τ} (here : get t = m.iterating P it xs)
    (start : inv xs b t)
    (last : ∀ b t, get t = m.iterating P it [] → inv [] b t → post b t)
    (round : ∀ front a rest b t, xs = front ++ a :: rest → get t = m.iterating P it (a :: rest) →
      inv (a :: rest) b t → Prog.wp allowed (body a b) (fun r t' => match r with
        | .done b' => post b' t'
        | .yield b' => get t' = m.iterating P it rest ∧ inv rest b' t')
        (set (m.iterating P it rest) t)) :
    Prog.wp allowed
      (Prog.whileSome .noReturn (Prog.zoom get set (listIteratorNext (some it))) body fuel b)
      post t := by
  have hnext : ∀ front pending, xs = front ++ pending →
      ∀ a ∈ pending.head?, m.next a = pending.tail.head? := by
    rintro front pending rfl a ha
    cases pending with
    | nil => cases ha
    | cons c rest =>
      obtain rfl : c = a := Option.some_inj.mp ha
      simpa using hlinked.next_eq
  -- `front` is what was passed: it ties the pending nodes to the linked list they are part of
  apply Prog.wp_whileSome (fun pending b s => get s = m.iterating P it pending ∧
    inv pending b s ∧ ∃ front, xs = front ++ pending) ?_ ?_ fuel xs b t hlen
    ⟨here, start, [], rfl⟩
  · -- with nothing pending the iterator yields a null pointer
    rintro b s ⟨hs, hinv, front, hxs⟩
    rw [Prog.wp_zoom, hs]
    apply Prog.wp_mono (listIteratorNext_spec (hnext front [] hxs))
    rintro o m' ⟨rfl, rfl⟩
    have hsame : set (m.iterating P it [].tail) s = s := by
      rw [List.tail_nil, ← hs, set_get]
    rw [hsame]
    exact ⟨rfl, last b s hs hinv⟩
  · rintro a rest b s ⟨hs, hinv, front, hxs⟩
    rw [Prog.wp_zoom, hs]
    apply Prog.wp_mono (listIteratorNext_spec (hnext front (a :: rest) hxs))
    rintro o m' ⟨rfl, rfl⟩
    refine ⟨rfl, Prog.wp_mono (round front a rest b s hxs hs hinv) ?_⟩
    rintro (b' | b') u h
    · exact h
    · exact ⟨h.1, h.2, front ++ [a], by simp [hxs]⟩

/-- A scan by a program on the memory alone. -/
theorem wp_scan {β : Type} {P : Pool ListIterator} {it fuel : ℕ} {before : Ptr}
    {body : ℕ → β → MemProg (ForInStep β)} {post : β → Mem → Prop}
    (hlinked : Linked m.prev m.next before xs none) (hlen : xs.length < fuel)
    (inv : List ℕ → β → Prop) {b : β} (start : inv xs b)
    (last : ∀ b, inv [] b → post b (m.iterating P it []))
    (round : ∀ front a rest b, xs = front ++ a :: rest → inv (a :: rest) b →
      Prog.wp allowed (body a b) (fun r m' => match r with
        | .done b' => post b' m'
        | .yield b' => m' = m.iterating P it rest ∧ inv rest b') (m.iterating P it rest)) :
    Prog.wp allowed (Prog.whileSome .noReturn (listIteratorNext (some it)) body fuel b) post
      (m.iterating P it xs) := by
  rw [← Prog.zoom_id (listIteratorNext (some it))]
  have here : id (m.iterating P it xs) = m.iterating P it xs := rfl
  apply wp_scan_zoom (fun _ => rfl) hlinked hlen (fun pending b _ => inv pending b) here start
  · rintro b t (rfl : t = _) hinv
    exact last b hinv
  · intro front a rest b t hxs _ hinv
    exact round front a rest b hxs hinv

end Udpdk
