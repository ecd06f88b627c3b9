import Mathlib.Data.List.Find
import Udpdk.BindTable.Representation
import Udpdk.List.Insertion

/-!
# The list library as a set of deques

The whole of `udpdk_list.c` on any number of lists that share the pools of headers, nodes and
iterators: creation and destruction, insertion and removal at both ends, removal of any node,
search by value and access by index. Nodes belong to one list at most; a node that was taken
from the end of a list belongs to the caller until it is put into a list again.

## Main definitions

* `listLpop`, `listRpop`, `listFind`, `listAt` — the operations that the bind table does not use
* `Deques` — the lists as sequences of nodes, and the nodes in no list
* `DequeOp.Allows`, `DequeOp.Returns`, `DequeOp.after` — what an operation may be applied to,
  what it returns and what it leaves
* `Mem.Holds` — the memory holds these deques

## Main results

* `DequeOp.run_spec` — one operation
* `list_library_refines` — any sequence of operations
-/

namespace Udpdk

open Foundation

/-! ## The operations -/

/-- `list_rpop`: detach the last node. -/
def listRpop (self : Ptr) : MemProg Ptr := do
  let l ← load udpdkListTAlloc self
  if l.len = 0 then
    return none
  else
    let node := l.tail
    store udpdkListTAlloc self fun l => { l with len := u32 (l.len + (2 ^ 32 - 1)) }
    let l ← load udpdkListTAlloc self
    if l.len ≠ 0 then
      let n ← load udpdkListNodeTAlloc node
      store udpdkListTAlloc self fun l => { l with tail := n.prev }
      store udpdkListNodeTAlloc n.prev fun q => { q with next := none }
    else
      store udpdkListTAlloc self fun l => { l with tail := none, head := none }
    store udpdkListNodeTAlloc node fun n => { n with next := none, prev := none }
    return node

/-- `list_lpop`: detach the first node. -/
def listLpop (self : Ptr) : MemProg Ptr := do
  let l ← load udpdkListTAlloc self
  if l.len = 0 then
    return none
  else
    let node := l.head
    store udpdkListTAlloc self fun l => { l with len := u32 (l.len + (2 ^ 32 - 1)) }
    let l ← load udpdkListTAlloc self
    if l.len ≠ 0 then
      let n ← load udpdkListNodeTAlloc node
      store udpdkListTAlloc self fun l => { l with head := n.next }
      store udpdkListNodeTAlloc n.next fun q => { q with prev := none }
    else
      store udpdkListTAlloc self fun l => { l with head := none, tail := none }
    store udpdkListNodeTAlloc node fun n => { n with next := none, prev := none }
    return node

/-- The body of the scan of `list_find`; there is no `match` callback, so values are compared. -/
def listFindStep (it : Ptr) (val node : ℕ) (_ : Ptr) : MemProg (ForInStep Ptr) := do
  let n ← load udpdkListNodeTAlloc (some node)
  if val = n.val then
    listIteratorDestroy it
    return .done (some node)
  else
    return .yield none

/-- `list_find`: the first node with the value. -/
def listFind (self : Ptr) (val : ℕ) : MemProg Ptr := do
  let it ← listIteratorNew self .LIST_HEAD
  match ← Prog.whileSome .noReturn (listIteratorNext it) (listFindStep it val) scanFuel none with
  | some node => return some node
  | none =>
    listIteratorDestroy it
    return none

/-- The loop of `list_at`: `while (index--) node = list_iterator_next(it)`. -/
def listAtSteps (it : Ptr) : ℕ → Ptr → MemProg Ptr
  | 0, node => return node
  | index + 1, _ => do
    let node ← listIteratorNext it
    listAtSteps it index node

/-- `list_at` once the direction is known: the node at an index, if the list is long enough. -/
def listAtFrom (self : Ptr) (direction : ListDirection) (index : ℕ) : MemProg Ptr := do
  let l ← load udpdkListTAlloc self
  if index < l.len then
    let it ← listIteratorNew self direction
    let node ← listIteratorNext it
    let node ← listAtSteps it index node
    listIteratorDestroy it
    return node
  else
    return none

/-- `list_at`: a negative index is complemented, and counts from the tail. -/
def listAt (self : Ptr) (index : BitVec 32) : MemProg Ptr :=
  if index.slt 0 then listAtFrom self .LIST_TAIL (~~~index).toNat
  else listAtFrom self .LIST_HEAD index.toNat

/-! ## Deques -/

/-- Lists of nodes, by the address of their header; the nodes in no list; and the value of every
node. -/
structure Deques where
  lists : ℕ → Option (List ℕ)
  loose : Finset ℕ
  val : ℕ → ℕ

namespace Deques

def empty : Deques where
  lists _ := none
  loose := ∅
  val _ := 0

variable (D : Deques) (l a : ℕ)

def seq : List ℕ := (D.lists l).getD []

/-- A node is in no list, or in some list. -/
def IsNode : Prop := a ∈ D.loose ∨ ∃ l, a ∈ D.seq l

/-- One list gets another sequence, and the nodes in no list are other ones. -/
def edit (zs : List ℕ) (loose : Finset ℕ) : Deques :=
  { D with lists := Function.update D.lists l (some zs), loose := loose }

end Deques

/-- The operations of the library, `list_spush` apart. -/
inductive DequeOp
  | new
  | nodeNew (val : ℕ)
  | destroy (l : ℕ)
  | lpush (l n : ℕ)
  | rpush (l n : ℕ)
  | lpop (l : ℕ)
  | rpop (l : ℕ)
  | remove (l n : ℕ)
  | find (l val : ℕ)
  | at (l : ℕ) (index : BitVec 32)

namespace DequeOp

/-- The operation of the code, with the pointer it returns. -/
def run : DequeOp → MemProg Ptr
  | new => listNew
  | nodeNew val => listNodeNew val
  | destroy l => do
    listDestroy (some l)
    return none
  | lpush l n => listLpush (some l) (some n)
  | rpush l n => listRpush (some l) (some n)
  | lpop l => listLpop (some l)
  | rpop l => listRpop (some l)
  | remove l n => do
    listRemove (some l) (some n)
    return none
  | find l val => listFind (some l) val
  | .at l index => listAt (some l) index

/-- The list exists, a node that is inserted is in no list, and one that is removed is in this
one. -/
def Allows (D : Deques) : DequeOp → Prop
  | new | nodeNew _ => True
  | destroy l | lpop l | rpop l | find l _ | .at l _ => (D.lists l).isSome
  | lpush l n | rpush l n => (D.lists l).isSome ∧ n ∈ D.loose
  | remove l n => n ∈ D.seq l

/-- What the operation returns: a header or a node that was not there, unless its pool is used
up; the end of a list; the first node with a value; the node at an index. -/
def Returns (D : Deques) : DequeOp → Ptr → Prop
  | new, some l => D.lists l = none
  | new, none => ∃ s : Finset ℕ, s.card = udpMaxPort ∧ ∀ l ∈ s, (D.lists l).isSome
  | nodeNew _, some a => ¬ D.IsNode a
  | nodeNew _, none => ∃ s : Finset ℕ, s.card = numSocketsMax ∧ ∀ a ∈ s, D.IsNode a
  | lpush _ n, r | rpush _ n, r => r = some n
  | lpop l, r => r = (D.seq l).head?
  | rpop l, r => r = (D.seq l).getLast?
  | destroy _, r | remove _ _, r => r = none
  | find l val, r => r = (D.seq l).find? fun a => D.val a = val
  | .at l index, r =>
    r = if 0 ≤ index.toInt then (D.seq l)[index.toInt.toNat]?
      else (D.seq l).reverse[(-1 - index.toInt).toNat]?

/-- The deques after the operation has returned a pointer. -/
def after (D : Deques) : DequeOp → Ptr → Deques
  | new, some l => D.edit l [] D.loose
  | nodeNew val, some a =>
    { D with loose := insert a D.loose, val := Function.update D.val a val }
  | destroy l, _ => { D with lists := Function.update D.lists l none }
  | lpush l n, _ => D.edit l (n :: D.seq l) (D.loose.erase n)
  | rpush l n, _ => D.edit l (D.seq l ++ [n]) (D.loose.erase n)
  | lpop l, some a => D.edit l (D.seq l).tail (insert a D.loose)
  | rpop l, some a => D.edit l (D.seq l).dropLast (insert a D.loose)
  | remove l n, _ => D.edit l ((D.seq l).erase n) D.loose
  | _, _ => D

end DequeOp

variable {allowed : Fault → Prop} {m m' : Mem} {l n a : ℕ} {xs ys zs zs' : List ℕ}

open Mem

/-! ## Detaching an end -/

/-- What header and nodes must hold for `n` to have been detached from between `xs` and `ys`. -/
theorem Mem.ListAt.detach (xs ys : List ℕ) (h : m.ListAt l zs) (hzs : xs ++ n :: ys = zs)
    (hzs' : xs ++ ys = zs') (hrest : SameRest m m')
    (hlists : ∀ k ≠ l, m'.listAlloc.cells k = m.listAlloc.cells k)
    (hheader : m'.listAlloc.cells l =
      { head := zs'.head?, tail := zs'.getLast?, len := zs'.length })
    (hval : m'.val n = m.val n)
    (hnodes : ∀ a ≠ n, m'.nodeAlloc.cells a = {
      prev := if ys.head? = some a then m.prev n else m.prev a
      next := if xs.getLast? = some a then m.next n else m.next a
      val := m.val a }) :
    m'.ListAt l zs' ∧ Touches l zs m m' := by
  subst hzs hzs'
  have hout : n ∉ xs ++ ys := (List.nodup_cons.mp (List.nodup_middle.mp h.nodup)).1
  have hne : ∀ a ∈ xs ++ ys, a ≠ n := fun a ha han => hout (han ▸ ha)
  constructor
  · constructor
    · rw [hheader]
    · rw [hheader]
    · rw [hheader]
    · apply h.linked.remove h.nodup
      · exact fun a ha => congrArg ListNode.prev (hnodes a (hne a ha))
      · exact fun a ha => congrArg ListNode.next (hnodes a (hne a ha))
    · exact h.nodup.sublist (by simp)
  · have hvals : ∀ a, m'.val a = m.val a := by
      intro a
      by_cases han : a = n
      · rw [han, hval]
      · rw [Mem.val, hnodes a han]
    refine ⟨hrest, hlists, fun a ha => ?_, funext hvals⟩
    have han : a ≠ n := fun han => ha (by simp [han])
    have hhead : ys.head? ≠ some a := fun hd =>
      ha (by simp [List.mem_of_mem_head? hd])
    have hlast : xs.getLast? ≠ some a := fun hd =>
      ha (by simp [List.mem_of_getLast? hd])
    simp [Mem.prev, Mem.next, hnodes a han, hhead, hlast]

/-- `list_lpop` detaches the first node, if there is one. -/
theorem listLpop_spec (h : m.ListAt l xs) (hlen : xs.length < 2 ^ 32) :
    Prog.wp allowed (listLpop (some l)) (fun r m' => r = xs.head? ∧ m'.ListAt l xs.tail ∧
      Touches l xs m m' ∧ m'.nodeAlloc.mz = m.nodeAlloc.mz) m := by
  have hlength := h.len
  have htail := h.tail
  have hhead := h.head
  cases xs with
  | nil =>
    simp [listLpop, hlength]
    exact ⟨h, ⟨rfl, rfl, rfl, rfl⟩, fun _ _ => rfl, fun _ _ => ⟨rfl, rfl⟩, rfl⟩
  | cons a rest =>
    have hnodup := h.nodup
    have hnext : m.next a = rest.head? := by simpa using h.linked.2.1
    change (m.nodeAlloc.cells a).next = _ at hnext
    have hprev : (m.nodeAlloc.cells a).prev = none := h.linked.1
    cases rest with
    | nil =>
      simp [listLpop, hlength, hhead, u32]
      apply h.detach [] [] rfl rfl
      · constructor <;> rfl
      · exact fun k hk => by simp [Pool.modify_cells, hk]
      · simp [hlength]
      · simp [Mem.val]
      · exact fun b hb => by simp [Pool.modify_cells, hb, Mem.prev, Mem.next, Mem.val]
    | cons b rest =>
      have hab : a ≠ b := by grind
      have hless : u32 (rest.length + 1 + 1 + 4294967295) = rest.length + 1 := by
        simp only [List.length_cons] at hlen
        unfold u32
        omega
      simp [listLpop, hlength, hhead, hnext, hless]
      apply h.detach [] (b :: rest) rfl rfl
      · constructor <;> rfl
      · exact fun k hk => by simp [Pool.modify_cells, hk]
      · simp [hlength, htail, hless]
      · simp [Mem.val, Pool.modify_cells, hab]
      · intro c hc
        by_cases hcb : c = b
        · simp [Pool.modify_cells, hcb, hab.symm, Mem.prev, Mem.next, Mem.val, hprev]
        · simp [Pool.modify_cells, hc, hcb, Ne.symm hcb, Mem.prev, Mem.next, Mem.val]

/-- `list_rpop` detaches the last node, if there is one. -/
theorem listRpop_spec (h : m.ListAt l xs) (hlen : xs.length < 2 ^ 32) :
    Prog.wp allowed (listRpop (some l)) (fun r m' => r = xs.getLast? ∧ m'.ListAt l xs.dropLast ∧
      Touches l xs m m' ∧ m'.nodeAlloc.mz = m.nodeAlloc.mz) m := by
  have hlength := h.len
  have htail := h.tail
  have hhead := h.head
  -- the mirror image: the new last node is the one before
  rcases List.eq_nil_or_concat xs with rfl | ⟨front, a, rfl⟩
  · simp [listRpop, hlength]
    exact ⟨h, ⟨rfl, rfl, rfl, rfl⟩, fun _ _ => rfl, fun _ _ => ⟨rfl, rfl⟩, rfl⟩
  rw [List.concat_eq_append] at *
  have hnodup := h.nodup
  have hprev : m.prev a = front.getLast? := by simpa using h.linked.prev_eq
  have hnext : m.next a = none := by simpa using h.linked.next_eq
  change (m.nodeAlloc.cells a).prev = _ at hprev
  change (m.nodeAlloc.cells a).next = _ at hnext
  rcases List.eq_nil_or_concat front with rfl | ⟨front, b, rfl⟩
  · simp [listRpop, hlength, htail, u32]
    apply h.detach [] [] rfl rfl
    · constructor <;> rfl
    · exact fun k hk => by simp [Pool.modify_cells, hk]
    · simp [hlength]
    · simp [Mem.val]
    · exact fun b hb => by simp [Pool.modify_cells, hb, Mem.prev, Mem.next, Mem.val]
  · rw [List.concat_eq_append] at *
    have hab : a ≠ b := by grind
    have hless : u32 (front.length + 1 + 1 + 4294967295) = front.length + 1 := by
      simp only [List.length_append, List.length_singleton] at hlen
      unfold u32
      omega
    simp [listRpop, hlength, htail, hprev, hless]
    have h : m.ListAt l (front ++ [b, a]) := by simpa using h
    have hsplit : front ++ [b] ++ a :: [] = front ++ [b, a] := by simp
    apply h.detach (front ++ [b]) [] hsplit (by simp)
    · constructor <;> rfl
    · exact fun k hk => by simp [Pool.modify_cells, hk]
    · simp [hlength, hhead, hless]
    · simp [Mem.val, Pool.modify_cells, hab]
    · intro c hc
      by_cases hcb : c = b
      · simp [Pool.modify_cells, hcb, hab.symm, Mem.prev, Mem.next, Mem.val, hnext]
      · simp [Pool.modify_cells, hc, hcb, Ne.symm hcb, Mem.prev, Mem.next, Mem.val]

/-! ## Iterators in both directions -/

/-- The field that an iterator follows. -/
def ListDirection.follow (m : Mem) : ListDirection → ℕ → Ptr
  | .LIST_HEAD => m.next
  | .LIST_TAIL => m.prev

/-- A sequence as an iterator visits it. -/
def ListDirection.visits : ListDirection → List ℕ → List ℕ
  | .LIST_HEAD, xs => xs
  | .LIST_TAIL, xs => xs.reverse

/-- The nodes of a chain, the one to visit last pointing nowhere. -/
def Follows (next : ℕ → Ptr) : List ℕ → Prop
  | [] => True
  | a :: rest => next a = rest.head? ∧ Follows next rest

theorem Follows.tail {next : ℕ → Ptr} (h : Follows next xs) : Follows next xs.tail := by
  cases xs with
  | nil => trivial
  | cons a rest => exact h.2

theorem follows_of_linked {prev next : ℕ → Ptr} {before : Ptr}
    (h : Linked prev next before xs none) : Follows next xs := by
  induction xs generalizing before with
  | nil => trivial
  | cons a rest ih =>
    obtain ⟨-, hnext, hrest⟩ := h
    exact ⟨by simpa using hnext, ih hrest⟩

theorem Mem.ListAt.follows (h : m.ListAt l xs) (direction : ListDirection) :
    Follows (direction.follow m) (direction.visits xs) := by
  cases direction with
  | LIST_HEAD => exact follows_of_linked h.linked
  | LIST_TAIL => exact follows_of_linked h.linked.reverse

/-- `m` while the iterator `it`, taken from the pool `P`, still has to visit `pending`. -/
def Mem.visiting (m : Mem) (P : Pool ListIterator) (it : ℕ) (direction : ListDirection)
    (pending : List ℕ) : Mem :=
  { m with iteratorAlloc :=
      P.modify it fun _ => { next := pending.head?, direction := direction } }

/-- `list_iterator_new`, in either direction. -/
theorem listIteratorNew_visiting (idle : m.iteratorAlloc.Idle) (h : m.ListAt l xs)
    (direction : ListDirection) :
    Prog.wp allowed (listIteratorNew (some l) direction) (fun o m' => ∃ it P, o = some it ∧
      m' = m.visiting P it direction (direction.visits xs) ∧ P.mz.Ok ∧ 0 < P.mz.all.size ∧
        it ∈ P.mz.live ∧ P.mz.live.erase it = ∅) m := by
  obtain ⟨it, mz, halloc, hok, hsame, hnew, hlive⟩ :=
    udpdkShmalloc_spec idle.ok idle.nFree_ne_zero
  have hstart : (if direction = .LIST_HEAD then (m.listAlloc.cells l).head
      else (m.listAlloc.cells l).tail) = (direction.visits xs).head? := by
    cases direction with
    | LIST_HEAD => exact h.head
    | LIST_TAIL => exact h.tail.trans List.head?_reverse.symm
  simp only [listIteratorNew, Prog.wp_bind, wp_load_some, wp_shmalloc, udpdkListTAlloc_get,
    udpdkListIteratorTAlloc_get, halloc, hstart]
  refine ⟨it, m.iteratorAlloc.setMz mz, rfl, rfl, hok, ?_, ?_, ?_⟩
  · exact idle.size.trans_eq hsame.size.symm
  · simp [hlive]
  · simp [hlive, idle.live]

/-- `list_iterator_next`, in either direction. -/
theorem listIteratorNext_visiting {P : Pool ListIterator} {it : ℕ} {direction : ListDirection}
    {pending : List ℕ} (h : Follows (direction.follow m) pending) :
    Prog.wp allowed (listIteratorNext (some it)) (fun o m' => o = pending.head? ∧
      m' = m.visiting P it direction pending.tail) (m.visiting P it direction pending) := by
  cases pending with
  | nil => simp [listIteratorNext, Mem.visiting]
  | cons a rest =>
    have hnext := h.1
    cases direction with
    | LIST_HEAD =>
      change (m.nodeAlloc.cells a).next = _ at hnext
      simp [listIteratorNext, Mem.visiting, hnext, Pool.modify]
    | LIST_TAIL =>
      change (m.nodeAlloc.cells a).prev = _ at hnext
      simp [listIteratorNext, Mem.visiting, hnext, Pool.modify]

/-- The loop of `list_at` ends at the node that lies its number of steps ahead. -/
theorem listAtSteps_spec {P : Pool ListIterator} {it : ℕ} {direction : ListDirection} (k : ℕ)
    {pending : List ℕ} {node : Ptr} (h : Follows (direction.follow m) pending) :
    Prog.wp allowed (listAtSteps (some it) k node) (fun o m' =>
      o = (if k = 0 then node else pending[k - 1]?) ∧
        ∃ rest, m' = m.visiting P it direction rest) (m.visiting P it direction pending) := by
  induction k generalizing pending node with
  | zero => exact ⟨rfl, pending, rfl⟩
  | succ k ih =>
    rw [listAtSteps, Prog.wp_bind]
    apply Prog.wp_mono (listIteratorNext_visiting h)
    rintro o m' ⟨rfl, rfl⟩
    apply Prog.wp_mono (ih h.tail)
    rintro o m' ⟨rfl, hrest⟩
    refine ⟨?_, hrest⟩
    cases k with
    | zero => exact List.head?_eq_getElem?
    | succ k => simp

theorem listAtFrom_spec (idle : m.iteratorAlloc.Idle) (h : m.ListAt l xs)
    (direction : ListDirection) (index : ℕ) :
    Prog.wp allowed (listAtFrom (some l) direction index) (fun r m' =>
      r = (direction.visits xs)[index]? ∧
        ∃ Q : Pool ListIterator, m' = { m with iteratorAlloc := Q } ∧ Q.Idle) m := by
  have hlength : (direction.visits xs).length = xs.length := by
    cases direction with
    | LIST_HEAD => rfl
    | LIST_TAIL => exact List.length_reverse
  rw [listAtFrom, Prog.wp_bind, wp_load_some, udpdkListTAlloc_get, h.len]
  by_cases hindex : index < xs.length
  · rw [if_pos hindex, Prog.wp_bind]
    apply Prog.wp_mono (listIteratorNew_visiting idle h direction)
    rintro o m₁ ⟨it, P, rfl, rfl, hok, hsize, hit, hrest⟩
    have hfollows := h.follows direction
    rw [Prog.wp_bind]
    apply Prog.wp_mono (listIteratorNext_visiting hfollows)
    rintro o m₂ ⟨rfl, rfl⟩
    rw [Prog.wp_bind]
    apply Prog.wp_mono (listAtSteps_spec index hfollows.tail)
    rintro o m₃ ⟨rfl, rest, rfl⟩
    obtain ⟨hok', hsame, hlive⟩ := udpdkShfree_spec hok hit
    refine ⟨?_, _, rfl, ⟨hok', hlive.trans hrest, hsize.trans_eq hsame.size.symm⟩⟩
    cases index with
    | zero => exact List.head?_eq_getElem?
    | succ k => simp
  · rw [if_neg hindex]
    refine ⟨?_, m.iteratorAlloc, rfl, idle⟩
    exact (List.getElem?_eq_none (hlength ▸ Nat.le_of_not_lt hindex)).symm

/-- `list_at` counts from the end that the sign of the index says. -/
theorem listAt_spec (idle : m.iteratorAlloc.Idle) (h : m.ListAt l xs) (index : BitVec 32) :
    Prog.wp allowed (listAt (some l) index) (fun r m' =>
      r = (if 0 ≤ index.toInt then xs[index.toInt.toNat]?
        else xs.reverse[(-1 - index.toInt).toNat]?) ∧
      ∃ Q : Pool ListIterator, m' = { m with iteratorAlloc := Q } ∧ Q.Idle) m := by
  have hlt := index.isLt
  have htoInt := BitVec.toInt_eq_toNat_cond index
  have hsign : index.slt 0 = decide (index.toInt < 0) := rfl
  unfold listAt
  by_cases hneg : index.toInt < 0
  · have hindex : (~~~index).toNat = (-1 - index.toInt).toNat := by
      rw [BitVec.toNat_not]
      split at htoInt
      · omega
      · omega
    rw [hsign, if_pos (decide_eq_true hneg), if_neg (not_le.mpr hneg), hindex]
    exact listAtFrom_spec idle h .LIST_TAIL _
  · have hindex : index.toNat = index.toInt.toNat := by
      split at htoInt
      · omega
      · omega
    rw [hsign, if_neg (by simpa using hneg), if_pos (not_lt.mp hneg), hindex]
    exact listAtFrom_spec idle h .LIST_HEAD _

/-- `list_find` gives the first node with the value. -/
theorem listFind_spec (idle : m.iteratorAlloc.Idle) (h : m.ListAt l xs)
    (hlen : xs.length < scanFuel) (val : ℕ) :
    Prog.wp allowed (listFind (some l) val) (fun r m' => r = xs.find? (fun a => m.val a = val) ∧
      ∃ Q : Pool ListIterator, m' = { m with iteratorAlloc := Q } ∧ Q.Idle) m := by
  rw [listFind, Prog.wp_bind]
  apply Prog.wp_mono (listIteratorNew_spec idle h.head)
  rintro o m₁ ⟨it, P, rfl, rfl, hok, hit, hrest, hsame⟩
  have hsize : 0 < P.mz.all.size := idle.size.trans_eq hsame.size.symm
  have hdestroy : ∀ pending : List ℕ, Prog.wp allowed (listIteratorDestroy (some it))
      (fun _ m' => ∃ Q : Pool ListIterator, m' = { m with iteratorAlloc := Q } ∧ Q.Idle)
      (m.iterating P it pending) := by
    intro pending
    apply Prog.wp_mono (listIteratorDestroy_spec hok hsize hit hrest)
    rintro _ m' ⟨Q, hm', hidle, -⟩
    exact ⟨Q, hm', hidle⟩
  rw [Prog.wp_bind]
  -- what was passed so far does not have the value
  have hscan : Prog.wp allowed (Prog.whileSome .noReturn (listIteratorNext (some it))
      (listFindStep (some it) val) scanFuel none) (fun r m' =>
        r = xs.find? (fun a => m.val a = val) ∧
          if r = none then m' = m.iterating P it []
          else ∃ Q : Pool ListIterator, m' = { m with iteratorAlloc := Q } ∧ Q.Idle)
      (m.iterating P it xs) := by
    apply wp_scan h.linked hlen (fun pending r => r = none ∧
      xs.find? (fun a => m.val a = val) = pending.find? fun a => m.val a = val)
    · exact ⟨rfl, rfl⟩
    · rintro r ⟨rfl, hfind⟩
      exact ⟨hfind.symm, rfl⟩
    · rintro front a rest r - ⟨rfl, hfind⟩
      rw [listFindStep, Prog.wp_bind, wp_load_some]
      have hval : ((udpdkListNodeTAlloc.get (m.iterating P it rest)).cells a).val = m.val a := rfl
      rw [hval]
      by_cases hmatch : m.val a = val
      · rw [if_pos hmatch.symm, Prog.wp_bind]
        apply Prog.wp_mono (hdestroy rest)
        intro _ m' hm'
        refine ⟨?_, ?_⟩
        · rw [hfind, List.find?_cons_of_pos (by simpa using hmatch)]
        · rwa [if_neg (Option.some_ne_none a)]
      · rw [if_neg (Ne.symm hmatch)]
        refine ⟨rfl, rfl, ?_⟩
        rw [hfind, List.find?_cons_of_neg (by simpa using hmatch)]
  apply Prog.wp_mono hscan
  rintro r m' ⟨hr, hm'⟩
  cases r with
  | none =>
    rw [if_pos rfl] at hm'
    subst hm'
    dsimp only
    rw [Prog.wp_bind]
    apply Prog.wp_mono (hdestroy [])
    exact fun _ _ h => ⟨hr, h⟩
  | some a =>
    rw [if_neg (Option.some_ne_none a)] at hm'
    exact ⟨hr, hm'⟩

/-! ## Destruction -/

/-- The loop of `list_destroy` frees the nodes of the list. -/
theorem listDestroyNodes_spec (ok : m.nodeAlloc.mz.Ok) (h : Follows m.next xs)
    (hlive : ∀ a ∈ xs, a ∈ m.nodeAlloc.mz.live) (hnodup : xs.Nodup) :
    Prog.wp allowed (listDestroyNodes xs.length xs.head?) (fun _ m' => ∃ mz : Memzone,
      m' = { m with nodeAlloc := m.nodeAlloc.setMz mz } ∧ mz.Ok ∧
        m.nodeAlloc.mz.SameGeometry mz ∧ mz.live = m.nodeAlloc.mz.live \ xs.toFinset) m := by
  induction xs generalizing m with
  | nil => exact ⟨m.nodeAlloc.mz, rfl, ok, ⟨rfl, rfl, rfl, rfl, rfl⟩, by simp⟩
  | cons a rest ih =>
    obtain ⟨hnext, hrest⟩ := h
    obtain ⟨hout, hnodup⟩ := List.nodup_cons.mp hnodup
    obtain ⟨ok', hsame, hlive'⟩ := udpdkShfree_spec ok (hlive a List.mem_cons_self)
    have hcurr : ((udpdkListNodeTAlloc.get m).cells a).next = rest.head? := hnext
    rw [List.length_cons, List.head?_cons, listDestroyNodes, Prog.wp_bind, wp_load_some,
      Prog.wp_bind, wp_shfree_some, hcurr]
    -- the next node was read before this one was freed
    have hlive₁ : ∀ b ∈ rest, b ∈ (udpdkShfree m.nodeAlloc.mz a).live := by
      intro b hb
      rw [hlive', Finset.mem_erase]
      exact ⟨fun hba => hout (hba ▸ hb), hlive b (List.mem_cons_of_mem a hb)⟩
    apply Prog.wp_mono (ih (m := { m with
      nodeAlloc := m.nodeAlloc.setMz (udpdkShfree m.nodeAlloc.mz a) }) ok' hrest hlive₁ hnodup)
    rintro _ m' ⟨mz, rfl, hok, hgeometry, hmz⟩
    refine ⟨mz, rfl, hok, hsame.trans hgeometry, ?_⟩
    rw [hmz, Pool.setMz_mz, hlive', List.toFinset_cons, Finset.sdiff_insert,
      Finset.erase_sdiff_comm]

/-! ## The representation -/

/-- The memory holds the deques: every list is well formed, a node is in one list at most, and
of headers and nodes just these are allocated. -/
structure Mem.Holds (m : Mem) (D : Deques) : Prop where
  headers : m.listAlloc.mz.Ok
  headerSize : m.listAlloc.mz.all.size = udpMaxPort
  nodes : m.nodeAlloc.mz.Ok
  nodeSize : m.nodeAlloc.mz.all.size = numSocketsMax
  iterators : m.iteratorAlloc.Idle
  list : ∀ l xs, D.lists l = some xs → m.ListAt l xs
  listLive : ∀ l, l ∈ m.listAlloc.mz.live ↔ (D.lists l).isSome
  nodeLive : ∀ a, a ∈ m.nodeAlloc.mz.live ↔ D.IsNode a
  apart : ∀ l, ∀ a ∈ D.seq l, a ∉ D.loose ∧ ∀ k, a ∈ D.seq k → k = l
  val : ∀ a, D.IsNode a → m.val a = D.val a

theorem holds_btableInit (zones : AllocatorZones) : (btableInit zones).Holds .empty := by
  have pools := (rep_btableInit zones).pools
  exact {
    headers := pools.list
    headerSize := pools.listSize
    nodes := pools.node
    nodeSize := pools.nodeSize
    iterators := pools.iterators
    list := fun l xs h => by cases h
    listLive := fun l => by simp [btableInit, Deques.empty]
    nodeLive := fun a => by simp [btableInit, Deques.IsNode, Deques.empty, Deques.seq]
    apart := fun l a ha => by cases ha
    val := fun a ha => by simp [Deques.IsNode, Deques.empty, Deques.seq] at ha }

variable {D : Deques} {loose : Finset ℕ}

@[simp] theorem Deques.seq_edit_self : (D.edit l zs loose).seq l = zs := by
  simp [Deques.seq, Deques.edit]

theorem Deques.seq_edit_of_ne {k : ℕ} (h : k ≠ l) : (D.edit l zs loose).seq k = D.seq k := by
  simp [Deques.seq, Deques.edit, h]

theorem Deques.seq_of_eq_some (h : D.lists l = some xs) : D.seq l = xs := by
  rw [Deques.seq, h, Option.getD_some]

theorem Deques.isNode_edit : (D.edit l zs loose).IsNode a ↔
    a ∈ loose ∨ a ∈ zs ∨ ∃ k ≠ l, a ∈ D.seq k := by
  constructor
  · rintro (h | ⟨k, hk⟩)
    · exact .inl h
    · by_cases hkl : k = l
      · rw [hkl, Deques.seq_edit_self] at hk
        exact .inr (.inl hk)
      · rw [Deques.seq_edit_of_ne hkl] at hk
        exact .inr (.inr ⟨k, hkl, hk⟩)
  · rintro (h | h | ⟨k, hkl, hk⟩)
    · exact .inl h
    · exact .inr ⟨l, by rwa [Deques.seq_edit_self]⟩
    · exact .inr ⟨k, by rwa [Deques.seq_edit_of_ne hkl]⟩

namespace Mem.Holds

variable (h : m.Holds D)

include h

theorem length_le (hl : D.lists l = some xs) : xs.length ≤ numSocketsMax := by
  have hcount := h.nodes.nFree_add_card
  rw [h.nodeSize] at hcount
  calc xs.length = xs.toFinset.card :=
        (List.toFinset_card_of_nodup (h.list l xs hl).nodup).symm
    _ ≤ m.nodeAlloc.mz.live.card := by
      apply Finset.card_le_card
      intro a ha
      refine (h.nodeLive a).mpr (.inr ⟨l, ?_⟩)
      rw [Deques.seq_of_eq_some hl]
      exact List.mem_toFinset.mp ha
    _ ≤ numSocketsMax := by omega

theorem length_lt (hl : D.lists l = some xs) : xs.length + 1 < 2 ^ 32 :=
  (Nat.succ_le_succ (h.length_le hl)).trans_lt (by decide)

theorem not_mem_of_ne (hl : D.lists l = some xs) {k : ℕ} (hkl : k ≠ l) (ha : a ∈ D.seq k) :
    ¬ (a ∈ xs ∨ a ∈ D.loose) := by
  rintro (hxs | hloose)
  · have hal : a ∈ D.seq l := by rwa [Deques.seq_of_eq_some hl]
    exact hkl ((h.apart l a hal).2 k ha)
  · exact (h.apart k a ha).1 hloose

/-- The nodes after an edit, if the list and the nodes in no list have kept all but those gone. -/
theorem isNode_edit_iff {gone : Finset ℕ} (hl : D.lists l = some xs)
    (hgone : ∀ a ∈ gone, a ∈ xs ∨ a ∈ D.loose)
    (hnodes : ∀ a, a ∈ zs ∨ a ∈ loose ↔ (a ∈ xs ∨ a ∈ D.loose) ∧ a ∉ gone) :
    (D.edit l zs loose).IsNode a ↔ D.IsNode a ∧ a ∉ gone := by
  have hown : a ∈ xs ∨ a ∈ D.loose → D.IsNode a := by
    rintro (hxs | hloose)
    · exact .inr ⟨l, by rwa [Deques.seq_of_eq_some hl]⟩
    · exact .inl hloose
  rw [Deques.isNode_edit]
  constructor
  · rintro (ha | ha | ⟨k, hkl, ha⟩)
    · obtain ⟨hold, hout⟩ := (hnodes a).mp (.inr ha)
      exact ⟨hown hold, hout⟩
    · obtain ⟨hold, hout⟩ := (hnodes a).mp (.inl ha)
      exact ⟨hown hold, hout⟩
    · exact ⟨.inr ⟨k, ha⟩, fun hg => h.not_mem_of_ne hl hkl ha (hgone a hg)⟩
  · rintro ⟨hloose | ⟨k, hk⟩, hout⟩
    · obtain hzs | hloose := (hnodes a).mpr ⟨.inr hloose, hout⟩
      · exact .inr (.inl hzs)
      · exact .inl hloose
    · by_cases hkl : k = l
      · rw [hkl, Deques.seq_of_eq_some hl] at hk
        obtain hzs | hloose := (hnodes a).mpr ⟨.inl hk, hout⟩
        · exact .inr (.inl hzs)
        · exact .inl hloose
      · exact .inr (.inr ⟨k, hkl, hk⟩)

/-- After an edit a node is still in one place only. -/
theorem apart_edit (hl : D.lists l = some xs)
    (hnodes : ∀ a, a ∈ zs ∨ a ∈ loose → a ∈ xs ∨ a ∈ D.loose) (hapart : ∀ a ∈ zs, a ∉ loose)
    {k : ℕ} (ha : a ∈ (D.edit l zs loose).seq k) :
    a ∉ loose ∧ ∀ j, a ∈ (D.edit l zs loose).seq j → j = k := by
  by_cases hkl : k = l
  · rw [hkl, Deques.seq_edit_self] at ha
    refine ⟨hapart a ha, fun j hj => ?_⟩
    by_contra hjk
    have hjl : j ≠ l := fun hjl => hjk (hjl.trans hkl.symm)
    rw [Deques.seq_edit_of_ne hjl] at hj
    exact h.not_mem_of_ne hl hjl hj (hnodes a (.inl ha))
  · rw [Deques.seq_edit_of_ne hkl] at ha
    have hout := h.not_mem_of_ne hl hkl ha
    refine ⟨fun hloose => hout (hnodes a (.inr hloose)), fun j hj => ?_⟩
    by_cases hjl : j = l
    · rw [hjl, Deques.seq_edit_self] at hj
      exact absurd (hnodes a (.inl hj)) hout
    · rw [Deques.seq_edit_of_ne hjl] at hj
      exact (h.apart k a ha).2 j hj

/-- **One list is edited.** Only its header, its nodes and those in no list were touched, and
the nodes `gone` were freed. -/
theorem edit (gone : Finset ℕ) (hl : D.lists l = some xs) {ns : List ℕ} {live : Finset ℕ}
    (hlist : m'.ListAt l zs) (touches : Touches l ns m m')
    (hns : ∀ a ∈ ns, a ∈ xs ∨ a ∈ D.loose)
    (hnode : m.nodeAlloc.Becomes m'.nodeAlloc live) (hlive : live = m.nodeAlloc.mz.live \ gone)
    (hgone : ∀ a ∈ gone, a ∈ xs ∨ a ∈ D.loose)
    (hnodes : ∀ a, a ∈ zs ∨ a ∈ loose ↔ (a ∈ xs ∨ a ∈ D.loose) ∧ a ∉ gone)
    (hapart : ∀ a ∈ zs, a ∉ loose) : m'.Holds (D.edit l zs loose) := by
  exact {
    headers := touches.listMz ▸ h.headers
    headerSize := touches.listMz ▸ h.headerSize
    nodes := hnode.ok
    nodeSize := hnode.size.trans h.nodeSize
    iterators := touches.iteratorAlloc ▸ h.iterators
    list := by
      intro k ys hk
      by_cases hkl : k = l
      · subst hkl
        obtain rfl : zs = ys := by simpa [Deques.edit] using hk
        exact hlist
      · have hk : D.lists k = some ys := by simpa [Deques.edit, hkl] using hk
        refine (h.list k ys hk).congr (touches.header k hkl) fun a ha => touches.links a ?_
        have hak : a ∈ D.seq k := by rwa [Deques.seq_of_eq_some hk]
        exact fun hans => h.not_mem_of_ne hl hkl hak (hns a hans)
    listLive := by
      intro k
      rw [touches.listMz, h.listLive]
      by_cases hkl : k = l
      · simp [Deques.edit, hkl, hl]
      · simp [Deques.edit, hkl]
    nodeLive := by
      intro a
      rw [hnode.live, hlive, Finset.mem_sdiff, h.nodeLive, h.isNode_edit_iff hl hgone hnodes]
    apart := fun k a ha => h.apart_edit hl (fun a ha => ((hnodes a).mp ha).1) hapart ha
    val := by
      intro a ha
      rw [touches.val]
      exact h.val a ((h.isNode_edit_iff hl hgone hnodes).mp ha).1 }

/-- Taking an iterator and giving it back. -/
theorem withIterators {Q : Pool ListIterator} (idle : Q.Idle) :
    { m with iteratorAlloc := Q }.Holds D where
  headers := h.headers
  headerSize := h.headerSize
  nodes := h.nodes
  nodeSize := h.nodeSize
  iterators := idle
  list l xs hl := (h.list l xs hl).congr rfl fun _ _ => ⟨rfl, rfl⟩
  listLive := h.listLive
  nodeLive := h.nodeLive
  apart := h.apart
  val := h.val

/-- **A new list** with a header that was not allocated. -/
theorem newList {L : Pool UdpdkList} (hl : l ∉ m.listAlloc.mz.live)
    (hbecomes : m.listAlloc.Becomes L (insert l m.listAlloc.mz.live))
    (hnew : L.cells l = { head := none, tail := none, len := 0 })
    (hold : ∀ k ≠ l, L.cells k = m.listAlloc.cells k) :
    { m with listAlloc := L }.Holds (D.edit l [] D.loose) := by
  have hnone : D.lists l = none := by
    rw [h.listLive] at hl
    simpa using hl
  have hseq : ∀ k, (D.edit l [] D.loose).seq k = D.seq k := by
    intro k
    by_cases hkl : k = l
    · rw [hkl, Deques.seq_edit_self, Deques.seq, hnone, Option.getD_none]
    · exact Deques.seq_edit_of_ne hkl
  have hisNode : ∀ a, (D.edit l [] D.loose).IsNode a ↔ D.IsNode a := by
    intro a
    simp only [Deques.IsNode, hseq]
    exact Iff.rfl
  exact {
    headers := hbecomes.ok
    headerSize := hbecomes.size.trans h.headerSize
    nodes := h.nodes
    nodeSize := h.nodeSize
    iterators := h.iterators
    list := by
      intro k ys hk
      by_cases hkl : k = l
      · subst hkl
        obtain rfl : [] = ys := by simpa [Deques.edit] using hk
        exact ⟨congrArg UdpdkList.head hnew, congrArg UdpdkList.tail hnew,
          congrArg UdpdkList.len hnew, linked_nil, List.nodup_nil⟩
      · have hk : D.lists k = some ys := by simpa [Deques.edit, hkl] using hk
        exact (h.list k ys hk).congr (hold k hkl) fun _ _ => ⟨rfl, rfl⟩
    listLive := by
      intro k
      rw [hbecomes.live, Finset.mem_insert, h.listLive]
      by_cases hkl : k = l
      · simp [Deques.edit, hkl]
      · simp [Deques.edit, hkl]
    nodeLive := fun a => (h.nodeLive a).trans (hisNode a).symm
    apart := by
      simp only [hseq]
      exact h.apart
    val := fun a ha => h.val a ((hisNode a).mp ha) }

/-- **A new node**, in no list. -/
theorem newNode {N : Pool ListNode} {v : ℕ} (ha : a ∉ m.nodeAlloc.mz.live)
    (hbecomes : m.nodeAlloc.Becomes N (insert a m.nodeAlloc.mz.live))
    (hnew : (N.cells a).val = v) (hold : ∀ b ≠ a, N.cells b = m.nodeAlloc.cells b) :
    { m with nodeAlloc := N }.Holds
      { D with loose := insert a D.loose, val := Function.update D.val a v } := by
  have hout : ¬ D.IsNode a := fun hnode => ha ((h.nodeLive a).mpr hnode)
  have hne : ∀ l, ∀ b ∈ D.seq l, b ≠ a := fun l b hb hba => hout (.inr ⟨l, hba ▸ hb⟩)
  have hisNode : ∀ b, Deques.IsNode { D with
      loose := insert a D.loose, val := Function.update D.val a v } b ↔ b = a ∨ D.IsNode b := by
    intro b
    simp only [Deques.IsNode, Finset.mem_insert, or_assoc]
    exact Iff.rfl
  exact {
    headers := h.headers
    headerSize := h.headerSize
    nodes := hbecomes.ok
    nodeSize := hbecomes.size.trans h.nodeSize
    iterators := h.iterators
    list := by
      intro l xs hl
      change D.lists l = some xs at hl
      refine (h.list l xs hl).congr rfl fun b hb => ?_
      have hb : b ∈ D.seq l := by rwa [Deques.seq_of_eq_some hl]
      exact ⟨congrArg ListNode.prev (hold b (hne l b hb)),
        congrArg ListNode.next (hold b (hne l b hb))⟩
    listLive := h.listLive
    nodeLive := by
      intro b
      rw [hbecomes.live, Finset.mem_insert, h.nodeLive, hisNode]
    apart := by
      intro l b hb
      obtain ⟨hloose, honly⟩ := h.apart l b hb
      refine ⟨?_, honly⟩
      rw [Finset.mem_insert]
      rintro (hba | hb')
      · exact hne l b hb hba
      · exact hloose hb'
    val := by
      intro b hb
      by_cases hba : b = a
      · subst hba
        exact hnew.trans (Function.update_self b v D.val).symm
      · have hb := ((hisNode b).mp hb).resolve_left hba
        have hval : N.cells b = m.nodeAlloc.cells b := hold b hba
        exact (congrArg ListNode.val hval).trans ((h.val b hb).trans
          (Function.update_of_ne hba v D.val).symm) }

/-- **A list dropped** with its nodes. -/
theorem dropList (hl : D.lists l = some xs) {L : Pool UdpdkList} {N : Pool ListNode}
    (hlists : m.listAlloc.Becomes L (m.listAlloc.mz.live.erase l))
    (hnodes : m.nodeAlloc.Becomes N (m.nodeAlloc.mz.live \ xs.toFinset))
    (hheaders : L.cells = m.listAlloc.cells) (hcells : N.cells = m.nodeAlloc.cells) :
    { m with listAlloc := L, nodeAlloc := N }.Holds
      { D with lists := Function.update D.lists l none } := by
  have hseq : ∀ k, Deques.seq { D with lists := Function.update D.lists l none } k =
      if k = l then [] else D.seq k := by
    intro k
    by_cases hkl : k = l
    · simp [Deques.seq, hkl]
    · simp [Deques.seq, hkl]
  have hxs : ∀ a, a ∈ xs ↔ a ∈ D.seq l := by
    intro a
    rw [Deques.seq_of_eq_some hl]
  have hisNode : ∀ a, Deques.IsNode { D with lists := Function.update D.lists l none } a ↔
      D.IsNode a ∧ a ∉ xs := by
    intro a
    unfold Deques.IsNode
    simp only [hseq]
    constructor
    · rintro (hloose | ⟨k, hk⟩)
      · exact ⟨.inl hloose, fun ha => (h.apart l a ((hxs a).mp ha)).1 hloose⟩
      · split at hk
        · cases hk
        · rename_i hkl
          exact ⟨.inr ⟨k, hk⟩, fun ha => hkl ((h.apart l a ((hxs a).mp ha)).2 k hk)⟩
    · rintro ⟨hloose | ⟨k, hk⟩, hout⟩
      · exact .inl hloose
      · have hkl : k ≠ l := fun hkl => hout ((hxs a).mpr (hkl ▸ hk))
        exact .inr ⟨k, by rwa [if_neg hkl]⟩
  exact {
    headers := hlists.ok
    headerSize := hlists.size.trans h.headerSize
    nodes := hnodes.ok
    nodeSize := hnodes.size.trans h.nodeSize
    iterators := h.iterators
    list := by
      intro k ys hk
      have hkl : k ≠ l := by
        rintro rfl
        simp at hk
      have hk : D.lists k = some ys := by simpa [hkl] using hk
      refine (h.list k ys hk).congr (congrFun hheaders k) fun a _ => ?_
      exact ⟨congrArg ListNode.prev (congrFun hcells a), congrArg ListNode.next (congrFun hcells a)⟩
    listLive := by
      intro k
      rw [hlists.live, Finset.mem_erase, h.listLive]
      by_cases hkl : k = l
      · simp [hkl]
      · simp [hkl]
    nodeLive := by
      intro a
      rw [hnodes.live, Finset.mem_sdiff, List.mem_toFinset, h.nodeLive, hisNode]
    apart := by
      intro k a ha
      rw [hseq] at ha
      split at ha
      · cases ha
      · obtain ⟨hloose, honly⟩ := h.apart k a ha
        refine ⟨hloose, fun j hj => ?_⟩
        rw [hseq] at hj
        split at hj
        · cases hj
        · exact honly j hj
    val := by
      intro a ha
      have hval : N.cells a = m.nodeAlloc.cells a := congrFun hcells a
      exact (congrArg ListNode.val hval).trans (h.val a ((hisNode a).mp ha).1) }

end Mem.Holds

/-! ## One operation -/

theorem Deques.seq_eq_of_isSome (h : (D.lists l).isSome) : D.lists l = some (D.seq l) := by
  obtain ⟨xs, hxs⟩ := Option.isSome_iff_exists.mp h
  rw [hxs, Deques.seq_of_eq_some hxs]

theorem Deques.isSome_of_mem_seq (h : a ∈ D.seq l) : (D.lists l).isSome := by
  unfold Deques.seq at h
  cases hl : D.lists l with
  | none => rw [hl] at h; cases h
  | some xs => rfl

theorem becomes_of_mz_eq {P P' : Pool ListNode} (ok : P.mz.Ok) (hmz : P'.mz = P.mz) :
    P.Becomes P' P.mz.live := by
  constructor
  · rw [hmz]
    exact ok
  · rw [hmz]
  · rw [hmz]

theorem returns_listLpush (l n : ℕ) :
    Prog.wp (fun _ => True) (listLpush (some l) (some n)) (fun r _ => r = some n) m := by
  rw [listLpush, if_neg (Option.some_ne_none n), Prog.wp_bind, wp_load_some]
  split
  · cases ((udpdkListTAlloc.get m).cells l).head with
    | none => trivial
    | some a => rfl
  · rfl

theorem returns_listRpush (l n : ℕ) :
    Prog.wp (fun _ => True) (listRpush (some l) (some n)) (fun r _ => r = some n) m := by
  rw [listRpush, if_neg (Option.some_ne_none n), Prog.wp_bind, wp_load_some]
  split
  · cases ((udpdkListTAlloc.get m).cells l).tail with
    | none => trivial
    | some a => rfl
  · rfl

namespace Mem.Holds

/-- A node that was in no list is linked in. -/
theorem insert (h : m.Holds D) (hl : D.lists l = some xs) (hn : n ∈ D.loose)
    (hlist : m'.ListAt l zs) (touches : Touches l (n :: xs) m m')
    (hmz : m'.nodeAlloc.mz = m.nodeAlloc.mz) (hzs : ∀ a, a ∈ zs ↔ a = n ∨ a ∈ xs) :
    m'.Holds (D.edit l zs (D.loose.erase n)) := by
  have hxs : ∀ a ∈ xs, a ∉ D.loose := fun a ha =>
    (h.apart l a (by rwa [Deques.seq_of_eq_some hl])).1
  apply h.edit ∅ hl hlist touches ?_ (becomes_of_mz_eq h.nodes hmz) (by simp) (by simp)
  · intro a
    rw [hzs, Finset.mem_erase]
    by_cases han : a = n
    · simp [han, hn]
    · simp [han]
  · intro a ha
    rw [Finset.mem_erase]
    rintro ⟨han, hloose⟩
    exact hxs a (((hzs a).mp ha).resolve_left han) hloose
  · intro a ha
    obtain rfl | ha := List.mem_cons.mp ha
    · exact .inr hn
    · exact .inl ha

theorem new (h : m.Holds D) : Prog.wp allowed listNew (fun r m' =>
    DequeOp.new.Returns D r ∧ m'.Holds (DequeOp.new.after D r)) m := by
  by_cases hfree : m.listAlloc.mz.all.nFree = 0
  · -- nothing is left to allocate: the headers in use are as many as there are
    simp only [listNew, Prog.wp_bind, wp_shmalloc, udpdkListTAlloc_get, udpdkShmalloc_full hfree]
    refine ⟨⟨m.listAlloc.mz.live, ?_, fun l hl => (h.listLive l).mp hl⟩, h⟩
    have hcount := h.headers.nFree_add_card
    rw [hfree, h.headerSize] at hcount
    omega
  · obtain ⟨l, mz, halloc, hok, hsame, hnew, hlive⟩ := udpdkShmalloc_spec h.headers hfree
    simp only [listNew, Prog.wp_bind, wp_shmalloc, udpdkListTAlloc_get, halloc]
    have hnone : D.lists l = none := by simpa [h.listLive] using hnew
    refine ⟨hnone, h.newList (l := l) hnew ⟨hok, hsame.size, hlive⟩ ?_ ?_⟩
    · exact Pool.modify_cells_self ..
    · exact fun k hk => Pool.modify_cells_of_ne _ _ hk

theorem nodeNew (h : m.Holds D) (val : ℕ) : Prog.wp allowed (listNodeNew val) (fun r m' =>
    (DequeOp.nodeNew val).Returns D r ∧ m'.Holds ((DequeOp.nodeNew val).after D r)) m := by
  by_cases hfree : m.nodeAlloc.mz.all.nFree = 0
  · simp only [listNodeNew, Prog.wp_bind, wp_shmalloc, udpdkListNodeTAlloc_get,
      udpdkShmalloc_full hfree]
    refine ⟨⟨m.nodeAlloc.mz.live, ?_, fun a ha => (h.nodeLive a).mp ha⟩, h⟩
    have hcount := h.nodes.nFree_add_card
    rw [hfree, h.nodeSize] at hcount
    omega
  · obtain ⟨a, mz, halloc, hok, hsame, hnew, hlive⟩ := udpdkShmalloc_spec h.nodes hfree
    simp only [listNodeNew, Prog.wp_bind, wp_shmalloc, udpdkListNodeTAlloc_get, halloc]
    refine ⟨fun hnode => hnew ((h.nodeLive a).mpr hnode),
      h.newNode (a := a) hnew ⟨hok, hsame.size, hlive⟩ ?_ ?_⟩
    · exact congrArg ListNode.val (Pool.modify_cells_self ..)
    · exact fun b hb => Pool.modify_cells_of_ne _ _ hb

theorem destroy (h : m.Holds D) (hl : D.lists l = some xs) :
    Prog.wp allowed (listDestroy (some l))
      (fun _ m' => m'.Holds { D with lists := Function.update D.lists l none }) m := by
  have hlist := h.list l xs hl
  have hnodes : ∀ a ∈ xs, a ∈ m.nodeAlloc.mz.live := by
    intro a ha
    refine (h.nodeLive a).mpr (.inr ⟨l, ?_⟩)
    rwa [Deques.seq_of_eq_some hl]
  have hheader : l ∈ m.listAlloc.mz.live := (h.listLive l).mpr (by rw [hl]; rfl)
  obtain ⟨hok, hsame, hlive⟩ := udpdkShfree_spec h.headers hheader
  rw [listDestroy, Prog.wp_bind, wp_load_some, udpdkListTAlloc_get, hlist.len, hlist.head,
    Prog.wp_bind]
  apply Prog.wp_mono
    (listDestroyNodes_spec h.nodes (follows_of_linked hlist.linked) hnodes hlist.nodup)
  rintro _ m' ⟨mz, rfl, hok', hsame', hlive'⟩
  exact h.dropList hl ⟨hok, hsame.size, hlive⟩ ⟨hok', hsame'.size, hlive'⟩ rfl rfl

theorem lpush (h : m.Holds D) (hl : D.lists l = some xs) (hn : n ∈ D.loose) :
    Prog.wp allowed (listLpush (some l) (some n)) (fun r m' => r = some n ∧
      m'.Holds (D.edit l (n :: xs) (D.loose.erase n))) m := by
  have hout : n ∉ xs := fun hnxs =>
    (h.apart l n (by rwa [Deques.seq_of_eq_some hl])).1 hn
  apply Prog.wp_mono (Prog.wp_and (listLpush_spec (h.list l xs hl) hout (h.length_lt hl))
    (returns_listLpush l n))
  rintro r m' ⟨⟨hlist, touches, hmz⟩, hr⟩
  refine ⟨hr, h.insert hl hn hlist touches hmz ?_⟩
  simp

theorem rpush (h : m.Holds D) (hl : D.lists l = some xs) (hn : n ∈ D.loose) :
    Prog.wp allowed (listRpush (some l) (some n)) (fun r m' => r = some n ∧
      m'.Holds (D.edit l (xs ++ [n]) (D.loose.erase n))) m := by
  have hout : n ∉ xs := fun hnxs =>
    (h.apart l n (by rwa [Deques.seq_of_eq_some hl])).1 hn
  apply Prog.wp_mono (Prog.wp_and (listRpush_spec (h.list l xs hl) hout (h.length_lt hl))
    (returns_listRpush l n))
  rintro r m' ⟨⟨hlist, touches, hmz⟩, hr⟩
  refine ⟨hr, h.insert hl hn hlist touches hmz ?_⟩
  simp [or_comm]

/-- An end was detached, or there was none. -/
theorem detached (h : m.Holds D) (hl : D.lists l = some xs) (hlist : m'.ListAt l zs)
    (touches : Touches l xs m m') (hmz : m'.nodeAlloc.mz = m.nodeAlloc.mz)
    (hzs : ∀ b, b ∈ xs ↔ b = a ∨ b ∈ zs) (hout : a ∉ zs) :
    m'.Holds (D.edit l zs (Insert.insert a D.loose)) := by
  have hxs : ∀ b ∈ xs, b ∉ D.loose := fun b hb =>
    (h.apart l b (by rwa [Deques.seq_of_eq_some hl])).1
  apply h.edit ∅ hl hlist touches (fun b hb => .inl hb) (becomes_of_mz_eq h.nodes hmz)
    (by simp) (by simp)
  · intro b
    rw [hzs, Finset.mem_insert]
    by_cases hba : b = a
    · simp [hba]
    · simp [hba]
  · intro b hb
    rw [Finset.mem_insert]
    rintro (hba | hloose)
    · exact hout (hba ▸ hb)
    · exact hxs b ((hzs b).mpr (.inr hb)) hloose

theorem edit_self (h : m.Holds D) (hl : D.lists l = some xs) (hlist : m'.ListAt l xs)
    (touches : Touches l xs m m') (hmz : m'.nodeAlloc.mz = m.nodeAlloc.mz) : m'.Holds D := by
  have hsame : D.edit l xs D.loose = D := by
    rw [Deques.edit, ← hl, Function.update_eq_self]
  rw [← hsame]
  exact h.edit ∅ hl hlist touches (fun b hb => .inl hb)
    (becomes_of_mz_eq h.nodes hmz) (by simp) (by simp) (by simp)
    fun a ha => (h.apart l a (by rwa [Deques.seq_of_eq_some hl])).1

theorem lpop (h : m.Holds D) (hl : D.lists l = some xs) :
    Prog.wp allowed (listLpop (some l)) (fun r m' => r = xs.head? ∧ m'.Holds (match r with
      | some a => D.edit l xs.tail (Insert.insert a D.loose)
      | none => D)) m := by
  have hnodup := (h.list l xs hl).nodup
  have hlen : xs.length < 2 ^ 32 := Nat.lt_of_succ_lt (h.length_lt hl)
  apply Prog.wp_mono (listLpop_spec (h.list l xs hl) hlen)
  rintro r m' ⟨rfl, hlist, touches, hmz⟩
  refine ⟨rfl, ?_⟩
  cases xs with
  | nil => exact h.edit_self hl hlist touches hmz
  | cons a rest =>
    have hout : a ∉ rest := (List.nodup_cons.mp hnodup).1
    exact h.detached hl hlist touches hmz (fun b => List.mem_cons) hout

theorem rpop (h : m.Holds D) (hl : D.lists l = some xs) :
    Prog.wp allowed (listRpop (some l)) (fun r m' => r = xs.getLast? ∧ m'.Holds (match r with
      | some a => D.edit l xs.dropLast (Insert.insert a D.loose)
      | none => D)) m := by
  have hnodup := (h.list l xs hl).nodup
  have hlen : xs.length < 2 ^ 32 := Nat.lt_of_succ_lt (h.length_lt hl)
  apply Prog.wp_mono (listRpop_spec (h.list l xs hl) hlen)
  rintro r m' ⟨rfl, hlist, touches, hmz⟩
  refine ⟨rfl, ?_⟩
  rcases List.eq_nil_or_concat xs with rfl | ⟨front, a, rfl⟩
  · exact h.edit_self hl hlist touches hmz
  · rw [List.concat_eq_append] at *
    rw [List.dropLast_concat] at *
    rw [List.getLast?_concat]
    have hout : a ∉ front := fun ha =>
      (List.nodup_append.mp hnodup).2.2 a ha a (List.mem_singleton_self a) rfl
    exact h.detached hl hlist touches hmz (fun b => by simp [or_comm]) hout

theorem remove (h : m.Holds D) (hl : D.lists l = some xs) (hn : n ∈ xs) :
    Prog.wp allowed (listRemove (some l) (some n))
      (fun _ m' => m'.Holds (D.edit l (xs.erase n) D.loose)) m := by
  obtain ⟨front, back, rfl⟩ := List.append_of_mem hn
  have hnodup := (h.list l _ hl).nodup
  have hfront : n ∉ front := fun hn =>
    (List.nodup_append.mp hnodup).2.2 n hn n List.mem_cons_self rfl
  have hout : n ∉ front ++ back := (List.nodup_cons.mp (List.nodup_middle.mp hnodup)).1
  have hseq : ∀ a ∈ front ++ n :: back, a ∈ D.seq l := by
    rw [Deques.seq_of_eq_some hl]
    exact fun a ha => ha
  have hlive : n ∈ m.nodeAlloc.mz.live := (h.nodeLive n).mpr (.inr ⟨l, hseq n hn⟩)
  have hlen : (front ++ n :: back).length < 2 ^ 32 := Nat.lt_of_succ_lt (h.length_lt hl)
  rw [List.erase_append_right _ hfront, List.erase_cons_head]
  apply Prog.wp_mono (listRemove_spec (h.list l _ hl) hlen)
  rintro _ m' ⟨hlist, touches, hmz⟩
  obtain ⟨hok, hsame, hfreed⟩ := udpdkShfree_spec h.nodes hlive
  have hmem : ∀ a, a ∈ front ++ n :: back ↔ a = n ∨ a ∈ front ++ back := by
    intro a
    rw [List.mem_append, List.mem_cons, List.mem_append]
    tauto
  apply h.edit {n} hl hlist touches
  · exact fun a ha => .inl ((hmem a).mpr (.inr ha))
  · constructor
    · rw [hmz]
      exact hok
    · rw [hmz]
      exact hsame.size
    · rw [hmz, hfreed, Finset.erase_eq]
  · rfl
  · intro a ha
    rw [Finset.mem_singleton.mp ha]
    exact .inl hn
  · intro a
    rw [hmem, Finset.mem_singleton]
    by_cases han : a = n
    · have hloose := (h.apart l n (hseq n hn)).1
      simp [han, hout, hloose]
    · simp [han]
  · exact fun a ha => (h.apart l a (hseq a ((hmem a).mpr (.inr ha)))).1

end Mem.Holds

/-- **One operation.** One that is allowed returns what the deques say, and leaves the deques
that they say. -/
theorem DequeOp.run_spec (h : m.Holds D) (op : DequeOp) (hop : op.Allows D) :
    Prog.wp allowed op.run (fun r m' => op.Returns D r ∧ m'.Holds (op.after D r)) m := by
  cases op with
  | new => exact h.new
  | nodeNew val => exact h.nodeNew val
  | destroy l =>
    rw [run, Prog.wp_bind]
    apply Prog.wp_mono (h.destroy (Deques.seq_eq_of_isSome hop))
    exact fun _ m' h' => ⟨rfl, h'⟩
  | lpush l n => exact h.lpush (Deques.seq_eq_of_isSome hop.1) hop.2
  | rpush l n => exact h.rpush (Deques.seq_eq_of_isSome hop.1) hop.2
  | lpop l =>
    apply Prog.wp_mono (h.lpop (Deques.seq_eq_of_isSome hop))
    rintro r m' ⟨hr, h'⟩
    cases r with
    | none => exact ⟨hr, h'⟩
    | some a => exact ⟨hr, h'⟩
  | rpop l =>
    apply Prog.wp_mono (h.rpop (Deques.seq_eq_of_isSome hop))
    rintro r m' ⟨hr, h'⟩
    cases r with
    | none => exact ⟨hr, h'⟩
    | some a => exact ⟨hr, h'⟩
  | remove l n =>
    have hl := Deques.seq_eq_of_isSome (Deques.isSome_of_mem_seq hop)
    rw [run, Prog.wp_bind]
    apply Prog.wp_mono (h.remove hl hop)
    exact fun _ m' h' => ⟨rfl, h'⟩
  | find l val =>
    have hl := Deques.seq_eq_of_isSome hop
    have hlen : (D.seq l).length < scanFuel := Nat.lt_of_succ_lt (h.length_lt hl)
    apply Prog.wp_mono (listFind_spec h.iterators (h.list l _ hl) hlen val)
    rintro r m' ⟨rfl, Q, rfl, idle⟩
    refine ⟨?_, h.withIterators idle⟩
    apply List.find?_congr
    intro a ha
    rw [h.val a (.inr ⟨l, ha⟩)]
  | «at» l index =>
    have hl := Deques.seq_eq_of_isSome hop
    apply Prog.wp_mono (listAt_spec h.iterators (h.list l _ hl) index)
    rintro r m' ⟨hr, Q, rfl, idle⟩
    exact ⟨hr, h.withIterators idle⟩

/-! ## Sequences of operations -/

/-- The memory, and the deques it is to hold. -/
structure DequeState where
  mem : Mem
  deques : Deques

/-- The operation is made where it is allowed, and returns the pointer. -/
def DequeOp.Step (call : DequeOp × Ptr) (s t : DequeState) : Prop :=
  call.1.Allows s.deques ∧ call.1.run s.mem = .ok (call.2, t.mem) ∧
    t.deques = call.1.after s.deques call.2

/-- **The list library is a set of deques.** From fresh pools on, after any sequence of
operations that were allowed where they were made, every list in memory is the deque it should
be, in both directions, and every operation that is allowed now returns, with what it should
return: it follows no null pointer, it does not loop, and it leaves the other lists alone. -/
theorem list_library_refines (zones : AllocatorZones) {log : List (DequeOp × Ptr)}
    {s : DequeState} (run : Run DequeOp.Step ⟨btableInit zones, .empty⟩ log s) :
    (∀ l xs, s.deques.lists l = some xs → s.mem.Represents l xs) ∧
    ∀ op : DequeOp, op.Allows s.deques → ∃ r t, DequeOp.Step (op, r) s t ∧
      op.Returns s.deques r := by
  have h : s.mem.Holds s.deques := by
    apply run.invariant (fun _ s => s.mem.Holds s.deques) (holds_btableInit zones)
    rintro log s ⟨op, r⟩ t - h ⟨hop, hrun, ht⟩
    have spec : Prog.wp (fun _ => True) op.run _ s.mem := op.run_spec h hop
    have hafter := (Prog.wp_of_ok spec hrun).2
    exact ht ▸ hafter
  constructor
  · intro l xs hl
    exact (h.list l xs hl).represents (Nat.lt_of_succ_lt (h.length_lt hl))
  · intro op hop
    have spec : Prog.wp (fun _ => False) op.run _ s.mem := op.run_spec h hop
    obtain ⟨r, m', hrun, hreturns, -⟩ := Prog.exists_ok_of_wp spec
    exact ⟨r, ⟨m', op.after s.deques r⟩, ⟨hop, hrun, rfl⟩, hreturns⟩

/-- A list with one node, which is found by its value and is the last one. -/
theorem list_library_refines_of_one : ∃ (log : List (DequeOp × Ptr)) (s : DequeState) (l a : ℕ),
    Run DequeOp.Step ⟨btableInit ⟨0, 0, 0, 0⟩, .empty⟩ log s ∧ s.mem.Represents l [a] ∧
      (∃ t, DequeOp.Step (.find l 7, some a) s t) ∧ ∃ t, DequeOp.Step (.at l (-1), some a) s t := by
  obtain ⟨r, s₁, hstep₁, hnew⟩ := (list_library_refines ⟨0, 0, 0, 0⟩ .nil).2 .new trivial
  obtain ⟨l, rfl⟩ : ∃ l, r = some l := by
    cases r with
    | some l => exact ⟨l, rfl⟩
    | none =>
      obtain ⟨t, hcard, ht⟩ := hnew
      obtain ⟨l, hl⟩ : t.Nonempty := Finset.card_pos.mp (by rw [hcard]; decide)
      cases ht l hl
  have hs₁ : s₁.deques = Deques.edit .empty l [] ∅ := hstep₁.2.2
  have run₁ := Run.single hstep₁
  obtain ⟨r, s₂, hstep₂, hnode⟩ := (list_library_refines ⟨0, 0, 0, 0⟩ run₁).2 (.nodeNew 7) trivial
  have hnone : ∀ a, ¬ s₁.deques.IsNode a := by
    intro a
    rw [hs₁, Deques.isNode_edit]
    simp [Deques.empty, Deques.seq]
  obtain ⟨a, rfl⟩ : ∃ a, r = some a := by
    cases r with
    | some a => exact ⟨a, rfl⟩
    | none =>
      obtain ⟨t, hcard, ht⟩ := hnode
      obtain ⟨a, ha⟩ : t.Nonempty := Finset.card_pos.mp (by rw [hcard]; decide)
      exact absurd (ht a ha) (hnone a)
  have hs₂ : s₂.deques = { s₁.deques with
      loose := insert a s₁.deques.loose, val := Function.update s₁.deques.val a 7 } := hstep₂.2.2
  have run₂ := run₁.snoc hstep₂
  have hallowed : (DequeOp.lpush l a).Allows s₂.deques := by
    rw [hs₂, hs₁]
    exact ⟨by simp [Deques.edit], Finset.mem_insert_self a _⟩
  obtain ⟨r, s₃, hstep₃, hr⟩ := (list_library_refines ⟨0, 0, 0, 0⟩ run₂).2 (.lpush l a) hallowed
  have run₃ := run₂.snoc hstep₃
  have hseq₂ : s₂.deques.seq l = [] := by
    rw [hs₂, hs₁]
    simp [Deques.seq, Deques.edit]
  have hs₃ : s₃.deques = s₂.deques.edit l [a] (s₂.deques.loose.erase a) := by
    rw [hstep₃.2.2, DequeOp.after, hseq₂]
  have hlists : s₃.deques.lists l = some [a] := by
    rw [hs₃]
    exact Function.update_self ..
  have hseq : s₃.deques.seq l = [a] := Deques.seq_of_eq_some hlists
  have hval : s₃.deques.val a = 7 := by
    rw [hs₃, hs₂]
    exact Function.update_self ..
  have refines := list_library_refines ⟨0, 0, 0, 0⟩ run₃
  have hsome : (s₃.deques.lists l).isSome := by rw [hlists]; rfl
  refine ⟨_, s₃, l, a, run₃, refines.1 l [a] hlists, ?_, ?_⟩
  · obtain ⟨r, t, hstep, hfind⟩ := refines.2 (.find l 7) hsome
    obtain rfl : r = some a := by
      rw [DequeOp.Returns, hseq, List.find?_cons_of_pos (by simpa using hval)] at hfind
      exact hfind
    exact ⟨t, hstep⟩
  · obtain ⟨r, t, hstep, hat⟩ := refines.2 (.at l (-1)) hsome
    obtain rfl : r = some a := by
      rw [DequeOp.Returns, hseq] at hat
      exact hat
    exact ⟨t, hstep⟩

end Udpdk
