import Udpdk.Foundation.Program
import Udpdk.Shmalloc.Basic
import Udpdk.Types

/-!
# Shared memory of the bind table

The memory that the application and the poller share through the bind table: four
allocators with the objects in their slots, and the table of list pointers indexed by
raw port. An object is found by the address that `udpdk_shmalloc` returned; a block keeps its
contents after it was freed, and a pointer into it can still be followed, as in the source.

That blocks of a pool are distinct objects is an assumption of this model. It holds where the
stored element size is at least the size of an object (`Memzone.blocksDistinct_iff`), but
`udpdk_init_allocator` stores less (`not_shmalloc_separation`). What the functions do with blocks
that overlap is in `Udpdk.Packed`.

Programs on this memory are written in the monad `MemProg`; following a null pointer
stops them.
-/

namespace Udpdk

open Foundation

abbrev Ptr := Option ℕ

/-- An allocator and the objects at its addresses, each on its own. -/
structure Pool (α : Type) where
  mz : Memzone
  cells : ℕ → α

/-- `udpdk_list_node_t`. Its value is never null: the caller of `list_node_new` has just
written through it. -/
structure ListNode where
  prev : Ptr
  next : Ptr
  val : ℕ
  deriving DecidableEq, Repr

/-- `udpdk_list_t`. Its `free` and `match` callbacks are null from `list_new` on. -/
structure UdpdkList where
  head : Ptr
  tail : Ptr
  len : ℕ
  deriving DecidableEq, Repr

/-- `udpdk_list_direction_t`. -/
inductive ListDirection
  | LIST_HEAD | LIST_TAIL
  deriving DecidableEq, Repr

/-- `udpdk_list_iterator_t`. -/
structure ListIterator where
  next : Ptr
  direction : ListDirection
  deriving DecidableEq, Repr

/-- The bind table and the pools behind it. -/
structure Mem where
  bindInfoAlloc : Pool BindInfo
  listAlloc : Pool UdpdkList
  nodeAlloc : Pool ListNode
  iteratorAlloc : Pool ListIterator
  sockBindTable : Port → Ptr

abbrev MemProg := Prog Fault Mem

namespace Pool

variable {α : Type} (P : Pool α) (a b : ℕ) (f : α → α)

def modify : Pool α := { P with cells := Function.update P.cells a (f (P.cells a)) }

def setMz (mz : Memzone) : Pool α := { P with mz := mz }

@[simp] theorem modify_mz : (P.modify a f).mz = P.mz := rfl

@[simp] theorem setMz_mz (mz : Memzone) : (P.setMz mz).mz = mz := rfl

@[simp] theorem setMz_cells (mz : Memzone) : (P.setMz mz).cells = P.cells := rfl

theorem modify_cells :
    (P.modify a f).cells b = if b = a then f (P.cells a) else P.cells b := by
  simp only [modify, Function.update_apply]

@[simp] theorem modify_cells_self : (P.modify a f).cells a = f (P.cells a) := by
  rw [modify_cells, if_pos rfl]

variable {a b} in
theorem modify_cells_of_ne (h : b ≠ a) : (P.modify a f).cells b = P.cells b := by
  rw [modify_cells, if_neg h]

end Pool

/-- Which of the four allocators an operation works on. -/
structure PoolRef (α : Type) where
  get : Mem → Pool α
  set : Pool α → Mem → Mem

/-- `bind_info_alloc`. -/
@[simps get] def bindInfoAlloc : PoolRef BindInfo where
  get := Mem.bindInfoAlloc
  set P m := { m with bindInfoAlloc := P }

/-- `udpdk_list_t_alloc`. -/
@[simps get] def udpdkListTAlloc : PoolRef UdpdkList where
  get := Mem.listAlloc
  set P m := { m with listAlloc := P }

/-- `udpdk_list_node_t_alloc`. -/
@[simps get] def udpdkListNodeTAlloc : PoolRef ListNode where
  get := Mem.nodeAlloc
  set P m := { m with nodeAlloc := P }

/-- `udpdk_list_iterator_t_alloc`. -/
@[simps get] def udpdkListIteratorTAlloc : PoolRef ListIterator where
  get := Mem.iteratorAlloc
  set P m := { m with iteratorAlloc := P }

section

variable (m : Mem)

@[simp] theorem bindInfoAlloc_set (P : Pool BindInfo) :
    bindInfoAlloc.set P m = { m with bindInfoAlloc := P } := rfl

@[simp] theorem udpdkListTAlloc_set (P : Pool UdpdkList) :
    udpdkListTAlloc.set P m = { m with listAlloc := P } := rfl

@[simp] theorem udpdkListNodeTAlloc_set (P : Pool ListNode) :
    udpdkListNodeTAlloc.set P m = { m with nodeAlloc := P } := rfl

@[simp] theorem udpdkListIteratorTAlloc_set (P : Pool ListIterator) :
    udpdkListIteratorTAlloc.set P m = { m with iteratorAlloc := P } := rfl

end

variable {α β : Type} (r : PoolRef α)

/-- Allocate from a pool. -/
def shmalloc : MemProg Ptr := fun m =>
  let (p, mz) := udpdkShmalloc (r.get m).mz
  .ok (p, r.set ((r.get m).setMz mz) m)

/-- Release to a pool; a null pointer lies below every pool and is ignored. -/
def shfree : Ptr → MemProg Unit
  | none => pure ()
  | some a => Prog.update fun m => r.set ((r.get m).setMz (udpdkShfree (r.get m).mz a)) m

def load : Ptr → MemProg α
  | none => Prog.stop .nullDeref
  | some a => do return (r.get (← Prog.read)).cells a

def store (p : Ptr) (f : α → α) : MemProg Unit :=
  match p with
  | none => Prog.stop .nullDeref
  | some a => Prog.update fun m => r.set ((r.get m).modify a f) m

/-! ## Specifications of the accesses -/

section Specification

variable {allowed : Fault → Prop} {m : Mem} {a : ℕ}

@[simp] theorem wp_load_none (post : α → Mem → Prop) :
    Prog.wp allowed (load r none) post m ↔ allowed .nullDeref := Iff.rfl

@[simp] theorem wp_load_some (post : α → Mem → Prop) :
    Prog.wp allowed (load r (some a)) post m ↔ post ((r.get m).cells a) m := Iff.rfl

@[simp] theorem wp_store_none (f : α → α) (post : Unit → Mem → Prop) :
    Prog.wp allowed (store r none f) post m ↔ allowed .nullDeref := Iff.rfl

@[simp] theorem wp_store_some (f : α → α) (post : Unit → Mem → Prop) :
    Prog.wp allowed (store r (some a) f) post m ↔ post () (r.set ((r.get m).modify a f) m) :=
  Iff.rfl

@[simp] theorem wp_shfree_some (post : Unit → Mem → Prop) :
    Prog.wp allowed (shfree r (some a)) post m ↔
      post () (r.set ((r.get m).setMz (udpdkShfree (r.get m).mz a)) m) := Iff.rfl

theorem wp_shmalloc (post : Ptr → Mem → Prop) :
    Prog.wp allowed (shmalloc r) post m ↔
      post (udpdkShmalloc (r.get m).mz).1
        (r.set ((r.get m).setMz (udpdkShmalloc (r.get m).mz).2) m) := Iff.rfl

end Specification

end Udpdk
