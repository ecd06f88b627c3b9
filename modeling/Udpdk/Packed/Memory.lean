import Udpdk.BindTable.Basic
import Udpdk.Foundation.ByteMemory
import Udpdk.Shmalloc.LiveSlots

/-!
# Shared memory of the bind table, byte by byte

The same memory as in `Udpdk.Memory`, without the assumption that allocated blocks are
distinct objects: an allocator hands out an address, and the fields of an object are so many
bytes behind it. Where the stored element size is smaller than the object, neighbouring blocks
share bytes, and a store to one of them changes the other.

An address is a number; 0 is NULL. An access outside mapped memory stops the program.

## Main definitions

* `PackedMem` — the four allocators, the mapped bytes, and the table of list pointers
* `Packed.load`, `Packed.store` — access to a field of an object
* `Memzone.BlocksDistinct` — a store to one block never shows in another

## Main results

* `Memzone.blocksDistinct_iff` — blocks are distinct objects exactly when an element has room
  for the object
* `not_blocksDistinct_udpdkInitAllocator` — the initialiser leaves no room for larger objects
-/

namespace Udpdk

open Foundation

/-- The bind table and the memory behind it. -/
structure PackedMem where
  bindInfoAlloc : Memzone
  listAlloc : Memzone
  nodeAlloc : Memzone
  iteratorAlloc : Memzone
  bytes : ByteMemory
  sockBindTable : Port → ℕ

abbrev PackedProg := Prog Fault PackedMem

namespace Packed

/-! ## Layout of the objects -/

/-- Where a field stands in its structure, and its bytes. -/
structure Field where
  offset : ℕ
  width : ℕ

def BindInfo.sockfd : Field := ⟨0, 4⟩
def BindInfo.ipAddr : Field := ⟨4, 4⟩
def BindInfo.reuseAddr : Field := ⟨8, 1⟩
def BindInfo.reusePort : Field := ⟨9, 1⟩
def BindInfo.closed : Field := ⟨10, 1⟩

def UdpdkList.head : Field := ⟨0, 8⟩
def UdpdkList.tail : Field := ⟨8, 8⟩
def UdpdkList.len : Field := ⟨16, 4⟩
def UdpdkList.free : Field := ⟨24, 8⟩
def UdpdkList.match : Field := ⟨32, 8⟩

def ListNode.prev : Field := ⟨0, 8⟩
def ListNode.next : Field := ⟨8, 8⟩
def ListNode.val : Field := ⟨16, 8⟩

def ListIterator.next : Field := ⟨0, 8⟩
def ListIterator.direction : Field := ⟨8, 4⟩

def ofInt (n : ℤ) : ℕ := (n % 2 ^ 32).toNat

def toInt (n : ℕ) : ℤ := (BitVec.ofNat 32 n).toInt

/-- The value of an enumerator. -/
def ofDirection : ListDirection → ℕ
  | .LIST_HEAD => 0
  | .LIST_TAIL => 1

/-! ## Accesses -/

/-- Which of the four allocators an operation works on. -/
structure AllocRef where
  get : PackedMem → Memzone
  set : Memzone → PackedMem → PackedMem

def bindInfoAlloc : AllocRef where
  get := PackedMem.bindInfoAlloc
  set mz m := { m with bindInfoAlloc := mz }

def udpdkListTAlloc : AllocRef where
  get := PackedMem.listAlloc
  set mz m := { m with listAlloc := mz }

def udpdkListNodeTAlloc : AllocRef where
  get := PackedMem.nodeAlloc
  set mz m := { m with nodeAlloc := mz }

def udpdkListIteratorTAlloc : AllocRef where
  get := PackedMem.iteratorAlloc
  set mz m := { m with iteratorAlloc := mz }

/-- `udpdk_shmalloc`: 0 (NULL) when all elements are used. -/
def shmalloc (r : AllocRef) : PackedProg ℕ := fun m =>
  let (p, mz) := udpdkShmalloc (r.get m)
  .ok (p.getD 0, r.set mz m)

def shfree (r : AllocRef) (p : ℕ) : PackedProg Unit :=
  Prog.update fun m => r.set (udpdkShfree (r.get m) p) m

/-- Go on if the field of the object at `p` can be accessed. -/
def access (p : ℕ) (f : Field) : PackedProg Unit := do
  if p = 0 then
    Prog.stop .nullDeref
  else if (← Prog.read).bytes.Mapped (p + f.offset) f.width then
    return ()
  else
    Prog.stop .outOfBounds

def load (p : ℕ) (f : Field) : PackedProg ℕ := do
  access p f
  return (← Prog.read).bytes.get (p + f.offset) f.width

def store (p : ℕ) (f : Field) (v : ℕ) : PackedProg Unit := do
  access p f
  Prog.update fun m => { m with bytes := m.bytes.set (p + f.offset) f.width v }

end Packed

/-! ## Initialisation -/

/-- The bytes that DPDK reserves for a memzone: whole cache lines. -/
def Memzone.reserved (mz : Memzone) : ℕ := (mz.len + 63) / 64 * 64

/-- The shared memory after `udpdk_list_init` and `btable_init`. The headers of the allocators
and their bit fields are kept apart from the bytes: no object within the memzones reaches them. -/
def packedInit (zones : AllocatorZones) (memory : ByteMemory) : PackedMem where
  bindInfoAlloc := udpdkInitAllocator zones.bindInfoAlloc numSocketsMax sizeofBindInfo
  listAlloc := udpdkInitAllocator zones.listAlloc udpMaxPort sizeofUdpdkList
  nodeAlloc := udpdkInitAllocator zones.nodeAlloc numSocketsMax sizeofListNode
  iteratorAlloc := udpdkInitAllocator zones.iteratorAlloc listIteratorPoolSize sizeofListIterator
  bytes := memory
  sockBindTable _ := 0

/-- The memzones of the allocators. -/
def PackedMem.memzones (m : PackedMem) : List Memzone :=
  [m.bindInfoAlloc, m.listAlloc, m.nodeAlloc, m.iteratorAlloc]

/-- What DPDK guarantees of memzones: they start at a cache line, are mapped, and do not
overlap. -/
structure PackedMem.Reserved (m : PackedMem) : Prop where
  aligned : ∀ mz ∈ m.memzones, 64 ∣ mz.addr
  mapped : ∀ mz ∈ m.memzones, 0 < m.bytes.base ∧ m.bytes.Mapped mz.addr mz.reserved
  disjoint : m.memzones.Pairwise fun mz mz' =>
    mz.addr + mz.reserved ≤ mz'.addr ∨ mz'.addr + mz'.reserved ≤ mz.addr

/-- A page of two megabytes where DPDK maps its memory by default, not used yet. -/
def hugepage : ByteMemory where
  base := 0x100000000
  size := 0x200000
  digits := 0

/-- Memzones one behind the other in the page. -/
def hugepageZones : AllocatorZones where
  bindInfoAlloc := 0x100001000
  iteratorAlloc := 0x100001500
  nodeAlloc := 0x100001640
  listAlloc := 0x100001B80

theorem reserved_hugepage : (packedInit hugepageZones hugepage).Reserved := by
  constructor <;> decide +kernel

/-! ## Distinct objects -/

/-- A store to one of the blocks, of `size` bytes each, never shows in another. -/
def Memzone.BlocksDistinct (mz : Memzone) (size : ℕ) : Prop :=
  ∀ i < mz.all.size, ∀ j < mz.all.size, i ≠ j → ∀ (M : ByteMemory) (v : ℕ), M.base ≤ mz.addr →
    (M.set (mz.slotAddr j) size v).get (mz.slotAddr i) size = M.get (mz.slotAddr i) size

variable {mz : Memzone} {size : ℕ}

/-- Blocks are distinct objects exactly when an element has room for the object. -/
theorem Memzone.blocksDistinct_iff (two : 2 ≤ mz.all.size) (hsize : 0 < size) :
    mz.BlocksDistinct size ↔ size ≤ mz.all.elemSize := by
  have hbase : ∀ i, mz.addr ≤ mz.slotAddr i := fun i => by
    rw [Memzone.slotAddr]
    omega
  constructor
  · intro distinct
    have hfirst : mz.slotAddr 1 = mz.slotAddr 0 + mz.all.elemSize := by
      simp [Memzone.slotAddr]
    have disjoint := (ByteMemory.independent_iff (hbase 0) (hbase 1) hsize hsize).mp
      fun digits v => distinct 0 (by omega) 1 (by omega) Nat.zero_ne_one ⟨mz.addr, 0, digits⟩ v
        (Nat.le_refl _)
    omega
  · intro room i _ j _ hne M v hM
    have apart : ∀ {i j : ℕ}, i < j → mz.slotAddr i + size ≤ mz.slotAddr j := by
      intro i j hlt
      have hmul := Nat.mul_le_mul_right mz.all.elemSize hlt
      rw [Nat.succ_mul] at hmul
      rw [Memzone.slotAddr, Memzone.slotAddr]
      omega
    apply ByteMemory.get_set_of_disjoint (hM.trans (hbase i)) (hM.trans (hbase j))
    exact (Nat.lt_or_gt_of_ne hne).imp apart apart

/-- No object of more than one byte fits into the elements that `udpdk_init_allocator` makes for
it, the four structures of the bind table among them. -/
theorem not_blocksDistinct_udpdkInitAllocator (addr : ℕ) {elemSize : ℕ} (two : 2 ≤ size)
    (helem : 1 < elemSize) (hfits : elemSize + 64 - 1 < 2 ^ 32) :
    ¬ (udpdkInitAllocator addr size elemSize).BlocksDistinct elemSize := by
  rw [Memzone.blocksDistinct_iff two (by omega)]
  have hstride : (udpdkInitAllocator addr size elemSize).all.elemSize = (elemSize + 64 - 1) / 64 :=
    congrArg (· / 64) (u32_of_lt hfits)
  omega

end Udpdk
