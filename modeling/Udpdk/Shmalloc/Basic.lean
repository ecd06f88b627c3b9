import Udpdk.Foundation.Bitfield

/-!
# The shared-memory allocator

`udpdk_shmalloc.c`: fixed-size elements carved out of one memzone, behind a header and a
bit field that marks the elements in use. Addresses are absolute; lengths and the
header's fields are 32-bit unsigned, and every product or sum that the source computes
in 32 bits is reduced here too.
-/

namespace Udpdk

open Foundation

def u32 (n : ℕ) : ℕ := n % 2 ^ 32

theorem u32_of_lt {n : ℕ} (h : n < 2 ^ 32) : u32 n = n := Nat.mod_eq_of_lt h

/-- `struct allocator`, followed in memory by the bit field of used elements. -/
structure Allocator where
  size : ℕ
  elemSize : ℕ
  nFree : ℕ
  nextFree : ℕ
  poolOffset : ℕ
  freeBitfield : Bitfield 32

/-- A reserved memzone: its address, its length, and the allocator at its start. -/
structure Memzone where
  addr : ℕ
  len : ℕ
  all : Allocator

/-- `sizeof(struct allocator)`: five unsigned integers. -/
def sizeofAllocator : ℕ := 20

/-- Bytes of the bit field, as the initialiser reserves and clears it. -/
def bitfieldBytes (size : ℕ) : ℕ := size / 8 + 1

/-- `udpdk_init_allocator` over a memzone that DPDK reserved at `addr`. -/
def udpdkInitAllocator (addr size elemSize : ℕ) : Memzone :=
  -- round-up elem_size to cache line multiple (64 byte)
  let elemSize := u32 (elemSize + 64 - 1) / 64
  let memNeeded := u32 (sizeofAllocator + bitfieldBytes size)
  -- align
  let memNeeded := u32 (memNeeded + elemSize - 1) / elemSize
  let pOff := memNeeded
  let memNeeded := u32 (memNeeded + u32 (size * elemSize))
  { addr := addr
    len := memNeeded
    all := {
      size := size
      elemSize := elemSize
      nFree := size
      nextFree := 0
      poolOffset := pOff
      freeBitfield := fun _ => 0 } }

/-- The search of `udpdk_shmalloc` for the next free element: at most `fuel` tests,
starting at `j` and wrapping at `size`. -/
def findNextFree (bits : Bitfield 32) (size : ℕ) : ℕ → ℕ → Option ℕ
  | 0, _ => none
  | fuel + 1, j =>
    let j := if size ≤ j then 0 else j
    if bits.test j then findNextFree bits size fuel (j + 1) else some j

/-- `udpdk_shmalloc`: the address of a new element, or `none` (NULL) when all are used. -/
def udpdkShmalloc (mz : Memzone) : Option ℕ × Memzone :=
  let all := mz.all
  if all.nFree = 0 then (none, mz)
  else
    let ret := mz.addr + all.poolOffset + u32 (all.nextFree * all.elemSize)
    let nFree := all.nFree - 1
    let bits := all.freeBitfield.set all.nextFree
    let nextFree :=
      if nFree ≠ 0 then (findNextFree bits all.size all.size (all.nextFree + 1)).getD all.nextFree
      else all.nextFree
    (some ret, { mz with all := { all with nFree, nextFree, freeBitfield := bits } })

/-- `udpdk_shfree`: addresses outside the pool and elements not in use are ignored. -/
def udpdkShfree (mz : Memzone) (addr : ℕ) : Memzone :=
  let all := mz.all
  let poolStart := mz.addr + all.poolOffset
  let poolEnd := mz.addr + all.poolOffset + u32 (all.size * all.elemSize)
  if addr < poolStart ∨ poolEnd ≤ addr then mz
  else
    let i := (addr - poolStart) / all.elemSize
    if all.freeBitfield.test i then
      let nFree := u32 (all.nFree + 1)
      -- if previously full, next_free is stale
      let nextFree := if nFree = 1 then i else all.nextFree
      { mz with all := { all with nFree, nextFree, freeBitfield := all.freeBitfield.clear i } }
    else mz

end Udpdk
