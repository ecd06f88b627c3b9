import Udpdk.Foundation.Run
import Udpdk.Shmalloc.LiveSlots

/-!
# Byte-level separation of allocated blocks

The initialiser rounds the size of an element up to a number of cache lines, and then uses
that number as the size in bytes: as the stride of the pool, as the unit it aligns the
pool's offset to, and for the pool's length. An element of one byte is the only one that
fits.

## Main definitions

* `ShmallocCall` — the calls of a client, with the client's view of the live blocks
* `Separated` — live blocks are disjoint, inside the memzone and clear of the allocator

## Main results

* `not_shmalloc_separation` — the elements of the bind table's own pool overlap
* `shmalloc_separation_iff` — separation holds of every run exactly for elements of one byte
-/

namespace Udpdk

open Foundation

/-- The initialiser's arithmetic stays within 32 bits. -/
structure InitFits (size elemSize : ℕ) : Prop where
  roundUp : elemSize + 64 - 1 < 2 ^ 32
  header : sizeofAllocator + bitfieldBytes size < 2 ^ 32
  align : sizeofAllocator + bitfieldBytes size + (elemSize + 64 - 1) / 64 - 1 < 2 ^ 32
  pool : size * ((elemSize + 64 - 1) / 64) < 2 ^ 32
  total : (sizeofAllocator + bitfieldBytes size + (elemSize + 64 - 1) / 64 - 1) /
    ((elemSize + 64 - 1) / 64) + size * ((elemSize + 64 - 1) / 64) < 2 ^ 32

/-- A call of a client of the allocator. -/
inductive ShmallocCall
  | malloc (ret : Option ℕ)
  | free (addr : ℕ)

namespace ShmallocCall

def step : ShmallocCall → Memzone → Memzone → Prop
  | .malloc ret, mz, mz' => udpdkShmalloc mz = (ret, mz')
  | .free addr, mz, mz' => udpdkShfree mz addr = mz'

/-- The blocks that the client holds after one more call. -/
def blocksAfter (blocks : Finset ℕ) : ShmallocCall → Finset ℕ
  | .malloc none => blocks
  | .malloc (some a) => insert a blocks
  | .free a => blocks.erase a

/-- The blocks that the client holds after its calls: returned and not yet freed. -/
def liveBlocks (log : List ShmallocCall) : Finset ℕ := log.foldl blocksAfter ∅

end ShmallocCall

/-- The blocks, of `elemSize` bytes each, are pairwise disjoint, lie inside the memzone
and overlap neither the allocator's header nor its bit field. -/
structure Separated (mz : Memzone) (elemSize : ℕ) (blocks : Finset ℕ) : Prop where
  disjoint : ∀ a ∈ blocks, ∀ b ∈ blocks, a ≠ b → a + elemSize ≤ b ∨ b + elemSize ≤ a
  inside : ∀ a ∈ blocks, mz.addr ≤ a ∧ a + elemSize ≤ mz.addr + mz.len
  clear : ∀ a ∈ blocks, a + elemSize ≤ mz.addr ∨
    mz.addr + sizeofAllocator + bitfieldBytes mz.all.size ≤ a

/-- Every sequence of calls leaves the client with separated blocks. -/
def AlwaysSeparated (addr size elemSize : ℕ) : Prop :=
  ∀ log mz, Run ShmallocCall.step (udpdkInitAllocator addr size elemSize) log mz →
    Separated (udpdkInitAllocator addr size elemSize) elemSize (ShmallocCall.liveBlocks log)

variable {addr size elemSize stride : ℕ} {log : List ShmallocCall} {mz : Memzone}

/-- Without overflow the header holds the exact quotients. -/
theorem InitFits.layout (hfits : InitFits size elemSize) (addr : ℕ)
    (hstride : (elemSize + 64 - 1) / 64 = stride) :
    (udpdkInitAllocator addr size elemSize).all.elemSize = stride ∧
      (udpdkInitAllocator addr size elemSize).all.poolOffset =
        (sizeofAllocator + bitfieldBytes size + stride - 1) / stride ∧
      (udpdkInitAllocator addr size elemSize).len =
        (sizeofAllocator + bitfieldBytes size + stride - 1) / stride + size * stride := by
  obtain ⟨hround, hheader, halign, hpool, htotal⟩ := hfits
  rw [hstride] at halign hpool htotal
  simp only [udpdkInitAllocator, u32_of_lt hround, hstride, u32_of_lt hheader, u32_of_lt halign,
    u32_of_lt hpool, u32_of_lt htotal, and_self]

/-! ## Elements of one byte -/

/-- With a stride of one byte the client's blocks are the live slots. -/
private theorem liveBlocks_eq_live (hfits : InitFits size 1)
    (run : Run ShmallocCall.step (udpdkInitAllocator addr size 1) log mz) :
    mz.Ok ∧ (udpdkInitAllocator addr size 1).SameGeometry mz ∧
      ShmallocCall.liveBlocks log = mz.live := by
  have hstride : u32 (1 + 64 - 1) / 64 = 1 := by decide
  have hpool : size * (u32 (1 + 64 - 1) / 64) < 2 ^ 32 := hfits.pool
  have hinit : (udpdkInitAllocator addr size 1).Ok := Memzone.ok_init (by decide) hpool
  apply run.invariant fun log mz => mz.Ok ∧
    (udpdkInitAllocator addr size 1).SameGeometry mz ∧ ShmallocCall.liveBlocks log = mz.live
  · exact ⟨hinit, ⟨rfl, rfl, rfl, rfl, rfl⟩, by rw [live_init]; rfl⟩
  · rintro log mz call mz' - ⟨ok, same, hlive⟩ hstep
    have hafter : ShmallocCall.liveBlocks (log ++ [call]) = call.blocksAfter mz.live := by
      rw [← hlive, ShmallocCall.liveBlocks, List.foldl_append]
      rfl
    have hone : mz.all.elemSize = 1 := same.elemSize.trans hstride
    rw [hafter]
    -- what a client knows from the addresses is what the bit field says
    cases call with
    | malloc ret =>
      have hstep : udpdkShmalloc mz = (ret, mz') := hstep
      by_cases hfree : mz.all.nFree = 0
      · rw [udpdkShmalloc_full hfree, Prod.mk.injEq] at hstep
        obtain ⟨rfl, rfl⟩ := hstep
        exact ⟨ok, same, rfl⟩
      · obtain ⟨a, mz₁, halloc, ok', same', -, hnew⟩ := udpdkShmalloc_spec ok hfree
        rw [halloc, Prod.mk.injEq] at hstep
        obtain ⟨rfl, rfl⟩ := hstep
        exact ⟨ok', same.trans same', hnew.symm⟩
    | free a =>
      obtain rfl : udpdkShfree mz a = mz' := hstep
      by_cases ha : a ∈ mz.live
      · obtain ⟨ok', same', hnew⟩ := udpdkShfree_spec ok ha
        exact ⟨ok', same.trans same', hnew.symm⟩
      · -- a slot is one byte, so an address inside it is its own
        have hnot : ∀ i ∈ mz.usedSlots,
            ¬ (mz.slotAddr i ≤ a ∧ a < mz.slotAddr i + mz.all.elemSize) := by
          rintro i hi ⟨hlow, hhigh⟩
          have : mz.slotAddr i = a := by omega
          exact ha (Memzone.mem_live.mpr ⟨i, hi, this⟩)
        rw [udpdkShfree_of_not_used ok hnot]
        exact ⟨ok, same, Finset.erase_eq_of_notMem ha⟩

/-- Elements of one byte are always separated. -/
private theorem alwaysSeparated_one (hfits : InitFits size 1) : AlwaysSeparated addr size 1 := by
  intro log mz run
  obtain ⟨ok, same, hlive⟩ := liveBlocks_eq_live hfits run
  obtain ⟨hone, hoffset, hlen⟩ := hfits.layout addr (rfl : (1 + 64 - 1) / 64 = 1)
  rw [Nat.div_one] at hoffset hlen
  have hslot : ∀ a ∈ ShmallocCall.liveBlocks log, ∃ i < size,
      a = addr + (sizeofAllocator + bitfieldBytes size + 1 - 1) + i := by
    intro a ha
    rw [hlive] at ha
    obtain ⟨i, hi, rfl⟩ := Memzone.mem_live.mp ha
    refine ⟨i, (Memzone.mem_usedSlots.mp hi).1.trans_eq same.size, ?_⟩
    rw [same.slotAddr, Memzone.slotAddr, hone, hoffset, Nat.mul_one]
    rfl
  constructor
  · intro a _ b _ hne
    omega
  · intro a ha
    obtain ⟨i, hi, rfl⟩ := hslot a ha
    have haddr : (udpdkInitAllocator addr size 1).addr = addr := rfl
    rw [hlen, haddr]
    omega
  · intro a ha
    obtain ⟨i, hi, rfl⟩ := hslot a ha
    have haddr : (udpdkInitAllocator addr size 1).addr = addr := rfl
    have hsize : (udpdkInitAllocator addr size 1).all.size = size := rfl
    rw [haddr, hsize]
    omega

/-! ## Larger elements -/

private theorem step_malloc (hfree : mz.all.nFree ≠ 0) :
    ShmallocCall.step (.malloc (some (mz.addr + mz.all.poolOffset +
      u32 (mz.all.nextFree * mz.all.elemSize)))) mz (udpdkShmalloc mz).2 := by
  simp [ShmallocCall.step, udpdkShmalloc, hfree]

private theorem nextFree_second (addr elemSize : ℕ) (hsize : 1 < size) :
    (udpdkShmalloc (udpdkInitAllocator addr size elemSize)).2.all.nFree ≠ 0 ∧
      (udpdkShmalloc (udpdkInitAllocator addr size elemSize)).2.all.nextFree = 1 := by
  obtain ⟨n, rfl⟩ : ∃ n, size = n + 2 := ⟨size - 2, by omega⟩
  simp [udpdkShmalloc, udpdkInitAllocator, findNextFree, Bitfield.test_set]

private theorem step_first (addr elemSize : ℕ) (hsize : 0 < size) :
    ShmallocCall.step
      (.malloc (some (addr + (udpdkInitAllocator addr size elemSize).all.poolOffset)))
      (udpdkInitAllocator addr size elemSize)
      (udpdkShmalloc (udpdkInitAllocator addr size elemSize)).2 := by
  have hfree : (udpdkInitAllocator addr size elemSize).all.nFree ≠ 0 := hsize.ne'
  have hfirst := step_malloc hfree
  have hzero : u32 ((udpdkInitAllocator addr size elemSize).all.nextFree *
      (udpdkInitAllocator addr size elemSize).all.elemSize) = 0 := by
    simp [udpdkInitAllocator, u32]
  rwa [hzero, Nat.add_zero] at hfirst

/-- The second block starts one stride after the first. -/
private theorem step_second (addr : ℕ) (hsize : 1 < size)
    (hstride : (udpdkInitAllocator addr size elemSize).all.elemSize = 1) : ∃ mz,
    ShmallocCall.step
      (.malloc (some (addr + (udpdkInitAllocator addr size elemSize).all.poolOffset + 1)))
      (udpdkShmalloc (udpdkInitAllocator addr size elemSize)).2 mz := by
  obtain ⟨hfree, hnext⟩ := nextFree_second addr elemSize hsize
  have hsecond := step_malloc hfree
  have hinit : (udpdkInitAllocator addr size elemSize).all.nFree ≠ 0 := by
    have : 0 < size := by omega
    exact this.ne'
  have hsame : (udpdkInitAllocator addr size elemSize).SameGeometry
      (udpdkShmalloc (udpdkInitAllocator addr size elemSize)).2 := by
    constructor <;> simp [udpdkShmalloc, hinit]
  rw [hnext, hsame.addr, hsame.poolOffset, hsame.elemSize, hstride] at hsecond
  exact ⟨_, hsecond⟩

/-- Elements of more than one byte overlap the header, the end of the memzone or one
another. -/
private theorem not_alwaysSeparated (hfits : InitFits size elemSize) (hsize : 1 ≤ size)
    (helem : 1 < elemSize) : ¬ AlwaysSeparated addr size elemSize := by
  intro always
  obtain ⟨hstride, hoffset, hlen⟩ := hfits.layout addr rfl
  have haddr : (udpdkInitAllocator addr size elemSize).addr = addr := rfl
  have hsizeEq : (udpdkInitAllocator addr size elemSize).all.size = size := rfl
  have hheader : 21 ≤ sizeofAllocator + bitfieldBytes size := by
    unfold sizeofAllocator bitfieldBytes
    omega
  have first := always _ _ (Run.single (step_first addr elemSize hsize))
  have hmem : addr + (udpdkInitAllocator addr size elemSize).all.poolOffset ∈
      ShmallocCall.liveBlocks
        [.malloc (some (addr + (udpdkInitAllocator addr size elemSize).all.poolOffset))] := by
    simp [ShmallocCall.liveBlocks, ShmallocCall.blocksAfter]
  generalize hs : (elemSize + 64 - 1) / 64 = stride at *
  have hstridePos : 1 ≤ stride := by omega
  rcases hstridePos.lt_or_eq with hlarge | rfl
  · -- the offset, divided by the stride, lies inside the header
    have hinside : (sizeofAllocator + bitfieldBytes size + stride - 1) / stride <
        sizeofAllocator + bitfieldBytes size := by
      obtain ⟨k, rfl⟩ : ∃ k, stride = k + 1 := ⟨stride - 1, by omega⟩
      have hgrow := Nat.mul_le_mul_right k hheader
      rw [Nat.div_lt_iff_lt_mul hstridePos, Nat.mul_succ]
      omega
    have hclear := first.clear _ hmem
    rw [haddr, hsizeEq, hoffset] at hclear
    omega
  · rw [Nat.div_one] at hoffset hlen
    -- with a stride of one byte two elements overlap, and a single one reaches past the end
    rcases hsize.lt_or_eq with htwo | rfl
    · obtain ⟨mz, hsecond⟩ := step_second addr htwo hstride
      have second := always _ _ ((Run.single (step_first addr elemSize hsize)).snoc hsecond)
      have hdisjoint := second.disjoint
        (addr + (udpdkInitAllocator addr size elemSize).all.poolOffset)
        (by simp [ShmallocCall.liveBlocks, ShmallocCall.blocksAfter])
        (addr + (udpdkInitAllocator addr size elemSize).all.poolOffset + 1)
        (by simp [ShmallocCall.liveBlocks, ShmallocCall.blocksAfter]) (by omega)
      omega
    · have hinside := (first.inside _ hmem).2
      rw [haddr, hlen, hoffset] at hinside
      omega

/-! ## What the layout is to guarantee -/

/-- Two bindings of the bind table's own pool overlap. -/
theorem not_shmalloc_separation : ¬ ∀ addr size elemSize, 1 ≤ size → 1 ≤ elemSize →
    InitFits size elemSize → AlwaysSeparated addr size elemSize := by
  intro h
  have hfits : InitFits 1024 12 := by constructor <;> decide
  exact not_alwaysSeparated hfits (by decide) (by decide)
    (h 0 1024 12 (by decide) (by decide) hfits)

/-- **Separation.** Whatever the pool's address and size, the blocks of a client are
separated in every run exactly when its elements are one byte long. -/
theorem shmalloc_separation_iff (addr : ℕ) {size elemSize : ℕ} (hsize : 1 ≤ size)
    (helem : 1 ≤ elemSize) (hfits : InitFits size elemSize) :
    AlwaysSeparated addr size elemSize ↔ elemSize = 1 := by
  constructor
  · intro always
    by_contra hne
    exact not_alwaysSeparated hfits hsize (by omega) always
  · rintro rfl
    exact alwaysSeparated_one hfits

/-- A thousand elements of one byte are separated. -/
theorem shmalloc_separation_of_bytes : AlwaysSeparated 0 1000 1 :=
  (shmalloc_separation_iff 0 (by decide) (by decide) (by constructor <;> decide)).mpr rfl

end Udpdk
