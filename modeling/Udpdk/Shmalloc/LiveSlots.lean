import Mathlib.Data.Finset.Card
import Udpdk.Shmalloc.Basic

/-!
# The allocator as a finite set of live slots

Slot `i` of an allocator starts `i * elem_size` bytes into its pool. Under the
well-formedness invariant `Memzone.Ok` the header and the bit field say nothing more than
which slots are live: `udpdk_shmalloc` adds one that was not, and `udpdk_shfree` removes
one that was.

## Main definitions

* `Memzone.usedSlots`, `Memzone.live` — the live slots and their addresses
* `Memzone.Ok` — the invariant of the header and the bit field

## Main results

* `Memzone.ok_init` — a fresh allocator is well formed and has no live slot
* `udpdkShmalloc_spec`, `udpdkShmalloc_full` — allocation on the set of live addresses
* `udpdkShfree_spec`, `udpdkShfree_of_not_used` — release on the set of live addresses
-/

namespace Udpdk

open Foundation

/-! ## The circular search -/

section Search

variable {bits : Bitfield 32} {size fuel j k : ℕ}

theorem findNextFree_eq_some (hsize : 0 < size) (h : findNextFree bits size fuel j = some k) :
    k < size ∧ bits.test k = false := by
  induction fuel generalizing j with
  | zero => simp [findNextFree] at h
  | succ fuel ih =>
    rw [findNextFree] at h
    by_cases htest : bits.test (if size ≤ j then 0 else j)
    · exact ih (by simpa only [htest, if_true] using h)
    · simp only [htest, if_false, Option.some_inj, Bool.false_eq_true] at h
      subst h
      refine ⟨by split_ifs <;> omega, by simpa using htest⟩

/-- The search reaches a clear bit within the number of steps that separate it,
cyclically, from the start. -/
private theorem findNextFree_ne_none_of_distance (hk : k < size) (hclear : bits.test k = false) :
    ∀ (fuel j start : ℕ), start = (if size ≤ j then 0 else j) →
      (if start ≤ k then k - start else k + size - start) < fuel →
      findNextFree bits size fuel j ≠ none
  | 0, _, _, _, hnear => absurd hnear (Nat.not_lt_zero _)
  | fuel + 1, j, start, hstart, hnear => by
    rw [findNextFree, ← hstart]
    by_cases htest : bits.test start
    · have hne : start ≠ k := fun h => by rw [h, hclear] at htest; cases htest
      have hbound : start < size := by rw [hstart]; split_ifs <;> omega
      simp only [htest, if_true]
      apply findNextFree_ne_none_of_distance hk hclear fuel (start + 1) _ rfl
      split_ifs at hnear ⊢ <;> omega
    · simp [htest]

theorem exists_findNextFree (hk : k < size) (hclear : bits.test k = false) (j : ℕ) :
    ∃ i, findNextFree bits size size j = some i := by
  apply Option.ne_none_iff_exists'.mp
  apply findNextFree_ne_none_of_distance hk hclear size j _ rfl
  split_ifs <;> omega

end Search

/-! ## Live slots -/

namespace Memzone

variable {mz : Memzone} {i j a : ℕ}

def slotAddr (mz : Memzone) (i : ℕ) : ℕ := mz.addr + mz.all.poolOffset + i * mz.all.elemSize

/-- The slots whose bit is raised. -/
def usedSlots (mz : Memzone) : Finset ℕ :=
  {i ∈ Finset.range mz.all.size | mz.all.freeBitfield.test i}

/-- The addresses of the live elements. -/
def live (mz : Memzone) : Finset ℕ := mz.usedSlots.image mz.slotAddr

/-- The header and the bit field agree: `n_free` counts the clear bits, and while there is
one, `next_free` names one. -/
structure Ok (mz : Memzone) : Prop where
  elemSize_pos : 0 < mz.all.elemSize
  pool_fits : mz.all.size * mz.all.elemSize < 2 ^ 32
  count : mz.all.nFree + mz.usedSlots.card = mz.all.size
  next : mz.all.nFree ≠ 0 →
    mz.all.nextFree < mz.all.size ∧ mz.all.freeBitfield.test mz.all.nextFree = false

theorem mem_usedSlots : i ∈ mz.usedSlots ↔ i < mz.all.size ∧ mz.all.freeBitfield.test i := by
  rw [usedSlots, Finset.mem_filter, Finset.mem_range]

theorem exists_test_eq_false (h : mz.usedSlots.card < mz.all.size) :
    ∃ k < mz.all.size, mz.all.freeBitfield.test k = false := by
  by_contra hall
  push Not at hall
  have hfull : mz.usedSlots = Finset.range mz.all.size := by
    ext i
    rw [mem_usedSlots, Finset.mem_range, and_iff_left_iff_imp]
    intro hi
    simpa using hall i hi
  rw [hfull, Finset.card_range] at h
  exact lt_irrefl _ h

theorem mem_live : a ∈ mz.live ↔ ∃ i ∈ mz.usedSlots, mz.slotAddr i = a := by
  rw [live, Finset.mem_image]

namespace Ok

variable (ok : mz.Ok)

include ok

theorem slotAddr_injective : Function.Injective mz.slotAddr := by
  intro i j h
  exact Nat.eq_of_mul_eq_mul_right ok.elemSize_pos (Nat.add_left_cancel h)

theorem nFree_add_card : mz.all.nFree + mz.live.card = mz.all.size := by
  rw [live, Finset.card_image_of_injective _ ok.slotAddr_injective, ok.count]

theorem nFree_eq {mz' : Memzone} (ok' : mz'.Ok) (hsize : mz.all.size = mz'.all.size)
    (hlive : mz.live.card = mz'.live.card) : mz.all.nFree = mz'.all.nFree := by
  have hcount := ok.nFree_add_card
  have hcount' := ok'.nFree_add_card
  omega

theorem size_lt : mz.all.size < 2 ^ 32 :=
  (Nat.le_mul_of_pos_right _ ok.elemSize_pos).trans_lt ok.pool_fits

theorem u32_offset (hi : i ≤ mz.all.size) : u32 (i * mz.all.elemSize) = i * mz.all.elemSize :=
  Nat.mod_eq_of_lt ((Nat.mul_le_mul_right _ hi).trans_lt ok.pool_fits)

theorem slotAddr_mem_live : mz.slotAddr i ∈ mz.live ↔ i ∈ mz.usedSlots := by
  rw [live, Function.Injective.mem_finset_image ok.slotAddr_injective]

end Ok

/-- An allocator that only changed its bookkeeping. -/
structure SameGeometry (mz mz' : Memzone) : Prop where
  addr : mz'.addr = mz.addr
  len : mz'.len = mz.len
  size : mz'.all.size = mz.all.size
  elemSize : mz'.all.elemSize = mz.all.elemSize
  poolOffset : mz'.all.poolOffset = mz.all.poolOffset

theorem SameGeometry.trans {mz mz' mz'' : Memzone} (h : mz.SameGeometry mz')
    (h' : mz'.SameGeometry mz'') : mz.SameGeometry mz'' where
  addr := h'.addr.trans h.addr
  len := h'.len.trans h.len
  size := h'.size.trans h.size
  elemSize := h'.elemSize.trans h.elemSize
  poolOffset := h'.poolOffset.trans h.poolOffset

theorem SameGeometry.slotAddr {mz mz' : Memzone} (h : mz.SameGeometry mz') :
    mz'.slotAddr = mz.slotAddr := by
  funext i
  rw [Memzone.slotAddr, Memzone.slotAddr, h.addr, h.poolOffset, h.elemSize]

end Memzone

open Memzone

variable {mz : Memzone} {a : ℕ}

/-! ## Initialisation -/

@[simp] theorem usedSlots_init (addr size elemSize : ℕ) :
    (udpdkInitAllocator addr size elemSize).usedSlots = ∅ := by
  ext i
  simp [mem_usedSlots, udpdkInitAllocator]

@[simp] theorem live_init (addr size elemSize : ℕ) :
    (udpdkInitAllocator addr size elemSize).live = ∅ := by
  rw [live, usedSlots_init, Finset.image_empty]

/-- A fresh allocator is well formed when its stride is positive and its pool's length fits
in 32 bits. -/
theorem Memzone.ok_init {addr size elemSize : ℕ} (hpos : 0 < u32 (elemSize + 64 - 1) / 64)
    (hfits : size * (u32 (elemSize + 64 - 1) / 64) < 2 ^ 32) :
    (udpdkInitAllocator addr size elemSize).Ok where
  elemSize_pos := hpos
  pool_fits := hfits
  count := by rw [usedSlots_init]; rfl
  next := fun h => ⟨Nat.pos_of_ne_zero h, Bitfield.test_empty 0⟩

/-! ## Allocation -/

theorem udpdkShmalloc_full (h : mz.all.nFree = 0) : udpdkShmalloc mz = (none, mz) := by
  rw [udpdkShmalloc, if_pos h]

/-- The allocator after the slot `next_free` was handed out. -/
theorem udpdkShmalloc_slot (ok : mz.Ok) (hfree : mz.all.nFree ≠ 0) :
    ∃ mz', udpdkShmalloc mz = (some (mz.slotAddr mz.all.nextFree), mz') ∧ mz'.Ok ∧
      mz.SameGeometry mz' ∧ mz'.usedSlots = insert mz.all.nextFree mz.usedSlots := by
  obtain ⟨hlt, hclear⟩ := ok.next hfree
  have hnew : mz.all.nextFree ∉ mz.usedSlots := by simp [mem_usedSlots, hclear]
  have hcount := ok.count
  generalize hmz : (udpdkShmalloc mz).2 = mz'
  have hused : mz'.usedSlots = insert mz.all.nextFree mz.usedSlots := by
    subst hmz
    ext i
    by_cases hi : i = mz.all.nextFree <;>
      simp [udpdkShmalloc, hfree, mem_usedSlots, Bitfield.test_set, hi, hlt]
  have hret : udpdkShmalloc mz = (some (mz.slotAddr mz.all.nextFree), mz') := by
    subst hmz
    simp only [udpdkShmalloc, hfree, if_false, slotAddr, ok.u32_offset hlt.le]
  have hsame : mz.SameGeometry mz' := by
    subst hmz
    constructor <;> simp [udpdkShmalloc, hfree]
  have hcard : mz'.usedSlots.card = mz.usedSlots.card + 1 := by
    rw [hused, Finset.card_insert_of_notMem hnew]
  have hleft : mz'.all.nFree = mz.all.nFree - 1 := by
    subst hmz
    simp [udpdkShmalloc, hfree]
  refine ⟨mz', hret, ⟨?_, ?_, ?_, ?_⟩, hsame, hused⟩
  · rw [hsame.elemSize]
    exact ok.elemSize_pos
  · rw [hsame.elemSize, hsame.size]
    exact ok.pool_fits
  · rw [hcard, hleft, hsame.size]
    omega
  · intro hne
    have hexists : ∃ k < mz'.all.size, mz'.all.freeBitfield.test k = false := by
      apply exists_test_eq_false
      rw [hcard, hsame.size]
      omega
    have hbits : mz'.all.freeBitfield = mz.all.freeBitfield.set mz.all.nextFree := by
      subst hmz
      simp [udpdkShmalloc, hfree]
    rw [hbits, hsame.size] at hexists
    obtain ⟨k, hk, hkclear⟩ := hexists
    obtain ⟨i, hi⟩ := exists_findNextFree hk hkclear (mz.all.nextFree + 1)
    have hspec := findNextFree_eq_some (by omega) hi
    subst hmz
    have hleft' : mz.all.nFree - 1 ≠ 0 := by simpa [udpdkShmalloc, hfree] using hne
    simpa [udpdkShmalloc, hfree, hleft', hi] using hspec

/-- **Allocation.** While a slot is free, `udpdk_shmalloc` returns an address that was not
live and makes exactly that address live. -/
theorem udpdkShmalloc_spec (ok : mz.Ok) (hfree : mz.all.nFree ≠ 0) :
    ∃ a mz', udpdkShmalloc mz = (some a, mz') ∧ mz'.Ok ∧ mz.SameGeometry mz' ∧
      a ∉ mz.live ∧ mz'.live = insert a mz.live := by
  obtain ⟨mz', hret, ok', hsame, hused⟩ := udpdkShmalloc_slot ok hfree
  obtain ⟨-, hclear⟩ := ok.next hfree
  refine ⟨_, mz', hret, ok', hsame, ?_, ?_⟩
  · rw [ok.slotAddr_mem_live, mem_usedSlots]
    simp [hclear]
  · rw [live, live, hsame.slotAddr, hused, Finset.image_insert]

/-! ## Release -/

/-- The allocator after a used slot was released by an address inside it. -/
theorem udpdkShfree_slot (ok : mz.Ok) {i : ℕ} (hi : i ∈ mz.usedSlots)
    (hlow : mz.slotAddr i ≤ a) (hhigh : a < mz.slotAddr i + mz.all.elemSize) :
    (udpdkShfree mz a).Ok ∧ mz.SameGeometry (udpdkShfree mz a) ∧
      (udpdkShfree mz a).usedSlots = mz.usedSlots.erase i := by
  obtain ⟨hlt, hset⟩ := mem_usedSlots.mp hi
  have hcard : 0 < mz.usedSlots.card := Finset.card_pos.mpr ⟨i, hi⟩
  have hcount := ok.count
  have hsize := ok.size_lt
  have hinside : ¬ (a < mz.addr + mz.all.poolOffset ∨
      mz.addr + mz.all.poolOffset + u32 (mz.all.size * mz.all.elemSize) ≤ a) := by
    have hlast : (i + 1) * mz.all.elemSize ≤ mz.all.size * mz.all.elemSize :=
      Nat.mul_le_mul_right _ hlt
    rw [ok.u32_offset le_rfl]
    rw [Nat.succ_mul] at hlast
    unfold slotAddr at hlow hhigh
    omega
  -- the division rounds an address inside the slot down to its index
  have hslot : (a - (mz.addr + mz.all.poolOffset)) / mz.all.elemSize = i := by
    unfold slotAddr at hlow hhigh
    apply Nat.div_eq_of_lt_le
    · omega
    · rw [Nat.succ_mul]
      omega
  have hu32 : u32 (mz.all.nFree + 1) = mz.all.nFree + 1 := Nat.mod_eq_of_lt (by omega)
  generalize hmz : udpdkShfree mz a = mz'
  have hdef := hmz
  simp only [udpdkShfree, hinside, if_false, hslot, hset, if_true, hu32] at hdef
  have hused : mz'.usedSlots = mz.usedSlots.erase i := by
    subst hdef
    ext j
    by_cases hj : j = i <;> simp [mem_usedSlots, Bitfield.test_clear, hj]
  have hsame : mz.SameGeometry mz' := by
    subst hdef
    constructor <;> rfl
  refine ⟨⟨?_, ?_, ?_, ?_⟩, hsame, hused⟩
  · rw [hsame.elemSize]
    exact ok.elemSize_pos
  · rw [hsame.elemSize, hsame.size]
    exact ok.pool_fits
  · rw [hused, Finset.card_erase_of_mem hi, hsame.size]
    have : mz'.all.nFree = mz.all.nFree + 1 := by subst hdef; rfl
    omega
  · intro _
    subst hdef
    -- a pool that was used up takes the freed slot as its next one
    by_cases hfull : mz.all.nFree = 0
    · simpa [hfull, Bitfield.test_clear] using hlt
    · obtain ⟨hnext, hnextClear⟩ := ok.next hfull
      simpa [hfull, Bitfield.test_clear, hnextClear] using hnext

/-- **Release.** Freeing a live address makes exactly that address free. -/
theorem udpdkShfree_spec (ok : mz.Ok) (ha : a ∈ mz.live) :
    (udpdkShfree mz a).Ok ∧ mz.SameGeometry (udpdkShfree mz a) ∧
      (udpdkShfree mz a).live = mz.live.erase a := by
  obtain ⟨i, hi, rfl⟩ := mem_live.mp ha
  obtain ⟨ok', hsame, hused⟩ :=
    udpdkShfree_slot ok hi le_rfl (Nat.lt_add_of_pos_right ok.elemSize_pos)
  refine ⟨ok', hsame, ?_⟩
  rw [live, live, hsame.slotAddr, hused, Finset.image_erase ok.slotAddr_injective]

/-- Freeing an address in no used slot changes nothing. -/
theorem udpdkShfree_of_not_used (ok : mz.Ok)
    (h : ∀ i ∈ mz.usedSlots, ¬ (mz.slotAddr i ≤ a ∧ a < mz.slotAddr i + mz.all.elemSize)) :
    udpdkShfree mz a = mz := by
  unfold udpdkShfree
  by_cases hout : a < mz.addr + mz.all.poolOffset ∨
      mz.addr + mz.all.poolOffset + u32 (mz.all.size * mz.all.elemSize) ≤ a
  · simp [hout]
  · simp only [hout, if_false]
    rw [ok.u32_offset le_rfl] at hout
    push Not at hout
    generalize hi : (a - (mz.addr + mz.all.poolOffset)) / mz.all.elemSize = i
    have hdiv := Nat.div_add_mod (a - (mz.addr + mz.all.poolOffset)) mz.all.elemSize
    have hmod := Nat.mod_lt (a - (mz.addr + mz.all.poolOffset)) ok.elemSize_pos
    rw [hi, Nat.mul_comm] at hdiv
    have hlt : i < mz.all.size := by
      rw [← hi]
      apply Nat.div_lt_of_lt_mul
      rw [Nat.mul_comm]
      omega
    have hclear : mz.all.freeBitfield.test i = false := by
      by_contra hset
      apply h i (mem_usedSlots.mpr ⟨hlt, by simpa using hset⟩)
      unfold slotAddr
      omega
    simp [hclear]

end Udpdk
