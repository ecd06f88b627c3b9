import Udpdk.Shmalloc.Separation

/-!
# The allocator refines a finite set of live slots

An allocator is for handing out the slots of a pool, each to one client at a time. Stated
so, it is a set of live slots and four things that may happen to it. The header and the bit
field compute with this set in every run, whatever is allocated and whatever is freed,
valid or not.

## Main definitions

* `SlotCall.Step` — the allocator as a set of live slots
* `ShmallocCall.Names` — which call on the set a call of the allocator is
* `Memzone.Bookkeeping` — what the header says about the bit field

## Main results

* `shmalloc_refines` — every run is a run on the set of live slots
-/

namespace Udpdk

open Foundation

/-! ## A set of live slots -/

/-- A slot is asked for, and handed out or not; a slot is given back, if it was one. -/
inductive SlotCall (α : Type)
  | take (slot : Option α)
  | give (slot : Option α)

/-- The calls on the set of the live ones among `slots`. -/
inductive SlotCall.Step {α : Type} [DecidableEq α] (slots : Finset α) :
    SlotCall α → Finset α → Finset α → Prop
  | exhausted {live : Finset α} (full : live = slots) : Step slots (.take none) live live
  | taken {live : Finset α} {i : α} (hi : i ∈ slots) (free : i ∉ live) :
      Step slots (.take (some i)) live (insert i live)
  | given {live : Finset α} {i : α} (hi : i ∈ live) :
      Step slots (.give (some i)) live (live.erase i)
  | ignored {live : Finset α} {slot : Option α} (dead : ∀ i ∈ slot, i ∉ live) :
      Step slots (.give slot) live live

/-! ## The allocator on that set -/

/-- The slot whose bytes an address is among. -/
def Memzone.slotAt (mz : Memzone) (a : ℕ) : Option ℕ :=
  if mz.slotAddr 0 ≤ a ∧ a < mz.slotAddr mz.all.size then
    some ((a - mz.slotAddr 0) / mz.all.elemSize)
  else none

/-- The call on the set of slots that a call of the allocator `mz` is. -/
inductive ShmallocCall.Names (mz : Memzone) : ShmallocCall → SlotCall ℕ → Prop
  | null : Names mz (.malloc none) (.take none)
  | malloc (i : ℕ) : Names mz (.malloc (some (mz.slotAddr i))) (.take (some i))
  | free (a : ℕ) : Names mz (.free a) (.give (mz.slotAt a))

/-- What the header says about the bit field: `n_free` counts the clear bits, `next_free` is
one of them if there is one, and so is what the search finds from any start. -/
structure Memzone.Bookkeeping (mz : Memzone) : Prop where
  nFree : mz.all.nFree =
    ((Finset.range mz.all.size).filter fun i => mz.all.freeBitfield.test i = false).card
  nextFree : 0 < mz.all.nFree →
    mz.all.nextFree < mz.all.size ∧ mz.all.freeBitfield.test mz.all.nextFree = false
  search : 0 < mz.all.nFree → ∀ j, ∃ i < mz.all.size,
    findNextFree mz.all.freeBitfield mz.all.size mz.all.size j = some i ∧
      mz.all.freeBitfield.test i = false

variable {mz mz' : Memzone} {a i : ℕ}

theorem Memzone.Ok.bookkeeping (ok : mz.Ok) : mz.Bookkeeping where
  nFree := by
    have hsplit := Finset.card_filter_add_card_filter_not
      (s := Finset.range mz.all.size) fun i => mz.all.freeBitfield.test i = true
    have hcount := ok.count
    rw [Finset.card_range] at hsplit
    simp only [Bool.not_eq_true] at hsplit
    unfold Memzone.usedSlots at hcount
    omega
  nextFree hfree := ok.next hfree.ne'
  search hfree j := by
    obtain ⟨hlt, hclear⟩ := ok.next hfree.ne'
    obtain ⟨i, hi⟩ := exists_findNextFree hlt hclear j
    obtain ⟨hlt', hclear'⟩ := findNextFree_eq_some (Nat.zero_lt_of_lt hlt) hi
    exact ⟨i, hlt', hi, hclear'⟩

/-- An address is in the slot that it is among the bytes of, and in no other. -/
theorem Memzone.Ok.slotAt_eq_some (ok : mz.Ok) :
    mz.slotAt a = some i ↔
      i < mz.all.size ∧ mz.slotAddr i ≤ a ∧ a < mz.slotAddr i + mz.all.elemSize := by
  have hzero : mz.slotAddr 0 = mz.addr + mz.all.poolOffset := by
    rw [slotAddr, Nat.zero_mul, Nat.add_zero]
  have hslot : ∀ k, mz.slotAddr k = mz.slotAddr 0 + k * mz.all.elemSize := by
    intro k
    rw [hzero, slotAddr]
  rw [slotAt]
  constructor
  · intro h
    split at h
    · rename_i hin
      obtain rfl := Option.some.inj h
      have hdiv := Nat.div_add_mod (a - mz.slotAddr 0) mz.all.elemSize
      have hmod := Nat.mod_lt (a - mz.slotAddr 0) ok.elemSize_pos
      rw [Nat.mul_comm] at hdiv
      rw [hslot mz.all.size] at hin
      refine ⟨?_, ?_, ?_⟩
      · apply Nat.div_lt_of_lt_mul
        rw [Nat.mul_comm]
        omega
      · rw [hslot]
        omega
      · rw [hslot]
        omega
    · cases h
  · rintro ⟨hi, hlow, hhigh⟩
    have hlast : (i + 1) * mz.all.elemSize ≤ mz.all.size * mz.all.elemSize :=
      Nat.mul_le_mul_right _ hi
    rw [Nat.succ_mul] at hlast
    rw [hslot] at hlow hhigh
    have hin : mz.slotAddr 0 ≤ a ∧ a < mz.slotAddr mz.all.size := by
      rw [hslot mz.all.size]
      omega
    have hdiv : (a - mz.slotAddr 0) / mz.all.elemSize = i := by
      apply Nat.div_eq_of_lt_le
      · omega
      · rw [Nat.succ_mul]
        omega
    rw [if_pos hin, hdiv]

theorem udpdkShfree_of_dead (ok : mz.Ok) (h : ∀ i ∈ mz.slotAt a, i ∉ mz.usedSlots) :
    udpdkShfree mz a = mz := by
  apply udpdkShfree_of_not_used ok
  intro i hi hin
  exact h i (ok.slotAt_eq_some.mpr ⟨(Memzone.mem_usedSlots.mp hi).1, hin⟩) hi

theorem Memzone.SameGeometry.slotAt (h : mz.SameGeometry mz') : mz'.slotAt = mz.slotAt := by
  funext a
  rw [Memzone.slotAt, Memzone.slotAt, h.slotAddr, h.size, h.elemSize]

/-- No slot is free exactly when all are live. -/
theorem Memzone.Ok.nFree_eq_zero_iff (ok : mz.Ok) :
    mz.all.nFree = 0 ↔ mz.usedSlots = Finset.range mz.all.size := by
  have hcount := ok.count
  constructor
  · intro hfull
    rw [hfull, Nat.zero_add] at hcount
    apply Finset.eq_of_subset_of_card_le (Finset.filter_subset _ _)
    rw [Finset.card_range]
    exact hcount.ge
  · intro hfull
    rw [hfull, Finset.card_range] at hcount
    omega

/-- NULL is returned exactly when all slots are live. -/
theorem udpdkShmalloc_eq_none_iff (ok : mz.Ok) :
    (udpdkShmalloc mz).1 = none ↔ mz.usedSlots = Finset.range mz.all.size := by
  rw [← ok.nFree_eq_zero_iff]
  constructor
  · intro hnull
    by_contra hfree
    obtain ⟨mz', hret, -⟩ := udpdkShmalloc_slot ok hfree
    rw [hret] at hnull
    cases hnull
  · intro hfull
    rw [udpdkShmalloc_full hfull]

/-! ## Runs -/

/-- **One call.** A call of the allocator is a call on the set of its live slots. -/
theorem ShmallocCall.step_refines {call : ShmallocCall} (ok : mz.Ok) (h : call.step mz mz') :
    mz'.Ok ∧ mz.SameGeometry mz' ∧ ∃ c, call.Names mz c ∧
      SlotCall.Step (Finset.range mz.all.size) c mz.usedSlots mz'.usedSlots := by
  have hsame : mz.SameGeometry mz := ⟨rfl, rfl, rfl, rfl, rfl⟩
  cases call with
  | malloc ret =>
    have h : udpdkShmalloc mz = (ret, mz') := h
    by_cases hfree : mz.all.nFree = 0
    · rw [udpdkShmalloc_full hfree] at h
      obtain ⟨rfl, rfl⟩ := Prod.mk.inj h
      exact ⟨ok, hsame, _, .null, .exhausted (ok.nFree_eq_zero_iff.mp hfree)⟩
    · obtain ⟨mz₁, hret, ok', hsame', hused⟩ := udpdkShmalloc_slot ok hfree
      obtain ⟨rfl, rfl⟩ := Prod.mk.inj (hret.symm.trans h)
      obtain ⟨hlt, hclear⟩ := ok.next hfree
      have hnew : mz.all.nextFree ∉ mz.usedSlots := by
        rw [Memzone.mem_usedSlots, hclear]
        simp
      rw [hused]
      exact ⟨ok', hsame', _, .malloc _, .taken (Finset.mem_range.mpr hlt) hnew⟩
  | free a =>
    obtain rfl : udpdkShfree mz a = mz' := h
    by_cases hlive : ∃ i ∈ mz.slotAt a, i ∈ mz.usedSlots
    · obtain ⟨i, hi, hused⟩ := hlive
      obtain ⟨-, hlow, hhigh⟩ := ok.slotAt_eq_some.mp hi
      obtain ⟨ok', hsame', herase⟩ := udpdkShfree_slot ok hused hlow hhigh
      refine ⟨ok', hsame', _, .free a, ?_⟩
      rw [herase, hi]
      exact .given hused
    · have hdead : ∀ i ∈ mz.slotAt a, i ∉ mz.usedSlots := fun i hi hused =>
        hlive ⟨i, hi, hused⟩
      rw [udpdkShfree_of_dead ok hdead]
      exact ⟨ok, hsame, _, .free a, .ignored hdead⟩

theorem Memzone.SameGeometry.names (h : mz.SameGeometry mz') {call : ShmallocCall}
    {c : SlotCall ℕ} (hc : call.Names mz' c) : call.Names mz c := by
  cases hc with
  | null => exact .null
  | malloc i =>
    rw [h.slotAddr]
    exact .malloc i
  | free a =>
    rw [h.slotAt]
    exact .free a

/-- **The allocator refines a finite set of live slots.** In every run of allocations and
releases, these of any address, the header keeps its books, the calls are calls on the set
of live slots, NULL is returned exactly when all are live, and a release of an address in no
live slot changes nothing. -/
theorem shmalloc_refines (addr : ℕ) {size elemSize : ℕ} {log : List ShmallocCall}
    (hstride : 0 < u32 (elemSize + 64 - 1) / 64)
    (hfits : size * (u32 (elemSize + 64 - 1) / 64) < 2 ^ 32)
    (run : Run ShmallocCall.step (udpdkInitAllocator addr size elemSize) log mz) :
    mz.all.size = size ∧ mz.Bookkeeping ∧
      (∃ calls,
        List.Forall₂ (ShmallocCall.Names (udpdkInitAllocator addr size elemSize)) log calls ∧
        Run (SlotCall.Step (Finset.range size)) ∅ calls mz.usedSlots) ∧
      ((udpdkShmalloc mz).1 = none ↔ mz.usedSlots = Finset.range size) ∧
      ∀ a, (∀ i ∈ mz.slotAt a, i ∉ mz.usedSlots) → udpdkShfree mz a = mz := by
  have hinit : (udpdkInitAllocator addr size elemSize).Ok := Memzone.ok_init hstride hfits
  have hsize₀ : (udpdkInitAllocator addr size elemSize).all.size = size := rfl
  obtain ⟨ok, hsame, hcalls⟩ := run.invariant (fun log mz => mz.Ok ∧
      (udpdkInitAllocator addr size elemSize).SameGeometry mz ∧
      ∃ calls, List.Forall₂ (ShmallocCall.Names (udpdkInitAllocator addr size elemSize)) log calls ∧
        Run (SlotCall.Step (Finset.range size)) ∅ calls mz.usedSlots)
    ⟨hinit, ⟨rfl, rfl, rfl, rfl, rfl⟩, [], .nil, by rw [usedSlots_init]; exact .nil⟩ (by
      rintro log mz call mz' - ⟨ok, hsame, calls, hnames, hrun⟩ hstep
      obtain ⟨ok', hsame', c, hname, hslot⟩ := call.step_refines ok hstep
      rw [hsame.size, hsize₀] at hslot
      exact ⟨ok', hsame.trans hsame', calls ++ [c],
        List.rel_append hnames (.cons (hsame.names hname) .nil), hrun.snoc hslot⟩)
  have hsize : mz.all.size = size := hsame.size
  refine ⟨hsize, ok.bookkeeping, hcalls, ?_, fun a => udpdkShfree_of_dead ok⟩
  rw [udpdkShmalloc_eq_none_iff ok, hsize]

/-- The allocator of the bindings hands out its first slot, ignores the release of an address
that is in none, and takes the slot back. -/
theorem shmalloc_refines_of_bindings : ∃ mz : Memzone,
    Run ShmallocCall.step (udpdkInitAllocator 0 1024 12)
      [.malloc (some 149), .free 3, .free 149] mz ∧ mz.Bookkeeping := by
  have run : Run ShmallocCall.step (udpdkInitAllocator 0 1024 12)
      [.malloc (some 149), .free 3, .free 149] _ :=
    .cons rfl (.cons rfl (.cons rfl .nil))
  have hfits : 1024 * (u32 (12 + 64 - 1) / 64) < 2 ^ 32 := by decide
  exact ⟨_, run, (shmalloc_refines 0 (by decide) hfits run).2.1⟩

end Udpdk
