import Mathlib.Algebra.Order.Group.Nat
import Mathlib.Data.Nat.Bitwise

/-!
# Memory in bytes

A stretch of mapped memory, as the one number whose digits to base 256 are its bytes. A value
of `w` bytes is stored with its lowest byte first. Two stretches of bytes are independent,
whatever is stored in one of them, exactly when they have no byte in common.

## Main definitions

* `ByteMemory.get`, `ByteMemory.set` — read and write a value of some bytes

## Main results

* `ByteMemory.get_set_of_disjoint` — a read does not see a write that is elsewhere
* `ByteMemory.independent_iff` — writes do not show exactly where the bytes are disjoint
-/

namespace Foundation

/-- The bytes from address `base` on, `size` of them. -/
structure ByteMemory where
  base : ℕ
  size : ℕ
  digits : ℕ

namespace ByteMemory

def Mapped (M : ByteMemory) (a w : ℕ) : Prop := M.base ≤ a ∧ a + w ≤ M.base + M.size

instance (M : ByteMemory) (a w : ℕ) : Decidable (M.Mapped a w) :=
  inferInstanceAs (Decidable (_ ∧ _))

def get (M : ByteMemory) (a w : ℕ) : ℕ := M.digits / 256 ^ (a - M.base) % 256 ^ w

/-- Store a value in the `w` bytes at `a`. -/
def set (M : ByteMemory) (a w v : ℕ) : ByteMemory :=
  let i := a - M.base
  let behind := M.digits / 256 ^ (i + w)
  { M with digits := 256 ^ i * (256 ^ w * behind + v % 256 ^ w) + M.digits % 256 ^ i }

variable {M : ByteMemory} {a b w k v n : ℕ}

@[simp] theorem set_base : (M.set a w v).base = M.base := rfl

@[simp] theorem set_size : (M.set a w v).size = M.size := rfl

private theorem pow_256 (m : ℕ) : 256 ^ m = 2 ^ (8 * m) := (pow_mul 2 8 m).symm

theorem testBit_get :
    (M.get a w).testBit n = (decide (n < 8 * w) && M.digits.testBit (8 * (a - M.base) + n)) := by
  rw [get, pow_256, pow_256, Nat.testBit_mod_two_pow, Nat.testBit_div_two_pow, Nat.add_comm n]

theorem testBit_set : (M.set a w v).digits.testBit n =
    if n < 8 * (a - M.base) then M.digits.testBit n
    else if n < 8 * (a - M.base) + 8 * w then v.testBit (n - 8 * (a - M.base))
    else M.digits.testBit n := by
  simp only [set, pow_256]
  rw [Nat.testBit_two_pow_mul_add _ (Nat.mod_lt _ (Nat.two_pow_pos _)), Nat.testBit_mod_two_pow]
  split
  · simp [*]
  · rw [Nat.testBit_two_pow_mul_add _ (Nat.mod_lt _ (Nat.two_pow_pos _)), Nat.testBit_mod_two_pow,
      Nat.testBit_div_two_pow]
    split
    · rw [if_pos (by omega), decide_eq_true ‹_›, Bool.true_and]
    · rw [if_neg (by omega)]
      congr 1
      omega

theorem get_set_of_disjoint (ha : M.base ≤ a) (hb : M.base ≤ b)
    (disjoint : a + w ≤ b ∨ b + k ≤ a) : (M.set b k v).get a w = M.get a w := by
  apply Nat.eq_of_testBit_eq
  intro n
  rw [testBit_get, testBit_get, testBit_set, set_base]
  by_cases hn : n < 8 * w
  · congr 1
    split
    · rfl
    · rw [if_neg (by omega)]
  · simp [hn]

/-- No store in the `k` bytes at `b` shows in the `w` bytes at `a`, exactly when the two have no
byte in common. -/
theorem independent_iff {base size : ℕ} (ha : base ≤ a) (hb : base ≤ b) (hw : 0 < w) (hk : 0 < k) :
    (∀ digits v, (set ⟨base, size, digits⟩ b k v).get a w = get ⟨base, size, digits⟩ a w) ↔
      a + w ≤ b ∨ b + k ≤ a := by
  constructor
  · intro unseen
    by_contra overlap
    rw [not_or, not_le, not_le] at overlap
    -- a bit of the first common byte, raised in empty memory
    have seen := congrArg (Nat.testBit · (8 * (max a b - a))) (unseen 0 (2 ^ (8 * (max a b - b))))
    simp only [testBit_get, testBit_set, set_base] at seen
    rw [if_neg (by omega), if_pos (by omega)] at seen
    have hbit : 8 * (a - base) + 8 * (max a b - a) - 8 * (b - base) = 8 * (max a b - b) := by omega
    rw [hbit, Nat.testBit_two_pow_self, decide_eq_true (by omega)] at seen
    simp at seen
  · intro disjoint digits v
    exact get_set_of_disjoint ha hb disjoint

end ByteMemory

end Foundation
