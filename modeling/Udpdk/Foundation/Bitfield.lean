import Mathlib.Data.BitVec
import Mathlib.Logic.Function.Basic

/-!
# Packed bit fields

A set of naturals stored as an array of `w`-bit words: bit `k` lives in word `k / w` at
position `k % w`, and is read and written with a one-bit mask. The three operations are
characterised by what `test` answers afterwards, so a user never looks at a word again.
-/

namespace Foundation

/-- An unbounded array of `w`-bit words. -/
abbrev Bitfield (w : ℕ) := ℕ → BitVec w

namespace Bitfield

variable {w : ℕ} (f : Bitfield w) (j k : ℕ)

/-- The word with only the bit of `k` raised. -/
def mask (w k : ℕ) : BitVec w := 1#w <<< (k % w)

def set : Bitfield w := Function.update f (k / w) (f (k / w) ||| mask w k)

def clear : Bitfield w := Function.update f (k / w) (f (k / w) &&& ~~~mask w k)

/-- Whether bit `k` is raised. -/
def test : Bool := f (k / w) &&& mask w k != 0#w

@[simp] theorem test_empty : test (fun _ => 0#w) k = false := by
  simp [test]

variable {j k} in
theorem eq_of_div_mod (hdiv : j / w = k / w) (hmod : j % w = k % w) : j = k := by
  rw [← Nat.div_add_mod j w, ← Nat.div_add_mod k w, hdiv, hmod]

variable [NeZero w]

theorem getLsbD_mask (i : ℕ) : (mask w k).getLsbD i = decide (i = k % w) := by
  have hk : k % w < w := Nat.mod_lt k (Nat.pos_of_neZero w)
  rw [mask, ← BitVec.twoPow_eq, BitVec.getLsbD_twoPow]
  simp [hk, eq_comm]

/-- Testing a bit reads one position of one word. -/
theorem test_eq_getLsbD : f.test k = (f (k / w)).getLsbD (k % w) := by
  have hk : k % w < w := Nat.mod_lt k (Nat.pos_of_neZero w)
  rw [test, mask, ← BitVec.twoPow_eq, BitVec.and_twoPow]
  cases hbit : (f (k / w)).getLsbD (k % w) with
  | false => simp
  | true =>
    have hmask : BitVec.twoPow w (k % w) ≠ 0#w := by
      intro hzero
      have := congrArg (fun v => v.getLsbD (k % w)) hzero
      simp [hk] at this
    simpa using hmask

theorem test_set : (f.set k).test j = (decide (j = k) || f.test j) := by
  have hj : j % w < w := Nat.mod_lt j (Nat.pos_of_neZero w)
  rw [test_eq_getLsbD, test_eq_getLsbD]
  by_cases hdiv : j / w = k / w
  · rw [set, hdiv, Function.update_self, BitVec.getLsbD_or, getLsbD_mask, Bool.or_comm]
    by_cases hmod : j % w = k % w
    · simp [eq_of_div_mod hdiv hmod]
    · have hne : j ≠ k := fun h => hmod (h ▸ rfl)
      simp [hmod, hne]
  · have hne : j ≠ k := fun h => hdiv (h ▸ rfl)
    rw [set, Function.update_of_ne hdiv]
    simp [hne]

theorem test_clear : (f.clear k).test j = (!decide (j = k) && f.test j) := by
  have hj : j % w < w := Nat.mod_lt j (Nat.pos_of_neZero w)
  rw [test_eq_getLsbD, test_eq_getLsbD]
  by_cases hdiv : j / w = k / w
  · rw [clear, hdiv, Function.update_self, BitVec.getLsbD_and, BitVec.getLsbD_not,
      getLsbD_mask, decide_eq_true hj, Bool.and_comm]
    by_cases hmod : j % w = k % w
    · simp [eq_of_div_mod hdiv hmod]
    · have hne : j ≠ k := fun h => hmod (h ▸ rfl)
      simp [hmod, hne]
  · have hne : j ≠ k := fun h => hdiv (h ▸ rfl)
    rw [clear, Function.update_of_ne hdiv]
    simp [hne]

end Bitfield

end Foundation
