import Mathlib.Data.List.Basic

/-!
# Tilings

Pieces that cover a range without gaps: the first starts at the beginning of the range, each
of the others where the one before it ends, and just the final one is marked as the last.

## Main definitions

* `Tiles` — a list of pieces that tile the range from an offset on

## Main results

* `Tiles.eq_pair` — where pieces are heads and tails, a tiling is a head and a tail
-/

namespace Foundation

variable {α : Type} {start len : α → ℕ} {last : α → Bool} {off size : ℕ} {a : α} {as : List α}

/-- The pieces tile a range from `off` on. -/
inductive Tiles (start len : α → ℕ) (last : α → Bool) : ℕ → List α → Prop
  | last {off : ℕ} {a : α} : start a = off → last a = true → Tiles start len last off [a]
  | cons {off : ℕ} {a : α} {as : List α} : start a = off → last a = false →
      Tiles start len last (off + len a) as → Tiles start len last off (a :: as)

namespace Tiles

theorem exists_cons (h : Tiles start len last off as) :
    ∃ a rest, as = a :: rest ∧ start a = off ∧
      (last a = true ∧ rest = [] ∨ last a = false ∧ Tiles start len last (off + len a) rest) := by
  cases h with
  | last hstart hlast => exact ⟨_, [], rfl, hstart, .inl ⟨hlast, rfl⟩⟩
  | cons hstart hmore hrest => exact ⟨_, _, rfl, hstart, .inr ⟨hmore, hrest⟩⟩

/-- **Heads and tails.** If every piece is a head of some positive size, or a tail that starts
behind a head, a tiling is one head and one tail. -/
theorem eq_pair (h : Tiles start len last 0 as) (hsize : 0 < size)
    (kinds : ∀ a ∈ as, (start a = 0 ∧ len a = size ∧ last a = false) ∨
      (start a = size ∧ last a = true)) :
    ∃ a b, as = [a, b] ∧ last a = false ∧ last b = true := by
  obtain ⟨a, rest, rfl, hstart, hrest⟩ := h.exists_cons
  rcases kinds a List.mem_cons_self with ⟨-, hlen, hmore⟩ | ⟨hbehind, -⟩
  · rcases hrest with ⟨hlast, -⟩ | ⟨-, htiles⟩
    · rw [hmore] at hlast
      cases hlast
    · rw [Nat.zero_add, hlen] at htiles
      obtain ⟨b, rest', rfl, hstart', hrest'⟩ := htiles.exists_cons
      rcases kinds b (by simp) with ⟨hzero, -, -⟩ | ⟨-, hlast⟩
      · omega
      · rcases hrest' with ⟨-, rfl⟩ | ⟨hmore', -⟩
        · exact ⟨a, b, rfl, hmore, hlast⟩
        · rw [hlast] at hmore'
          cases hmore'
  · omega

end Tiles

end Foundation
