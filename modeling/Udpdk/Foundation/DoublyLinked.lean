import Mathlib.Data.List.Nodup

/-!
# Doubly linked chains

The shape of a doubly linked list in a heap whose cells carry a `prev` and a `next`
pointer, stated over the two pointer fields as functions of the address. A null pointer
is `none`. Insertion and removal at any position are each one theorem, phrased by what
the updated fields hold at the addresses of the chain; an implementation meets them
whatever the order of its assignments.

## Main definitions

* `Linked prev next before xs after` — `xs` is a chain from the pointer `before` the
  first cell to the pointer `after` the last
* `walk next fuel p` — the addresses met by following `next` from `p`

## Main results

* `linked_append` — chains compose
* `Linked.insert`, `Linked.remove` — linking a cell in and unlinking it
* `Linked.walk_eq` — forward traversal recovers the chain
* `Linked.walk_reverse_eq` — backward traversal is its exact reverse
-/

namespace Foundation

variable {A : Type} {prev next prev' next' : A → Option A}
  {before before' after after' : Option A} {xs ys : List A} {a n : A}

/-- `xs` is a doubly linked chain whose first cell points back to `before` and whose
last cell points on to `after`. -/
def Linked (prev next : A → Option A) : Option A → List A → Option A → Prop
  | _, [], _ => True
  | before, a :: rest, after =>
    prev a = before ∧ next a = rest.head?.or after ∧ Linked prev next (some a) rest after

@[simp] theorem linked_nil : Linked prev next before [] after := trivial

@[simp] theorem linked_cons :
    Linked prev next before (a :: xs) after ↔
      prev a = before ∧ next a = xs.head?.or after ∧ Linked prev next (some a) xs after :=
  Iff.rfl

/-- A chain depends only on the fields of its own cells. -/
theorem Linked.congr (h : Linked prev next before xs after)
    (hprev : ∀ a ∈ xs, prev' a = prev a) (hnext : ∀ a ∈ xs, next' a = next a) :
    Linked prev' next' before xs after := by
  induction xs generalizing before with
  | nil => trivial
  | cons a rest ih =>
    obtain ⟨hp, hn, hrest⟩ := h
    refine ⟨(hprev a (by simp)).trans hp, (hnext a (by simp)).trans hn, ih hrest ?_ ?_⟩
    · exact fun b hb => hprev b (List.mem_cons_of_mem a hb)
    · exact fun b hb => hnext b (List.mem_cons_of_mem a hb)

/-- A chain splits at any point into two chains that point at one another. -/
theorem linked_append :
    Linked prev next before (xs ++ ys) after ↔
      Linked prev next before xs (ys.head?.or after) ∧
        Linked prev next (xs.getLast?.or before) ys after := by
  induction xs generalizing before with
  | nil => simp
  | cons a rest ih =>
    rw [List.cons_append, linked_cons, linked_cons, ih]
    cases rest with
    | nil => simp [and_assoc]
    | cons b rest => simp [and_assoc, List.getLast?_cons]

theorem Linked.next_eq (h : Linked prev next before (xs ++ a :: ys) after) :
    next a = ys.head?.or after :=
  (linked_append.mp h).2.2.1

theorem Linked.prev_eq (h : Linked prev next before (xs ++ a :: ys) after) :
    prev a = xs.getLast?.or before :=
  (linked_append.mp h).2.1

/-- Redirecting the forward pointer of the last cell. -/
theorem Linked.redirect_last [DecidableEq A] (h : Linked prev next before xs after)
    (hnodup : xs.Nodup) (hprev : ∀ a ∈ xs, prev' a = prev a)
    (hnext : ∀ a ∈ xs, next' a = if xs.getLast? = some a then after' else next a) :
    Linked prev' next' before xs after' := by
  rcases List.eq_nil_or_concat xs with rfl | ⟨front, t, rfl⟩
  · trivial
  rw [List.concat_eq_append] at *
  -- only the last cell is written, and it is nowhere else in the chain
  have hlast : t ∉ front := fun ht =>
    (List.nodup_append.mp hnodup).2.2 t ht t (List.mem_singleton_self t) rfl
  obtain ⟨hfront, hp, hn, -⟩ := linked_append.mp h
  refine linked_append.mpr ⟨hfront.congr (fun b hb => hprev b (by simp [hb])) ?_, ?_, ?_, trivial⟩
  · intro b hb
    have hne : t ≠ b := fun htb => hlast (htb ▸ hb)
    simpa [hne] using hnext b (by simp [hb])
  · exact (hprev t (by simp)).trans hp
  · simpa using hnext t (by simp)

/-- Redirecting the backward pointer of the first cell. -/
theorem Linked.redirect_first [DecidableEq A] (h : Linked prev next before xs after)
    (hnodup : xs.Nodup)
    (hprev : ∀ a ∈ xs, prev' a = if xs.head? = some a then before' else prev a)
    (hnext : ∀ a ∈ xs, next' a = next a) :
    Linked prev' next' before' xs after := by
  cases xs with
  | nil => trivial
  | cons a rest =>
    obtain ⟨hp, hn, hrest⟩ := h
    obtain ⟨ha, -⟩ := List.nodup_cons.mp hnodup
    refine ⟨by simpa using hprev a (by simp), (hnext a (by simp)).trans hn, hrest.congr ?_ ?_⟩
    · intro b hb
      have hne : a ≠ b := fun hab => ha (hab ▸ hb)
      simpa [hne] using hprev b (List.mem_cons_of_mem a hb)
    · exact fun b hb => hnext b (List.mem_cons_of_mem a hb)

private theorem getLast?_ne_of_nodup (hnodup : (xs ++ ys).Nodup) (ha : a ∈ ys) :
    xs.getLast? ≠ some a := fun hlast =>
  (List.nodup_append.mp hnodup).2.2 a (List.mem_of_getLast? hlast) a ha rfl

private theorem head?_ne_of_nodup (hnodup : (xs ++ ys).Nodup) (ha : a ∈ xs) :
    ys.head? ≠ some a := fun hhead =>
  (List.nodup_append.mp hnodup).2.2 a ha a (List.mem_of_mem_head? hhead) rfl

/-- **Insertion.** A cell that points back to the end of `xs` and on to the start of
`ys`, and that both ends point to, is linked in between. -/
theorem Linked.insert [DecidableEq A] (h : Linked prev next none (xs ++ ys) none)
    (hnodup : (xs ++ ys).Nodup) (hn : prev' n = xs.getLast? ∧ next' n = ys.head?)
    (hprev : ∀ a ∈ xs ++ ys, prev' a = if ys.head? = some a then some n else prev a)
    (hnext : ∀ a ∈ xs ++ ys, next' a = if xs.getLast? = some a then some n else next a) :
    Linked prev' next' none (xs ++ n :: ys) none := by
  obtain ⟨hleft, hright⟩ := linked_append.mp h
  obtain ⟨hxs, hys, -⟩ := List.nodup_append.mp hnodup
  refine linked_append.mpr ⟨hleft.redirect_last hxs ?_ ?_, ?_, ?_, hright.redirect_first hys ?_ ?_⟩
  · intro b hb
    simpa [head?_ne_of_nodup hnodup hb] using hprev b (by simp [hb])
  · intro b hb
    simpa using hnext b (by simp [hb])
  · -- the new cell points at both ends
    simpa using hn.1
  · simpa using hn.2
  · intro b hb
    simpa using hprev b (by simp [hb])
  · intro b hb
    simpa [getLast?_ne_of_nodup hnodup hb] using hnext b (by simp [hb])

/-- **Removal.** When the neighbours of a cell are redirected past it, the rest of the
chain is linked. -/
theorem Linked.remove [DecidableEq A] (h : Linked prev next none (xs ++ n :: ys) none)
    (hnodup : (xs ++ n :: ys).Nodup)
    (hprev : ∀ a ∈ xs ++ ys, prev' a = if ys.head? = some a then prev n else prev a)
    (hnext : ∀ a ∈ xs ++ ys, next' a = if xs.getLast? = some a then next n else next a) :
    Linked prev' next' none (xs ++ ys) none := by
  obtain ⟨hleft, -, -, hright⟩ := linked_append.mp h
  have hrest : (xs ++ ys).Nodup := hnodup.sublist (by simp)
  obtain ⟨hxs, hys, -⟩ := List.nodup_append.mp hrest
  refine linked_append.mpr ⟨hleft.redirect_last hxs ?_ ?_, hright.redirect_first hys ?_ ?_⟩
  · intro b hb
    simpa [head?_ne_of_nodup hrest hb] using hprev b (by simp [hb])
  · intro b hb
    rw [hnext b (by simp [hb]), h.next_eq]
  · intro b hb
    rw [hprev b (by simp [hb]), h.prev_eq]
  · intro b hb
    simpa [getLast?_ne_of_nodup hrest hb] using hnext b (by simp [hb])

/-! ## Traversal -/

/-- The addresses met by following `next` from `p`, at most `fuel` of them. -/
def walk (next : A → Option A) : ℕ → Option A → List A
  | 0, _ => []
  | _ + 1, none => []
  | fuel + 1, some a => a :: walk next fuel (next a)

/-- Following `next` from the first cell visits the whole chain in order. -/
theorem Linked.walk_eq (h : Linked prev next before xs none) {fuel : ℕ}
    (hfuel : xs.length ≤ fuel) : walk next fuel xs.head? = xs := by
  induction xs generalizing before fuel with
  | nil => cases fuel <;> rfl
  | cons a rest ih =>
    obtain ⟨-, hn, hrest⟩ := h
    cases fuel with
    | zero => simp at hfuel
    | succ fuel =>
      rw [Option.or_none] at hn
      rw [List.head?_cons, walk, hn, ih hrest (by simpa using hfuel)]

/-- Reading a chain from its other end exchanges the roles of the two fields. -/
theorem Linked.reverse (h : Linked prev next before xs after) :
    Linked next prev after xs.reverse before := by
  induction xs generalizing before with
  | nil => trivial
  | cons a rest ih =>
    obtain ⟨hp, hn, hrest⟩ := h
    rw [List.reverse_cons, linked_append]
    refine ⟨by simpa using ih hrest, ?_, by simpa using hp, trivial⟩
    simpa using hn

/-- Following `prev` from the last cell visits the chain in exactly reverse order. -/
theorem Linked.walk_reverse_eq (h : Linked prev next none xs after) {fuel : ℕ}
    (hfuel : xs.length ≤ fuel) : walk prev fuel xs.getLast? = xs.reverse := by
  have hlen : xs.reverse.length ≤ fuel := by simpa using hfuel
  simpa using h.reverse.walk_eq hlen

end Foundation
