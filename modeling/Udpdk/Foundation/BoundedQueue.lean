import Mathlib.Data.List.Basic
import Mathlib.Logic.Function.Basic

/-!
# Bounded first-in first-out queues

A queue of a fixed capacity. The bound is a field, so a queue with more elements than it
can hold cannot be built; insertion is fallible, and a bulk insertion is all or nothing.
-/

namespace Foundation

/-- A first-in first-out queue of at most `capacity` elements, oldest first. -/
@[ext]
structure BoundedQueue (α : Type) where
  capacity : ℕ
  items : List α
  bounded : items.length ≤ capacity

namespace BoundedQueue

variable {α : Type} {q q' : BoundedQueue α} {a : α} {as : List α}

def empty (capacity : ℕ) : BoundedQueue α where
  capacity := capacity
  items := []
  bounded := Nat.zero_le capacity

/-- Insert a whole batch at the back; `none` when there is no room for all of it. -/
def enqueueBulk (q : BoundedQueue α) (as : List α) : Option (BoundedQueue α) :=
  if room : (q.items ++ as).length ≤ q.capacity then
    some { capacity := q.capacity, items := q.items ++ as, bounded := room }
  else none

/-- Insert one element at the back; `none` when the queue is full. -/
def enqueue (q : BoundedQueue α) (a : α) : Option (BoundedQueue α) := q.enqueueBulk [a]

/-- Take the oldest element; `none` when the queue is empty. -/
def dequeue (q : BoundedQueue α) : Option (α × BoundedQueue α) :=
  match h : q.items with
  | [] => none
  | a :: rest => some (a, {
      capacity := q.capacity
      items := rest
      bounded := by have := q.bounded; rw [h] at this; exact Nat.le_of_succ_le this })

@[simp] theorem items_empty (capacity : ℕ) : (empty capacity : BoundedQueue α).items = [] := rfl

/-- A batch goes in whole and in order, exactly when there is room for it. -/
theorem enqueueBulk_eq_some_iff :
    q.enqueueBulk as = some q' ↔
      q.items.length + as.length ≤ q.capacity ∧
        q'.capacity = q.capacity ∧ q'.items = q.items ++ as := by
  have hlen : (q.items ++ as).length = q.items.length + as.length := List.length_append
  unfold enqueueBulk
  split_ifs with room
  · rw [Option.some_inj]
    constructor
    · rintro rfl
      exact ⟨hlen ▸ room, rfl, rfl⟩
    · rintro ⟨-, hcap, hitems⟩
      exact BoundedQueue.ext hcap.symm hitems.symm
  · rw [hlen] at room
    simp [room]

theorem enqueueBulk_eq_none_iff :
    q.enqueueBulk as = none ↔ q.capacity < q.items.length + as.length := by
  have hlen : (q.items ++ as).length = q.items.length + as.length := List.length_append
  unfold enqueueBulk
  split_ifs with room <;> simp <;> omega

theorem enqueue_eq_some_iff :
    q.enqueue a = some q' ↔
      q.items.length < q.capacity ∧ q'.capacity = q.capacity ∧ q'.items = q.items ++ [a] :=
  enqueueBulk_eq_some_iff

theorem enqueue_eq_none_iff : q.enqueue a = none ↔ q.capacity ≤ q.items.length := by
  rw [enqueue, enqueueBulk_eq_none_iff, List.length_singleton, Nat.lt_succ_iff]

/-- Taking an element removes the oldest one. -/
theorem dequeue_eq_some_iff :
    q.dequeue = some (a, q') ↔ q'.capacity = q.capacity ∧ q.items = a :: q'.items := by
  unfold dequeue
  split
  · rename_i h
    simp [h]
  · rename_i b rest h
    rw [Option.some_inj, Prod.mk.injEq]
    constructor
    · rintro ⟨rfl, rfl⟩
      exact ⟨rfl, h⟩
    · rintro ⟨hcap, hitems⟩
      obtain ⟨rfl, hrest⟩ := List.cons.inj (h.symm.trans hitems)
      exact ⟨rfl, BoundedQueue.ext hcap.symm hrest⟩

theorem dequeue_eq_none_iff : q.dequeue = none ↔ q.items = [] := by
  unfold dequeue
  split <;> simp_all

/-! ## Families of queues -/

section Family

variable {ι : Type} [DecidableEq ι] {Q : ι → BoundedQueue α} {i j : ι} {x : α}

theorem mem_of_mem_update_dequeue (h : (Q i).dequeue = some (a, q))
    (hx : x ∈ (Function.update Q i q j).items) : x ∈ (Q j).items := by
  by_cases hj : j = i
  · subst hj
    rw [Function.update_self] at hx
    rw [(dequeue_eq_some_iff.mp h).2]
    exact List.mem_cons_of_mem a hx
  · rwa [Function.update_of_ne hj] at hx

theorem mem_update_enqueueBulk (h : (Q i).enqueueBulk as = some q)
    (hx : x ∈ (Function.update Q i q j).items) : x ∈ (Q j).items ∨ j = i ∧ x ∈ as := by
  by_cases hj : j = i
  · subst hj
    rw [Function.update_self, (enqueueBulk_eq_some_iff.mp h).2.2] at hx
    exact (List.mem_append.mp hx).imp_right fun hnew => ⟨rfl, hnew⟩
  · rw [Function.update_of_ne hj] at hx
    exact .inl hx

end Family

end BoundedQueue

end Foundation
