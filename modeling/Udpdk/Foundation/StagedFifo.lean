import Mathlib.Data.List.Perm.Basic

/-!
# Queues behind a staging buffer

Elements are put into a staging buffer, which is committed to a queue as a whole or dropped as
a whole; they are taken from the front of the queue. A `Flow` is such a queue together with
the history of what was put in, taken out and dropped.

## Main definitions

* `Flow.Step` — put, commit, drop, take
* `Flow.Ordered` — first in, first out
* `Flow.Accounted` — every element that was put in is in exactly one place

## Main results

* `Flow.Step.ordered`, `Flow.Step.accounted` — every step keeps both
-/

namespace Foundation

/-- A queue behind a staging buffer, and its history. -/
@[ext]
structure Flow (α : Type) where
  entered : List α
  staged : List α
  queued : List α
  taken : List α
  dropped : List α

namespace Flow

variable {α : Type} {f g : Flow α}

/-- The operations. -/
inductive Step (f : Flow α) : Flow α → Prop
  | put (a : α) : Step f { f with entered := f.entered ++ [a], staged := f.staged ++ [a] }
  | commit : Step f { f with queued := f.queued ++ f.staged, staged := [] }
  | drop : Step f { f with dropped := f.dropped ++ f.staged, staged := [] }
  | take {a : α} {rest : List α} (front : f.queued = a :: rest) :
      Step f { f with queued := rest, taken := f.taken ++ [a] }

/-- What was taken, then what is queued, then what is staged: in the order in which it was put
in, and without repetition. -/
def Ordered (f : Flow α) : Prop := (f.taken ++ f.queued ++ f.staged).Sublist f.entered

/-- What was put in is taken, queued, staged or dropped. -/
def Accounted (f : Flow α) : Prop := f.entered.Perm (f.taken ++ f.queued ++ f.staged ++ f.dropped)

theorem Step.of_eq {g' : Flow α} (h : f.Step g) (heq : g' = g) : f.Step g' := heq ▸ h

theorem Step.ordered (h : f.Step g) (ordered : f.Ordered) : g.Ordered := by
  unfold Ordered at ordered ⊢
  cases h with
  | put a =>
    rw [← List.append_assoc]
    exact ordered.append (List.Sublist.refl [a])
  | commit =>
    rw [List.append_nil, ← List.append_assoc]
    exact ordered
  | drop =>
    rw [List.append_nil]
    exact (List.sublist_append_left _ _).trans ordered
  | take front =>
    rw [front] at ordered
    simpa only [List.append_assoc, List.singleton_append] using ordered

theorem Step.accounted (h : f.Step g) (accounted : f.Accounted) : g.Accounted := by
  unfold Accounted at accounted ⊢
  cases h with
  | put a =>
    -- the new element comes behind what is staged, in front of what was dropped
    have hmove : (f.taken ++ f.queued ++ f.staged ++ f.dropped ++ [a]).Perm
        (f.taken ++ f.queued ++ (f.staged ++ [a]) ++ f.dropped) := by
      simp only [List.append_assoc]
      exact (((List.perm_append_comm).append_left _).append_left _).append_left _
    exact (accounted.append_right [a]).trans hmove
  | commit =>
    rw [List.append_nil, ← List.append_assoc]
    exact accounted
  | drop =>
    refine accounted.trans ?_
    simp only [List.append_assoc, List.append_nil]
    exact ((List.perm_append_comm).append_left _).append_left _
  | take front =>
    rw [front] at accounted
    simpa only [List.append_assoc, List.singleton_append] using accounted

def fresh : Flow α := ⟨[], [], [], [], []⟩

theorem ordered_fresh : (fresh : Flow α).Ordered := List.Sublist.refl []

theorem accounted_fresh : (fresh : Flow α).Accounted := List.Perm.refl []

theorem Accounted.length (accounted : f.Accounted) : f.entered.length =
    f.taken.length + f.queued.length + f.staged.length + f.dropped.length := by
  have h := List.Perm.length_eq accounted
  simpa only [List.length_append] using h

end Flow

end Foundation
