import Mathlib.Data.List.Basic
import Mathlib.Logic.Function.Basic

/-!
# Lists that differ by one element

A list with one element more than another one, and families of lists of which one has an
element more. Whatever is done to both alike leaves them so, and taking the element away
again makes them equal.

## Main definitions

* `OneMore b l l'` — `l'` is `l` with `b` somewhere in it
* `OneMoreAt p b f g` — `g` is `f` with `b` somewhere in list `p`

## Main results

* `OneMore.eraseP`, `OneMoreAt.update` — the same operation on both
* `OneMore.eraseP_eq`, `OneMoreAt.update_eraseP` — the element is taken away
-/

namespace Foundation

variable {α ι : Type} {b : α} {l l' : List α} {pred : α → Bool}

/-- `l'` is `l` with one more element, `b`. -/
inductive OneMore (b : α) : List α → List α → Prop
  | here (l : List α) : OneMore b l (b :: l)
  | later (a : α) {l l' : List α} (rest : OneMore b l l') : OneMore b (a :: l) (a :: l')

namespace OneMore

theorem concat (l : List α) : OneMore b l (l ++ [b]) := by
  induction l with
  | nil => exact .here []
  | cons a l ih => exact .later a ih

theorem append (h : OneMore b l l') (r : List α) : OneMore b (l ++ r) (l' ++ r) := by
  induction h with
  | here l => exact .here (l ++ r)
  | later a rest ih => exact .later a ih

theorem eraseP (h : OneMore b l l') (hb : pred b = false) :
    OneMore b (l.eraseP pred) (l'.eraseP pred) := by
  induction h with
  | here l =>
    rw [List.eraseP_cons_of_neg (by simp [hb])]
    exact .here _
  | later a rest ih =>
    by_cases ha : pred a
    · rw [List.eraseP_cons_of_pos ha, List.eraseP_cons_of_pos ha]
      exact rest
    · rw [List.eraseP_cons_of_neg ha, List.eraseP_cons_of_neg ha]
      exact .later a ih

theorem eraseP_eq (h : OneMore b l l') (hb : pred b) (hl : ∀ a ∈ l, ¬ pred a) :
    l'.eraseP pred = l := by
  induction h with
  | here l => exact List.eraseP_cons_of_pos hb
  | later a rest ih =>
    have ha : ¬ pred a := hl a List.mem_cons_self
    rw [List.eraseP_cons_of_neg ha, ih fun c hc => hl c (List.mem_cons_of_mem a hc)]

end OneMore

/-- `g` is the family `f` of lists, but list `p` has one more element, `b`. -/
structure OneMoreAt (p : ι) (b : α) (f g : ι → List α) : Prop where
  here : OneMore b (f p) (g p)
  elsewhere : ∀ q ≠ p, g q = f q

namespace OneMoreAt

variable [DecidableEq ι] {p : ι} {f g : ι → List α}

theorem of_update (h : OneMore b (f p) l) : OneMoreAt p b f (Function.update f p l) where
  here := by
    rw [Function.update_self]
    exact h
  elsewhere q hq := Function.update_of_ne hq _ _

/-- One list of both families is changed in the same way. -/
theorem update (h : OneMoreAt p b f g) {op : List α → List α}
    (hop : ∀ l l', OneMore b l l' → OneMore b (op l) (op l')) (q : ι) :
    OneMoreAt p b (Function.update f q (op (f q))) (Function.update g q (op (g q))) where
  here := by
    by_cases hpq : p = q
    · subst hpq
      rw [Function.update_self, Function.update_self]
      exact hop _ _ h.here
    · rw [Function.update_of_ne hpq, Function.update_of_ne hpq]
      exact h.here
  elsewhere := by
    intro r hr
    by_cases hrq : r = q
    · subst hrq
      rw [Function.update_self, Function.update_self, h.elsewhere r hr]
    · rw [Function.update_of_ne hrq, Function.update_of_ne hrq]
      exact h.elsewhere r hr

theorem update_eraseP (h : OneMoreAt p b f g) (hb : pred b) (hf : ∀ a ∈ f p, ¬ pred a) :
    Function.update g p ((g p).eraseP pred) = f := by
  funext q
  by_cases hq : q = p
  · subst hq
    rw [Function.update_self]
    exact h.here.eraseP_eq hb hf
  · rw [Function.update_of_ne hq]
    exact h.elsewhere q hq

end OneMoreAt

end Foundation
