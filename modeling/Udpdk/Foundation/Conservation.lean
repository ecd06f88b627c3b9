import Mathlib.Algebra.BigOperators.Ring.List
import Mathlib.Algebra.Order.Ring.Nat
import Udpdk.Foundation.Run

/-!
# Conservation along runs

What every step conserves, a run conserves. A queue conserves the order of what passes
through it: what was in it at first and what came in later is what went out and then what is
still in it. A stock conserves amounts only. And where every step pays its cost out of a
potential, a run costs no more than the potential it started with and what was added to it.

## Main results

* `Run.guarded` — a run with an invariant is a run of guarded steps
* `Run.conserves_queue`, `Run.conserves_stock` — the two laws
* `Run.potential` — the cost of a run
-/

namespace Foundation

variable {σ κ α M : Type} {step : κ → σ → σ → Prop} {s t : σ} {log : List κ}

/-- Every step of a run starts in a state that meets the invariant. -/
theorem Run.guarded (h : Run step s log t) (inv : σ → Prop) (start : inv s)
    (preserved : ∀ a s t, inv s → step a s t → inv t) :
    Run (fun a s t => inv s ∧ step a s t) s log t ∧ inv t := by
  induction h with
  | nil => exact ⟨.nil, start⟩
  | snoc _ hstep ih =>
    obtain ⟨before, hinv⟩ := ih
    exact ⟨before.snoc ⟨hinv, hstep⟩, preserved _ _ _ hinv hstep⟩

/-- **First in, first out.** What was queued and what came in is what went out and what is
queued now, in this order. -/
theorem Run.conserves_queue (queue : σ → List α) (ins outs : κ → List α)
    (law : ∀ a s t, step a s t → queue s ++ ins a = outs a ++ queue t) (h : Run step s log t) :
    queue s ++ log.flatMap ins = log.flatMap outs ++ queue t := by
  induction h with
  | nil => simp
  | @snoc t u log a _ hstep ih =>
    have hlaw := law a t u hstep
    calc queue s ++ (log ++ [a]).flatMap ins
        = queue s ++ log.flatMap ins ++ ins a := by simp
      _ = log.flatMap outs ++ (queue t ++ ins a) := by rw [ih, List.append_assoc]
      _ = (log ++ [a]).flatMap outs ++ queue u := by simp [hlaw]

/-- **Stock.** What was in stock and what came in is what went out and what is in stock now. -/
theorem Run.conserves_stock [AddCommMonoid M] (stock : σ → M) (ins outs : κ → M)
    (law : ∀ a s t, step a s t → stock s + ins a = outs a + stock t) (h : Run step s log t) :
    stock s + (log.map ins).sum = (log.map outs).sum + stock t := by
  induction h with
  | nil => simp
  | @snoc t u log a _ hstep ih =>
    have hlaw := law a t u hstep
    calc stock s + ((log ++ [a]).map ins).sum
        = stock s + (log.map ins).sum + ins a := by simp [add_assoc]
      _ = (log.map outs).sum + (stock t + ins a) := by rw [ih, add_assoc]
      _ = ((log ++ [a]).map outs).sum + stock u := by simp [hlaw, add_assoc]

theorem sum_map_toNat (p : κ → Bool) (log : List κ) :
    (log.map fun a => (p a).toNat).sum = log.countP p := by
  induction log with
  | nil => rfl
  | cons a log ih =>
    rw [List.map_cons, List.sum_cons, ih, List.countP_cons]
    cases p a <;> simp [Nat.add_comm]

/-- **Potential.** A run costs at most what the potential loses and what is added to it. -/
theorem Run.potential (pot : σ → ℕ) (cost gain : κ → ℕ)
    (law : ∀ a s t, step a s t → pot t + cost a ≤ pot s + gain a) (h : Run step s log t) :
    pot t + (log.map cost).sum ≤ pot s + (log.map gain).sum := by
  induction h with
  | nil => simp
  | @snoc t u log a _ hstep ih =>
    have hlaw := law a t u hstep
    rw [List.map_append, List.map_append, List.sum_append, List.sum_append, List.map_singleton,
      List.map_singleton, List.sum_singleton, List.sum_singleton]
    omega

end Foundation
