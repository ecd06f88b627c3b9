import Udpdk.Foundation.Program

/-!
# Programs on an abstraction of the state

A program on a concrete state tracks one on an abstraction of it when the two return the
same value, or stop with the same error, and what the abstraction shows of the state
afterwards is the abstract state afterwards. As both sides are functions, tracking works in
both directions: whatever the abstract program does is done, and nothing else is.

## Main definitions

* `Prog.Tracks` — the concrete program does what the abstract one does
* `Prog.each` — a program for every element of a list, with the values returned

## Main results

* `Prog.tracks_iff_wp` — tracking is a weakest precondition
* `Prog.Tracks.each` — calls that track one by one do so in any sequence
* `Prog.Tracks.replies_eq` — states with the same abstraction give the same replies
-/

namespace Foundation

namespace Prog

variable {ε σ τ α β κ : Type}

/-- Where `x` takes the state `s`, `y` takes what `abs` shows of it. -/
def Tracks (abs : σ → τ) (x : Prog ε σ α) (y : Prog ε τ α) (s : σ) : Prop :=
  (x s).map (fun r => (r.1, abs r.2)) = y (abs s)

/-- The replies to a sequence of calls, up to the first that stops the program. -/
def each (x : κ → Prog ε σ α) : List κ → Prog ε σ (List α)
  | [] => pure []
  | k :: ks => do
    let a ← x k
    let as ← each x ks
    return a :: as

section

variable {abs : σ → τ} {x : Prog ε σ α} {y : Prog ε τ α} {s t : σ}

/-- Tracking, by the rules for weakest preconditions of the concrete program. -/
theorem tracks_iff_wp : Tracks abs x y s ↔
    wp (fun e => y (abs s) = .error e) x (fun a t => y (abs s) = .ok (a, abs t)) s := by
  unfold Tracks wp
  cases x s with
  | error e => exact eq_comm
  | ok r => exact eq_comm

theorem tracks_pure (a : α) :
    Tracks abs (pure a : Prog ε σ α) (pure a : Prog ε τ α) s := rfl

/-- Sequences track when their parts do, the second one from where the first one ends. -/
theorem Tracks.bind {f : α → Prog ε σ β} {g : α → Prog ε τ β} (first : Tracks abs x y s)
    (second : ∀ a t, x s = .ok (a, t) → Tracks abs (f a) (g a) t) :
    Tracks abs (x >>= f) (y >>= g) s := by
  unfold Tracks at first ⊢
  rw [bind_apply, bind_apply, ← first]
  cases hx : x s with
  | error e => rfl
  | ok r => exact second r.1 r.2 hx

theorem Tracks.map (h : Tracks abs x y s) (f : α → β) : Tracks abs (f <$> x) (f <$> y) s :=
  h.bind fun a _ _ => tracks_pure (f a)

/-- **Sequences of calls.** Calls that track in every state with an invariant, and keep the
invariant, track in sequence. -/
theorem Tracks.each {x : κ → Prog ε σ α} {y : κ → Prog ε τ α} {inv : σ → Prop}
    (call : ∀ k s, inv s → Tracks abs (x k) (y k) s)
    (preserved : ∀ k s a t, inv s → x k s = .ok (a, t) → inv t) (start : inv s) (ks : List κ) :
    Tracks abs (each x ks) (each y ks) s := by
  induction ks generalizing s with
  | nil => exact tracks_pure []
  | cons k ks ih =>
    refine (call k s start).bind fun a t hfirst => ?_
    exact (ih (preserved k s a t start hfirst)).bind fun as _ _ => tracks_pure (a :: as)

/-- States that look the same give the same replies. -/
theorem Tracks.replies_eq (h : Tracks abs x y s) (h' : Tracks abs x y t) (same : abs s = abs t) :
    (x s).map Prod.fst = (x t).map Prod.fst := by
  have hfst : ∀ u, (x u).map Prod.fst =
      ((x u).map fun r => (r.1, abs r.2)).map Prod.fst := by
    intro u
    cases x u with
    | error e => rfl
    | ok r => rfl
  unfold Tracks at h h'
  rw [hfst, hfst, h, h', same]

end

end Prog

end Foundation
