import Mathlib.Data.List.Basic

/-!
# Fallible stateful programs and their weakest preconditions

A program reads and rewrites a state and either returns a value together with the
state it leaves, or stops with an error. A stopped program leaves no state: nothing
is known of a system after a crash or a call that never comes back.

Reasoning is by weakest preconditions. `Prog.wp allowed x post s` asks that `x`,
started in `s`, either returns a value and a state that meet `post`, or stops with an
error that `allowed` admits. With `allowed := fun _ => False` this is total
correctness; admitting an error turns the same rule into a statement about the runs
that do not meet it.

## Main definitions

* `Prog` — the monad of fallible stateful programs
* `Prog.zoom` — a program on a part of the state, run on the whole
* `Prog.outcome` — the state left by a program that returns a given value
* `Prog.wp` — weakest preconditions
* `Prog.Keeps` — programs that leave a part of the state alone
* `Prog.whileSome` — the scan loop `while ((x = next())) body`

## Main results

* `Prog.wp_bind`, `Prog.wp_mono` — the structural rules
* `Prog.wp_whileSome` — the loop rule: an invariant over the elements still to come
* `Prog.Keeps.bind`, `Prog.Keeps.whileSome` — the frame rules
-/

namespace Foundation

/-- A program on states `σ` that returns an `α` or stops with an error `ε`. -/
def Prog (ε σ α : Type) : Type := σ → Except ε (α × σ)

namespace Prog

variable {ε σ τ α β : Type}

instance : Monad (Prog ε σ) where
  pure a := fun s => .ok (a, s)
  bind x f := fun s =>
    match x s with
    | .ok (a, t) => f a t
    | .error e => .error e

def read : Prog ε σ σ := fun s => .ok (s, s)

def update (f : σ → σ) : Prog ε σ Unit := fun s => .ok ((), f s)

def stop (e : ε) : Prog ε σ α := fun _ => .error e

/-- Run a program on the part of the state that `get` reads and `set` replaces. -/
def zoom (get : τ → σ) (set : σ → τ → τ) (x : Prog ε σ α) : Prog ε τ α := fun t =>
  match x (get t) with
  | .ok (a, s) => .ok (a, set s t)
  | .error e => .error e

@[simp] theorem pure_apply (a : α) (s : σ) : (pure a : Prog ε σ α) s = .ok (a, s) := rfl

@[simp] theorem read_apply (s : σ) : (read : Prog ε σ σ) s = .ok (s, s) := rfl

@[simp] theorem update_apply (f : σ → σ) (s : σ) :
    (update f : Prog ε σ Unit) s = .ok ((), f s) := rfl

@[simp] theorem stop_apply (e : ε) (s : σ) : (stop e : Prog ε σ α) s = .error e := rfl

theorem bind_apply (x : Prog ε σ α) (f : α → Prog ε σ β) (s : σ) :
    (x >>= f) s = match x s with
      | .ok (a, t) => f a t
      | .error e => .error e := rfl

/-- The state that `x` leaves, if it returns `a`. -/
def outcome [DecidableEq α] (x : Prog ε σ α) (a : α) (s : σ) : Option σ :=
  match x s with
  | .ok (b, t) => if b = a then some t else none
  | .error _ => none

theorem bind_of_ok {x : Prog ε σ α} {f : α → Prog ε σ β} {s t : σ} {a : α}
    (h : x s = .ok (a, t)) : (x >>= f) s = f a t := by
  rw [bind_apply, h]

theorem bind_of_error {x : Prog ε σ α} {f : α → Prog ε σ β} {s : σ} {e : ε}
    (h : x s = .error e) : (x >>= f) s = .error e := by
  rw [bind_apply, h]

/-- A sequence returns exactly when both of its parts do. -/
theorem bind_eq_ok_iff {x : Prog ε σ α} {f : α → Prog ε σ β} {s : σ} {r : β × σ} :
    (x >>= f) s = .ok r ↔ ∃ a t, x s = .ok (a, t) ∧ f a t = .ok r := by
  rw [bind_apply]
  constructor
  · intro h
    cases hx : x s with
    | error e => rw [hx] at h; cases h
    | ok at' => rw [hx] at h; exact ⟨at'.1, at'.2, rfl, h⟩
  · rintro ⟨a, t, hx, hf⟩
    rw [hx]
    exact hf

theorem zoom_id (x : Prog ε σ α) : zoom id (fun s _ => s) x = x := by
  funext s
  change (match x s with | .ok (a, t) => .ok (a, t) | .error e => .error e) = x s
  cases x s with
  | error e => rfl
  | ok r => rfl

/-! ## Weakest preconditions -/

/-- `x` started in `s` returns a result that meets `post`, or stops with an error that
`allowed` admits. -/
def wp (allowed : ε → Prop) (x : Prog ε σ α) (post : α → σ → Prop) (s : σ) : Prop :=
  match x s with
  | .ok (a, t) => post a t
  | .error e => allowed e

variable {allowed : ε → Prop} {post : α → σ → Prop}

@[simp] theorem wp_pure (a : α) (s : σ) : wp allowed (pure a) post s ↔ post a s := Iff.rfl

@[simp] theorem wp_read (post : σ → σ → Prop) (s : σ) : wp allowed read post s ↔ post s s :=
  Iff.rfl

@[simp] theorem wp_update (f : σ → σ) (post : Unit → σ → Prop) (s : σ) :
    wp allowed (update f) post s ↔ post () (f s) := Iff.rfl

@[simp] theorem wp_stop (e : ε) (s : σ) : wp allowed (stop e) post s ↔ allowed e := Iff.rfl

@[simp] theorem wp_bind (x : Prog ε σ α) (f : α → Prog ε σ β) (post : β → σ → Prop) (s : σ) :
    wp allowed (x >>= f) post s ↔ wp allowed x (fun a t => wp allowed (f a) post t) s := by
  unfold wp
  rw [bind_apply]
  cases x s with
  | error e => exact Iff.rfl
  | ok r => exact Iff.rfl

@[simp] theorem wp_zoom (get : τ → σ) (set : σ → τ → τ) (x : Prog ε σ α)
    (post : α → τ → Prop) (t : τ) :
    wp allowed (zoom get set x) post t ↔ wp allowed x (fun a s => post a (set s t)) (get t) := by
  unfold wp zoom
  cases x (get t) with
  | error e => exact Iff.rfl
  | ok r => exact Iff.rfl

theorem wp_mono {x : Prog ε σ α} {post post' : α → σ → Prop} {s : σ}
    (h : wp allowed x post s) (weaker : ∀ a t, post a t → post' a t) :
    wp allowed x post' s := by
  unfold wp at h ⊢
  cases hx : x s with
  | error e => rw [hx] at h; exact h
  | ok r => rw [hx] at h; exact weaker _ _ h

theorem wp_and {x : Prog ε σ α} {post post' : α → σ → Prop} {s : σ}
    (h : wp allowed x post s) (h' : wp (fun _ => True) x post' s) :
    wp allowed x (fun a t => post a t ∧ post' a t) s := by
  unfold wp at h h' ⊢
  cases hx : x s with
  | error e => rw [hx] at h; exact h
  | ok r => rw [hx] at h h'; exact ⟨h, h'⟩

theorem wp_allow {x : Prog ε σ α} {allowed allowed' : ε → Prop} {s : σ}
    (h : wp allowed x post s) (wider : ∀ e, allowed e → allowed' e) :
    wp allowed' x post s := by
  unfold wp at h ⊢
  cases hx : x s with
  | error e => rw [hx] at h; exact wider e h
  | ok r => rw [hx] at h; exact h

theorem wp_of_ok {x : Prog ε σ α} {s t : σ} {a : α} (h : wp allowed x post s)
    (returned : x s = .ok (a, t)) : post a t := by
  unfold wp at h
  rw [returned] at h
  exact h

theorem allowed_of_wp {x : Prog ε σ α} {s : σ} {e : ε} (h : wp allowed x post s)
    (stopped : x s = .error e) : allowed e := by
  unfold wp at h
  rw [stopped] at h
  exact h

theorem exists_ok_of_wp {x : Prog ε σ α} {s : σ} (h : wp (fun _ => False) x post s) :
    ∃ a t, x s = .ok (a, t) ∧ post a t := by
  unfold wp at h
  cases hx : x s with
  | error e => rw [hx] at h; exact h.elim
  | ok r => rw [hx] at h; exact ⟨r.1, r.2, rfl, h⟩

theorem wp_of_eq_ok {x : Prog ε σ α} {s t : σ} {a : α} (returned : x s = .ok (a, t))
    (holds : post a t) : wp allowed x post s := by
  unfold wp
  rw [returned]
  exact holds

/-! ## The scan loop -/

/-- `while ((x = next())) body`: take elements from `next` until it has none left or the
body breaks off with `done`. The loop itself carries no bound, so it stops with
`exhausted` when `fuel` elements were not enough. -/
def whileSome (exhausted : ε) (next : Prog ε σ (Option α))
    (body : α → β → Prog ε σ (ForInStep β)) : ℕ → β → Prog ε σ β
  | 0, _ => stop exhausted
  | fuel + 1, b => do
    match ← next with
    | none => pure b
    | some a =>
      match ← body a b with
      | .done b' => pure b'
      | .yield b' => whileSome exhausted next body fuel b'

/-- **Loop rule.** `inv` relates the elements still to come, the loop variables and the
state. Each round takes the first of them and either re-establishes `inv` for the rest
or breaks off with the postcondition; a list shorter than the fuel is scanned to its end. -/
theorem wp_whileSome {exhausted : ε} {next : Prog ε σ (Option α)}
    {body : α → β → Prog ε σ (ForInStep β)} {post : β → σ → Prop}
    (inv : List α → β → σ → Prop)
    (last : ∀ b s, inv [] b s → wp allowed next (fun o t => o = none ∧ post b t) s)
    (round : ∀ a rest b s, inv (a :: rest) b s → wp allowed next (fun o t => o = some a ∧
      wp allowed (body a b) (fun r u => match r with
        | .done b' => post b' u
        | .yield b' => inv rest b' u) t) s) :
    ∀ (fuel : ℕ) (pending : List α) (b : β) (s : σ), pending.length < fuel →
      inv pending b s → wp allowed (whileSome exhausted next body fuel b) post s
  | 0, _, _, _, short, _ => absurd short (Nat.not_lt_zero _)
  | fuel + 1, [], b, s, _, h => by
    rw [whileSome, wp_bind]
    refine wp_mono (last b s h) ?_
    rintro o t ⟨rfl, hpost⟩
    exact hpost
  | fuel + 1, a :: rest, b, s, short, h => by
    rw [whileSome, wp_bind]
    refine wp_mono (round a rest b s h) ?_
    rintro o t ⟨rfl, hbody⟩
    rw [wp_bind]
    refine wp_mono hbody ?_
    rintro (b' | b') u hstep
    · exact hstep
    · exact wp_whileSome inv last round fuel rest b' u (Nat.lt_of_succ_lt_succ short) hstep

/-! ## Frames -/

/-- Where the program returns, `view` is the same before and after. -/
def Keeps {γ : Type} (view : σ → γ) (x : Prog ε σ α) : Prop :=
  ∀ s a t, x s = .ok (a, t) → view t = view s

namespace Keeps

variable {γ : Type} {view : σ → γ}

theorem pure (a : α) : Keeps view (pure a : Prog ε σ α) := by
  intro s b t h
  obtain ⟨-, rfl⟩ := Prod.mk.inj (Except.ok.inj h)
  rfl

theorem read : Keeps view (read : Prog ε σ σ) := by
  intro s b t h
  obtain ⟨-, rfl⟩ := Prod.mk.inj (Except.ok.inj h)
  rfl

theorem stop (e : ε) : Keeps view (stop e : Prog ε σ α) := by
  intro s a t h
  cases h

theorem update {f : σ → σ} (hf : ∀ s, view (f s) = view s) :
    Keeps view (update f : Prog ε σ Unit) := by
  intro s a t h
  obtain ⟨-, rfl⟩ := Prod.mk.inj (Except.ok.inj h)
  exact hf s

theorem bind {x : Prog ε σ α} {f : α → Prog ε σ β} (hx : Keeps view x)
    (hf : ∀ a, Keeps view (f a)) : Keeps view (x >>= f) := by
  intro s b u h
  obtain ⟨a, t, hfirst, hrest⟩ := bind_eq_ok_iff.mp h
  exact (hf a t b u hrest).trans (hx s a t hfirst)

theorem ite {p : Prop} [Decidable p] {x y : Prog ε σ α} (hx : Keeps view x) (hy : Keeps view y) :
    Keeps view (if p then x else y) := by
  split
  · exact hx
  · exact hy

theorem zoom {τ : Type} {view : τ → γ} {get : τ → σ} {set : σ → τ → τ} {x : Prog ε σ α}
    (hset : ∀ s t, view (set s t) = view t) : Keeps view (zoom get set x) := by
  intro t a u h
  unfold Prog.zoom at h
  cases hx : x (get t) with
  | error e => rw [hx] at h; cases h
  | ok r =>
    rw [hx] at h
    obtain ⟨-, rfl⟩ := Prod.mk.inj (Except.ok.inj h)
    exact hset r.2 t

theorem forM {x : α → Prog ε σ Unit} (hx : ∀ a, Keeps view (x a)) (as : List α) :
    Keeps view (as.forM x) := by
  induction as with
  | nil => exact Keeps.pure ()
  | cons a as ih => exact (hx a).bind fun _ => ih

theorem whileSome {exhausted : ε} {next : Prog ε σ (Option α)}
    {body : α → β → Prog ε σ (ForInStep β)} (hnext : Keeps view next)
    (hbody : ∀ a b, Keeps view (body a b)) (fuel : ℕ) (b : β) :
    Keeps view (whileSome exhausted next body fuel b) := by
  induction fuel generalizing b with
  | zero => exact Keeps.stop exhausted
  | succ fuel ih =>
    refine hnext.bind fun o => ?_
    cases o with
    | none => exact Keeps.pure b
    | some a =>
      refine (hbody a b).bind fun r => ?_
      cases r with
      | done b' => exact Keeps.pure b'
      | yield b' => exact ih b'

end Keeps

end Prog

end Foundation
