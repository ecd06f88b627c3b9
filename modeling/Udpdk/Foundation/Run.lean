import Mathlib.Data.List.Basic

/-!
# Labelled runs

Finite runs of a labelled transition relation, with their log of labels. A run is
extended at its end, so that the log grows the way a history does and an invariant may
speak about both the state and the history that led to it.

## Main definitions

* `Run step s log t` — the run with labels `log` from `s` to `t`
* `Run.Always` — a property of every state the run passes through

## Main results

* `Run.invariant` — the induction rule for properties of logs and states
* `Run.append`, `Run.split` — runs compose and decompose along their logs
* `Run.of_foldlM` — runs of a partial function
* `Run.forget` — a guarded run is a run
* `Run.Always.invariant` — invariance along a run that has a property throughout
* `Run.always_iff` — a property that the first bad label destroys
-/

namespace Foundation

variable {σ κ : Type} {step step' : κ → σ → σ → Prop} {s t u : σ} {log log' : List κ} {a : κ}

/-- A finite run of a labelled transition relation and its log. -/
inductive Run (step : κ → σ → σ → Prop) (s : σ) : List κ → σ → Prop
  | nil : Run step s [] s
  | snoc {t u : σ} {log : List κ} {a : κ} :
      Run step s log t → step a t u → Run step s (log ++ [a]) u

namespace Run

theorem single (h : step a s t) : Run step s [a] t := by
  simpa using Run.snoc .nil h

theorem append (first : Run step s log t) (second : Run step t log' u) :
    Run step s (log ++ log') u := by
  induction second with
  | nil => simpa using first
  | snoc _ hstep ih => simpa using ih.snoc hstep

theorem cons (hstep : step a s t) (rest : Run step t log u) : Run step s (a :: log) u := by
  simpa using (single hstep).append rest

/-- A run with a composite log passes through a state in between. -/
theorem split (h : Run step s (log ++ log') u) :
    ∃ t, Run step s log t ∧ Run step t log' u := by
  generalize hall : log ++ log' = all at h
  induction h generalizing log' with
  | nil =>
    obtain ⟨rfl, rfl⟩ := List.append_eq_nil_iff.mp hall
    exact ⟨s, .nil, .nil⟩
  | @snoc m u before b first hstep ih =>
    rcases List.eq_nil_or_concat log' with rfl | ⟨front, c, rfl⟩
    · rw [List.append_nil] at hall
      exact ⟨u, hall ▸ first.snoc hstep, .nil⟩
    · rw [List.concat_eq_append, ← List.append_assoc] at hall
      obtain ⟨hfront, hlast⟩ := List.append_inj' hall rfl
      obtain rfl := List.singleton_injective hlast
      obtain ⟨t, hleft, hright⟩ := ih hfront
      exact ⟨t, hleft, by simpa using hright.snoc hstep⟩

theorem eq_of_nil (h : Run step s [] t) : t = s := by
  generalize hlog : ([] : List κ) = log at h
  cases h with
  | nil => rfl
  | snoc before hstep => exact absurd hlog (by simp)

theorem of_single (h : Run step s [a] t) : step a s t := by
  generalize hlog : [a] = log at h
  cases h with
  | nil => cases hlog
  | @snoc m _ before b first hstep =>
    have hsplit : [] ++ [a] = before ++ [b] := hlog
    obtain ⟨hnil, hlast⟩ := List.append_inj' hsplit rfl
    subst hnil
    obtain rfl := List.singleton_injective hlast
    exact first.eq_of_nil ▸ hstep

/-- A log that a partial function has been taken along is the log of a run. -/
theorem of_foldlM {next : κ → σ → Option σ}
    (h : log.foldlM (fun s a => next a s) s = some t) :
    Run (fun a s t => next a s = some t) s log t := by
  induction log generalizing s with
  | nil =>
    obtain rfl := Option.some.inj h
    exact .nil
  | cons a log ih =>
    rw [List.foldlM_cons] at h
    obtain ⟨u, hstep, hrest⟩ := Option.bind_eq_some_iff.mp h
    exact .cons hstep (ih hrest)

theorem of_snoc (h : Run step s (log ++ [a]) u) : ∃ t, Run step s log t ∧ step a t u := by
  obtain ⟨t, before, last⟩ := h.split
  exact ⟨t, before, last.of_single⟩

theorem exists_step (h : Run step s log t) (ha : a ∈ log) : ∃ u v, step a u v := by
  obtain ⟨front, back, rfl⟩ := List.append_of_mem ha
  rw [← List.singleton_append, ← List.append_assoc] at h
  obtain ⟨u, before, -⟩ := h.split
  obtain ⟨v, -, hstep⟩ := before.of_snoc
  exact ⟨v, u, hstep⟩

/-- A run up to its first step of a kind. -/
theorem exists_first {p : κ → Bool} (h : Run step s log t) (hp : ∃ a ∈ log, p a) :
    ∃ before a after u v, log = before ++ a :: after ∧ (∀ b ∈ before, p b = false) ∧ p a ∧
      Run step s before u ∧ step a u v ∧ Run step v after t := by
  induction h with
  | nil =>
    obtain ⟨a, ha, -⟩ := hp
    cases ha
  | @snoc u t log a run hstep ih =>
    by_cases hearlier : ∃ b ∈ log, p b
    · obtain ⟨before, b, after, v, w, rfl, hbefore, hb, first, hfirst, rest⟩ := ih hearlier
      exact ⟨before, b, after ++ [a], v, w, List.append_assoc .., hbefore, hb, first, hfirst,
        rest.snoc hstep⟩
    · have hnone : ∀ b ∈ log, p b = false := fun b hb =>
        Bool.eq_false_iff.mpr fun hpb => hearlier ⟨b, hb, hpb⟩
      obtain ⟨b, hb, hpb⟩ := hp
      rcases List.mem_append.mp hb with hb | hb
      · exact absurd ⟨b, hb, hpb⟩ hearlier
      · obtain rfl := List.mem_singleton.mp hb
        exact ⟨log, b, [], u, t, rfl, hnone, hpb, run, hstep, .nil⟩

/-- **Invariance.** A property of the log and the state reached that holds of the empty
run and that every step preserves holds of every run. -/
theorem invariant (inv : List κ → σ → Prop) (start : inv [] s)
    (preserved : ∀ log t a u, Run step s log t → inv log t → step a t u → inv (log ++ [a]) u)
    (h : Run step s log t) : inv log t := by
  induction h with
  | nil => exact start
  | snoc before hstep ih => exact preserved _ _ _ _ before ih hstep

theorem state_invariant {inv : σ → Prop} (start : inv s)
    (preserved : ∀ a t u, inv t → step a t u → inv u) (h : Run step s log t) : inv t := by
  induction h with
  | nil => exact start
  | snoc _ hstep ih => exact preserved _ _ _ ih hstep

theorem mono (h : Run step s log t) (hle : ∀ a s t, step a s t → step' a s t) :
    Run step' s log t := by
  induction h with
  | nil => exact .nil
  | snoc _ hstep ih => exact ih.snoc (hle _ _ _ hstep)

/-- **Forward simulation.** Runs transfer along a map of states that carries a step to a step,
and leaves the state alone where the label is hidden. -/
theorem filterMap {σ' κ' : Type} {step' : κ' → σ' → σ' → Prop} {f : σ → σ'} {g : κ → Option κ'}
    (h : Run step s log t)
    (shown : ∀ a b s t, step a s t → g a = some b → step' b (f s) (f t))
    (hidden : ∀ a s t, step a s t → g a = none → f t = f s) :
    Run step' (f s) (log.filterMap g) (f t) := by
  induction h with
  | nil => exact .nil
  | @snoc t u log a _ last ih =>
    rw [List.filterMap_append]
    cases ha : g a with
    | none =>
      rw [List.filterMap_cons_none ha, List.filterMap_nil, List.append_nil,
        hidden _ _ _ last ha]
      exact ih
    | some b =>
      rw [List.filterMap_cons_some ha, List.filterMap_nil]
      exact ih.snoc (shown _ _ _ _ last ha)

theorem forget {good : κ → σ → Prop} (h : Run (fun a s t => step a s t ∧ good a s) s log t) :
    Run step s log t :=
  h.mono fun _ _ _ hstep => hstep.1

/-- A run of labels that meet a condition in every state is a run of guarded steps. -/
theorem guard {good : κ → σ → Prop} (h : Run step s log t) (all : ∀ a ∈ log, ∀ s, good a s) :
    Run (fun a s t => step a s t ∧ good a s) s log t := by
  induction h with
  | nil => exact .nil
  | snoc _ hstep ih =>
    exact (ih fun a ha => all a (List.mem_append_left _ ha)).snoc
      ⟨hstep, all _ (List.mem_append_right _ (List.mem_singleton_self _)) _⟩

/-- `P` holds of every state that the run from `s` to `u` with the given log passes
through, its first and its last state included. -/
def Always (step : κ → σ → σ → Prop) (P : σ → Prop) (s : σ) (log : List κ) (u : σ) : Prop :=
  ∀ before after t, log = before ++ after → Run step s before t → Run step t after u → P t

theorem Always.of_snoc {P : σ → Prop} (always : Always step P s (log ++ [a]) u)
    (hstep : step a t u) : Always step P s log t := by
  intro before after m hlog hbefore hafter
  refine always before (after ++ [a]) m ?_ hbefore (hafter.snoc hstep)
  rw [hlog, List.append_assoc]

/-- Invariance along a run that has `P` throughout. -/
theorem Always.invariant {P : σ → Prop} (always : Always step P s log u) (inv : σ → Prop)
    (run : Run step s log u) (start : inv s)
    (preserved : ∀ a t u, P t → inv t → step a t u → inv u) : inv u := by
  induction run with
  | nil => exact start
  | @snoc m u log a before hstep ih =>
    -- the state in front of the step is one that the run passes through
    have hm : P m := always log [a] m rfl before (single hstep)
    exact preserved a m u hm (ih (always.of_snoc hstep)) hstep

/-- **The first bad label.** If `P` holds as long as no bad label occurred, and fails after
the first one, then a run has `P` throughout exactly when its log has no bad label. -/
theorem always_iff {P : σ → Prop} {bad : κ → Bool}
    (before : ∀ log t, Run step s log t → (∀ a ∈ log, bad a = false) → P t)
    (first : ∀ log t a u, Run step s log t → (∀ b ∈ log, bad b = false) → bad a →
      step a t u → ¬ P u)
    (h : Run step s log u) : Always step P s log u ↔ ∀ a ∈ log, bad a = false := by
  constructor
  · intro always
    by_contra hbad
    -- cut the log at the first bad label
    obtain ⟨a, hfind⟩ : ∃ a, log.find? bad = some a := by
      rw [← Option.isSome_iff_exists, List.find?_isSome]
      simpa using hbad
    obtain ⟨ha, front, back, rfl, hfront⟩ := List.find?_eq_some_iff_append.mp hfind
    have hgood : ∀ b ∈ front, bad b = false := by simpa using hfront
    have hsplit : front ++ a :: back = (front ++ [a]) ++ back := by simp
    rw [hsplit] at h
    obtain ⟨t, hfirst, hrest⟩ := h.split
    obtain ⟨r, hbefore, hstep⟩ := hfirst.of_snoc
    exact first front r a t hbefore hgood ha hstep (always _ _ t hsplit hfirst hrest)
  · rintro hgood front back t rfl hfront -
    exact before front t hfront fun a ha => hgood a (List.mem_append_left _ ha)

end Run

end Foundation
