import Udpdk.BindTable.Refinement

/-!
# The rule of acceptance

The comments of `btable_can_bind` give three cases in which a new binding may stand beside
an existing one. The second case, of a wildcard and a specific address, has one comparison
the other way round, so that a new wildcard is never accepted beside any binding.

## Main definitions

* `BindInfo.CompatibleWith` — the rule as the comments give it
* `WildcardRefused` — the only case in which the code departs from it

## Main results

* `btable_can_bind_iff` — exactly then `btable_can_bind` departs from the rule
-/

namespace Udpdk

open Foundation

/-- The new socket has one of the two options. -/
def AllowsReuse (opts : BitVec 32) : Prop := hasOpt opts soReuseaddr ∨ hasOpt opts soReuseport

/-- The three cases of the comments: different and none is `INADDR_ANY`; different, one is
`INADDR_ANY`, and the new has an option; the same, not `INADDR_ANY`, and both have
`SO_REUSEPORT`. -/
def BindInfo.CompatibleWith (b : BindInfo) (ip : InAddr) (opts : BitVec 32) : Prop :=
  (b.ipAddr ≠ ip ∧ b.ipAddr ≠ inaddrAny ∧ ip ≠ inaddrAny) ∨
    (b.ipAddr ≠ ip ∧ (b.ipAddr = inaddrAny ∨ ip = inaddrAny) ∧ AllowsReuse opts) ∨
    (b.ipAddr = ip ∧ ip ≠ inaddrAny ∧ hasOpt opts soReuseport ∧ b.reusePort)

/-- A new wildcard with an option, on a port whose bindings are all specific. -/
structure WildcardRefused (bs : List BindInfo) (ip : InAddr) (opts : BitVec 32) : Prop where
  wildcard : ip = inaddrAny
  reuse : AllowsReuse opts
  nonempty : bs ≠ []
  specific : ∀ b ∈ bs, b.ipAddr ≠ inaddrAny

variable {b : BindInfo} {bs : List BindInfo} {ip : InAddr} {opts : BitVec 32}

/-- For a specific address the code follows the rule; a wildcard it admits nowhere. -/
theorem admits_iff : b.admits ip opts ↔ ip ≠ inaddrAny ∧ b.CompatibleWith ip opts := by
  by_cases hip : ip = inaddrAny
  · rw [hip, not_admits_inaddrAny]
    simp
  · simp only [BindInfo.admits, BindInfo.CompatibleWith, AllowsReuse, decide_eq_true_eq]
    grind

/-- A wildcard is compatible with specific bindings, given an option. -/
theorem compatibleWith_inaddrAny :
    b.CompatibleWith inaddrAny opts ↔ b.ipAddr ≠ inaddrAny ∧ AllowsReuse opts := by
  simp [BindInfo.CompatibleWith]

/-- When the code and the rule agree. -/
theorem canBind_iff_rule :
    ((canBind bs ip opts = true ↔ ∀ b ∈ bs, b.CompatibleWith ip opts) ↔
      ¬ WildcardRefused bs ip opts) := by
  have hcan : canBind bs ip opts = true ↔ ∀ b ∈ bs, ip ≠ inaddrAny ∧ b.CompatibleWith ip opts := by
    simp only [canBind, List.all_eq_true, admits_iff]
  rw [hcan]
  by_cases hip : ip = inaddrAny
  · subst hip
    cases bs with
    | nil =>
      have hempty : ¬ WildcardRefused [] inaddrAny opts := fun h => h.nonempty rfl
      simp [hempty]
    -- the code refuses a wildcard on any port in use; the rule allows it beside specific bindings
    | cons x rest =>
      have hnever : ¬ ∀ b ∈ x :: rest, inaddrAny ≠ inaddrAny ∧ b.CompatibleWith inaddrAny opts :=
        fun h => (h x List.mem_cons_self).1 rfl
      rw [iff_false_left hnever, not_iff_not]
      simp only [compatibleWith_inaddrAny]
      constructor
      · intro h
        exact ⟨rfl, (h x List.mem_cons_self).2, List.cons_ne_nil x rest, fun b hb => (h b hb).1⟩
      · exact fun h b hb => ⟨h.specific b hb, h.reuse⟩
  · -- for a specific address code and rule agree binding by binding
    have hnot : ¬ WildcardRefused bs ip opts := fun h => hip h.wildcard
    simp [hip, hnot]

/-- **The rule of acceptance.** On any well-formed list `btable_can_bind` answers as its
comments say, but for a wildcard with an option that comes to specific bindings only. -/
theorem btable_can_bind_iff {m : Mem} {port : Port} {xs : List ℕ} (idle : m.iteratorAlloc.Idle)
    (hnull : m.sockBindTable port = none → xs = [])
    (hlist : ∀ l, m.sockBindTable port = some l → m.ListAt l xs) (hlen : xs.length < 2 ^ 32)
    (ip : InAddr) (opts : BitVec 32) :
    ∃ r m', btableCanBind ip port opts m = .ok (r, m') ∧
      ((r = true ↔ ∀ b ∈ xs.map m.info, b.CompatibleWith ip opts) ↔
        ¬ WildcardRefused (xs.map m.info) ip opts) := by
  have spec : Prog.wp (fun _ => False) (btableCanBind ip port opts) _ m :=
    btableCanBind_of_list idle hnull hlist hlen
  obtain ⟨r, m', hret, rfl, -⟩ := Prog.exists_ok_of_wp spec
  exact ⟨_, m', hret, canBind_iff_rule⟩

private theorem exists_bound : ∃ m : Mem, m.Ok ∧ m.bindings 53 = [newBinding 0 7 0] := by
  have can : canBind ((btableInit ⟨0, 0, 0, 0⟩).bindings 53) 7 0 := rfl
  obtain ⟨m, -, ok, hbs⟩ := exists_btableAddBinding 0 53 (ok_btableInit _) (by decide) can
  refine ⟨m, ok, ?_⟩
  rw [hbs, Function.update_self]
  rfl

/-- A wildcard with `SO_REUSEADDR` is refused beside a specific binding. -/
theorem not_btable_can_bind_rule : ¬ ∀ (m : Mem) (port : Port) (xs : List ℕ),
    m.iteratorAlloc.Idle → (m.sockBindTable port = none → xs = []) →
    (∀ l, m.sockBindTable port = some l → m.ListAt l xs) → xs.length < 2 ^ 32 →
    ∀ ip opts, ∃ r m', btableCanBind ip port opts m = .ok (r, m') ∧
      (r = true ↔ ∀ b ∈ xs.map m.info, b.CompatibleWith ip opts) := by
  intro h
  obtain ⟨m, ok, hbs⟩ := exists_bound
  have hlen := (Nat.lt_succ_self _).trans (ok.rep.length_lt_scanFuel 53)
  obtain ⟨r, m', hret, hrule⟩ := h m 53 (m.nodesAt 53) ok.rep.pools.iterators (ok.rep.null 53)
    (ok.rep.list 53) hlen inaddrAny soReuseaddr
  have spec : Prog.wp (fun _ => False) (btableCanBind inaddrAny 53 soReuseaddr) _ m :=
    btableCanBind_spec ok.rep
  obtain ⟨_, _, hret', rfl, -⟩ := Prog.exists_ok_of_wp spec
  obtain ⟨rfl, rfl⟩ := Prod.mk.inj (Except.ok.inj (hret.symm.trans hret'))
  apply canBind_iff_rule.mp hrule
  change WildcardRefused (m.bindings 53) inaddrAny soReuseaddr
  rw [hbs]
  refine ⟨rfl, .inl (by decide), List.cons_ne_nil _ _, fun b hb => ?_⟩
  rw [List.mem_singleton.mp hb]
  decide

/-- Another specific address beside it. -/
theorem btable_can_bind_iff_of_bound : ∃ (m : Mem) (r : Bool) (m' : Mem),
    m.bindings 53 = [newBinding 0 7 0] ∧ btableCanBind 8 53 0 m = .ok (r, m') ∧
      (r = true ↔ ∀ b ∈ m.bindings 53, b.CompatibleWith 8 0) := by
  obtain ⟨m, ok, hbs⟩ := exists_bound
  have hlen := (Nat.lt_succ_self _).trans (ok.rep.length_lt_scanFuel 53)
  obtain ⟨r, m', hret, hrule⟩ := btable_can_bind_iff ok.rep.pools.iterators (ok.rep.null 53)
    (ok.rep.list 53) hlen 8 0
  exact ⟨m, r, m', hbs, hret, hrule.mpr fun h => absurd h.wildcard (by decide)⟩

end Udpdk
