import Udpdk.BindTable.Basic

/-!
# The bind table as lists of bindings

What the bind table is for, without its memory: to every raw port belongs a list of
bindings. A new binding is accepted when every binding of its port admits it; wildcards
go in front. The order of a port's list therefore remembers the order of its bindings,
and whatever a later binding had to satisfy about an earlier one still shows.

## Main definitions

* `BindInfo.admits`, `canBind` — the rule for a new binding
* `insertBinding`, `removeBinding` — the updates of a port's list
* `Compatible`, `Coexist` — what an earlier binding guarantees about a later one
* `ownedBy` — the bindings of one socket

## Main results

* `coexist_insertBinding`, `coexist_removeBinding` — both updates keep `Coexist`
* `Coexist.exclusive` — what two bindings of one port have in common, whatever their order
-/

namespace Udpdk

/-- The binding that `btable_add_binding` stores. -/
def newBinding (s : ℤ) (ip : InAddr) (opts : BitVec 32) : BindInfo where
  sockfd := s
  ipAddr := ip
  reuseAddr := hasOpt opts soReuseaddr
  reusePort := hasOpt opts soReuseport
  closed := false

/-- The existing binding `b` does not stand in the way of a new one. -/
def BindInfo.admits (b : BindInfo) (ip : InAddr) (opts : BitVec 32) : Bool :=
  (b.ipAddr ≠ ip ∧ b.ipAddr ≠ inaddrAny ∧ ip ≠ inaddrAny) ∨
    (b.ipAddr ≠ ip ∧ (b.ipAddr = inaddrAny ∨ ip ≠ inaddrAny) ∧
      (hasOpt opts soReuseaddr ∨ hasOpt opts soReuseport)) ∨
    (b.ipAddr = ip ∧ ip ≠ inaddrAny ∧ hasOpt opts soReuseport ∧ b.reusePort)

/-- No existing binding stands in the way of a new one. -/
def canBind (bs : List BindInfo) (ip : InAddr) (opts : BitVec 32) : Bool :=
  bs.all fun b => b.admits ip opts

/-- A wildcard goes to the front, a specific binding to the back. -/
def insertBinding (b : BindInfo) (bs : List BindInfo) : List BindInfo :=
  if b.ipAddr = inaddrAny then b :: bs else bs ++ [b]

/-- The first binding of the socket is removed. -/
def removeBinding (s : ℤ) (bs : List BindInfo) : List BindInfo :=
  bs.eraseP fun b => b.sockfd = s

variable {b x y : BindInfo} {bs : List BindInfo} {s : ℤ} {ip : InAddr} {opts : BitVec 32}

/-- What the order of `x` before `y` in a list tells about them: `y` was admitted by `x`. -/
structure Compatible (x y : BindInfo) : Prop where
  specific : y.ipAddr ≠ inaddrAny
  under_wildcard : x.ipAddr = inaddrAny → y.reuseAddr ∨ y.reusePort
  same_ip : x.ipAddr = y.ipAddr → x.reusePort ∧ y.reusePort

/-- Every binding of the list is compatible with all later ones. -/
def Coexist (bs : List BindInfo) : Prop := bs.Pairwise Compatible

theorem not_admits_inaddrAny : b.admits inaddrAny opts = false := by
  simp [BindInfo.admits]
  exact fun hne heq => absurd heq hne

theorem compatible_of_admits (h : x.admits ip opts) (hip : ip ≠ inaddrAny) :
    Compatible x (newBinding s ip opts) where
  specific := hip
  under_wildcard := by
    intro hx
    simpa [BindInfo.admits, newBinding, hx, hip, Ne.symm hip] using h
  same_ip := by
    intro hx
    have hx' : x.ipAddr = ip := hx
    simpa [BindInfo.admits, newBinding, hx', hip, and_comm] using h

theorem eq_nil_of_canBind_inaddrAny (h : canBind bs inaddrAny opts) : bs = [] := by
  cases bs with
  | nil => rfl
  | cons b rest => simp [canBind, not_admits_inaddrAny] at h

theorem mem_insertBinding : x ∈ insertBinding b bs ↔ x = b ∨ x ∈ bs := by
  unfold insertBinding
  split
  · exact List.mem_cons
  · rw [List.mem_append, List.mem_singleton, or_comm]

/-- An accepted binding coexists with those that were there. -/
theorem coexist_insertBinding (h : Coexist bs) (accepted : canBind bs ip opts) :
    Coexist (insertBinding (newBinding s ip opts) bs) := by
  by_cases hip : ip = inaddrAny
  · subst hip
    obtain rfl := eq_nil_of_canBind_inaddrAny accepted
    simp [Coexist, insertBinding, newBinding]
  · have hback : insertBinding (newBinding s ip opts) bs = bs ++ [newBinding s ip opts] :=
      if_neg hip
    rw [hback, Coexist, List.pairwise_append]
    refine ⟨h, List.pairwise_singleton _ _, fun x hx y hy => ?_⟩
    obtain rfl := List.mem_singleton.mp hy
    exact compatible_of_admits (List.all_eq_true.mp accepted x hx) hip

theorem coexist_removeBinding (h : Coexist bs) : Coexist (removeBinding s bs) :=
  h.sublist List.eraseP_sublist

/-- What holds of any two bindings of one port. -/
structure Exclusive (x y : BindInfo) : Prop where
  one_wildcard : ¬ (x.ipAddr = inaddrAny ∧ y.ipAddr = inaddrAny)
  same_ip : x.ipAddr = y.ipAddr → x.reusePort ∧ y.reusePort
  wildcard_and_specific : (x.ipAddr = inaddrAny ↔ y.ipAddr ≠ inaddrAny) →
    x.reuseAddr ∨ x.reusePort ∨ y.reuseAddr ∨ y.reusePort

theorem Exclusive.symm (h : Exclusive x y) : Exclusive y x where
  one_wildcard := fun hboth => h.one_wildcard hboth.symm
  same_ip := fun heq => (h.same_ip heq.symm).symm
  wildcard_and_specific := by
    intro hone
    have := h.wildcard_and_specific (by tauto)
    tauto

theorem Compatible.exclusive (h : Compatible x y) : Exclusive x y where
  one_wildcard := fun hboth => h.specific hboth.2
  same_ip := h.same_ip
  wildcard_and_specific := by
    intro hone
    have := h.under_wildcard (hone.mpr h.specific)
    tauto

/-- Two bindings at different places of a port's list exclude each other's address unless
both allow it. -/
theorem Coexist.exclusive (h : Coexist bs) {i j : ℕ} (hne : i ≠ j)
    (hi : bs[i]? = some x) (hj : bs[j]? = some y) : Exclusive x y := by
  obtain ⟨hix, rfl⟩ := List.getElem?_eq_some_iff.mp hi
  obtain ⟨hjx, rfl⟩ := List.getElem?_eq_some_iff.mp hj
  rcases Nat.lt_or_gt_of_ne hne with hlt | hlt
  · exact (List.pairwise_iff_getElem.mp h i j hix hjx hlt).exclusive
  · exact (List.pairwise_iff_getElem.mp h j i hjx hix hlt).exclusive.symm

/-! ## The bindings of one socket -/

/-- The bindings of the socket `s` in a list. -/
def ownedBy (s : ℤ) (bs : List BindInfo) : List BindInfo := bs.filter fun b => b.sockfd = s

theorem ownedBy_eq_nil_iff : ownedBy s bs = [] ↔ ∀ b ∈ bs, b.sockfd ≠ s := by
  simp [ownedBy, List.filter_eq_nil_iff]

theorem mem_ownedBy : b ∈ ownedBy s bs ↔ b ∈ bs ∧ b.sockfd = s := by
  simp [ownedBy, List.mem_filter]

theorem ownedBy_insertBinding_self (h : ownedBy b.sockfd bs = []) :
    ownedBy b.sockfd (insertBinding b bs) = [b] := by
  unfold ownedBy at h ⊢
  unfold insertBinding
  split
  · rw [List.filter_cons_of_pos (by simp), h]
  · rw [List.filter_append, h]
    simp

theorem ownedBy_insertBinding_of_ne (h : s ≠ b.sockfd) :
    ownedBy s (insertBinding b bs) = ownedBy s bs := by
  unfold ownedBy insertBinding
  split
  · simp [Ne.symm h]
  · simp [Ne.symm h]

theorem ownedBy_removeBinding_self (h : (ownedBy s bs).length ≤ 1) :
    ownedBy s (removeBinding s bs) = [] := by
  induction bs with
  | nil => rfl
  | cons c rest ih =>
    unfold ownedBy removeBinding at *
    by_cases hc : c.sockfd = s
    · simpa [hc] using h
    · simpa [hc] using ih (by simpa [hc] using h)

theorem ownedBy_removeBinding_of_ne {t : ℤ} (h : t ≠ s) :
    ownedBy t (removeBinding s bs) = ownedBy t bs := by
  induction bs with
  | nil => rfl
  | cons c rest ih =>
    unfold ownedBy removeBinding at *
    by_cases hc : c.sockfd = s
    · simp [hc, h.symm]
    · simp [hc, List.filter_cons, ih]

/-- No socket holds two bindings, on one port or on two. -/
structure OneEach (B : Port → List BindInfo) : Prop where
  once : ∀ s p, (ownedBy s (B p)).length ≤ 1
  port : ∀ p q, ∀ x ∈ B p, ∀ y ∈ B q, x.sockfd = y.sockfd → p = q

theorem mem_update_singleton {p q : Port}
    (h : x ∈ Function.update (fun _ => []) p [b] q) : q = p ∧ x = b := by
  by_cases hq : q = p
  · subst hq
    exact ⟨rfl, by simpa using h⟩
  · simp [hq] at h

theorem oneEach_singleton (p : Port) (b : BindInfo) :
    OneEach (Function.update (fun _ => []) p [b]) where
  once := by
    intro s q
    apply List.length_filter_le _ _ |>.trans
    by_cases hq : q = p <;> simp [hq]
  port := fun q r x hx y hy _ => by
    rw [(mem_update_singleton hx).1, (mem_update_singleton hy).1]

end Udpdk
