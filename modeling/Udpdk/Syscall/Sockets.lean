import Udpdk.Foundation.Run
import Udpdk.Syscall.View

/-!
# Slots and bind table agree

Whether a socket is bound is stored twice: in its slot, and as a binding in the list of a
port. `SocketView.Ok` says that the two agree; every call keeps it so.

## Main definitions

* `SocketView.Ok` — the slots and the lists of bindings agree
* `Shared.Ok` — the memory is well formed, and its sockets agree

## Main results

* `SocketView.Ok.change` — every effect of a call keeps the agreement
* `Shared.Ok.run` — so does every run
* `slots_and_bind_table_agree` — the agreement spelled out
-/

namespace Udpdk

open Foundation

/-- Every binding belongs to a socket; an unbound socket has none, a bound one exactly one,
on its port and for its address; and the bindings of a port coexist. -/
structure SocketView.Ok (v : SocketView) : Prop where
  range : ∀ p, ∀ b ∈ v.bindings p, ∃ s < numSocketsMax, b.sockfd = (s : ℕ)
  unbound : ∀ s, (v.slot s).bound = false → ∀ p, ownedBy s (v.bindings p) = []
  bound : ∀ s, (v.slot s).bound → (v.slot s).used ∧ ∃ b, b.ipAddr = (v.slot s).ipAddr ∧
    ∀ p, ownedBy s (v.bindings p) = if p = (v.slot s).udpPort then [b] else []
  coexist : ∀ p, Coexist (v.bindings p)

namespace SocketView

variable {v v' : SocketView} {s t : ℕ} {p q : Port} {b : BindInfo} {ip : InAddr}
  {option value : BitVec 32}

/-! ## The slots after an update -/

@[simp] theorem slot_opened_self : (v.opened s).slot s =
    { v.slot s with used := true, bound := false, sockfd := s, soOptions := 0 } :=
  Function.update_self ..

@[simp] theorem slot_opened_of_ne (h : t ≠ s) : (v.opened s).slot t = v.slot t :=
  Function.update_of_ne h ..

@[simp] theorem slot_withOption_self : (v.withOption s option value).slot s =
    { v.slot s with soOptions := updateOption (v.slot s).soOptions option value } :=
  Function.update_self ..

@[simp] theorem slot_withOption_of_ne (h : t ≠ s) :
    (v.withOption s option value).slot t = v.slot t :=
  Function.update_of_ne h ..

@[simp] theorem slot_boundTo_self : (v.boundTo s ip p).slot s =
    { v.slot s with bound := true, udpPort := p, ipAddr := ip } :=
  Function.update_self ..

@[simp] theorem slot_boundTo_of_ne (h : t ≠ s) : (v.boundTo s ip p).slot t = v.slot t :=
  Function.update_of_ne h ..

@[simp] theorem slot_closed_self : (v.closed s).slot s =
    { v.slot s with bound := false, used := false, soOptions := 0 } :=
  Function.update_self ..

@[simp] theorem slot_closed_of_ne (h : t ≠ s) : (v.closed s).slot t = v.slot t :=
  Function.update_of_ne h ..

theorem used_withOption : ((v.withOption s option value).slot t).used = (v.slot t).used := by
  by_cases hts : t = s
  · rw [hts, slot_withOption_self]
  · rw [slot_withOption_of_ne hts]

theorem used_boundTo : ((v.boundTo s ip p).slot t).used = (v.slot t).used := by
  by_cases hts : t = s
  · rw [hts, slot_boundTo_self]
  · rw [slot_boundTo_of_ne hts]

theorem soOptions_boundTo : ((v.boundTo s ip p).slot t).soOptions = (v.slot t).soOptions := by
  by_cases hts : t = s
  · rw [hts, slot_boundTo_self]
  · rw [slot_boundTo_of_ne hts]

theorem mem_bindings_boundTo (h : b ∈ (v.boundTo s ip p).bindings q) :
    b = newBinding s ip (v.slot s).soOptions ∨ b ∈ v.bindings q := by
  change b ∈ Function.update v.bindings p
    (insertBinding (newBinding s ip (v.slot s).soOptions) (v.bindings p)) q at h
  by_cases hq : q = p
  · subst hq
    rw [Function.update_self] at h
    exact mem_insertBinding.mp h
  · rw [Function.update_of_ne hq] at h
    exact .inr h

theorem bindings_closed_sublist : ((v.closed s).bindings q).Sublist (v.bindings q) := by
  unfold SocketView.closed
  dsimp only
  split
  · by_cases hq : q = (v.slot s).udpPort
    · rw [hq, Function.update_self]
      exact List.eraseP_sublist
    · rw [Function.update_of_ne hq]
  · exact List.Sublist.refl _

/-! ## Consequences -/

namespace Ok

variable (ok : v.Ok)

include ok

theorem unbound_of_free (h : (v.slot s).used = false) : (v.slot s).bound = false := by
  cases hbound : (v.slot s).bound with
  | false => rfl
  | true => rw [(ok.bound s hbound).1] at h; cases h

/-- The socket of a binding is bound to the binding's address and port. -/
theorem bound_of_mem (hb : b ∈ v.bindings p) (hs : b.sockfd = (s : ℕ)) :
    (v.slot s).bound ∧ (v.slot s).udpPort = p ∧ (v.slot s).ipAddr = b.ipAddr := by
  have hmem : b ∈ ownedBy s (v.bindings p) := mem_ownedBy.mpr ⟨hb, hs⟩
  cases hbound : (v.slot s).bound with
  | false =>
    rw [ok.unbound s hbound p] at hmem
    cases hmem
  | true =>
    obtain ⟨-, c, hip, hown⟩ := ok.bound s hbound
    rw [hown p] at hmem
    split at hmem
    · rename_i hp
      rw [List.mem_singleton] at hmem
      exact ⟨rfl, hp.symm, by rw [← hip, hmem]⟩
    · cases hmem

theorem exists_mem_of_bound (h : (v.slot s).bound) :
    ∃ b ∈ v.bindings (v.slot s).udpPort, b.sockfd = (s : ℕ) ∧ b.ipAddr = (v.slot s).ipAddr := by
  obtain ⟨-, b, hip, hown⟩ := ok.bound s h
  have hmem : b ∈ ownedBy s (v.bindings (v.slot s).udpPort) := by
    rw [hown, if_pos rfl]
    exact List.mem_singleton_self b
  exact ⟨b, (mem_ownedBy.mp hmem).1, (mem_ownedBy.mp hmem).2, hip⟩

theorem oneEach : OneEach v.bindings where
  once := by
    intro t p
    by_cases hempty : ownedBy t (v.bindings p) = []
    · rw [hempty]
      exact Nat.zero_le 1
    · obtain ⟨b, hmem⟩ := List.exists_mem_of_ne_nil _ hempty
      obtain ⟨hb, rfl⟩ := mem_ownedBy.mp hmem
      obtain ⟨s, hs, hfd⟩ := ok.range p b hb
      obtain ⟨hbound, hport, -⟩ := ok.bound_of_mem hb hfd
      obtain ⟨-, c, -, hown⟩ := ok.bound s hbound
      rw [hfd, hown p, if_pos hport.symm]
      exact Nat.le_refl 1
  port := by
    intro p q x hx y hy hxy
    obtain ⟨s, hs, hfd⟩ := ok.range p x hx
    rw [← (ok.bound_of_mem hx hfd).2.1, ← (ok.bound_of_mem hy (hxy ▸ hfd)).2.1]

/-! ## Preservation -/

/-- A socket was unbound while its slot was free, and stays so. -/
theorem opened (free : (v.slot s).used = false) : (v.opened s).Ok where
  range := ok.range
  unbound := by
    intro t ht
    by_cases hts : t = s
    · rw [hts]
      exact ok.unbound s (ok.unbound_of_free free)
    · rw [slot_opened_of_ne hts] at ht
      exact ok.unbound t ht
  bound := by
    intro t ht
    by_cases hts : t = s
    · simp [hts] at ht
    · rw [slot_opened_of_ne hts] at ht ⊢
      exact ok.bound t ht
  coexist := ok.coexist

/-- Options are not part of the agreement. -/
theorem withOption : (v.withOption s option value).Ok where
  range := ok.range
  unbound := by
    intro t ht
    by_cases hts : t = s
    · rw [hts, slot_withOption_self] at ht
      exact hts ▸ ok.unbound s ht
    · rw [slot_withOption_of_ne hts] at ht
      exact ok.unbound t ht
  bound := by
    intro t ht
    by_cases hts : t = s
    · rw [hts, slot_withOption_self] at ht ⊢
      exact ok.bound s ht
    · rw [slot_withOption_of_ne hts] at ht ⊢
      exact ok.bound t ht
  coexist := ok.coexist

/-- Binding gives the socket its one binding, and touches no other socket's. -/
theorem boundTo (hs : s < numSocketsMax) (used : (v.slot s).used)
    (unbound : (v.slot s).bound = false)
    (accepted : canBind (v.bindings p) ip (v.slot s).soOptions) : (v.boundTo s ip p).Ok := by
  have hself : ownedBy (s : ℤ) (insertBinding (newBinding s ip (v.slot s).soOptions)
      (v.bindings p)) = [newBinding s ip (v.slot s).soOptions] :=
    ownedBy_insertBinding_self (b := newBinding s ip (v.slot s).soOptions)
      (ok.unbound s unbound p)
  have hother : ∀ t ≠ s, ∀ q, ownedBy (t : ℤ) ((v.boundTo s ip p).bindings q) =
      ownedBy (t : ℤ) (v.bindings q) := by
    intro t hts q
    by_cases hq : q = p
    · rw [hq]
      apply (congrArg _ (Function.update_self ..)).trans
      apply ownedBy_insertBinding_of_ne
      exact fun h => hts (Nat.cast_inj.mp h)
    · exact congrArg _ (Function.update_of_ne hq ..)
  constructor
  · intro q b hb
    rcases mem_bindings_boundTo hb with rfl | hold
    · exact ⟨s, hs, rfl⟩
    · exact ok.range q b hold
  · intro t ht q
    by_cases hts : t = s
    · simp [hts] at ht
    · rw [slot_boundTo_of_ne hts] at ht
      rw [hother t hts]
      exact ok.unbound t ht q
  · intro t ht
    by_cases hts : t = s
    · rw [hts, slot_boundTo_self]
      refine ⟨used, newBinding s ip (v.slot s).soOptions, rfl, fun q => ?_⟩
      by_cases hq : q = p
      · rw [hq, if_pos rfl, ← hself]
        exact congrArg _ (Function.update_self ..)
      · rw [if_neg hq, ← ok.unbound s unbound q]
        exact congrArg _ (Function.update_of_ne hq ..)
    · rw [slot_boundTo_of_ne hts] at ht ⊢
      simp only [hother t hts]
      exact ok.bound t ht
  · intro q
    by_cases hq : q = p
    · rw [hq]
      have hnew := coexist_insertBinding (s := s) (ok.coexist p) accepted
      simpa [SocketView.boundTo] using hnew
    · simpa [SocketView.boundTo, hq] using ok.coexist q

/-- Closing takes the one binding of the socket away. -/
theorem closed : (v.closed s).Ok := by
  have hother : ∀ t ≠ s, ∀ q, ownedBy (t : ℤ) ((v.closed s).bindings q) =
      ownedBy (t : ℤ) (v.bindings q) := by
    intro t hts q
    have hne : (t : ℤ) ≠ s := fun h => hts (Nat.cast_inj.mp h)
    unfold SocketView.closed
    dsimp only
    split
    · by_cases hq : q = (v.slot s).udpPort
      · rw [hq, Function.update_self, ownedBy_removeBinding_of_ne hne]
      · rw [Function.update_of_ne hq]
    · rfl
  have hself : ∀ q, ownedBy (s : ℤ) ((v.closed s).bindings q) = [] := by
    intro q
    unfold SocketView.closed
    dsimp only
    split
    · rename_i hbound
      obtain ⟨-, b, -, hown⟩ := ok.bound s hbound
      by_cases hq : q = (v.slot s).udpPort
      · rw [hq, Function.update_self]
        exact ownedBy_removeBinding_self (ok.oneEach.once s _)
      · rw [Function.update_of_ne hq, hown, if_neg hq]
    · rename_i hbound
      exact ok.unbound s (by simpa using hbound) q
  constructor
  · exact fun q b hb => ok.range q b (bindings_closed_sublist.mem hb)
  · intro t ht q
    by_cases hts : t = s
    · rw [hts, hself]
    · rw [slot_closed_of_ne hts] at ht
      rw [hother t hts]
      exact ok.unbound t ht q
  · intro t ht
    by_cases hts : t = s
    · simp [hts] at ht
    · rw [slot_closed_of_ne hts] at ht ⊢
      simp only [hother t hts]
      exact ok.bound t ht
  · exact fun q => (ok.coexist q).sublist bindings_closed_sublist

/-- **Every effect of a call keeps slots and bindings in agreement.** -/
theorem change {e : ApiEvent} (h : ApiChange e v v') : v'.Ok := by
  cases h with
  | opened hs free room => exact ok.opened free
  | option hs used supported => exact ok.withOption
  | bound hs used unbound accepted => exact ok.boundTo hs used unbound accepted
  | implicitlyBound hs used unbound accepted => exact ok.boundTo hs used unbound accepted
  | closed hs used => exact ok.closed
  | kept passive => exact ok

end Ok

end SocketView

/-! ## Runs of calls -/

/-- The memory of the bind table is well formed, and slots and bindings agree. -/
structure Shared.Ok (σ : Shared) : Prop where
  mem : σ.mem.Ok
  sockets : σ.view.Ok

theorem ok_sharedInit (zones : AllocatorZones) : (sharedInit zones).Ok where
  mem := ok_btableInit zones
  sockets := {
    range := fun p b hb => by cases hb
    unbound := fun _ _ _ => rfl
    bound := fun s hs => by cases hs
    coexist := fun _ => List.Pairwise.nil }

section Runs

variable {dpdk : Dpdk} {config : Configuration} {zones : AllocatorZones} {e : ApiEvent}
  {log : List ApiEvent} {σ σ' : Shared} {s : ℕ} {i : InAddr} {p : Port}

theorem Shared.Ok.step (ok : σ.Ok) (h : e.step dpdk config σ σ') : σ'.Ok where
  mem := (ApiEvent.step_spec ok.mem h).table
  sockets := ok.sockets.change (ApiEvent.step_spec ok.mem h).change

/-- Every run of calls ends in a well-formed state. -/
theorem Shared.Ok.run (h : Run (ApiEvent.step dpdk config) (sharedInit zones) log σ) : σ.Ok :=
  h.state_invariant (ok_sharedInit zones) fun _ _ _ ok hstep => ok.step hstep

/-! ## Calls that return -/

/-- `udpdk_socket` returns the lowest free slot. -/
theorem ApiEvent.step_socket (dpdk : Dpdk) (config : Configuration)
    (room : σ.desc.nZonesActive ≤ numSocketsMax)
    (free : (List.range numSocketsMax).find? (fun i => !(σ.desc.slots i).used) = some s) :
    (ApiEvent.socket afInet sockDgram 0 (.ok s)).step dpdk config σ
      { σ with desc := (σ.view.opened s).desc } := by
  have spec : Prog.wp (fun _ => False) (udpdkSocket afInet sockDgram 0) _ σ :=
    udpdkSocket_spec afInet sockDgram 0
  obtain ⟨ret, σ', hret, hspec⟩ := Prog.exists_ok_of_wp spec
  have hargs : socketValidateArgs afInet sockDgram 0 = .ok () := rfl
  rw [hargs] at hspec
  dsimp only at hspec
  rw [if_neg (Nat.not_lt.mpr room), free] at hspec
  exact hret.trans (congrArg _ hspec)

/-- The initial state, but with the first `n` sockets open. -/
def sharedOpen (zones : AllocatorZones) (n : ℕ) : Shared where
  desc := {
    nZonesActive := n
    slots := fun i =>
      if i < n then { ExchSlotInfo.zero with used := true, sockfd := i } else .zero }
  mem := (sharedInit zones).mem
  rxQ := (sharedInit zones).rxQ
  txQ := (sharedInit zones).txQ
  freed := []
  interrupted := false

/-- The first sockets get the descriptors from 0 on. -/
theorem run_sharedOpen (dpdk : Dpdk) (config : Configuration) (zones : AllocatorZones) (n : ℕ)
    (h : n ≤ numSocketsMax) : Run (ApiEvent.step dpdk config) (sharedInit zones)
      ((List.range n).map fun i => .socket afInet sockDgram 0 (.ok i)) (sharedOpen zones n) := by
  induction n with
  | zero => exact .nil
  | succ n ih =>
    have free : (List.range numSocketsMax).find?
        (fun i => !((sharedOpen zones n).desc.slots i).used) = some n := by
      rw [List.find?_range_eq_some]
      refine ⟨by simp [sharedOpen, ExchSlotInfo.zero], List.mem_range.mpr h, fun j hj => ?_⟩
      simp [sharedOpen, hj]
    have hroom : (sharedOpen zones n).desc.nZonesActive ≤ numSocketsMax := Nat.le_of_succ_le h
    have hdesc : ((sharedOpen zones n).view.opened n).desc = (sharedOpen zones (n + 1)).desc := by
      ext i
      · have hcount : (n + 1) % 2 ^ 64 = n + 1 := by
          unfold numSocketsMax at h
          omega
        exact hcount
      · have hslot : ∀ n i, (sharedOpen zones n).desc.slots i =
            if i < n then { ExchSlotInfo.zero with used := true, sockfd := i } else .zero :=
          fun _ _ => rfl
        change Function.update (sharedOpen zones n).desc.slots n _ i = _
        rcases Nat.lt_trichotomy i n with hi | rfl | hi
        · rw [Function.update_of_ne hi.ne, hslot, hslot, if_pos hi, if_pos (by omega)]
        · have hfree : (sharedOpen zones i).view.desc.slots i = .zero := if_neg (lt_irrefl i)
          rw [Function.update_self, hfree, hslot, if_pos (Nat.lt_succ_self i)]
          rfl
        · rw [Function.update_of_ne hi.ne', hslot, hslot, if_neg (by omega), if_neg (by omega)]
    have hstep := ApiEvent.step_socket dpdk config hroom free
    rw [hdesc] at hstep
    rw [List.range_succ, List.map_append]
    exact (ih (Nat.le_of_succ_le h)).snoc hstep

theorem Shared.Ok.bindInfo_nFree_ne_zero (ok : σ.Ok) (hs : s < numSocketsMax)
    (unbound : (σ.desc.slots s).bound = false) : σ.mem.bindInfoAlloc.mz.all.nFree ≠ 0 :=
  ok.mem.bindInfo_nFree_ne_zero ok.sockets.oneEach ok.sockets.range hs
    (ok.sockets.unbound s unbound)

/-- `udpdk_bind` succeeds when the bind table accepts the address. -/
theorem ApiEvent.exists_step_bind (ok : σ.Ok) (hs : s < numSocketsMax)
    (used : (σ.desc.slots s).used) (unbound : (σ.desc.slots s).bound = false)
    (accepted : canBind (σ.mem.bindings p) i (σ.desc.slots s).soOptions) :
    ∃ σ', (ApiEvent.bind s (some ⟨afInet, p, i⟩) sizeofSockaddrIn (.ok ())).step dpdk config σ σ' ∧
      σ' = { σ with desc := σ'.desc, mem := σ'.mem } ∧ σ'.view = σ.view.boundTo s i p := by
  have spec : Prog.wp (fun _ => False) (udpdkBind s (some ⟨afInet, p, i⟩) sizeofSockaddrIn) _ σ :=
    udpdkBind_spec ok.mem s _ _ (fun h => h ⟨s, hs, rfl⟩) nofun
      (ok.bindInfo_nFree_ne_zero hs unbound)
  obtain ⟨ret, σ', hret, -, hframe, hspec⟩ := Prog.exists_ok_of_wp spec
  cases ret with
  | error e => exact absurd ⟨hs, rfl, rfl, rfl, rfl, used, unbound, accepted⟩ (hspec.2 s _)
  | ok u =>
    obtain ⟨t, a, haccepts, hview⟩ := hspec
    obtain rfl : s = t := Nat.cast_inj.mp haccepts.fd
    obtain rfl := Option.some.inj haccepts.addr
    exact ⟨σ', hret, hframe, hview⟩

theorem bindings_of_boundTo (h : σ'.view = σ.view.boundTo s i p) : σ'.mem.bindings p =
    insertBinding (newBinding s i (σ.desc.slots s).soOptions) (σ.mem.bindings p) := by
  have := congrFun (congrArg SocketView.bindings h) p
  exact this.trans (Function.update_self ..)

theorem bindings_of_boundTo_of_ne {q : Port} (h : σ'.view = σ.view.boundTo s i p) (hq : q ≠ p) :
    σ'.mem.bindings q = σ.mem.bindings q := by
  have := congrFun (congrArg SocketView.bindings h) q
  exact this.trans (Function.update_of_ne hq _ _)

theorem Shared.Ok.bindings_ne_nil (ok : σ.Ok) (bound : (σ.desc.slots s).bound) :
    σ.mem.bindings (σ.desc.slots s).udpPort ≠ [] := by
  obtain ⟨b, hb, -⟩ := ok.sockets.exists_mem_of_bound bound
  exact List.ne_nil_of_mem hb

/-- `udpdk_close` succeeds on every open socket. -/
theorem ApiEvent.exists_step_close (ok : σ.Ok) (hs : s < numSocketsMax)
    (used : (σ.desc.slots s).used) :
    ∃ σ', (ApiEvent.close s (.ok ())).step dpdk config σ σ' ∧
      σ' = { σ with desc := σ'.desc, mem := σ'.mem } ∧ σ'.view = σ.view.closed s := by
  have spec : Prog.wp (fun _ => False) (udpdkClose s) _ σ :=
    udpdkClose_spec ok.mem s (fun h => h ⟨s, hs, rfl⟩) fun t _ _ => ok.bindings_ne_nil
  obtain ⟨ret, σ', hret, -, hframe, hspec⟩ := Prog.exists_ok_of_wp spec
  cases ret with
  | error e =>
    have hfree : (σ.desc.slots s).used = false := hspec.2 s hs rfl
    rw [hfree] at used
    cases used
  | ok u =>
    obtain ⟨t, -, ht, -, hview⟩ := hspec
    obtain rfl : s = t := Nat.cast_inj.mp ht
    exact ⟨σ', hret, hframe, hview⟩

end Runs

/-! ## Slots and bind table -/

/-- After any calls of the application, slot by slot: an unbound socket has no binding in
the table, a bound one is open and has exactly one, on its port and for its address. Port
by port: the table has a list exactly when a socket is bound to the port, and that list is
well formed, not empty and counts its nodes. So the unbinding in `udpdk_close` finds the
list, the node of the socket in it, and removes just that one. -/
theorem slots_and_bind_table_agree (dpdk : Dpdk) (config : Configuration) (zones : AllocatorZones)
    {log : List ApiEvent} {σ : Shared}
    (run : Run (ApiEvent.step dpdk config) (sharedInit zones) log σ) :
    (∀ s : ℕ,
      ((σ.desc.slots s).bound = false → ∀ p, ∀ b ∈ σ.mem.bindings p, b.sockfd ≠ s) ∧
      ((σ.desc.slots s).bound → (σ.desc.slots s).used ∧
        ∃ b, b.ipAddr = (σ.desc.slots s).ipAddr ∧ ∀ p, ownedBy s (σ.mem.bindings p) =
          if p = (σ.desc.slots s).udpPort then [b] else [])) ∧
    (∀ p : Port,
      (σ.mem.sockBindTable p = none ↔
        ∀ s : ℕ, ¬ ((σ.desc.slots s).bound ∧ (σ.desc.slots s).udpPort = p)) ∧
      ∀ l, σ.mem.sockBindTable p = some l → σ.mem.ListAt l (σ.mem.nodesAt p) ∧
        σ.mem.nodesAt p ≠ [] ∧ (σ.mem.listAlloc.cells l).len = (σ.mem.nodesAt p).length) ∧
    (∀ s : ℕ, (σ.desc.slots s).bound →
      σ.mem.sockBindTable (σ.desc.slots s).udpPort ≠ none ∧
      (∃ n ∈ σ.mem.nodesAt (σ.desc.slots s).udpPort, (σ.mem.info n).sockfd = s) ∧
      ∃ m', btableDelBinding s (σ.desc.slots s).udpPort σ.mem = .ok ((), m') ∧
        (σ.mem.bindings (σ.desc.slots s).udpPort).length =
          (m'.bindings (σ.desc.slots s).udpPort).length + 1) := by
  have ok := Shared.Ok.run run
  refine ⟨fun s => ⟨?_, ok.sockets.bound s⟩, fun p => ⟨?_, fun l hl => ?_⟩, fun s hbound => ?_⟩
  · intro hunbound p
    exact ownedBy_eq_nil_iff.mp (ok.sockets.unbound s hunbound p)
  · rw [ok.mem.null_iff]
    constructor
    · rintro hnil s ⟨hbound, rfl⟩
      exact ok.bindings_ne_nil hbound hnil
    · intro hnone
      by_contra hne
      obtain ⟨b, hb⟩ := List.exists_mem_of_ne_nil _ hne
      obtain ⟨s, -, hfd⟩ := ok.sockets.range p b hb
      obtain ⟨hbound, hport, -⟩ := ok.sockets.bound_of_mem hb hfd
      exact hnone s ⟨hbound, hport⟩
  · have hlist := ok.mem.rep.list p l hl
    exact ⟨hlist, ok.mem.tidy p l hl, hlist.len⟩
  · -- the list has the node of the socket, and one node less when the binding is deleted
    have hne := ok.bindings_ne_nil hbound
    obtain ⟨b, hb, hfd, -⟩ := ok.sockets.exists_mem_of_bound hbound
    obtain ⟨n, hn, rfl⟩ := List.mem_map.mp hb
    refine ⟨fun hnone => hne ((ok.mem.null_iff _).mp hnone), ⟨n, hn, hfd⟩, ?_⟩
    have spec : Prog.wp (fun _ => False)
        (btableDelBinding s (σ.desc.slots s).udpPort) _ σ.mem :=
      btableDelBinding_spec ok.mem hne
    obtain ⟨_, m', hdel, -, hbindings⟩ := Prog.exists_ok_of_wp spec
    refine ⟨m', hdel, ?_⟩
    rw [hbindings, Function.update_self, removeBinding]
    exact (List.length_eraseP_add_one hb (by simpa using hfd)).symm

/-- One socket that is bound to a port. -/
theorem slots_and_bind_table_agree_of_bind : ∃ log σ,
    Run (ApiEvent.step Dpdk.reference Configuration.zero) (sharedInit ⟨0, 0, 0, 0⟩) log σ ∧
      (σ.desc.slots 0).bound ∧ σ.mem.sockBindTable 53 ≠ none := by
  have first := run_sharedOpen Dpdk.reference Configuration.zero ⟨0, 0, 0, 0⟩ 1 (by decide)
  obtain ⟨σ, hbind, -, hview⟩ := ApiEvent.exists_step_bind (p := 53) (s := 0) (i := 7)
    (Shared.Ok.run first) (by decide) rfl rfl rfl
  have run := first.snoc hbind
  have agree := slots_and_bind_table_agree _ _ _ run
  have hbound : (σ.desc.slots 0).bound := by
    rw [← Shared.view_slot, hview, SocketView.slot_boundTo_self]
  have hport : (σ.desc.slots 0).udpPort = 53 := by
    rw [← Shared.view_slot, hview, SocketView.slot_boundTo_self]
  exact ⟨_, σ, run, hbound, hport ▸ (agree.2.2 0 hbound).1⟩

end Udpdk
