import Udpdk.Foundation.OneMore
import Udpdk.Packed.Sockets
import Udpdk.Poller.System
import Udpdk.Syscall.Send

/-!
# A bind that is closed again

Two runs side by side, from the same state: one in which the socket `s` is bound first, and one
in which it stays unbound. The same operations on other sockets follow in both, and the poller
goes its own way in each. The lists of bindings then differ by one element, wherever it has got
to by now, and `udpdk_close` takes it out.

## Main definitions

* `ApiEvent.SameOutcome` — the same call, with the same success
* `SideBySide` — one operation on another socket, in both runs
* `PairEvent.Step` — such an operation, or a step of the poller in one of the runs
* `SocketView.Beside` — the two runs are one binding apart
* `Shared.Undone` — what a close has to restore

## Main results

* `SocketView.Beside.step`, `SocketView.Beside.pairStep` — the two runs stay one binding apart
* `bind_close_undone` — a bind followed by a close is undone
* `not_bind_close_undone` — where blocks share bytes, it may overwrite another binding
-/

namespace Udpdk

open Foundation

/-- The descriptor that a call is about. -/
def ApiEvent.fd : ApiEvent → Option ℤ
  | .socket .. => none
  | .getsockopt sockfd .. => some sockfd
  | .setsockopt sockfd .. => some sockfd
  | .bind sockfd .. => some sockfd
  | .sendto _ sockfd .. => some sockfd
  | .recvfrom sockfd .. => some sockfd
  | .close s _ => some s
  | .interrupt => none

/-- The same call, and both times it succeeds or both times it fails. The packet buffer that a
send gets is not an argument of it. -/
inductive ApiEvent.SameOutcome : ApiEvent → ApiEvent → Prop
  | socket {domain type protocol : ℤ} {ret ret' : Except Errno ℕ} (same : ret.isOk = ret'.isOk) :
      SameOutcome (.socket domain type protocol ret) (.socket domain type protocol ret')
  | getsockopt {sockfd level optname : ℤ} {optvalNull optlenNull : Bool}
      {ret ret' : Except Errno (BitVec 32)} (same : ret.isOk = ret'.isOk) :
      SameOutcome (.getsockopt sockfd level optname optvalNull optlenNull ret)
        (.getsockopt sockfd level optname optvalNull optlenNull ret')
  | setsockopt {sockfd level optname : ℤ} {optval : Option (BitVec 32)}
      {ret ret' : Except Errno Unit} (same : ret.isOk = ret'.isOk) :
      SameOutcome (.setsockopt sockfd level optname optval ret)
        (.setsockopt sockfd level optname optval ret')
  | bind {sockfd : ℤ} {addr : Option SockaddrIn} {addrlen : ℕ} {ret ret' : Except Errno Unit}
      (same : ret.isOk = ret'.isOk) :
      SameOutcome (.bind sockfd addr addrlen ret) (.bind sockfd addr addrlen ret')
  | sendto {pkt pkt' : Option ℕ} {sockfd : ℤ} {buf : List Byte} {flags : ℤ}
      {destAddr : Option SockaddrIn} {addrlen : ℕ} {ret ret' : Except Errno (Mbuf × ℕ)}
      (same : ret.isOk = ret'.isOk) :
      SameOutcome (.sendto pkt sockfd buf flags destAddr addrlen ret)
        (.sendto pkt' sockfd buf flags destAddr addrlen ret')
  | recvfrom {sockfd : ℤ} {bufNull : Bool} {len : ℕ} {flags : ℤ} {srcAddr : Bool}
      {addrlen : Option ℕ} {ret ret' : Except Errno (Mbuf × Received)}
      (same : ret.isOk = ret'.isOk) :
      SameOutcome (.recvfrom sockfd bufNull len flags srcAddr addrlen ret)
        (.recvfrom sockfd bufNull len flags srcAddr addrlen ret')
  | close {s : ℤ} {ret ret' : Except Errno Unit} (same : ret.isOk = ret'.isOk) :
      SameOutcome (.close s ret) (.close s ret')
  | interrupt : SameOutcome .interrupt .interrupt

/-- Between `σ` and `σ'` the socket `t` got bound to port `p`. -/
structure Shared.Binds (σ σ' : Shared) (t : ℕ) (p : Port) : Prop where
  before : (σ.desc.slots t).bound = false
  after : (σ'.desc.slots t).bound
  port : (σ'.desc.slots t).udpPort = p

/-- One operation on another socket than `s` in two runs, with the same outcome. -/
structure SideBySide (dpdk : Dpdk) (config : Configuration) (s : ℕ) (op : ApiEvent × ApiEvent)
    (σ τ : Shared × Shared) : Prop where
  other : op.1.fd ≠ some (s : ℤ)
  first : op.1.step dpdk config σ.1 τ.1
  second : op.2.step dpdk config σ.2 τ.2
  outcome : op.1.SameOutcome op.2
  port : ∀ t p q, σ.1.Binds τ.1 t p → σ.2.Binds τ.2 t q → p = q

/-- What happens behind the bind: an operation on another socket in both runs, or a step of the
poller in one of them. -/
inductive PairEvent
  | call (op : ApiEvent × ApiEvent)
  | first (choices : DpdkChoices) (happened : PollerEvent)
  | second (choices : DpdkChoices) (happened : PollerEvent)

namespace PairEvent

/-- What of it happens in the run without the bind. -/
def alone : PairEvent → Option SystemEvent
  | .call op => some (.api op.2)
  | .first .. => none
  | .second choices happened => some (.poller choices happened)

/-- The event takes the two systems from one pair of states to another. -/
inductive Step (dpdk : Dpdk) (config : Configuration) (s : ℕ) :
    PairEvent → System × System → System × System → Prop
  | call {op : ApiEvent × ApiEvent} {S T : System} {σ τ : Shared}
      (both : SideBySide dpdk config s op (S.shared, T.shared) (σ, τ)) :
      Step dpdk config s (.call op) (S, T) ({ S with shared := σ }, { T with shared := τ })
  | first {choices : DpdkChoices} {happened : PollerEvent} {S S' T : System}
      (polled : (SystemEvent.poller choices happened).step dpdk config S S') :
      Step dpdk config s (.first choices happened) (S, T) (S', T)
  | second {choices : DpdkChoices} {happened : PollerEvent} {S T T' : System}
      (polled : (SystemEvent.poller choices happened).step dpdk config T T') :
      Step dpdk config s (.second choices happened) (S, T) (S, T')

end PairEvent

/-- The bind table of `σ` is that of `τ`, and the slots are too, apart from slot `s`. -/
structure Shared.Undone (s : ℕ) (σ τ : Shared) : Prop where
  bindings : ∀ p, σ.mem.bindings p = τ.mem.bindings p
  null : ∀ p, σ.mem.sockBindTable p = none ↔ τ.mem.sockBindTable p = none
  bindInfoFree : σ.mem.bindInfoAlloc.mz.all.nFree = τ.mem.bindInfoAlloc.mz.all.nFree
  listFree : σ.mem.listAlloc.mz.all.nFree = τ.mem.listAlloc.mz.all.nFree
  nodeFree : σ.mem.nodeAlloc.mz.all.nFree = τ.mem.nodeAlloc.mz.all.nFree
  iteratorFree : σ.mem.iteratorAlloc.mz.all.nFree = τ.mem.iteratorAlloc.mz.all.nFree
  slots : ∀ t ≠ s, σ.desc.slots t = τ.desc.slots t

namespace SocketView

/-- `v` is `w`, but with `s` bound to port `p` by the binding `b`. -/
structure Beside (v w : SocketView) (s : ℕ) (p : Port) (b : BindInfo) : Prop where
  owner : b.sockfd = (s : ℕ)
  bindings : OneMoreAt p b w.bindings v.bindings
  counter : v.desc.nZonesActive = w.desc.nZonesActive
  slots : ∀ t ≠ s, v.slot t = w.slot t
  used : (v.slot s).used ∧ (w.slot s).used
  bound : (v.slot s).bound ∧ (v.slot s).udpPort = p
  unbound : (w.slot s).bound = false

variable {v w v' w' : SocketView} {s t : ℕ} {p q : Port} {b : BindInfo} {ip : InAddr}
  {option value : BitVec 32}

/-- Binding a socket adds one binding. -/
theorem beside_boundTo (used : (w.slot s).used) (unbound : (w.slot s).bound = false) :
    (w.boundTo s ip p).Beside w s p (newBinding s ip (w.slot s).soOptions) where
  owner := rfl
  bindings := by
    apply OneMoreAt.of_update
    unfold insertBinding
    split
    · exact .here _
    · exact .concat _
  counter := rfl
  slots t ht := slot_boundTo_of_ne ht
  used := by
    rw [slot_boundTo_self]
    exact ⟨used, used⟩
  bound := by
    rw [slot_boundTo_self]
    exact ⟨rfl, rfl⟩
  unbound := unbound

namespace Beside

section Update

variable (h : v.Beside w s p b) (ht : t ≠ s)

include h

theorem used_eq (t : ℕ) : (v.slot t).used = (w.slot t).used := by
  by_cases ht : t = s
  · subst ht
    rw [h.used.1, h.used.2]
  · rw [h.slots t ht]

include ht

/-- A change of another slot that is the same in both. -/
theorem update (hv : ∀ u ≠ t, v'.slot u = v.slot u) (hw : ∀ u ≠ t, w'.slot u = w.slot u)
    (hslot : v'.slot t = w'.slot t) (hcounter : v'.desc.nZonesActive = w'.desc.nZonesActive)
    (hbindings : OneMoreAt p b w'.bindings v'.bindings) : v'.Beside w' s p b where
  owner := h.owner
  bindings := hbindings
  counter := hcounter
  slots := by
    intro u hu
    by_cases hut : u = t
    · rw [hut, hslot]
    · rw [hv u hut, hw u hut, h.slots u hu]
  used := by
    rw [hv s ht.symm, hw s ht.symm]
    exact h.used
  bound := by
    rw [hv s ht.symm]
    exact h.bound
  unbound := by
    rw [hw s ht.symm]
    exact h.unbound

theorem opened : (v.opened t).Beside (w.opened t) s p b := by
  apply h.update ht (fun u hu => slot_opened_of_ne hu) (fun u hu => slot_opened_of_ne hu)
  · rw [slot_opened_self, slot_opened_self, h.slots t ht]
  · exact congrArg (fun n => (n + 1) % 2 ^ 64) h.counter
  · exact h.bindings

theorem withOption : (v.withOption t option value).Beside (w.withOption t option value) s p b := by
  apply h.update ht (fun u hu => slot_withOption_of_ne hu) (fun u hu => slot_withOption_of_ne hu)
  · rw [slot_withOption_self, slot_withOption_self, h.slots t ht]
  · exact h.counter
  · exact h.bindings

theorem boundTo : (v.boundTo t ip q).Beside (w.boundTo t ip q) s p b := by
  apply h.update ht (fun u hu => slot_boundTo_of_ne hu) (fun u hu => slot_boundTo_of_ne hu)
  · rw [slot_boundTo_self, slot_boundTo_self, h.slots t ht]
  · exact h.counter
  · unfold SocketView.boundTo
    rw [h.slots t ht]
    apply h.bindings.update
    intro l l' hl
    unfold insertBinding
    split
    · exact .later _ hl
    · exact hl.append _

/-- The binding of another socket is taken out of both lists. -/
theorem closed : (v.closed t).Beside (w.closed t) s p b := by
  apply h.update ht (fun u hu => slot_closed_of_ne hu) (fun u hu => slot_closed_of_ne hu)
  · rw [slot_closed_self, slot_closed_self, h.slots t ht]
  · exact congrArg (fun n => (n + 1) % 2 ^ 64) h.counter
  · unfold SocketView.closed
    rw [h.slots t ht]
    dsimp only
    split
    · apply h.bindings.update
      intro l l' hl
      apply hl.eraseP
      rw [h.owner, decide_eq_false_iff_not]
      exact fun hts => ht (Nat.cast_inj.mp hts).symm
    · exact h.bindings

end Update

end Beside

end SocketView

/-! ## Side by side -/

/-- A call that changes neither slots nor bindings. -/
def ApiEvent.inert : ApiEvent → Bool
  | .sendto .. => false
  | e => e.passive

namespace ApiChange

variable {v v' : SocketView}

theorem eq_of_inert {e : ApiEvent} (h : ApiChange e v v') (inert : e.inert) : v' = v := by
  cases h with
  | kept passive => rfl
  | opened | option | bound | implicitlyBound | closed => cases inert

end ApiChange

theorem isOk_eq_cases {ε α : Type} {ret ret' : Except ε α} (same : ret.isOk = ret'.isOk) :
    (∃ a a', ret = .ok a ∧ ret' = .ok a') ∨ ∃ e e', ret = .error e ∧ ret' = .error e' := by
  cases ret with
  | ok a =>
    cases ret' with
    | ok a' => exact .inl ⟨a, a', rfl, rfl⟩
    | error e' => cases same
  | error e =>
    cases ret' with
    | ok a' => cases same
    | error e' => exact .inr ⟨e, e', rfl, rfl⟩

section Steps

variable {dpdk : Dpdk} {config : Configuration} {σ σ' τ τ' : Shared} {s t t' : ℕ} {p : Port}
  {b : BindInfo}

/-- The number that `udpdk_socket` returns depends on which slots are in use only. -/
theorem socket_eq_of_used_eq {domain type protocol : ℤ}
    (h : ∀ i, (σ.desc.slots i).used = (τ.desc.slots i).used)
    (first : udpdkSocket domain type protocol σ = .ok (.ok t, σ'))
    (second : udpdkSocket domain type protocol τ = .ok (.ok t', τ')) : t = t' := by
  -- the lowest slot that is not in use, where the loop of the source stops
  have lowest : ∀ {ρ ρ' : Shared} {i : ℕ}, udpdkSocket domain type protocol ρ = .ok (.ok i, ρ') →
      (List.range numSocketsMax).find? (fun i => !(ρ.desc.slots i).used) = some i := by
    intro ρ ρ' i hret
    have spec : Prog.wp (fun _ => False) (udpdkSocket domain type protocol) _ ρ :=
      udpdkSocket_spec domain type protocol
    have hret' := Prog.wp_of_ok spec hret
    split at hret'
    · cases hret'
    split at hret'
    · cases hret'
    cases hfind : (List.range numSocketsMax).find? fun i => !(ρ.desc.slots i).used with
    | none =>
      rw [hfind] at hret'
      cases hret'
    | some j =>
      rw [hfind] at hret'
      rw [Except.ok.inj (Prod.mk.inj hret').1]
  have hfirst := lowest first
  simp only [h] at hfirst
  exact Option.some.inj (hfirst.symm.trans (lowest second))

namespace SocketView.Beside

/-- A send binds its socket in both runs or in none. -/
theorem sendto {pkt pkt' : Option ℕ} {sockfd : ℤ} {buf : List Byte} {flags : ℤ}
    {destAddr : Option SockaddrIn} {addrlen : ℕ} {ret ret' : Except Errno (Mbuf × ℕ)}
    (h : σ.view.Beside τ.view s p b) (ok : σ.Ok) (ok' : τ.Ok) (other : sockfd ≠ (s : ℤ))
    (first : udpdkSendto dpdk config pkt sockfd buf flags destAddr addrlen σ = .ok (ret, σ'))
    (second : udpdkSendto dpdk config pkt' sockfd buf flags destAddr addrlen τ = .ok (ret', τ'))
    (port : ∀ t p q, σ.Binds σ' t p → τ.Binds τ' t q → p = q) :
    σ'.view.Beside τ'.view s p b := by
  have hne : ∀ {ρ : Shared} {t dest}, ρ.AcceptsSend sockfd flags destAddr addrlen t dest →
      t ≠ s := fun haccepts hts => other (haccepts.fd.trans (congrArg _ hts))
  obtain ⟨t, dest, haccepts, hbefore, q, hview⟩ | ⟨hview, hbound⟩ := ok.view_of_sendto first
  · have ht := hne haccepts
    have hslot : σ.desc.slots t = τ.desc.slots t := h.slots t ht
    obtain ⟨t', dest', haccepts', hbefore', q', hview'⟩ | ⟨-, hbound'⟩ :=
      ok'.view_of_sendto second
    · obtain rfl : t = t' := Nat.cast_inj.mp (haccepts.fd.symm.trans haccepts'.fd)
      have hafter : σ'.desc.slots t =
          { σ.desc.slots t with bound := true, udpPort := q, ipAddr := inaddrAny } := by
        rw [← Shared.view_slot, hview, slot_boundTo_self, Shared.view_slot]
      have hafter' : τ'.desc.slots t =
          { τ.desc.slots t with bound := true, udpPort := q', ipAddr := inaddrAny } := by
        rw [← Shared.view_slot, hview', slot_boundTo_self, Shared.view_slot]
      -- which port is free may depend on the bind: that both took the same one is assumed
      obtain rfl : q = q' :=
        port t q q' ⟨hbefore, by rw [hafter], by rw [hafter]⟩
          ⟨hbefore', by rw [hafter'], by rw [hafter']⟩
      rw [hview, hview']
      exact h.boundTo ht
    · -- what passes in one run passes in the other
      have hpass : τ.AcceptsSend sockfd flags destAddr addrlen t dest :=
        { haccepts with used := hslot ▸ haccepts.used }
      rw [hslot, hbound' t dest hpass] at hbefore
      cases hbefore
  · obtain ⟨t, dest, haccepts, hbefore, -⟩ | ⟨hview', -⟩ := ok'.view_of_sendto second
    · have hslot : σ.desc.slots t = τ.desc.slots t := h.slots t (hne haccepts)
      have hpass : σ.AcceptsSend sockfd flags destAddr addrlen t dest :=
        { haccepts with used := hslot ▸ haccepts.used }
      rw [← hslot, hbound t dest hpass] at hbefore
      cases hbefore
    · rw [hview, hview']
      exact h

theorem inert {v v' w w' : SocketView} {e e' : ApiEvent} (h : v.Beside w s p b)
    (hv : ApiChange e v v') (hw : ApiChange e' w w') (inert : e.inert) (inert' : e'.inert) :
    v'.Beside w' s p b := by
  rw [hv.eq_of_inert inert, hw.eq_of_inert inert']
  exact h

/-- **One operation on another socket.** -/
theorem step {op : ApiEvent × ApiEvent} (h : σ.view.Beside τ.view s p b) (ok : σ.Ok) (ok' : τ.Ok)
    (hstep : SideBySide dpdk config s op (σ, τ) (σ', τ')) : σ'.view.Beside τ'.view s p b := by
  obtain ⟨e, e'⟩ := op
  obtain ⟨other, first, second, outcome, port⟩ := hstep
  have hchange := (ApiEvent.step_spec ok.mem first).change
  have hchange' := (ApiEvent.step_spec ok'.mem second).change
  have hne : ∀ {t : ℕ}, e.fd = some (t : ℤ) → t ≠ s := fun hfd hts => other (hts ▸ hfd)
  cases outcome with
  | sendto same => exact h.sendto ok ok' (fun hfd => other (congrArg some hfd)) first second port
  | getsockopt same => exact h.inert hchange hchange' rfl rfl
  | recvfrom same => exact h.inert hchange hchange' rfl rfl
  | interrupt => exact h.inert hchange hchange' rfl rfl
  | socket same =>
    obtain ⟨t, t', rfl, rfl⟩ | ⟨e, e', rfl, rfl⟩ := isOk_eq_cases same
    · -- `s` is in use in both runs, so both open the same slot, and not `s`
      obtain rfl : t = t' := socket_eq_of_used_eq h.used_eq first second
      obtain ⟨free, hview⟩ := hchange.of_socket
      obtain ⟨-, hview'⟩ := hchange'.of_socket
      have ht : t ≠ s := by
        rintro rfl
        rw [h.used.1] at free
        cases free
      rw [hview, hview']
      exact h.opened ht
    · exact h.inert hchange hchange' rfl rfl
  | setsockopt same =>
    obtain ⟨u, u', rfl, rfl⟩ | ⟨e, e', rfl, rfl⟩ := isOk_eq_cases same
    · obtain ⟨t, value, rfl, rfl, hview⟩ := hchange.of_setsockopt
      obtain ⟨t', value', ht, hvalue, hview'⟩ := hchange'.of_setsockopt
      obtain rfl : t = t' := Nat.cast_inj.mp ht
      obtain rfl := Option.some.inj hvalue
      rw [hview, hview']
      exact h.withOption (hne rfl)
    · exact h.inert hchange hchange' rfl rfl
  | bind same =>
    obtain ⟨u, u', rfl, rfl⟩ | ⟨e, e', rfl, rfl⟩ := isOk_eq_cases same
    · obtain ⟨t, -, a, rfl, rfl, -, -, hview⟩ := hchange.of_bind
      obtain ⟨t', -, a', ht, ha, -, -, hview'⟩ := hchange'.of_bind
      obtain rfl : t = t' := Nat.cast_inj.mp ht
      obtain rfl := Option.some.inj ha
      rw [hview, hview']
      exact h.boundTo (hne rfl)
    · exact h.inert hchange hchange' rfl rfl
  | close same =>
    obtain ⟨u, u', rfl, rfl⟩ | ⟨e, e', rfl, rfl⟩ := isOk_eq_cases same
    · obtain ⟨t, rfl, hview⟩ := hchange.of_close
      obtain ⟨t', ht, hview'⟩ := hchange'.of_close
      obtain rfl : t = t' := Nat.cast_inj.mp ht
      rw [hview, hview']
      exact h.closed (hne rfl)
    · exact h.inert hchange hchange' rfl rfl

end SocketView.Beside

section Pairs

variable {e : PairEvent} {events : List PairEvent} {ρ ρ' : System × System}

/-- **One event.** The poller changes neither slots nor bindings, in whichever run it steps. -/
theorem SocketView.Beside.pairStep (h : ρ.1.shared.view.Beside ρ.2.shared.view s p b)
    (ok : ρ.1.shared.Ok) (ok' : ρ.2.shared.Ok) (hstep : e.Step dpdk config s ρ ρ') :
    (ρ'.1.shared.Ok ∧ ρ'.2.shared.Ok) ∧ ρ'.1.shared.view.Beside ρ'.2.shared.view s p b := by
  cases hstep with
  | call both => exact ⟨⟨ok.step both.first, ok'.step both.second⟩, h.step ok ok' both⟩
  | first polled =>
    refine ⟨⟨ok.systemStep polled, ok'⟩, ?_⟩
    rw [(poller_view ok polled).2.1]
    exact h
  | second polled =>
    refine ⟨⟨ok, ok'.systemStep polled⟩, ?_⟩
    rw [(poller_view ok' polled).2.1]
    exact h

/-- **What follows the bind.** -/
theorem SocketView.Beside.run (h : ρ.1.shared.view.Beside ρ.2.shared.view s p b)
    (ok : ρ.1.shared.Ok) (ok' : ρ.2.shared.Ok)
    (others : Run (PairEvent.Step dpdk config s) ρ events ρ') :
    (ρ'.1.shared.Ok ∧ ρ'.2.shared.Ok) ∧ ρ'.1.shared.view.Beside ρ'.2.shared.view s p b := by
  induction others with
  | nil => exact ⟨⟨ok, ok'⟩, h⟩
  | snoc _ hstep ih =>
    obtain ⟨⟨ok, ok'⟩, h⟩ := ih
    exact h.pairStep ok ok' hstep

/-- The second run is one of the system by itself. -/
theorem run_alone (others : Run (PairEvent.Step dpdk config s) ρ events ρ') :
    Run (SystemEvent.step dpdk config) ρ.2 (events.filterMap PairEvent.alone) ρ'.2 := by
  apply others.filterMap
  · intro e e' ρ ρ' hstep halone
    cases hstep with
    | call both =>
      obtain rfl := Option.some.inj halone
      exact ⟨_, both.second, rfl⟩
    | first polled => cases halone
    | second polled =>
      obtain rfl := Option.some.inj halone
      exact polled
  · intro e ρ ρ' hstep halone
    cases hstep with
    | call both => cases halone
    | first polled => rfl
    | second polled => cases halone

end Pairs

end Steps

/-! ## The close -/

section Close

variable {σ τ : Shared} {s t : ℕ} {p : Port} {b : BindInfo}

theorem SocketView.Beside.bindings_closed {v w : SocketView} (h : v.Beside w s p b) (ok : w.Ok) :
    (v.closed s).bindings = w.bindings := by
  unfold SocketView.closed
  rw [if_pos h.bound.1, h.bound.2]
  apply h.bindings.update_eraseP
  · exact decide_eq_true h.owner
  · intro c hc howner
    have hown : c ∈ ownedBy s (w.bindings p) := mem_ownedBy.mpr ⟨hc, of_decide_eq_true howner⟩
    rw [ok.unbound s h.unbound p] at hown
    cases hown

/-- States whose sockets are bound alike, to ports that are listed alike, have the same numbers
of free elements, so that a close that restores the lists of bindings restores everything. -/
theorem Shared.Ok.undone (ok : σ.Ok) (ok' : τ.Ok) (hbindings : σ.view.bindings = τ.view.bindings)
    (hslots : ∀ t ≠ s, σ.desc.slots t = τ.desc.slots t)
    (hbound : (σ.desc.slots s).bound = (τ.desc.slots s).bound) : σ.Undone s τ := by
  have hsame : ∀ p, σ.mem.bindings p = τ.mem.bindings p := congrFun hbindings
  have hnull : ∀ p, σ.mem.sockBindTable p = none ↔ τ.mem.sockBindTable p = none := by
    intro p
    rw [ok.mem.null_iff, ok'.mem.null_iff, hsame]
  -- free elements are counted by the slots that are bound and by the ports that have a list
  have hboundSlots : σ.desc.boundSlots = τ.desc.boundSlots := by
    ext t
    rw [mem_boundSlots, mem_boundSlots]
    by_cases ht : t = s
    · rw [ht, hbound]
    · rw [hslots t ht]
  have hlisted : σ.mem.listedPorts = τ.mem.listedPorts := by
    unfold Mem.listedPorts
    simp only [ne_eq, hnull]
  have pools := ok.mem.rep.pools
  have pools' := ok'.mem.rep.pools
  have count := ok.counted
  have count' := ok'.counted
  refine ⟨hsame, hnull, ?_, ?_, ?_, ?_, hslots⟩
  · apply pools.bindInfo.nFree_eq pools'.bindInfo
    · rw [pools.bindInfoSize, pools'.bindInfoSize]
    · rw [count.bindInfo, count'.bindInfo, hboundSlots]
  · apply pools.list.nFree_eq pools'.list
    · rw [pools.listSize, pools'.listSize]
    · rw [count.list, count'.list, hlisted]
  · apply pools.node.nFree_eq pools'.node
    · rw [pools.nodeSize, pools'.nodeSize]
    · rw [count.node, count'.node, hboundSlots]
  · apply pools.iterators.ok.nFree_eq pools'.iterators.ok
    · rw [pools.iteratorSize, pools'.iteratorSize]
    · rw [count.iterator, count'.iterator]

end Close

/-! ## Undoing a bind -/

/-- **Undoing a bind.** In any state of application and poller that can be reached, bind a
socket, let any operations on other sockets follow, with the poller at work in between, and
close the socket. Where each of these operations has the outcome that it has without the bind,
the bind table is then the one that the operations alone leave: for every port the same bindings
in the same order, and a list just where they leave one; as many elements are free in every
allocator; and every other slot is the same. -/
theorem bind_close_undone {dpdk : Dpdk} {config : Configuration} {zones : AllocatorZones}
    {log : List SystemEvent} {S S' : System}
    (run : Run (SystemEvent.step dpdk config) (systemInit zones) log S) {s : ℕ}
    {addr : Option SockaddrIn} {addrlen : ℕ}
    (bind : (SystemEvent.api (.bind s addr addrlen (.ok ()))).step dpdk config S S')
    {events : List PairEvent} {T T' : System}
    (others : Run (PairEvent.Step dpdk config s) (S', S) events (T', T)) :
    Run (SystemEvent.step dpdk config) S (events.filterMap PairEvent.alone) T ∧
      ∃ T'', (SystemEvent.api (.close s (.ok ()))).step dpdk config T' T'' ∧
        T''.shared.Undone s T.shared := by
  refine ⟨run_alone others, ?_⟩
  have ok := Shared.Ok.systemRun run
  obtain ⟨σ', bind, rfl⟩ := bind
  obtain ⟨t, hs, a, ht, rfl, used, unbound, hview⟩ := (udpdkBind_effect ok.mem bind).change.of_bind
  obtain rfl : s = t := Nat.cast_inj.mp ht
  have start : σ'.view.Beside S.shared.view s a.sinPort
      (newBinding s a.sinAddr (S.shared.view.slot s).soOptions) := by
    rw [hview]
    exact SocketView.beside_boundTo used unbound
  obtain ⟨⟨ok', okT⟩, beside⟩ := start.run (ok.step bind) ok others
  obtain ⟨τ, hclose, -, hclosed⟩ := ApiEvent.exists_step_close ok' hs beside.used.1
  refine ⟨{ T' with shared := τ }, ⟨τ, hclose, rfl⟩, (ok'.step hclose).undone okT ?_ ?_ ?_⟩
  · rw [hclosed]
    exact beside.bindings_closed okT.sockets
  · intro t ht
    rw [← Shared.view_slot, hclosed, SocketView.slot_closed_of_ne ht]
    exact beside.slots t ht
  · have hbound : (τ.desc.slots s).bound = false := by
      rw [← Shared.view_slot, hclosed, SocketView.slot_closed_self]
    rw [hbound]
    exact beside.unbound.symm

/-- Another socket joins the port before the first one leaves it. -/
theorem bind_close_undone_of_join : ∃ τ τ' : Shared, τ'.Undone 0 τ ∧
    τ.mem.bindings 53 = [newBinding 1 8 0] := by
  have first := run_sharedOpen Dpdk.reference Configuration.zero ⟨0, 0, 0, 0⟩ 2 (by decide)
  have ok := Shared.Ok.run first
  obtain ⟨σ', hbind, -, hview⟩ := ApiEvent.exists_step_bind (s := 0) (i := 7) (p := 53) ok
    (by decide) rfl rfl rfl
  have ok' := ok.step hbind
  have hbindings : σ'.mem.bindings 53 = [newBinding 0 7 0] := bindings_of_boundTo hview
  have hslot : σ'.desc.slots 1 = (sharedOpen ⟨0, 0, 0, 0⟩ 2).desc.slots 1 := by
    rw [← Shared.view_slot, hview, SocketView.slot_boundTo_of_ne Nat.one_ne_zero, Shared.view_slot]
  obtain ⟨τ', hjoin', -, hview'⟩ := ApiEvent.exists_step_bind (s := 1) (i := 8) (p := 53) ok'
    (by decide) (by rw [hslot]; rfl) (by rw [hslot]; rfl) (by rw [hbindings, hslot]; rfl)
  obtain ⟨τ, hjoin, -, hviewτ⟩ := ApiEvent.exists_step_bind (s := 1) (i := 8) (p := 53) ok
    (by decide) rfl rfl rfl
  have hport : ∀ t p q, σ'.Binds τ' t p → (sharedOpen ⟨0, 0, 0, 0⟩ 2).Binds τ t q → p = q := by
    intro t p q hp hq
    rw [← hp.port, ← hq.port, ← Shared.view_slot, ← Shared.view_slot τ, hview', hviewτ]
    by_cases ht : t = 1
    · rw [ht, SocketView.slot_boundTo_self, SocketView.slot_boundTo_self]
    · have hafter := hp.after
      rw [← Shared.view_slot, hview', SocketView.slot_boundTo_of_ne ht, Shared.view_slot,
        hp.before] at hafter
      cases hafter
  have hother : (1 : ℤ) ≠ ((0 : ℕ) : ℤ) := by decide
  have hjoins : SideBySide Dpdk.reference Configuration.zero 0
      (.bind (1 : ℕ) (some ⟨afInet, 53, 8⟩) sizeofSockaddrIn (.ok ()),
        .bind (1 : ℕ) (some ⟨afInet, 53, 8⟩) sizeofSockaddrIn (.ok ()))
      (σ', sharedOpen ⟨0, 0, 0, 0⟩ 2) (τ', τ) :=
    ⟨fun h => hother (Option.some.inj h), hjoin', hjoin, .bind rfl, hport⟩
  obtain ⟨-, T, -, undone⟩ := bind_close_undone (run_api (S := systemInit ⟨0, 0, 0, 0⟩) first)
    ⟨σ', hbind, rfl⟩ (.single (.call hjoins))
  exact ⟨τ, T.shared, undone, bindings_of_boundTo hviewτ⟩

/-! ## In memory whose blocks share bytes -/

/-- Two sockets are opened, and the first is bound. -/
def bindFirst : List Packed.SocketCall :=
  [.socket afInet sockDgram 0 (.ok 0), .socket afInet sockDgram 0 (.ok 1),
    .bind 0 (some ⟨afInet, 53, 7⟩) sizeofSockaddrIn (.ok ())]

/-- The second is bound to another port and closed at once. -/
def bindSecondAndClose : List Packed.SocketCall :=
  [.bind 1 (some ⟨afInet, 54, 9⟩) sizeofSockaddrIn (.ok ()), .close 1 (.ok ())]

/-- Where blocks share bytes, a bind and a close with nothing in between can take the binding of
another socket along: the head of its list then points nowhere. -/
theorem not_bind_close_undone : ¬ ∀ (zones : AllocatorZones) (memory : ByteMemory)
    (log : List Packed.SocketCall) (P P' P'' : PackedShared) (s : ℤ) (addr : Option SockaddrIn)
    (addrlen : ℕ), (packedInit zones memory).Reserved →
      Run Packed.SocketCall.step (packedSharedInit zones memory) log P →
      Packed.SocketCall.step (.bind s addr addrlen (.ok ())) P P' →
      Packed.SocketCall.step (.close s (.ok ())) P' P'' →
      ∀ p, (Packed.bindings p P''.table).map Prod.fst =
        (Packed.bindings p P.table).map Prod.fst := by
  intro undone
  have before : (bindFirst.foldlM (fun P call => Packed.SocketCall.next call P)
      (packedSharedInit hugepageZones hugepage)).map
        (fun P => (Packed.bindings 53 P.table).map Prod.fst) = some (.ok [newBinding 0 7 0]) := by
    decide +kernel
  have after : ((bindFirst ++ bindSecondAndClose).foldlM
      (fun P call => Packed.SocketCall.next call P) (packedSharedInit hugepageZones hugepage)).map
        (fun P => (Packed.bindings 53 P.table).map Prod.fst) = some (.error .outOfBounds) := by
    decide +kernel
  obtain ⟨P, hP, hbefore⟩ := Option.map_eq_some_iff.mp before
  obtain ⟨P'', hP'', hafter⟩ := Option.map_eq_some_iff.mp after
  rw [List.foldlM_append, hP] at hP''
  have second : Run Packed.SocketCall.step P ([.bind 1 (some ⟨afInet, 54, 9⟩) sizeofSockaddrIn
    (.ok ())] ++ [.close 1 (.ok ())]) P'' := Run.of_foldlM hP''
  obtain ⟨P', hbind, hclose⟩ := second.of_snoc
  have same := undone _ _ _ P P' P'' _ _ _ reserved_hugepage (Run.of_foldlM hP) hbind.of_single
    hclose 53
  rw [hbefore, hafter] at same
  cases same

end Udpdk
