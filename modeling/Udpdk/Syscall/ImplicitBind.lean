import Udpdk.Poller.Delivery
import Udpdk.Syscall.Send

/-!
# The port of a first send

`udpdk_sendto` binds a socket that was not bound. The port is the first one without
bindings, and the scan for it starts at port 0, which no peer can answer to.

## Main definitions

* `System.UsablyBound` — a socket that gets the answers to what it sends
* `System.BindsUsably` — a send that makes its socket one

## Main results

* `System.bindsUsably_iff` — in a well-formed state, when a send does
* `implicit_bind_iff` — in every reachable state
-/

namespace Udpdk

open Foundation

/-- The socket is bound to the wildcard address and to a port that can stand in a datagram and
that no other socket is bound to; every answer is put into its exchange slot, and into no
other. -/
structure System.UsablyBound (S : System) (s : ℕ) : Prop where
  bound : (S.shared.desc.slots s).bound
  wildcard : (S.shared.desc.slots s).ipAddr = inaddrAny
  legal : (S.shared.desc.slots s).udpPort ≠ 0
  sole : ∀ b ∈ S.shared.mem.bindings (S.shared.desc.slots s).udpPort, b.sockfd = (s : ℕ)
  answered : ∀ d : Mbuf, d.dstPort = (S.shared.desc.slots s).udpPort →
    (S.receiversOf (some d)).map (fun b => excBufIdx b.sockfd) = [s]

/-- Having passed the validation, the call binds the socket `s` usably, and it does not touch
slots and bindings any more. -/
def System.BindsUsably (S : System) (dpdk : Dpdk) (config : Configuration) (pkt : Option ℕ)
    (sockfd : ℤ) (buf : List Byte) (flags : ℤ) (destAddr : Option SockaddrIn) (addrlen s : ℕ) :
    Prop :=
  ∃ σ, bindIfUnbound sockfd S.shared = .ok (.ok (), σ) ∧
    System.UsablyBound { S with shared := σ } s ∧
    ∀ ret σ', udpdkSendto dpdk config pkt sockfd buf flags destAddr addrlen S.shared =
      .ok (ret, σ') → σ'.view = σ.view

variable {dpdk : Dpdk} {config : Configuration} {S : System} {σ : Shared} {pkt : Option ℕ}
  {sockfd flags : ℤ} {buf : List Byte} {destAddr : Option SockaddrIn} {addrlen s : ℕ}
  {dest : SockaddrIn} {p : Port}

/-- On a port that was free, a socket is usably bound if the port is not 0 and the poller does
not take the descriptor for another one. -/
theorem System.usablyBound_iff (hview : S.shared.view = σ.view.boundTo s inaddrAny p)
    (hnil : σ.mem.bindings p = []) : S.UsablyBound s ↔ p ≠ 0 ∧ s < 256 := by
  have hslot : S.shared.desc.slots s =
      { σ.desc.slots s with bound := true, udpPort := p, ipAddr := inaddrAny } := by
    rw [← Shared.view_slot, hview, SocketView.slot_boundTo_self, Shared.view_slot]
  have hbindings : S.shared.mem.bindings p =
      [newBinding s inaddrAny (σ.desc.slots s).soOptions] := by
    rw [bindings_of_boundTo hview, hnil]
    rfl
  have hreceivers : ∀ d : Mbuf, d.dstPort = p →
      (S.receiversOf (some d)).map (fun b => excBufIdx b.sockfd) = [excBufIdx s] := by
    rintro d rfl
    rw [System.receiversOf, hbindings, receivers_cons, if_pos (.inr rfl)]
    split
    · rfl
    · rfl
  constructor
  · intro h
    have hlegal := h.legal
    have hanswered := h.answered (datagramTo 0 p) (by rw [dstPort_datagramTo, hslot])
    rw [hreceivers _ (dstPort_datagramTo 0 p)] at hanswered
    rw [hslot] at hlegal
    exact ⟨hlegal, excBufIdx_eq_self_iff.mp (List.singleton_injective hanswered)⟩
  · rintro ⟨hport, hs⟩
    refine ⟨?_, ?_, ?_, ?_, ?_⟩
    · rw [hslot]
    · rw [hslot]
    · rw [hslot]
      exact hport
    · rw [hslot, hbindings]
      intro b hb
      rw [List.mem_singleton.mp hb]
      rfl
    · rw [hslot]
      intro d hd
      rw [hreceivers d hd, excBufIdx_eq_self_iff.mpr hs]

/-- **A first send.** In a well-formed state a send that passes the validation binds its socket
usably if some socket is bound to port 0, so that the scan does not end there, and the poller
does not take the descriptor for another one. -/
theorem System.bindsUsably_iff (ok : S.shared.Ok)
    (accepts : S.shared.AcceptsSend sockfd flags destAddr addrlen s dest)
    (unbound : (S.shared.desc.slots s).bound = false) :
    S.BindsUsably dpdk config pkt sockfd buf flags destAddr addrlen s ↔
      S.shared.mem.bindings 0 ≠ [] ∧ s < 256 := by
  have hfd := accepts.fd
  subst hfd
  obtain ⟨p, σ, hbind, -, hview, hnil, hlow⟩ :=
    exists_bindIfUnbound ok accepts.inRange accepts.used unbound
  have hport : p ≠ 0 ↔ S.shared.mem.bindings 0 ≠ [] := by
    constructor
    · intro hne
      have hpos : (0 : Port).toNat < p.toNat :=
        Nat.pos_of_ne_zero fun hzero => hne (BitVec.eq_of_toNat_eq hzero)
      exact hlow 0 hpos
    · rintro hbound rfl
      exact hbound hnil
  have husable : System.UsablyBound { S with shared := σ } s ↔ p ≠ 0 ∧ s < 256 :=
    System.usablyBound_iff (S := { S with shared := σ }) hview hnil
  rw [← hport, ← husable]
  constructor
  · rintro ⟨σ', hbind', usable, -⟩
    obtain rfl := congrArg Prod.snd (Except.ok.inj (hbind'.symm.trans hbind))
    exact usable
  · intro usable
    exact ⟨σ, hbind, usable, fun ret σ' => view_udpdkSendto accepts hbind⟩

/-- In every reachable state a send that passes the validation binds an unbound socket usably
exactly when some socket is bound to port 0, and the poller does not take the descriptor for
another one. -/
theorem implicit_bind_iff (dpdk : Dpdk) (config : Configuration) (zones : AllocatorZones)
    {log : List SystemEvent} {S : System}
    (run : Run (SystemEvent.step dpdk config) (systemInit zones) log S)
    {sockfd flags : ℤ} {destAddr : Option SockaddrIn} {addrlen s : ℕ} {dest : SockaddrIn}
    (accepts : S.shared.AcceptsSend sockfd flags destAddr addrlen s dest)
    (unbound : (S.shared.desc.slots s).bound = false) (pkt : Option ℕ) (buf : List Byte) :
    S.BindsUsably dpdk config pkt sockfd buf flags destAddr addrlen s ↔
      S.shared.mem.bindings 0 ≠ [] ∧ s < 256 :=
  System.bindsUsably_iff (.systemRun run) accepts unbound

/-- With another socket on port 0, the first send of a socket gets it another port, and goes
through. -/
theorem implicit_bind_of_two : ∃ (S : System) (m : Mbuf) (τ : Shared),
    (S.shared.desc.slots 0).bound = false ∧
    S.BindsUsably Dpdk.reference Configuration.zero (some 0) 0 [1, 2, 3] 0
      (some ⟨afInet, 53, 7⟩) sizeofSockaddrIn 0 ∧
    udpdkSendto Dpdk.reference Configuration.zero (some 0) 0 [1, 2, 3] 0 (some ⟨afInet, 53, 7⟩)
      sizeofSockaddrIn S.shared = .ok (.ok (m, 3), τ) := by
  have first := run_sharedOpen Dpdk.reference Configuration.zero ⟨0, 0, 0, 0⟩ 2 (by decide)
  obtain ⟨σ, hbind, hframe, hview⟩ := ApiEvent.exists_step_bind (p := 0) (s := 1) (i := 7)
    (Shared.Ok.run first) (by decide) rfl rfl rfl
  have run := run_api (S := systemInit ⟨0, 0, 0, 0⟩) (first.snoc hbind)
  have hslot : σ.desc.slots 0 = (sharedOpen ⟨0, 0, 0, 0⟩ 2).desc.slots 0 := by
    rw [← Shared.view_slot, hview, SocketView.slot_boundTo_of_ne (by decide), Shared.view_slot]
  have used : (σ.desc.slots 0).used := by
    rw [hslot]
    rfl
  have accepts : σ.AcceptsSend 0 0 (some ⟨afInet, 53, 7⟩) sizeofSockaddrIn 0 ⟨afInet, 53, 7⟩ :=
    ⟨by decide, rfl, used, rfl, rfl, by decide⟩
  have unbound : (σ.desc.slots 0).bound = false := by
    rw [hslot]
    rfl
  have hzero : σ.mem.bindings 0 ≠ [] := by
    rw [bindings_of_boundTo hview]
    exact List.cons_ne_nil _ _
  have usable := (implicit_bind_iff Dpdk.reference Configuration.zero _ run accepts unbound (some 0)
    [1, 2, 3]).mpr ⟨hzero, by decide⟩
  obtain ⟨p, τ, hbound, hframe', -⟩ :=
    exists_bindIfUnbound (Shared.Ok.run (first.snoc hbind)) (by decide) used unbound
  have hempty : τ.txQ 0 = rteRingCreate exchRingSize := by
    rw [hframe', hframe]
    rfl
  have hsome : (τ.txQ 0).enqueue (fillMbuf 0 (buildFrame Dpdk.reference Configuration.zero
      (τ.desc.slots 0) ⟨afInet, 53, 7⟩ [1, 2, 3])) ≠ none := by
    rw [hempty, Ne, BoundedQueue.enqueue_eq_none_iff]
    exact not_le.mpr (Nat.lt_of_sub_eq_succ rfl)
  obtain ⟨q, hq⟩ := Option.ne_none_iff_exists'.mp hsome
  exact ⟨_, _, _, unbound, usable,
    udpdkSendto_of_bindIfUnbound (s := 0) (by decide) used hbound (by decide) hq⟩

/-- The first send of all binds its socket to port 0. -/
theorem not_implicit_bind : ¬ ∀ (dpdk : Dpdk) (config : Configuration) (zones : AllocatorZones)
    (log : List SystemEvent) (S : System),
    Run (SystemEvent.step dpdk config) (systemInit zones) log S →
      ∀ (sockfd flags : ℤ) (destAddr : Option SockaddrIn) (addrlen s : ℕ) (dest : SockaddrIn),
        S.shared.AcceptsSend sockfd flags destAddr addrlen s dest →
        (S.shared.desc.slots s).bound = false → ∀ (pkt : Option ℕ) (buf : List Byte),
          S.BindsUsably dpdk config pkt sockfd buf flags destAddr addrlen s := by
  intro h
  have first := run_sharedOpen Dpdk.reference Configuration.zero ⟨0, 0, 0, 0⟩ 1 (by decide)
  have ok := Shared.Ok.run first
  have run := run_api (S := systemInit ⟨0, 0, 0, 0⟩) first
  have accepts : (sharedOpen ⟨0, 0, 0, 0⟩ 1).AcceptsSend 0 0 (some ⟨afInet, 53, 7⟩)
      sizeofSockaddrIn 0 ⟨afInet, 53, 7⟩ := ⟨by decide, rfl, rfl, rfl, rfl, by decide⟩
  have usable := h _ _ _ _ _ run 0 0 _ _ 0 _ accepts rfl none []
  exact ((System.bindsUsably_iff ok accepts rfl).mp usable).1 rfl

end Udpdk
