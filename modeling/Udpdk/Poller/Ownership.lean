import Udpdk.Poller.Delivery
import Udpdk.Syscall.Send

/-!
# Descriptors that are used again

`udpdk_close` frees a slot and leaves its rings as they are, and the poller may still hold packets
for it. The next socket gets the same slot, with what is left. Nothing is left if a socket is
closed only when its rings and its staging buffer are empty, and no packet goes to the slot of
another descriptor.

## Main definitions

* `System.Fresh` — rings and staging buffer of a slot are empty
* `SystemEvent.Clean` — the step leaves nothing behind
* `DeliveredIn`, `SubmittedIn` — where the packets of a slot come from

## Main results

* `fresh_sockets` — in runs of such steps a new socket is fresh, and gets only its own packets
* `not_fresh_sockets` — a socket that inherits a packet to send
-/

namespace Udpdk

open Foundation

/-- The rings of a slot and its staging buffer are empty. -/
structure System.Fresh (S : System) (s : ℕ) : Prop where
  rxQ : (S.shared.rxQ s).items = []
  txQ : (S.shared.txQ s).items = []
  rxBuffer : S.rxBuffer s = []

/-- A socket that is closed leaves nothing in its slot, and a packet is delivered to descriptors
that fit into eight bits. -/
def SystemEvent.Clean (dpdk : Dpdk) (S : System) : SystemEvent → Prop
  | .api (.close s (.ok _)) => S.Fresh s.toNat
  | .poller choices (.rxPacket m _) =>
    ∀ b ∈ S.receiversOf (datagramOf dpdk choices m), b.sockfd < 256
  | _ => True

/-! ## Free slots -/

/-- Free slots are fresh. -/
structure System.NoResidue (S : System) : Prop where
  ok : S.shared.Ok
  fresh : ∀ s, (S.shared.desc.slots s).used = false → S.Fresh s

section Free

variable {dpdk : Dpdk} {config : Configuration} {S S' : System} {e : SystemEvent} {call : ApiEvent}
  {v v' : SocketView} {σ σ' : Shared} {s : ℕ} {m : Mbuf} {choices : DpdkChoices}
  {delivered : List Delivery}

/-- A slot that is free after a call was free before, or its socket was closed. -/
theorem ApiChange.free_or_closed (h : ApiChange call v v') (free : (v'.slot s).used = false) :
    (v.slot s).used = false ∨ call = .close s (.ok ()) := by
  cases h with
  | @opened _ t =>
    by_cases hts : s = t
    · subst hts
      rw [SocketView.slot_opened_self] at free
      cases free
    · rw [SocketView.slot_opened_of_ne hts] at free
      exact .inl free
  | option => exact .inl (SocketView.used_withOption.symm.trans free)
  | bound => exact .inl (SocketView.used_boundTo.symm.trans free)
  | implicitlyBound => exact .inl (SocketView.used_boundTo.symm.trans free)
  | @closed _ t =>
    by_cases hts : s = t
    · subst hts
      exact .inr rfl
    · rw [SocketView.slot_closed_of_ne hts] at free
      exact .inl free
  | kept => exact .inl free

/-- A call leaves the rings of free slots alone. -/
theorem ApiEvent.Rings.of_free (h : call.Rings σ σ') (free : (σ.desc.slots s).used = false) :
    σ'.rxQ s = σ.rxQ s ∧ σ'.txQ s = σ.txQ s := by
  have hother : ∀ t, (σ.desc.slots t).used → s ≠ t := by
    rintro t hused rfl
    rw [free] at hused
    cases hused
  cases call with
  | sendto pkt sockfd buf flags destAddr addrlen ret =>
    cases ret with
    | error => exact ⟨congrFun h.1 s, congrFun h.2 s⟩
    | ok r =>
      obtain ⟨hrxQ, t, -, -, hused, q, -, htxQ⟩ := h
      exact ⟨congrFun hrxQ s, by rw [htxQ, Function.update_of_ne (hother t hused)]⟩
  | recvfrom sockfd bufNull len flags srcAddr addrlen ret =>
    cases ret with
    | error => exact ⟨congrFun h.1 s, congrFun h.2 s⟩
    | ok r =>
      obtain ⟨htxQ, t, -, -, hused, q, -, hrxQ⟩ := h
      exact ⟨by rw [hrxQ, Function.update_of_ne (hother t hused)], congrFun htxQ s⟩
  | _ => exact ⟨congrFun h.1 s, congrFun h.2 s⟩

/-- A call puts nothing into an rx ring. -/
theorem ApiEvent.Rings.mem_rxQ (h : call.Rings σ σ') {o : Option Mbuf}
    (ho : o ∈ (σ'.rxQ s).items) : o ∈ (σ.rxQ s).items := by
  cases call with
  | sendto pkt sockfd buf flags destAddr addrlen ret =>
    cases ret with
    | error => rwa [← h.1]
    | ok r => rwa [← h.1]
  | recvfrom sockfd bufNull len flags srcAddr addrlen ret =>
    cases ret with
    | error => rwa [← h.1]
    | ok r =>
      obtain ⟨-, t, -, -, -, q, taken, hrxQ⟩ := h
      rw [hrxQ] at ho
      exact BoundedQueue.mem_of_mem_update_dequeue taken ho
  | _ => rwa [← h.1]

/-- What is new in a tx ring was sent on the socket. -/
theorem ApiEvent.Rings.mem_txQ (h : call.Rings σ σ') {m : Mbuf} (hm : m ∈ (σ'.txQ s).items) :
    m ∈ (σ.txQ s).items ∨ ∃ pkt buf flags destAddr addrlen n,
      call = .sendto pkt s buf flags destAddr addrlen (.ok (m, n)) := by
  cases call with
  | sendto pkt sockfd buf flags destAddr addrlen ret =>
    cases ret with
    | error => exact .inl (h.2 ▸ hm)
    | ok r =>
      obtain ⟨m', n⟩ := r
      obtain ⟨-, t, -, rfl, -, q, put, htxQ⟩ := h
      rw [htxQ] at hm
      refine (BoundedQueue.mem_update_enqueueBulk put hm).imp_right ?_
      rintro ⟨rfl, hnew⟩
      rw [List.mem_singleton.mp hnew]
      exact ⟨pkt, buf, flags, destAddr, addrlen, n, rfl⟩
  | recvfrom sockfd bufNull len flags srcAddr addrlen ret =>
    cases ret with
    | error => exact .inl (h.2 ▸ hm)
    | ok r => exact .inl (h.1 ▸ hm)
  | _ => exact .inl (h.2 ▸ hm)

/-- A delivery that is not narrowed is to the slot of the socket of its binding. -/
theorem sockfd_eq_of_delivered (ok : S.shared.Ok)
    (receivers : delivered.map Prod.fst = S.receiversOf (datagramOf dpdk choices m))
    (clean : ∀ b ∈ S.receiversOf (datagramOf dpdk choices m), b.sockfd < 256)
    {x : Delivery} (hx : x ∈ delivered) :
    (excBufIdx x.1.sockfd : ℤ) = x.1.sockfd ∧ ∃ p, x.1 ∈ S.shared.mem.bindings p := by
  have hb : x.1 ∈ S.receiversOf (datagramOf dpdk choices m) :=
    receivers ▸ List.mem_map_of_mem hx
  obtain ⟨p, hmem⟩ : ∃ p, x.1 ∈ S.shared.mem.bindings p := by
    cases hd : datagramOf dpdk choices m with
    | none =>
      rw [hd] at hb
      cases hb
    | some d =>
      rw [hd] at hb
      exact ⟨_, (mem_of_mem_receivers hb).1⟩
  obtain ⟨t, -, ht⟩ := ok.sockets.range p x.1 hmem
  exact ⟨excBufIdx_of_lt (ht ▸ Int.natCast_nonneg t) (clean x.1 hb), p, hmem⟩

/-- **One step** leaves no residue. -/
theorem System.NoResidue.step (h : S.NoResidue) (hstep : e.step dpdk config S S')
    (clean : e.Clean dpdk S) : S'.NoResidue := by
  refine ⟨h.ok.systemStep hstep, fun s free => ?_⟩
  cases e with
  | api call =>
    obtain ⟨σ, hcall, rfl⟩ := hstep
    obtain ⟨-, hchange, hrings⟩ := ApiEvent.step_spec h.ok.mem hcall
    rcases hchange.free_or_closed free with hfree | rfl
    · have hold := h.fresh s hfree
      obtain ⟨hrxQ, htxQ⟩ := hrings.of_free hfree
      exact ⟨hrxQ ▸ hold.rxQ, htxQ ▸ hold.txQ, hold.rxBuffer⟩
    · -- the condition for closing is this
      have hold : S.Fresh s := clean
      exact ⟨hrings.1 ▸ hold.rxQ, hrings.2 ▸ hold.txQ, hold.rxBuffer⟩
  | poller choices happened =>
    obtain ⟨-, hview, hchange⟩ := poller_view h.ok hstep
    have hdesc : S'.shared.desc = S.shared.desc := congrArg SocketView.desc hview
    rw [hdesc] at free
    have hold := h.fresh s free
    have hsame : S.SameQueues S' → S'.Fresh s := fun same =>
      ⟨same.rxQ ▸ hold.rxQ, same.txQ ▸ hold.txQ, same.rxBuffer ▸ hold.rxBuffer⟩
    cases hchange with
    | transmit same => exact hsame same
    | @take i m q _ _ taken rxQ rxBuffer txQ =>
      refine ⟨rxQ ▸ hold.rxQ, ?_, rxBuffer ▸ hold.rxBuffer⟩
      rw [txQ, List.eq_nil_iff_forall_not_mem]
      intro pkt hpkt
      have hmem := BoundedQueue.mem_of_mem_update_dequeue taken hpkt
      rw [hold.txQ] at hmem
      cases hmem
    | burst same => exact hsame same
    | @packet m pending delivered _ _ rxQ txQ rxBuffer receivers =>
      refine ⟨rxQ ▸ hold.rxQ, txQ ▸ hold.txQ, ?_⟩
      have hnone : stagedFor delivered s = [] := by
        by_contra hne
        obtain ⟨b, hb, rfl⟩ := stagedFor_ne_nil_iff.mp hne
        obtain ⟨x, hx, rfl⟩ := List.mem_map.mp hb
        obtain ⟨hfd, p, hmem⟩ := sockfd_eq_of_delivered h.ok receivers clean hx
        have hbound := (h.ok.sockets.bound_of_mem hmem hfd.symm).1
        have hused := (h.ok.sockets.bound _ hbound).1
        rw [Shared.view_slot, free] at hused
        cases hused
      rw [rxBuffer, hnone, List.append_nil]
      exact hold.rxBuffer
    | burstDone same => exact hsame same
    | skip _ same => exact hsame same
    | @flush i _ _ _ used txQ rxBuffer rxQ =>
      have hi : s ≠ i := by
        rintro rfl
        rw [free] at used
        cases used
      refine ⟨?_, txQ ▸ hold.txQ, ?_⟩
      · rcases rxQ with hsame | ⟨q, -, hput⟩
        · exact hsame ▸ hold.rxQ
        · rw [hput, Function.update_of_ne hi]
          exact hold.rxQ
      · rw [rxBuffer, Function.update_of_ne hi]
        exact hold.rxBuffer
    | flushDone _ same => exact hsame same

theorem noResidue_systemInit (zones : AllocatorZones) : (systemInit zones).NoResidue where
  ok := ok_sharedInit zones
  fresh _ _ := ⟨rfl, rfl, rfl⟩

end Free

/-! ## Where packets come from -/

/-- The descriptor that a call is made on. -/
def ApiEvent.sockfd : ApiEvent → Option ℤ
  | .socket .. | .interrupt => none
  | .getsockopt sockfd .. | .setsockopt sockfd .. | .bind sockfd .. | .sendto _ sockfd ..
  | .recvfrom sockfd .. | .close sockfd _ => some sockfd

/-- The binding was made by a call on the descriptor `s` in the run from `S₀` with this log. -/
def MadeIn (dpdk : Dpdk) (config : Configuration) (S₀ : System) (log : List SystemEvent) (s : ℕ)
    (b : BindInfo) : Prop :=
  ∃ before call after U U' p, log = before ++ .api call :: after ∧ call.sockfd = some (s : ℤ) ∧
    Run (SystemEvent.step dpdk config) S₀ before U ∧
    (SystemEvent.api call).step dpdk config U U' ∧
    b ∉ U.shared.mem.bindings p ∧ b ∈ U'.shared.mem.bindings p

/-- The buffer was delivered in that run, to a binding of the descriptor `s` that was made in the
run before. -/
def DeliveredIn (dpdk : Dpdk) (config : Configuration) (S₀ : System) (log : List SystemEvent)
    (s : ℕ)
    (o : Option Mbuf) : Prop :=
  ∃ before choices m delivered after, ∃ b : BindInfo,
    log = before ++ .poller choices (.rxPacket m delivered) :: after ∧
    (b, o) ∈ delivered ∧ b.sockfd = (s : ℕ) ∧ MadeIn dpdk config S₀ before s b

/-- The packet was put into the ring by a call on the descriptor `s`. -/
def SubmittedIn (log : List SystemEvent) (s : ℕ) (m : Mbuf) : Prop :=
  ∃ pkt buf flags destAddr addrlen n,
    SystemEvent.api (.sendto pkt s buf flags destAddr addrlen (.ok (m, n))) ∈ log

/-- What there is in slot `s` and in the bind table for it stems from the run from `S₀`. -/
structure System.Owned (S : System) (dpdk : Dpdk) (config : Configuration) (S₀ : System) (s : ℕ)
    (log : List SystemEvent) : Prop where
  clean : S.NoResidue
  made : ∀ p, ∀ b ∈ S.shared.mem.bindings p, b.sockfd = (s : ℕ) → MadeIn dpdk config S₀ log s b
  staged : ∀ o ∈ S.rxBuffer s, DeliveredIn dpdk config S₀ log s o
  received : ∀ o ∈ (S.shared.rxQ s).items, DeliveredIn dpdk config S₀ log s o
  submitted : ∀ m ∈ (S.shared.txQ s).items, SubmittedIn log s m

section Origin

variable {dpdk : Dpdk} {config : Configuration} {S₀ S S' : System} {e : SystemEvent}
  {call : ApiEvent} {v v' : SocketView} {σ σ' : Shared} {s : ℕ} {m : Mbuf} {o : Option Mbuf}
  {b : BindInfo} {p : Port} {log : List SystemEvent}

theorem MadeIn.snoc (h : MadeIn dpdk config S₀ log s b) :
    MadeIn dpdk config S₀ (log ++ [e]) s b := by
  obtain ⟨before, call, after, U, U', p, rfl, hcaller, run, hstep, hnew, hmem⟩ := h
  exact ⟨before, call, after ++ [e], U, U', p, by simp, hcaller, run, hstep, hnew, hmem⟩

theorem DeliveredIn.snoc (h : DeliveredIn dpdk config S₀ log s o) :
    DeliveredIn dpdk config S₀ (log ++ [e]) s o := by
  obtain ⟨before, choices, m, delivered, after, b, rfl, hmem, hfd, hmade⟩ := h
  exact ⟨before, choices, m, delivered, after ++ [e], b, by simp, hmem, hfd, hmade⟩

theorem SubmittedIn.snoc (h : SubmittedIn log s m) : SubmittedIn (log ++ [e]) s m := by
  obtain ⟨pkt, buf, flags, destAddr, addrlen, n, hmem⟩ := h
  exact ⟨pkt, buf, flags, destAddr, addrlen, n, List.mem_append_left _ hmem⟩

/-- A new binding belongs to the descriptor that the call is made on. -/
theorem ApiChange.sockfd_of_new (h : ApiChange call v v') (new : b ∉ v.bindings p)
    (hb : b ∈ v'.bindings p) : call.sockfd = some b.sockfd := by
  have hinsert : ∀ {t ip port}, b ∈ (v.boundTo t ip port).bindings p → b.sockfd = (t : ℕ) := by
    intro t ip port hb
    rcases SocketView.mem_bindings_boundTo hb with rfl | hold
    · rfl
    · exact absurd hold new
  cases h with
  | opened => exact absurd hb new
  | option => exact absurd hb new
  | bound => exact congrArg some (hinsert hb).symm
  | implicitlyBound => exact congrArg some (hinsert hb).symm
  | closed => exact absurd (SocketView.bindings_closed_sublist.mem hb) new
  | kept => exact absurd hb new

/-- A binding that was not there before was made in this step. -/
theorem System.Owned.made_step (h : S.Owned dpdk config S₀ s log)
    (run : Run (SystemEvent.step dpdk config) S₀ log S) (hstep : e.step dpdk config S S')
    (hb : b ∈ S'.shared.mem.bindings p) (hfd : b.sockfd = (s : ℕ)) :
    MadeIn dpdk config S₀ (log ++ [e]) s b := by
  by_cases hold : b ∈ S.shared.mem.bindings p
  · exact (h.made p b hold hfd).snoc
  · cases e with
    | api call =>
      obtain ⟨σ, hcall, rfl⟩ := hstep
      have hchange := (ApiEvent.step_spec h.clean.ok.mem hcall).change
      have hcaller := hchange.sockfd_of_new hold hb
      rw [hfd] at hcaller
      exact ⟨log, call, [], S, _, p, rfl, hcaller, run, ⟨σ, hcall, rfl⟩, hold, hb⟩
    | poller choices happened =>
      have hview := (poller_view h.clean.ok hstep).2.1
      have hsame : S'.shared.mem.bindings = S.shared.mem.bindings :=
        congrArg SocketView.bindings hview
      rw [hsame] at hb
      exact absurd hb hold

/-- **One step** keeps track of the packets. -/
theorem System.Owned.step (h : S.Owned dpdk config S₀ s log)
    (run : Run (SystemEvent.step dpdk config) S₀ log S) (hstep : e.step dpdk config S S')
    (clean : e.Clean dpdk S) : S'.Owned dpdk config S₀ s (log ++ [e]) := by
  have clean' := h.clean.step hstep clean
  have made' : ∀ p, ∀ b ∈ S'.shared.mem.bindings p, b.sockfd = (s : ℕ) →
      MadeIn dpdk config S₀ (log ++ [e]) s b := fun p b hb hfd => h.made_step run hstep hb hfd
  have staged' : ∀ {o}, o ∈ S.rxBuffer s → DeliveredIn dpdk config S₀ (log ++ [e]) s o :=
    fun ho => (h.staged _ ho).snoc
  have received' : ∀ {o}, o ∈ (S.shared.rxQ s).items →
      DeliveredIn dpdk config S₀ (log ++ [e]) s o := fun ho => (h.received _ ho).snoc
  have submitted' : ∀ {m}, m ∈ (S.shared.txQ s).items → SubmittedIn (log ++ [e]) s m :=
    fun hm => (h.submitted _ hm).snoc
  cases e with
  | api call =>
    obtain ⟨σ, hcall, rfl⟩ := hstep
    have hrings := (ApiEvent.step_spec h.clean.ok.mem hcall).rings
    refine ⟨clean', made', fun o ho => staged' ho, fun o ho => received' (hrings.mem_rxQ ho),
      fun m hm => ?_⟩
    obtain hold | ⟨pkt, buf, flags, destAddr, addrlen, n, rfl⟩ := hrings.mem_txQ hm
    · exact submitted' hold
    · exact ⟨pkt, buf, flags, destAddr, addrlen, n, by simp⟩
  | poller choices happened =>
    have hchange := (poller_view h.clean.ok hstep).2.2
    have hsame : S.SameQueues S' →
        S'.Owned dpdk config S₀ s (log ++ [.poller choices happened]) := fun same =>
      ⟨clean', made', fun o ho => staged' (same.rxBuffer ▸ ho),
        fun o ho => received' (same.rxQ ▸ ho), fun m hm => submitted' (same.txQ ▸ hm)⟩
    cases hchange with
    | transmit same => exact hsame same
    | @take i m q _ _ taken rxQ rxBuffer txQ =>
      refine ⟨clean', made', fun o ho => staged' (rxBuffer ▸ ho), fun o ho => received' (rxQ ▸ ho),
        fun m hm => submitted' ?_⟩
      rw [txQ] at hm
      exact BoundedQueue.mem_of_mem_update_dequeue taken hm
    | burst same => exact hsame same
    | @packet m pending delivered _ _ rxQ txQ rxBuffer receivers =>
      refine ⟨clean', made', fun o ho => ?_, fun o ho => received' (rxQ ▸ ho),
        fun m hm => submitted' (txQ ▸ hm)⟩
      rw [rxBuffer] at ho
      rcases List.mem_append.mp ho with hold | hnew
      · exact staged' hold
      · -- it was delivered in this step, to a binding that is there
        obtain ⟨x, hx, rfl⟩ := List.mem_map.mp hnew
        obtain ⟨hmem, hidx⟩ := List.mem_filter.mp hx
        obtain ⟨hfd, p, hb⟩ := sockfd_eq_of_delivered h.clean.ok receivers clean hmem
        have hs : x.1.sockfd = (s : ℕ) := by
          rw [← hfd, of_decide_eq_true hidx]
        exact ⟨log, choices, m, delivered, [], x.1, rfl, hmem, hs, h.made p x.1 hb hs⟩
    | burstDone same => exact hsame same
    | skip _ same => exact hsame same
    | @flush i _ _ _ _ txQ rxBuffer rxQ =>
      refine ⟨clean', made', fun o ho => ?_, fun o ho => ?_, fun m hm => submitted' (txQ ▸ hm)⟩
      · rw [rxBuffer] at ho
        by_cases hi : s = i
        · subst hi
          rw [Function.update_self] at ho
          cases ho
        · rw [Function.update_of_ne hi] at ho
          exact staged' ho
      · rcases rxQ with hrxQ | ⟨q, put, hrxQ⟩
        · exact received' (hrxQ ▸ ho)
        · rw [hrxQ] at ho
          obtain hold | ⟨rfl, hnew⟩ := BoundedQueue.mem_update_enqueueBulk put ho
          · exact received' hold
          · exact staged' hnew
    | flushDone _ same => exact hsame same

/-- A new socket owns what there is, which is nothing. -/
theorem System.NoResidue.opened (h : S.NoResidue) {domain type protocol : ℤ}
    (hstep : (SystemEvent.api (.socket domain type protocol (.ok s))).step dpdk config S S') :
    S'.Fresh s ∧ S'.Owned dpdk config S' s [] := by
  have clean' := h.step hstep trivial
  obtain ⟨σ, hcall, rfl⟩ := hstep
  obtain ⟨-, hchange, hrings⟩ := ApiEvent.step_spec h.ok.mem hcall
  obtain ⟨free, hview⟩ := hchange.of_socket
  have hold := h.fresh s free
  have fresh : ({ S with shared := σ } : System).Fresh s :=
    ⟨hrings.1 ▸ hold.rxQ, hrings.2 ▸ hold.txQ, hold.rxBuffer⟩
  refine ⟨fresh, clean', fun p b hb hfd => ?_, fun o ho => ?_, fun o ho => ?_, fun m hm => ?_⟩
  · -- the socket is not bound yet
    have unbound : (σ.view.slot s).bound = false := by
      rw [hview, SocketView.slot_opened_self]
    have hnone := clean'.ok.sockets.unbound s unbound p
    have hmem : b ∈ ownedBy s (σ.view.bindings p) := mem_ownedBy.mpr ⟨hb, hfd⟩
    rw [hnone] at hmem
    cases hmem
  · rw [fresh.rxBuffer] at ho
    cases ho
  · rw [fresh.rxQ] at ho
    cases ho
  · rw [fresh.txQ] at hm
    cases hm

end Origin

/-- **New sockets are fresh.** In every run in which sockets are closed only when nothing is left
in their slots, and packets are delivered to descriptors that fit into eight bits: when
`udpdk_socket` returns the descriptor `s`, the slot is empty. Whatever happens from then on,
`udpdk_recvfrom` returns only packets that were delivered since, to bindings that calls on `s`
made since; and the poller takes only packets out of the tx ring that calls on `s` submitted
since. -/
theorem fresh_sockets (dpdk : Dpdk) (config : Configuration) (zones : AllocatorZones)
    {log since : List SystemEvent} {S S' T : System} {domain type protocol : ℤ} {s : ℕ}
    (run : Run (fun e S S' => e.step dpdk config S S' ∧ e.Clean dpdk S) (systemInit zones) log S)
    (opened : (SystemEvent.api (.socket domain type protocol (.ok s))).step dpdk config S S')
    (rest : Run (fun e S S' => e.step dpdk config S S' ∧ e.Clean dpdk S) S' since T) :
    S'.Fresh s ∧
    (∀ bufNull len flags srcAddr addrlen m received T',
      (SystemEvent.api (.recvfrom s bufNull len flags srcAddr addrlen
        (.ok (m, received)))).step dpdk config T T' →
      DeliveredIn dpdk config S' since s (some m)) ∧
    ∀ choices m T', (SystemEvent.poller choices (.txTake s m)).step dpdk config T T' →
      SubmittedIn since s m := by
  have residue : S.NoResidue :=
    run.state_invariant (noResidue_systemInit zones) fun _ _ _ inv h => inv.step h.1 h.2
  obtain ⟨fresh, start⟩ := residue.opened opened
  have owned : T.Owned dpdk config S' s since :=
    rest.invariant (fun log U => U.Owned dpdk config S' s log) start
      fun _ _ _ _ before inv h => inv.step before.forget h.1 h.2
  refine ⟨fresh, ?_, ?_⟩
  · intro bufNull len flags srcAddr addrlen m received T' hstep
    obtain ⟨σ, hcall, rfl⟩ := hstep
    -- the packet was at the front of the ring of the socket
    obtain ⟨-, t, -, ht, -, q, taken, -⟩ := (ApiEvent.step_spec owned.clean.ok.mem hcall).rings
    obtain rfl : s = t := Nat.cast_inj.mp ht
    apply owned.received
    rw [(BoundedQueue.dequeue_eq_some_iff.mp taken).2]
    exact List.mem_cons_self
  · intro choices m T' hstep
    have hchange := (poller_view owned.clean.ok hstep).2.2
    cases hchange with
    | take _ _ taken =>
      apply owned.submitted
      rw [(BoundedQueue.dequeue_eq_some_iff.mp taken).2]
      exact List.mem_cons_self

/-! ## One socket after the other -/

/-- Socket 0 is closed, and the next socket gets its descriptor. -/
theorem exists_reopened {σ : Shared} (ok : σ.Ok) (used : (σ.desc.slots 0).used)
    (count : σ.desc.nZonesActive = 1) : ∃ σ₁ σ₂,
      (ApiEvent.close (0 : ℕ) (.ok ())).step Dpdk.reference Configuration.zero σ σ₁ ∧
      (ApiEvent.socket afInet sockDgram 0 (.ok 0)).step Dpdk.reference Configuration.zero σ₁ σ₂ ∧
      σ₂.rxQ = σ.rxQ ∧ σ₂.txQ = σ.txQ := by
  have hclosed : ∃ σ₁, (ApiEvent.close (0 : ℕ) (.ok ())).step Dpdk.reference Configuration.zero
      σ σ₁ ∧ _ := ApiEvent.exists_step_close ok (by decide) used
  obtain ⟨σ₁, hclose, hframe, hview⟩ := hclosed
  have hcount : σ₁.desc.nZonesActive = 2 := by
    have h : σ₁.desc.nZonesActive = (σ.desc.nZonesActive + 1) % 2 ^ 64 :=
      congrArg (fun v => v.desc.nZonesActive) hview
    rw [h, count]
    rfl
  have hfree : (σ₁.desc.slots 0).used = false := by
    rw [← Shared.view_slot, hview, SocketView.slot_closed_self]
  -- slot 0 is the lowest one, so the scan stops right there
  have hfind : (List.range numSocketsMax).find? (fun i => !(σ₁.desc.slots i).used) = some 0 := by
    rw [List.find?_range_eq_some]
    exact ⟨by rw [hfree]; rfl, List.mem_range.mpr (by decide),
      fun j hj => absurd hj (Nat.not_lt_zero j)⟩
  have hroom : σ₁.desc.nZonesActive ≤ numSocketsMax := by
    rw [hcount]
    decide
  have hopen := ApiEvent.step_socket Dpdk.reference Configuration.zero hroom hfind
  refine ⟨σ₁, _, hclose, hopen, ?_, ?_⟩
  · rw [hframe]
  · rw [hframe]

/-- A socket that is closed before its packet was sent leaves it to the next one. -/
theorem not_fresh_sockets : ¬ ∀ (dpdk : Dpdk) (config : Configuration) (zones : AllocatorZones)
    (log : List SystemEvent) (S S' : System) (domain type protocol : ℤ) (s : ℕ),
    Run (SystemEvent.step dpdk config) (systemInit zones) log S →
    (SystemEvent.api (.socket domain type protocol (.ok s))).step dpdk config S S' →
    S'.Fresh s := by
  intro h
  obtain ⟨σ, run, hbound⟩ := exists_run_bound ⟨0, 0, 0, 0⟩ (s := 0) (by decide) 7 53
  obtain ⟨m, hm⟩ : ∃ m, m = fillMbuf 0 (buildFrame Dpdk.reference Configuration.zero
      (σ.desc.slots 0) ⟨afInet, 53, 7⟩ [1, 2, 3]) := ⟨_, rfl⟩
  obtain ⟨q, hq⟩ : ∃ q, (σ.txQ 0).enqueue m = some q := by
    rw [hbound.frame]
    exact ⟨_, rfl⟩
  have hsend : (ApiEvent.sendto (some 0) (0 : ℕ) [1, 2, 3] 0 (some ⟨afInet, 53, 7⟩) sizeofSockaddrIn
      (.ok (_, _))).step Dpdk.reference Configuration.zero σ _ :=
    udpdkSendto_eq (by decide) (by rw [hbound.slot]) (by rw [hbound.slot]) (by decide) (hm ▸ hq)
  have run₁ := run.snoc hsend
  obtain ⟨σ₁, σ₂, hclose, hopen, -, htxQ⟩ := exists_reopened (Shared.Ok.run run₁)
    (by change (σ.desc.slots 0).used = true; rw [hbound.slot]) hbound.count
  have fresh := h _ _ _ _ _ { systemInit ⟨0, 0, 0, 0⟩ with shared := σ₂ } _ _ _ _
    (run_api (S := systemInit ⟨0, 0, 0, 0⟩) (run₁.snoc hclose)) ⟨σ₂, hopen, rfl⟩
  have hitems : (σ₂.txQ 0).items = [] := fresh.txQ
  rw [htxQ] at hitems
  change (Function.update σ.txQ 0 q 0).items = [] at hitems
  rw [Function.update_self, (BoundedQueue.enqueue_eq_some_iff.mp hq).2.2] at hitems
  exact absurd hitems (List.append_ne_nil_of_right_ne_nil _ (List.cons_ne_nil _ _))

/-- A socket that is closed with nothing left. -/
theorem fresh_sockets_of_close : ∃ S S' : System,
    (SystemEvent.api (.socket afInet sockDgram 0 (.ok 0))).step Dpdk.reference Configuration.zero
      S S' ∧ S'.Fresh 0 := by
  obtain ⟨σ, run, hbound⟩ := exists_run_bound ⟨0, 0, 0, 0⟩ (s := 0) (by decide) 7 53
  have ok := Shared.Ok.run run
  obtain ⟨σ₁, σ₂, hclose, hopen, -, -⟩ :=
    exists_reopened ok (by rw [hbound.slot]) hbound.count
  have quiet : ∀ e ∈ (boundLog 0 7 53).map SystemEvent.api, ∀ S, e.Clean Dpdk.reference S := by
    intro e he S
    obtain ⟨call, hcall, rfl⟩ := List.mem_map.mp he
    rcases List.mem_append.mp hcall with hsocket | hbind
    · obtain ⟨t, -, rfl⟩ := List.mem_map.mp hsocket
      trivial
    · rw [List.mem_singleton.mp hbind]
      trivial
  have clean : (SystemEvent.api (.close (0 : ℕ) (.ok ()))).Clean Dpdk.reference
      { systemInit ⟨0, 0, 0, 0⟩ with shared := σ } := by
    refine ⟨?_, ?_, rfl⟩
    · change (σ.rxQ 0).items = []
      rw [hbound.frame]
      rfl
    · change (σ.txQ 0).items = []
      rw [hbound.frame]
      rfl
  have hstep : (SystemEvent.api (.close (0 : ℕ) (.ok ()))).step Dpdk.reference Configuration.zero
      { systemInit ⟨0, 0, 0, 0⟩ with shared := σ } { systemInit ⟨0, 0, 0, 0⟩ with shared := σ₁ } :=
    ⟨σ₁, hclose, rfl⟩
  exact ⟨_, _, ⟨σ₂, hopen, rfl⟩, (fresh_sockets Dpdk.reference Configuration.zero ⟨0, 0, 0, 0⟩
    (((run_api (S := systemInit ⟨0, 0, 0, 0⟩) run).guard quiet).snoc ⟨hstep, clean⟩)
    ⟨σ₂, hopen, rfl⟩ .nil).1⟩

end Udpdk
