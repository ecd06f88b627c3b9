import Udpdk.Poller.Loop
import Udpdk.Poller.Delivery

/-!
# The staging buffers

`enqueue_rx_packet` stores without a check. A burst has no more packets than a staging buffer has
entries, so there is room as long as a packet is stored into a buffer at most once, and every
buffer is empty when the next burst comes. Neither is certain: two descriptors that share their
low eight bits share a buffer, and the buffer of a slot that is not in use is not flushed.

## Main definitions

* `SystemEvent.Tidy` — the step stores a packet once, and flushes what there is to flush
* `System.Staging` — how much is staged at each place of the loop

## Main results

* `rx_staging_bounded` — in runs of such steps no store is behind the end of a buffer
* `not_rx_staging_bounded` — a socket that is closed before its packets are flushed, and reopened
-/

namespace Udpdk

open Foundation

/-- The packet is stored into no buffer twice. -/
def System.StoredOnce (S : System) (packet : Option Mbuf) : Prop :=
  ∀ s, stagedCount (S.receiversOf packet) s ≤ 1

/-- A packet is not stored into one buffer twice, and a buffer that is not flushed when its slot
is visited is empty. -/
def SystemEvent.Tidy (dpdk : Dpdk) (S : System) : SystemEvent → Prop
  | .poller choices (.rxPacket m _) => S.StoredOnce (datagramOf dpdk choices m)
  | .poller _ (.rxFlush i) => (S.shared.desc.slots i).used = false → S.rxBuffer i = []
  | _ => True

/-- The packets of the burst that are still to be demultiplexed. -/
def PollerPc.toCome : PollerPc → ℕ
  | .rx pending => pending.length
  | _ => 0

/-- The buffer has been flushed since the last packet. -/
def PollerPc.Flushed (s : ℕ) : PollerPc → Prop
  | .rx _ => numSocketsMax ≤ s
  | .rxFlush i => s < i ∨ numSocketsMax ≤ s
  | _ => True

/-- Every buffer has room for what is to come, and is empty once it has been flushed. -/
structure System.Staging (S : System) : Prop where
  ok : S.shared.Ok
  room : ∀ s, (S.rxBuffer s).length + S.pc.toCome ≤ exchBufSize
  flushed : ∀ s, S.pc.Flushed s → S.rxBuffer s = []

section Step

variable {dpdk : Dpdk} {config : Configuration} {zones : AllocatorZones} {choices : DpdkChoices}
  {S S' : System} {e : SystemEvent} {m : Mbuf} {delivered : List Delivery} {pc : PollerPc} {s : ℕ}

theorem PollerPc.toCome_of_transmitting (h : pc.transmitting) : pc.toCome = 0 := by
  cases pc with
  | rx => cases h
  | rxFlush => cases h
  | _ => rfl

theorem PollerPc.flushed_of_transmitting (h : pc.transmitting) (s : ℕ) : pc.Flushed s := by
  cases pc with
  | rx => cases h
  | rxFlush => cases h
  | _ => trivial

theorem excBufIdx_lt (sockfd : ℤ) : excBufIdx sockfd < numSocketsMax := by
  have hcast := excBufIdx_cast sockfd
  have hmax : numSocketsMax = 1024 := rfl
  omega

theorem System.Staging.of_empty (ok' : S'.shared.Ok) (empty : ∀ s, S'.rxBuffer s = [])
    (burst : S'.pc.toCome ≤ exchBufSize) : S'.Staging where
  ok := ok'
  room s := by
    rw [empty, List.length_nil, Nat.zero_add]
    exact burst
  flushed s _ := empty s

theorem System.Staging.of_transmitting (h : S.Staging) (pc : S.pc.transmitting)
    (pc' : S'.pc.transmitting) (ok' : S'.shared.Ok) (same : S'.rxBuffer = S.rxBuffer) :
    S'.Staging := by
  refine .of_empty ok' (fun s => ?_) ?_
  · rw [same]
    exact h.flushed s (PollerPc.flushed_of_transmitting pc s)
  · rw [PollerPc.toCome_of_transmitting pc']
    exact Nat.zero_le _

/-- A packet that is stored into a buffer once takes up the room that was left for it. -/
theorem System.Staging.packet (h : S.Staging) {pending : List Mbuf} (pc : S.pc = .rx (m :: pending))
    (pc' : S'.pc = .rx pending) (ok' : S'.shared.Ok)
    (rxBuffer : ∀ s, S'.rxBuffer s = S.rxBuffer s ++ stagedFor delivered s)
    (once : ∀ s, (stagedFor delivered s).length ≤ 1) : S'.Staging := by
  refine ⟨ok', fun s => ?_, fun s hs => ?_⟩
  · have hroom := h.room s
    have honce := once s
    rw [pc] at hroom
    rw [pc', rxBuffer, List.length_append]
    simp only [PollerPc.toCome, List.length_cons] at hroom ⊢
    omega
  · -- no descriptor is narrowed to a slot that does not exist
    rw [pc'] at hs
    have hnone : stagedFor delivered s = [] := by
      by_contra hne
      obtain ⟨b, -, rfl⟩ := stagedFor_ne_nil_iff.mp hne
      exact absurd (excBufIdx_lt b.sockfd) (not_lt.mpr hs)
    rw [rxBuffer, hnone, List.append_nil]
    exact h.flushed s (by rw [pc]; exact hs)

/-- The visit of a slot: its buffer is empty afterwards, and no other has changed. -/
theorem System.Staging.visit (h : S.Staging) {i : ℕ} (pc : S.pc = .rxFlush i)
    (pc' : S'.pc = .rxFlush (i + 1)) (ok' : S'.shared.Ok) (visited : S'.rxBuffer i = [])
    (others : ∀ s, s ≠ i → S'.rxBuffer s = S.rxBuffer s) : S'.Staging := by
  refine ⟨ok', fun s => ?_, fun s hs => ?_⟩
  · have hroom := h.room s
    rw [pc] at hroom
    rw [pc']
    by_cases hsi : s = i
    · rw [hsi, visited]
      exact Nat.zero_le _
    · rw [others s hsi]
      exact hroom
  · rw [pc'] at hs
    by_cases hsi : s = i
    · rw [hsi, visited]
    · rw [others s hsi]
      refine h.flushed s ?_
      rw [pc]
      exact hs.imp_left fun hlt => lt_of_le_of_ne (Nat.le_of_lt_succ hlt) hsi

/-- **One step** keeps the buffers in order. -/
theorem System.Staging.step (h : S.Staging) (hstep : e.step dpdk config S S')
    (tidy : e.Tidy dpdk S) : S'.Staging := by
  have ok' := h.ok.systemStep hstep
  cases e with
  | api e =>
    obtain ⟨σ, -, rfl⟩ := hstep
    exact ⟨ok', h.room, h.flushed⟩
  | poller choices happened =>
    have adm := hstep.1
    obtain ⟨-, -, hchange⟩ := poller_view h.ok hstep
    cases hchange with
    | transmit same pc pc' => exact h.of_transmitting pc pc' ok' same.rxBuffer
    | take pc pc' _ _ rxBuffer _ => exact h.of_transmitting pc pc' ok' rxBuffer
    | burst same pc pc' =>
      rcases pc' with pc' | pc'
      · -- the buffers are empty, and the burst fits into each of them
        refine .of_empty ok' (fun s => ?_) ?_
        · rw [same.rxBuffer]
          exact h.flushed s (PollerPc.flushed_of_transmitting pc s)
        · rw [pc']
          exact adm.burst
      · exact h.of_transmitting pc pc' ok' same.rxBuffer
    | packet pc pc' _ _ rxBuffer receivers =>
      refine h.packet pc pc' ok' rxBuffer fun s => ?_
      rw [length_stagedFor, receivers]
      exact tidy s
    | burstDone same pc pc' =>
      refine ⟨ok', fun s => ?_, fun s hs => ?_⟩
      · have hroom := h.room s
        rw [pc] at hroom
        rw [pc', same.rxBuffer]
        exact hroom
      · rw [pc'] at hs
        rw [same.rxBuffer]
        exact h.flushed s (by rw [pc]; exact hs.resolve_left (Nat.not_lt_zero s))
    | skip _ same pc pc' unused =>
      refine h.visit pc pc' ok' ?_ fun s _ => ?_
      · rw [same.rxBuffer]
        exact tidy unused
      · rw [same.rxBuffer]
    | flush _ pc pc' _ _ rxBuffer _ =>
      refine h.visit pc pc' ok' ?_ fun s hs => ?_
      · rw [rxBuffer, Function.update_self]
      · rw [rxBuffer, Function.update_of_ne hs]
    | @flushDone i hi same pc pc' =>
      refine .of_empty ok' (fun s => ?_) ?_
      · rw [same.rxBuffer]
        refine h.flushed s ?_
        rw [pc]
        exact (lt_or_ge s i).imp_right (not_lt.mp hi).trans
      · rw [PollerPc.toCome_of_transmitting pc']
        exact Nat.zero_le _

theorem staging_systemInit (zones : AllocatorZones) : (systemInit zones).Staging where
  ok := ok_sharedInit zones
  room _ := Nat.zero_le _
  flushed _ _ := rfl

theorem System.Staging.hasRoom (h : S.Staging) {pending : List Mbuf} {packet : Option Mbuf}
    (hpc : S.pc = .rx (m :: pending)) (once : S.StoredOnce packet) : S.HasRoom packet := by
  intro b _
  have hroom := h.room (excBufIdx b.sockfd)
  have honce := once (excBufIdx b.sockfd)
  rw [hpc, PollerPc.toCome, List.length_cons] at hroom
  omega

end Step

/-- **The staging buffers do not overflow.** In every run in which no packet is stored into one
buffer twice and no buffer with packets is passed over, every `rx_count` is at most
`EXCH_BUF_SIZE`, and there is room for the next packet, so that no store of it leaves a buffer. -/
theorem rx_staging_bounded (dpdk : Dpdk) (config : Configuration) (zones : AllocatorZones)
    {log : List SystemEvent} {S : System}
    (run : Run (fun e S S' => e.step dpdk config S S' ∧ e.Tidy dpdk S) (systemInit zones) log S) :
    (∀ s, (S.rxBuffer s).length ≤ exchBufSize) ∧
      ∀ choices m pending, S.pc = .rx (m :: pending) → S.StoredOnce (datagramOf dpdk choices m) →
        S.HasRoom (datagramOf dpdk choices m) ∧
          reassemble dpdk choices m S ≠ .error .outOfBounds := by
  have staging : S.Staging :=
    run.state_invariant (staging_systemInit zones) fun _ _ _ inv h => inv.step h.1 h.2
  refine ⟨fun s => (Nat.le_add_right _ _).trans (staging.room s), ?_⟩
  intro choices m pending hpc once
  have hroom := staging.hasRoom hpc once
  have spec : Prog.wp (fun e => e ≠ .outOfBounds) (reassemble dpdk choices m) _ S :=
    reassemble_spec staging.ok.mem (fun _ => nofun) fun hfull => absurd hroom hfull
  exact ⟨hroom, fun hret => Prog.allowed_of_wp spec hret rfl⟩

/-! ## Bursts -/

section Bursts

variable {dpdk : Dpdk} {config : Configuration} {S : System} {m d : Mbuf} {pending : List Mbuf}
  {σ : Shared} {i : InAddr} {p : Port} {s : ℕ}

/-- A packet of a burst is delivered to its receivers. -/
theorem exists_step_rxPacket (ok : S.shared.Ok) (hpc : S.pc = .rx (m :: pending))
    (hd : datagramOf dpdk (.whole []) m = some d) (hroom : S.HasRoom (some d)) :
    ∃ delivered T,
      (SystemEvent.poller (.whole []) (.rxPacket m delivered)).step dpdk config S T ∧
      T.pc = .rx pending ∧ T.shared.Ok ∧ T.shared.view = S.shared.view ∧ T.txCount = S.txCount ∧
      ∀ s, (T.rxBuffer s).length =
        (S.rxBuffer s).length + stagedCount (S.receiversOf (some d)) s := by
  have hclone : ∀ n, (DpdkChoices.whole []).clone n ≠ none := fun n => Option.some_ne_none n
  obtain ⟨delivered, T, hret, hdemux⟩ := exists_demuxed ok hclone hd hroom
  have hstep : (SystemEvent.poller (.whole []) (.rxPacket m delivered)).step dpdk config S
      { T with pc := .rx pending } :=
    ⟨admissible_whole (Nat.zero_le _), pollerStep_rx_cons hpc hret⟩
  obtain ⟨-, hview, -⟩ := poller_view ok hstep
  have hframe := hdemux.frame
  have hcount : T.txCount = S.txCount := by rw [hframe]; rfl
  refine ⟨delivered, _, hstep, rfl, ok.systemStep hstep, hview, hcount, fun s => ?_⟩
  have hbuffer : T.rxBuffer s = S.rxBuffer s ++ stagedFor delivered s := by rw [hframe]; rfl
  change (T.rxBuffer s).length = _
  rw [hbuffer, List.length_append, length_stagedFor, hdemux.receivers]

theorem System.receiversOf_eq {S T : System} (hview : T.shared.view = S.shared.view)
    (packet : Option Mbuf) : T.receiversOf packet = S.receiversOf packet := by
  have hbindings : T.shared.mem.bindings = S.shared.mem.bindings :=
    congrArg SocketView.bindings hview
  unfold System.receiversOf
  rw [hbindings]

/-- A burst of equal packets is delivered. -/
theorem exists_run_burst (n : ℕ) (ok : S.shared.Ok) (hpc : S.pc = .rx (List.replicate n m))
    (hd : datagramOf dpdk (.whole []) m = some d)
    (hroom : ∀ s, (S.rxBuffer s).length + n * stagedCount (S.receiversOf (some d)) s ≤
      exchBufSize) : ∃ log T,
      Run (SystemEvent.step dpdk config) S log T ∧ T.pc = .rx [] ∧ T.shared.Ok ∧
      T.shared.view = S.shared.view ∧ T.txCount = S.txCount ∧
      ∀ s, (T.rxBuffer s).length =
        (S.rxBuffer s).length + n * stagedCount (S.receiversOf (some d)) s := by
  induction n generalizing S with
  | zero =>
    exact ⟨[], S, .nil, hpc, ok, rfl, rfl, fun s => by rw [Nat.zero_mul, Nat.add_zero]⟩
  | succ n ih =>
    have hfirst : S.HasRoom (some d) := fun b _ => by
      have := hroom (excBufIdx b.sockfd)
      rw [Nat.succ_mul] at this
      omega
    have hone : ∃ delivered T, (SystemEvent.poller (.whole []) (.rxPacket m delivered)).step dpdk
        config S T ∧ _ := exists_step_rxPacket ok hpc hd hfirst
    obtain ⟨delivered, T, hstep, hpc', ok', hview, hcount, hlen⟩ := hone
    have hreceivers := System.receiversOf_eq hview (some d)
    obtain ⟨log, U, run, hpcU, okU, hviewU, hcountU, hlenU⟩ := ih ok' hpc' fun s => by
      have := hroom s
      rw [Nat.succ_mul] at this
      rw [hlen, hreceivers]
      omega
    refine ⟨_, U, run.cons hstep, hpcU, okU, hviewU.trans hview, hcountU.trans hcount,
      fun s => ?_⟩
    rw [hlenU, hlen, hreceivers, Nat.succ_mul]
    omega

/-- The first socket is opened, and bound to a port that no other one is bound to. -/
theorem exists_run_openBind (ok : σ.Ok) (count : σ.desc.nZonesActive ≤ numSocketsMax)
    (free : (σ.desc.slots 0).used = false) (hnone : σ.mem.bindings p = []) : ∃ log σ',
      Run (ApiEvent.step Dpdk.reference Configuration.zero) σ log σ' ∧
      σ'.mem.bindings p = [newBinding 0 i 0] := by
  have hfind : (List.range numSocketsMax).find? (fun i => !(σ.desc.slots i).used) = some 0 := by
    rw [List.find?_range_eq_some]
    exact ⟨by rw [free]; rfl, List.mem_range.mpr (by decide),
      fun j hj => absurd hj (Nat.not_lt_zero j)⟩
  have hopen := ApiEvent.step_socket Dpdk.reference Configuration.zero count hfind
  have hslot : (σ.view.opened 0).desc.slots 0 =
      { σ.desc.slots 0 with used := true, bound := false, sockfd := (0 : ℕ), soOptions := 0 } :=
    SocketView.slot_opened_self
  have hbound : ∃ σ', (ApiEvent.bind (0 : ℕ) (some ⟨afInet, p, i⟩) sizeofSockaddrIn
      (.ok ())).step Dpdk.reference Configuration.zero
        { σ with desc := (σ.view.opened 0).desc } σ' ∧ _ :=
    ApiEvent.exists_step_bind (ok.step hopen) (by decide) (by rw [hslot]) (by rw [hslot])
      (by rw [hnone]; rfl)
  obtain ⟨σ', hbind, -, hview⟩ := hbound
  refine ⟨_, σ', (Run.single hopen).snoc hbind, ?_⟩
  rw [bindings_of_boundTo hview, hslot, hnone, insertBinding]
  split
  · rfl
  · rfl

/-- The steps up to a burst, and the calls that open and bind socket 0 when it has come. -/
def receivedLog (burst : List Mbuf) : List SystemEvent :=
  List.replicate 1024 (.poller (.whole []) .internal) ++
    [.poller (.whole burst) (.rxBurst burst)] ++ (boundLog 0 7 53).map .api

theorem exists_run_received {burst : List Mbuf} (hlen : burst.length ≤ rxMbufTableSize)
    (hne : burst ≠ []) : ∃ S, Run (SystemEvent.step Dpdk.reference Configuration.zero)
      (systemInit ⟨0, 0, 0, 0⟩) (receivedLog burst) S ∧ S.pc = .rx burst ∧ S.shared.Ok ∧
      (∀ s, S.rxBuffer s = []) ∧ S.txCount = 0 ∧ S.shared.OneBound ⟨0, 0, 0, 0⟩ 0 7 53 ∧
      S.receiversOf (some (datagramTo 7 53)) = [newBinding (0 : ℕ) 7 0] := by
  have run₀ := run_firstBurst Dpdk.reference Configuration.zero ⟨0, 0, 0, 0⟩ hlen hne
  obtain ⟨σ, run, hbound⟩ := exists_run_bound ⟨0, 0, 0, 0⟩ (s := 0) (by decide) 7 53
  have run₁ := run_api (S := { systemInit ⟨0, 0, 0, 0⟩ with pc := .rx burst }) run
  refine ⟨_, run₀.append run₁, rfl, Shared.Ok.run run, fun _ => rfl, rfl, hbound, ?_⟩
  change receivers _ (σ.mem.bindings _) = _
  rw [dstPort_datagramTo, dstAddr_datagramTo, hbound.bindings]
  rfl

/-- A burst of 128 packets is demultiplexed to socket 0, the only one. -/
theorem exists_run_full : ∃ log S, ∃ σ : Shared,
    Run (SystemEvent.step Dpdk.reference Configuration.zero) (systemInit ⟨0, 0, 0, 0⟩) log S ∧
      S.pc = .rx [] ∧ S.shared.Ok ∧ S.txCount = 0 ∧ (S.rxBuffer 0).length = exchBufSize ∧
      S.shared.view = σ.view ∧ σ.OneBound ⟨0, 0, 0, 0⟩ 0 7 53 := by
  obtain ⟨burst, hburst⟩ : ∃ burst, burst = List.replicate 128 (datagramTo 7 53) := ⟨_, rfl⟩
  have hlen : burst.length = 128 := by rw [hburst, List.length_replicate]
  obtain ⟨S, run, hpc, ok, hempty, htable, hbound, hreceivers⟩ := exists_run_received
    (by rw [hlen]; exact Nat.le_of_ble_eq_true rfl)
    (List.ne_nil_of_length_pos (by rw [hlen]; exact Nat.succ_pos _))
  have hone : ∀ s, stagedCount [newBinding (0 : ℕ) 7 0] s ≤ 1 :=
    fun _ => List.length_filter_le _ [newBinding (0 : ℕ) 7 0]
  have hfits : ∀ s, (S.rxBuffer s).length +
      128 * stagedCount (S.receiversOf (some (datagramTo 7 53))) s ≤ exchBufSize := fun s => by
    rw [hreceivers, hempty]
    exact (Nat.zero_add _).trans_le (Nat.mul_le_mul_left 128 (hone s))
  have hall : ∃ log T, Run (SystemEvent.step Dpdk.reference Configuration.zero) S log T ∧ _ :=
    exists_run_burst 128 ok (hpc.trans (by rw [hburst]))
      (datagramOf_datagramTo (.whole []) 7 53) hfits
  obtain ⟨log, T, run', hpc', ok', hview, htable', hstaged⟩ := hall
  refine ⟨_, T, _, run.append run', hpc', ok', htable'.trans htable, ?_, hview, hbound⟩
  rw [hstaged, hreceivers, hempty]
  rfl

/-- Without its only socket the system has no slot in use, and the port no binding. -/
theorem Shared.OneBound.closed {zones : AllocatorZones} (h : σ.OneBound zones 0 i p) :
    (∀ t, ((σ.view.closed 0).slot t).used = false) ∧ (σ.view.closed 0).bindings p = [] ∧
      (σ.view.closed 0).desc.nZonesActive ≤ numSocketsMax := by
  refine ⟨fun t => ?_, ?_, ?_⟩
  · rcases Nat.eq_zero_or_pos t with rfl | ht
    · rw [SocketView.slot_closed_self]
    · rw [SocketView.slot_closed_of_ne ht.ne', Shared.view_slot]
      exact h.unused t ht
  · have hlist : σ.view.bindings p = [newBinding (0 : ℕ) i 0] := h.bindings
    rw [SocketView.closed]
    dsimp only
    rw [Shared.view_slot, h.slot]
    dsimp only
    rw [if_pos rfl, Function.update_self, hlist]
    rfl
  · change (σ.desc.nZonesActive + 1) % 2 ^ 64 ≤ numSocketsMax
    rw [h.count]
    decide

/-- The socket is closed, nothing is flushed, and it is opened and bound again when the next packet
is there. -/
theorem exists_run_reopened : ∃ log S,
    Run (SystemEvent.step Dpdk.reference Configuration.zero) (systemInit ⟨0, 0, 0, 0⟩) log S ∧
      S.pc = .rx [datagramTo 7 53] ∧ S.shared.Ok ∧ (S.rxBuffer 0).length = exchBufSize ∧
      S.shared.mem.bindings 53 = [newBinding 0 7 0] := by
  obtain ⟨log, S, ρ, run, hpc, ok, htable, hfull, hviewS, hbound⟩ := exists_run_full
  have hused : (S.shared.desc.slots 0).used := by
    rw [← Shared.view_slot, hviewS, Shared.view_slot, hbound.slot]
  have hclosed : ∃ σ, (ApiEvent.close (0 : ℕ) (.ok ())).step Dpdk.reference Configuration.zero
      S.shared σ ∧ _ := ApiEvent.exists_step_close ok (by decide) hused
  obtain ⟨σ, hclose, -, hview⟩ := hclosed
  rw [hviewS] at hview
  obtain ⟨hunused, hnone, hcount⟩ := hbound.closed
  rw [← hview] at hunused hnone hcount
  have hstep : (SystemEvent.api (.close (0 : ℕ) (.ok ()))).step Dpdk.reference Configuration.zero S
      { S with shared := σ } := ⟨σ, hclose, rfl⟩
  have run₁ := run.snoc hstep
  obtain ⟨log₂, run₂⟩ := exists_run_nextBurst Dpdk.reference Configuration.zero
    (S := { S with shared := σ }) hpc htable (fun t _ => hunused t)
    (Nat.le_of_ble_eq_true rfl) (List.cons_ne_nil (datagramTo 7 53) [])
  obtain ⟨log₃, τ, run₃, hbindings'⟩ := exists_run_openBind (i := 7) (p := 53)
    (σ := { σ with freed := σ.freed ++ S.deathRow })
    (Shared.Ok.systemRun (run₁.append run₂)) hcount (hunused 0) hnone
  have run₄ := run_api (S := { S with
    pc := .rx [datagramTo 7 53]
    deathRow := []
    shared := { σ with freed := σ.freed ++ S.deathRow } }) run₃
  exact ⟨_, _, (run₁.append run₂).append run₄, rfl,
    Shared.Ok.systemRun ((run₁.append run₂).append run₄), hfull, hbindings'⟩

end Bursts

/-- A socket is closed while its staging buffer is full, and opened again: the next packet is stored
behind the end of the buffer. -/
theorem not_rx_staging_bounded : ¬ ∀ (dpdk : Dpdk) (config : Configuration) (zones : AllocatorZones)
    (log : List SystemEvent) (S : System),
    Run (SystemEvent.step dpdk config) (systemInit zones) log S →
    (∀ s, (S.rxBuffer s).length ≤ exchBufSize) ∧
      ∀ choices, choices.Admissible S → pollerStep dpdk choices S ≠ .error .outOfBounds := by
  intro h
  obtain ⟨log, S, run, hpc, ok, hfull, hbindings⟩ := exists_run_reopened
  have hroom : ¬ S.HasRoom (datagramOf Dpdk.reference (.whole []) (datagramTo 7 53)) := by
    intro hroom
    have hreceivers : S.receiversOf (some (datagramTo 7 53)) = [newBinding 0 7 0] := by
      rw [System.receiversOf, dstPort_datagramTo, dstAddr_datagramTo, hbindings]
      rfl
    rw [datagramOf_datagramTo, System.HasRoom, hreceivers] at hroom
    have hone : (S.rxBuffer 0).length + 1 ≤ exchBufSize := hroom _ (List.mem_singleton_self _)
    omega
  have hstep : pollerStep Dpdk.reference (.whole []) S = .error .outOfBounds :=
    System.Overflows.pollerStep_eq ok.mem (fun _ => Option.some_ne_none _) ⟨_, _, hpc, hroom⟩
  exact (h _ _ _ _ _ run).2 _ (admissible_whole (Nat.zero_le _)) hstep

/-- The first packet of a burst is staged, and there is room for the second. -/
theorem rx_staging_bounded_of_packet : ∃ S : System, (S.rxBuffer 0).length = 1 ∧
    (∀ s, (S.rxBuffer s).length ≤ exchBufSize) ∧ S.HasRoom (some (datagramTo 7 53)) ∧
      reassemble Dpdk.reference (.whole []) (datagramTo 7 53) S ≠ .error .outOfBounds := by
  have hd := datagramOf_datagramTo (.whole []) 7 53
  obtain ⟨burst, hburst⟩ : ∃ burst, burst = [datagramTo 7 53, datagramTo 7 53] := ⟨_, rfl⟩
  have hlen : burst.length ≤ rxMbufTableSize := by rw [hburst]; exact Nat.le_of_ble_eq_true rfl
  obtain ⟨S, run, hpc, ok, hempty, -, hbound, hreceivers⟩ := exists_run_received hlen
    (by rw [hburst]; exact List.cons_ne_nil _ _)
  have hroom : S.HasRoom (some (datagramTo 7 53)) :=
    hasRoom_of_empty hempty ((hbound.single _).trans (by decide))
  have hone : ∃ delivered T, (SystemEvent.poller (.whole []) (.rxPacket (datagramTo 7 53)
      delivered)).step Dpdk.reference Configuration.zero S T ∧ _ :=
    exists_step_rxPacket ok (hpc.trans (by rw [hburst])) hd hroom
  obtain ⟨delivered, T, hstep, hpcT, -, hview, -, hstaged⟩ := hone
  have once : S.StoredOnce (some (datagramTo 7 53)) := fun s => by
    rw [hreceivers]
    exact List.length_filter_le _ [newBinding (0 : ℕ) 7 0]
  have onceT : T.StoredOnce (some (datagramTo 7 53)) := fun s => by
    rw [System.receiversOf_eq hview]
    exact once s
  have quiet : ∀ e ∈ receivedLog burst, ∀ S, e.Tidy Dpdk.reference S := by
    intro e he S
    simp only [receivedLog, List.mem_append, List.mem_replicate, List.mem_singleton,
      List.mem_map] at he
    rcases he with (⟨-, rfl⟩ | rfl) | ⟨e, -, rfl⟩
    · trivial
    · trivial
    · trivial
  have tidy : (SystemEvent.poller (.whole []) (.rxPacket (datagramTo 7 53) delivered)).Tidy
      Dpdk.reference S := by
    rw [SystemEvent.Tidy, hd]
    exact once
  have hbounded := rx_staging_bounded Dpdk.reference Configuration.zero ⟨0, 0, 0, 0⟩
    ((run.guard quiet).snoc ⟨hstep, tidy⟩)
  have hnext := hbounded.2 (.whole []) (datagramTo 7 53) [] hpcT (by rw [hd]; exact onceT)
  rw [hd] at hnext
  refine ⟨T, ?_, hbounded.1, hnext⟩
  rw [hstaged, hempty, hreceivers]
  rfl

end Udpdk
