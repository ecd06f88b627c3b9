import Udpdk.Poller.Demux
import Udpdk.Syscall.Sockets

/-!
# Application and poller

Runs of the whole system: calls of the application and steps of the poller in any order.
The bind table and the slots change by calls alone, so what holds of them after any
sequence of calls holds here.

## Main definitions

* `SystemEvent` — a call of the application, or a step of the poller
* `PollerChange` — the effect of a step of the poller on rings and staging buffers

## Main results

* `pollerStep_spec` — every step of the poller has such an effect
* `Shared.Ok.systemRun` — slots and bind table agree in every run of the system
-/

namespace Udpdk

open Foundation

/-- A call of the application, or a step of the poller with what DPDK decided in it. -/
inductive SystemEvent
  | api (e : ApiEvent)
  | poller (choices : DpdkChoices) (happened : PollerEvent)

/-- The event takes the system from `S` to `S'`. -/
def SystemEvent.step (dpdk : Dpdk) (config : Configuration) :
    SystemEvent → System → System → Prop
  | .api e, S, S' => ∃ σ, e.step dpdk config S.shared σ ∧ S' = { S with shared := σ }
  | .poller choices happened, S, S' =>
    choices.Admissible S ∧ pollerStep dpdk choices S = .ok (happened, S')

/-! ## What transmission leaves alone -/

/-- The two states differ in the transmit table, the packets sent and the freed buffers at
most. -/
structure System.SameRx (S S' : System) : Prop where
  desc : S'.shared.desc = S.shared.desc
  mem : S'.shared.mem = S.shared.mem
  rxQ : S'.shared.rxQ = S.shared.rxQ
  txQ : S'.shared.txQ = S.shared.txQ
  rxBuffer : S'.rxBuffer = S.rxBuffer
  pc : S'.pc = S.pc

/-- The state after some buffers were given back. -/
def System.freeing (S : System) (addrs : List ℕ) : System :=
  { S with shared := { S.shared with freed := S.shared.freed ++ addrs } }

section Transmit

variable {allowed : Fault → Prop} {choices : DpdkChoices} {S S' T : System} {pkt : Mbuf}

theorem System.SameRx.refl (S : System) : S.SameRx S := ⟨rfl, rfl, rfl, rfl, rfl, rfl⟩

theorem System.SameRx.trans (h : S.SameRx S') (h' : S'.SameRx T) : S.SameRx T where
  desc := h'.desc.trans h.desc
  mem := h'.mem.trans h.mem
  rxQ := h'.rxQ.trans h.rxQ
  txQ := h'.txQ.trans h.txQ
  rxBuffer := h'.rxBuffer.trans h.rxBuffer
  pc := h'.pc.trans h.pc

theorem freeing_nil : S.freeing [] = S := by
  rw [System.freeing, List.append_nil]

theorem freeing_freeing (as bs : List ℕ) : (S.freeing as).freeing bs = S.freeing (as ++ bs) := by
  simp [System.freeing]

theorem wp_freeMbuf {m : Mbuf} {post : Unit → System → Prop} :
    Prog.wp allowed (freeMbuf (some m)) post S ↔ post () (S.freeing [m.addr]) := Iff.rfl

/-- A null pointer is not given back, all others are. -/
theorem wp_freeAll {α : Type} (f : α → Option Mbuf) (xs : List α) {post : Unit → System → Prop} :
    Prog.wp allowed (xs.forM fun x => freeMbuf (f x)) post S ↔
      post () (S.freeing ((xs.filterMap f).map Mbuf.addr)) := by
  induction xs generalizing S with
  | nil => rw [List.filterMap_nil, List.map_nil, freeing_nil]; rfl
  | cons x xs ih =>
    change Prog.wp allowed (freeMbuf (f x) >>= fun _ => xs.forM fun x => freeMbuf (f x)) _ S ↔ _
    rw [Prog.wp_bind]
    cases hx : f x with
    | none =>
      rw [List.filterMap_cons_none hx]
      exact ih
    | some m =>
      rw [List.filterMap_cons_some hx, List.map_cons, ← List.singleton_append, ← freeing_freeing]
      exact ih

theorem wp_freeAll_id (xs : List (Option Mbuf)) {post : Unit → System → Prop} :
    Prog.wp allowed (xs.forM freeMbuf) post S ↔
      post () (S.freeing ((xs.filterMap id).map Mbuf.addr)) :=
  wp_freeAll id xs

theorem stageTx_spec : Prog.wp allowed (stageTx choices pkt) (fun _ S' => S.SameRx S') S := by
  unfold stageTx
  split
  · exact ⟨rfl, rfl, rfl, rfl, rfl, rfl⟩
  · cases choices.fragments with
    | none => exact ⟨rfl, rfl, rfl, rfl, rfl, rfl⟩
    | some frags =>
      dsimp only
      rw [Prog.wp_bind, Prog.wp_update, Prog.wp_bind, wp_freeMbuf]
      cases choices.prependFails with
      | true =>
        rw [if_pos rfl, Prog.wp_bind, wp_freeAll some]
        exact ⟨rfl, rfl, rfl, rfl, rfl, rfl⟩
      | false =>
        rw [if_neg Bool.false_ne_true]
        exact ⟨rfl, rfl, rfl, rfl, rfl, rfl⟩

theorem flushTxTable_spec (txSent : ℕ) :
    Prog.wp allowed (flushTxTable txSent) (fun _ S' => S.SameRx S') S := by
  rw [flushTxTable, Prog.wp_bind, Prog.wp_read, Prog.wp_bind, Prog.wp_update, Prog.wp_bind,
    wp_freeAll_id]
  exact ⟨rfl, rfl, rfl, rfl, rfl, rfl⟩

end Transmit

/-! ## One step of the poller -/

/-- The place is in the loop over the tx rings. -/
def PollerPc.transmitting : PollerPc → Bool
  | .txSlot _ | .txDrain _ | .txBatch _ => true
  | .rx _ | .rxFlush _ => false

/-- Rings and staging buffers are the same in both states. -/
structure System.SameQueues (S S' : System) : Prop where
  rxQ : S'.shared.rxQ = S.shared.rxQ
  txQ : S'.shared.txQ = S.shared.txQ
  rxBuffer : S'.rxBuffer = S.rxBuffer

/-- The effect of a step of the poller on rings and staging buffers. -/
inductive PollerChange (dpdk : Dpdk) (choices : DpdkChoices) (S S' : System) : PollerEvent → Prop
  | transmit (same : S.SameQueues S') (pc : S.pc.transmitting) (pc' : S'.pc.transmitting) :
      PollerChange dpdk choices S S' .internal
  | take {i : ℕ} {m : Mbuf} {q : BoundedQueue Mbuf} (pc : S.pc.transmitting)
      (pc' : S'.pc.transmitting) (taken : (S.shared.txQ i).dequeue = some (m, q))
      (rxQ : S'.shared.rxQ = S.shared.rxQ) (rxBuffer : S'.rxBuffer = S.rxBuffer)
      (txQ : S'.shared.txQ = Function.update S.shared.txQ i q) :
      PollerChange dpdk choices S S' (.txTake i m)
  | burst (same : S.SameQueues S') (pc : S.pc.transmitting)
      (pc' : S'.pc = .rx choices.burst ∨ S'.pc.transmitting) :
      PollerChange dpdk choices S S' (.rxBurst choices.burst)
  | packet {m : Mbuf} {pending : List Mbuf} {delivered : List Delivery}
      (pc : S.pc = .rx (m :: pending)) (pc' : S'.pc = .rx pending)
      (rxQ : S'.shared.rxQ = S.shared.rxQ) (txQ : S'.shared.txQ = S.shared.txQ)
      (rxBuffer : ∀ s, S'.rxBuffer s = S.rxBuffer s ++ stagedFor delivered s)
      (receivers : delivered.map Prod.fst = S.receiversOf (datagramOf dpdk choices m)) :
      PollerChange dpdk choices S S' (.rxPacket m delivered)
  | burstDone (same : S.SameQueues S') (pc : S.pc = .rx []) (pc' : S'.pc = .rxFlush 0) :
      PollerChange dpdk choices S S' .internal
  | skip {i : ℕ} (hi : i < numSocketsMax) (same : S.SameQueues S') (pc : S.pc = .rxFlush i)
      (pc' : S'.pc = .rxFlush (i + 1)) (unused : (S.shared.desc.slots i).used = false) :
      PollerChange dpdk choices S S' (.rxFlush i)
  | flush {i : ℕ} (hi : i < numSocketsMax) (pc : S.pc = .rxFlush i)
      (pc' : S'.pc = .rxFlush (i + 1)) (used : (S.shared.desc.slots i).used)
      (txQ : S'.shared.txQ = S.shared.txQ)
      (rxBuffer : S'.rxBuffer = Function.update S.rxBuffer i [])
      (rxQ : S'.shared.rxQ = S.shared.rxQ ∨ ∃ q,
        (S.shared.rxQ i).enqueueBulk (S.rxBuffer i) = some q ∧
          S'.shared.rxQ = Function.update S.shared.rxQ i q) :
      PollerChange dpdk choices S S' (.rxFlush i)
  | flushDone {i : ℕ} (hi : ¬ i < numSocketsMax) (same : S.SameQueues S') (pc : S.pc = .rxFlush i)
      (pc' : S'.pc.transmitting) : PollerChange dpdk choices S S' .rxDone

section Step

variable {dpdk : Dpdk} {choices : DpdkChoices} {S S' : System} {i : ℕ}

/-- `flush_rx_queue` empties the staging buffer of the slot. -/
theorem flushRxQueue_spec {allowed : Fault → Prop} :
    Prog.wp allowed (flushRxQueue i) (fun _ S' => S'.shared.desc = S.shared.desc ∧
      S'.shared.mem = S.shared.mem ∧ S'.shared.txQ = S.shared.txQ ∧ S'.pc = S.pc ∧
      S'.rxBuffer = Function.update S.rxBuffer i [] ∧
      (S'.shared.rxQ = S.shared.rxQ ∨ ∃ q,
        (S.shared.rxQ i).enqueueBulk (S.rxBuffer i) = some q ∧
          S'.shared.rxQ = Function.update S.shared.rxQ i q)) S := by
  rw [flushRxQueue, Prog.wp_bind, Prog.wp_read]
  split
  · rename_i hempty
    have hnil : S.rxBuffer i = [] := List.isEmpty_iff.mp hempty
    refine ⟨rfl, rfl, rfl, rfl, ?_, .inl rfl⟩
    rw [← hnil, Function.update_eq_self]
  · cases hq : (S.shared.rxQ i).enqueueBulk (S.rxBuffer i) with
    | none =>
      dsimp only
      rw [Prog.wp_bind, wp_freeAll_id]
      exact ⟨rfl, rfl, rfl, rfl, rfl, .inl rfl⟩
    | some q => exact ⟨rfl, rfl, rfl, rfl, rfl, .inr ⟨q, rfl, rfl⟩⟩

/-- **One step of the poller.** On a well-formed bind table it keeps the table up to its
iterators and the slots, and has one of the effects on rings and staging buffers. -/
theorem pollerStep_spec (ok : S.shared.mem.Ok) :
    Prog.wp (fun _ => True) (pollerStep dpdk choices) (fun happened S' =>
      S'.shared.desc = S.shared.desc ∧ S.shared.mem.UpToIterators S'.shared.mem ∧
        PollerChange dpdk choices S S' happened) S := by
  have hsame : S.shared.mem.UpToIterators S.shared.mem := ⟨_, rfl, ok.rep.pools.iterators, rfl⟩
  unfold pollerStep
  rw [Prog.wp_bind, Prog.wp_read]
  cases hpc : S.pc with
  | txSlot i =>
    have htrans : S.pc.transmitting := by rw [hpc]; rfl
    dsimp only
    split
    · -- only the place changes, whether the slot is in use or not
      split
      · exact ⟨rfl, hsame, .transmit ⟨rfl, rfl, rfl⟩ htrans rfl⟩
      · exact ⟨rfl, hsame, .transmit ⟨rfl, rfl, rfl⟩ htrans rfl⟩
    · -- whatever was sent before, the burst is received now
      have hburst : ∀ T : System, S.SameRx T → Prog.wp (fun _ => True) (do
          if choices.burst.isEmpty then goto (.txSlot 0) else goto (.rx choices.burst)
          return PollerEvent.rxBurst choices.burst) (fun happened S' =>
            S'.shared.desc = S.shared.desc ∧ S.shared.mem.UpToIterators S'.shared.mem ∧
              PollerChange dpdk choices S S' happened) T := by
        intro T h
        have hmem : S.shared.mem.UpToIterators T.shared.mem := by rw [h.mem]; exact hsame
        have hqueues : ∀ pc, S.SameQueues { T with pc := pc } := fun _ => ⟨h.rxQ, h.txQ, h.rxBuffer⟩
        split
        · exact ⟨h.desc, hmem, .burst (hqueues _) htrans (.inr rfl)⟩
        · exact ⟨h.desc, hmem, .burst (hqueues _) htrans (.inl rfl)⟩
      split
      · rw [Prog.wp_bind]
        exact Prog.wp_mono (flushTxTable_spec _) fun _ T h => hburst T h
      · exact hburst S (System.SameRx.refl S)
  | txDrain i =>
    have htrans : S.pc.transmitting := by rw [hpc]; rfl
    dsimp only
    split
    · cases hq : (S.shared.txQ i).dequeue with
      | none => exact ⟨rfl, hsame, .transmit ⟨rfl, rfl, rfl⟩ htrans rfl⟩
      | some mq =>
        obtain ⟨pkt, q⟩ := mq
        dsimp only
        rw [Prog.wp_bind, wp_onShared, Prog.wp_update, Prog.wp_bind]
        apply Prog.wp_mono stageTx_spec
        intro more T h
        have hmem : S.shared.mem.UpToIterators T.shared.mem := by rw [h.mem]; exact hsame
        split
        · exact ⟨h.desc, hmem, .take htrans rfl hq h.rxQ h.rxBuffer h.txQ⟩
        · have hpc' : T.pc.transmitting := by rw [h.pc]; exact htrans
          exact ⟨h.desc, hmem, .take htrans hpc' hq h.rxQ h.rxBuffer h.txQ⟩
    · exact ⟨rfl, hsame, .transmit ⟨rfl, rfl, rfl⟩ htrans rfl⟩
  | txBatch i =>
    have htrans : S.pc.transmitting := by rw [hpc]; rfl
    dsimp only
    split
    · rw [Prog.wp_bind]
      apply Prog.wp_mono (flushTxTable_spec _)
      intro _ T h
      have hmem : S.shared.mem.UpToIterators T.shared.mem := by rw [h.mem]; exact hsame
      exact ⟨h.desc, hmem, .transmit ⟨h.rxQ, h.txQ, h.rxBuffer⟩ htrans rfl⟩
    · exact ⟨rfl, hsame, .transmit ⟨rfl, rfl, rfl⟩ htrans rfl⟩
  | rx pending =>
    cases pending with
    | nil => exact ⟨rfl, hsame, .burstDone ⟨rfl, rfl, rfl⟩ hpc rfl⟩
    | cons m pending =>
      dsimp only
      rw [Prog.wp_bind]
      apply Prog.wp_mono (reassemble_spec ok (fun _ => trivial) fun _ => trivial)
      intro delivered T h
      have hframe := h.frame
      have hdesc : T.shared.desc = S.shared.desc := by rw [hframe]
      have hrxQ : T.shared.rxQ = S.shared.rxQ := by rw [hframe]
      have htxQ : T.shared.txQ = S.shared.txQ := by rw [hframe]
      have hbuffer : ∀ s, T.rxBuffer s = S.rxBuffer s ++ stagedFor delivered s := by
        intro s
        rw [hframe]
        rfl
      exact ⟨hdesc, h.mem, .packet hpc rfl hrxQ htxQ hbuffer h.receivers⟩
  | rxFlush i =>
    dsimp only
    split
    · rename_i hi
      split
      · rename_i hused
        rw [Prog.wp_bind]
        apply Prog.wp_mono flushRxQueue_spec
        rintro _ T ⟨hdesc, hmem, htxQ, -, hbuffer, hrxQ⟩
        have hmem' : S.shared.mem.UpToIterators T.shared.mem := by rw [hmem]; exact hsame
        exact ⟨hdesc, hmem', .flush hi hpc rfl hused htxQ hbuffer hrxQ⟩
      · rename_i hunused
        exact ⟨rfl, hsame, .skip hi ⟨rfl, rfl, rfl⟩ hpc rfl (by simpa using hunused)⟩
    · rename_i hi
      exact ⟨rfl, hsame, .flushDone hi ⟨rfl, rfl, rfl⟩ hpc rfl⟩

end Step

/-! ## Runs of the system -/

section Runs

variable {dpdk : Dpdk} {config : Configuration} {zones : AllocatorZones}
  {choices : DpdkChoices} {happened : PollerEvent} {e : SystemEvent} {log : List SystemEvent}
  {S S' : System}

theorem poller_view (ok : S.shared.Ok)
    (h : (SystemEvent.poller choices happened).step dpdk config S S') :
    S'.shared.mem.Ok ∧ S'.shared.view = S.shared.view ∧
      PollerChange dpdk choices S S' happened := by
  obtain ⟨hdesc, hmem, hchange⟩ := Prog.wp_of_ok (pollerStep_spec ok.mem) h.2
  obtain ⟨ok', hbindings⟩ := hmem.ok ok.mem
  refine ⟨ok', ?_, hchange⟩
  rw [Shared.view, Shared.view, hdesc, hbindings]

theorem Shared.Ok.systemStep (ok : S.shared.Ok) (h : e.step dpdk config S S') :
    S'.shared.Ok := by
  cases e with
  | api e =>
    obtain ⟨σ, hstep, rfl⟩ := h
    exact ok.step hstep
  | poller choices happened =>
    obtain ⟨ok', hview, -⟩ := poller_view ok h
    exact ⟨ok', hview ▸ ok.sockets⟩

/-- Slots and bind table agree in every run of application and poller. -/
theorem Shared.Ok.systemRun (run : Run (SystemEvent.step dpdk config) (systemInit zones) log S) :
    S.shared.Ok :=
  run.invariant (fun _ S => S.shared.Ok) (ok_sharedInit zones) fun _ _ _ _ _ ok h =>
    ok.systemStep h

/-- A run of calls is a run of the system in which the poller does nothing. -/
theorem run_api {log : List ApiEvent} {σ : Shared}
    (run : Run (ApiEvent.step dpdk config) S.shared log σ) :
    Run (SystemEvent.step dpdk config) S (log.map .api) { S with shared := σ } := by
  induction run with
  | nil => exact .nil
  | snoc _ hstep ih =>
    rw [List.map_append]
    exact ih.snoc ⟨_, hstep, rfl⟩

end Runs

end Udpdk
