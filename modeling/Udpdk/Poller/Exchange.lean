import Udpdk.Foundation.StagedFifo
import Udpdk.Poller.Transmit

/-!
# One exchange slot

The packets of a socket pass through the staging buffer of its slot, the rx ring and the
receive call. For each slot that is a `Flow`, as long as the packets are put into the buffer of
that slot: `enqueue_rx_packet` takes the slot as a `uint8_t`.

## Main definitions

* `Exchange` — the system with the history of every slot
* `ExchCall` — the three operations on a slot
* `System.FlushesBatch` — all or nothing of a staged batch

## Main results

* `ExchCall.Step.flow` — an operation is a step of the flow of its slot
* `flushesBatch` — what a flush drops
* `rx_exchange_iff` — when the slots are first-in first-out
-/

namespace Udpdk

open Foundation

/-- The system, and for each slot what was enqueued for it, returned from it and dropped. -/
structure Exchange where
  system : System
  enqueued : ℕ → List Mbuf
  returned : ℕ → List Mbuf
  dropped : ℕ → List Mbuf

/-- Packets that are added to the history of a slot. -/
def record (history : ℕ → List Mbuf) (s : ℕ) (packets : List Mbuf) : ℕ → List Mbuf :=
  Function.update history s (history s ++ packets)

/-- The flow of a slot. -/
def Exchange.flow (x : Exchange) (s : ℕ) : Flow (Option Mbuf) where
  entered := (x.enqueued s).map some
  staged := x.system.rxBuffer s
  queued := (x.system.shared.rxQ s).items
  taken := (x.returned s).map some
  dropped := (x.dropped s).map some

/-- No packet is there yet; the rings may have any capacity. -/
structure Exchange.Empty (x : Exchange) : Prop where
  rings : ∀ s, (x.system.shared.rxQ s).items = []
  staged : ∀ s, x.system.rxBuffer s = []
  enqueued : ∀ s, x.enqueued s = []
  returned : ∀ s, x.returned s = []
  dropped : ∀ s, x.dropped s = []

/-- An operation on an exchange slot: `enqueue_rx_packet`, `flush_rx_queue` with the packets
that it freed, or the dequeue of `udpdk_recvfrom` with the packet that it got. -/
inductive ExchCall
  | enqueue (s : ℕ) (m : Mbuf)
  | flush (s : ℕ) (freed : List Mbuf)
  | dequeue (s : ℕ) (m : Mbuf)

namespace ExchCall

/-- The operation. A slot is enqueued to at most `EXCH_BUF_SIZE` times between two flushes. -/
inductive Step : ExchCall → Exchange → Exchange → Prop
  | enqueue {x : Exchange} {s : ℕ} {m : Mbuf} {S : System} (hs : s < numSocketsMax)
      (room : (x.system.rxBuffer s).length < exchBufSize)
      (ret : enqueueRxPacket s (some m) x.system = .ok ((), S)) :
      Step (.enqueue s m) x { x with system := S, enqueued := record x.enqueued s [m] }
  | flush {x : Exchange} {s : ℕ} {freed : List Mbuf} {S : System} (hs : s < numSocketsMax)
      (ret : flushRxQueue s x.system = .ok ((), S))
      (batch : (freed.map some).Sublist (x.system.rxBuffer s))
      (back : S.shared.freed = x.system.shared.freed ++ freed.map Mbuf.addr) :
      Step (.flush s freed) x { x with system := S, dropped := record x.dropped s freed }
  | dequeue {x : Exchange} {s : ℕ} {m : Mbuf} {q : BoundedQueue (Option Mbuf)}
      (hs : s < numSocketsMax) (ret : (x.system.shared.rxQ s).dequeue = some (some m, q)) :
      Step (.dequeue s m) x { x with
        system := { x.system with
          shared := { x.system.shared with rxQ := Function.update x.system.shared.rxQ s q } }
        returned := record x.returned s [m] }

/-- The slot that the operation is meant for. -/
def slot : ExchCall → ℕ
  | .enqueue s _ | .flush s _ | .dequeue s _ => s

/-- The operation gets to the slot that it is meant for. -/
def reaches : ExchCall → Bool
  | .enqueue s _ => s < 256
  | .flush .. | .dequeue .. => true

end ExchCall

/-! ## A flush -/

/-- A flush empties the staging buffer. If the ring has room for the batch, the batch goes into
it and nothing is freed; otherwise exactly the batch is freed and the ring stays as it is. -/
structure System.FlushesBatch (S T : System) (s : ℕ) (freed : List Mbuf) : Prop where
  staged : T.rxBuffer = Function.update S.rxBuffer s []
  room : (S.shared.rxQ s).items.length + (S.rxBuffer s).length ≤ (S.shared.rxQ s).capacity →
    freed = [] ∧ T.shared.freed = S.shared.freed ∧ ∃ q : BoundedQueue (Option Mbuf),
      q.capacity = (S.shared.rxQ s).capacity ∧
      q.items = (S.shared.rxQ s).items ++ S.rxBuffer s ∧
      T.shared.rxQ = Function.update S.shared.rxQ s q
  full : (S.shared.rxQ s).capacity < (S.shared.rxQ s).items.length + (S.rxBuffer s).length →
    freed.map some = S.rxBuffer s ∧
      T.shared.freed = S.shared.freed ++ freed.map Mbuf.addr ∧ T.shared.rxQ = S.shared.rxQ

section Flush

variable {allowed : Fault → Prop} {S T : System} {s : ℕ} {packets freed : List Mbuf}

/-- What `flush_rx_queue` does with a batch of packets. -/
theorem flushRxQueue_batch (hbatch : S.rxBuffer s = packets.map some) :
    Prog.wp allowed (flushRxQueue s) (fun _ T =>
      T.rxBuffer = Function.update S.rxBuffer s [] ∧
      ((∃ q, (S.shared.rxQ s).enqueueBulk (S.rxBuffer s) = some q ∧
          T.shared.rxQ = Function.update S.shared.rxQ s q ∧ T.shared.freed = S.shared.freed) ∨
        ((S.shared.rxQ s).enqueueBulk (S.rxBuffer s) = none ∧ T.shared.rxQ = S.shared.rxQ ∧
          T.shared.freed = S.shared.freed ++ packets.map Mbuf.addr))) S := by
  rw [flushRxQueue, Prog.wp_bind, Prog.wp_read]
  split
  · rename_i hempty
    have hnil : S.rxBuffer s = [] := List.isEmpty_iff.mp hempty
    have hsame : (S.shared.rxQ s).enqueueBulk [] = some (S.shared.rxQ s) := by
      rw [BoundedQueue.enqueueBulk_eq_some_iff, List.append_nil]
      exact ⟨(S.shared.rxQ s).bounded, rfl, rfl⟩
    rw [hnil]
    refine ⟨by rw [← hnil, Function.update_eq_self], .inl ⟨_, hsame, ?_, rfl⟩⟩
    rw [Function.update_eq_self]
  · cases hq : (S.shared.rxQ s).enqueueBulk (S.rxBuffer s) with
    | none =>
      dsimp only
      rw [Prog.wp_bind]
      apply (wp_freeAll_id (S.rxBuffer s)).mpr
      refine ⟨rfl, .inr ⟨rfl, rfl, ?_⟩⟩
      have hall : (S.rxBuffer s).filterMap id = packets := by
        rw [hbatch, List.filterMap_map]
        exact List.filterMap_some
      rw [hall]
      rfl
    | some q => exact ⟨rfl, .inl ⟨q, rfl, rfl, rfl⟩⟩

/-- **All or nothing.** -/
theorem flushesBatch (hbatch : S.rxBuffer s = packets.map some)
    (ret : flushRxQueue s S = .ok ((), T)) (hsub : (freed.map some).Sublist (S.rxBuffer s))
    (back : T.shared.freed = S.shared.freed ++ freed.map Mbuf.addr) :
    S.FlushesBatch T s freed := by
  have spec : Prog.wp (fun _ => False) (flushRxQueue s) _ S := flushRxQueue_batch hbatch
  obtain ⟨hstaged, ⟨q, hq, hring, hfreed⟩ | ⟨hq, hring, hfreed⟩⟩ := Prog.wp_of_ok spec ret
  · obtain ⟨hroom, hcap, hitems⟩ := BoundedQueue.enqueueBulk_eq_some_iff.mp hq
    have hnil : freed = [] := by
      rw [hfreed] at back
      have hlen := congrArg List.length back
      rw [List.length_append, List.length_map] at hlen
      exact List.length_eq_zero_iff.mp (by omega)
    exact ⟨hstaged, fun _ => ⟨hnil, hfreed, q, hcap, hitems, hring⟩, fun hfull => by omega⟩
  · have hfull := BoundedQueue.enqueueBulk_eq_none_iff.mp hq
    -- as much was given back as was staged, so all of it was freed
    have hall : freed.map some = S.rxBuffer s := by
      apply hsub.eq_of_length
      rw [hfreed] at back
      have hlen := congrArg List.length (List.append_cancel_left back)
      rw [List.length_map, List.length_map] at hlen
      rw [List.length_map, hbatch, List.length_map, hlen]
    exact ⟨hstaged, fun hroom => by omega, fun _ => ⟨hall, back, hring⟩⟩

end Flush

/-! ## The flow of a slot -/

/-- What is staged are packets, and no null pointers. -/
def Exchange.Packets (x : Exchange) : Prop :=
  ∀ s, ∃ packets : List Mbuf, x.system.rxBuffer s = packets.map some

section Step

variable {x y : Exchange} {c : ExchCall} {s t : ℕ} {history : ℕ → List Mbuf} {added : List Mbuf}

@[simp] theorem record_self : record history s added s = history s ++ added :=
  Function.update_self ..

@[simp] theorem record_of_ne (h : t ≠ s) : record history s added t = history t :=
  Function.update_of_ne h ..

theorem Exchange.Empty.flow (h : x.Empty) (s : ℕ) : x.flow s = .fresh := by
  ext1
  · exact congrArg (List.map some) (h.enqueued s)
  · exact h.staged s
  · exact h.rings s
  · exact congrArg (List.map some) (h.returned s)
  · exact congrArg (List.map some) (h.dropped s)

theorem Exchange.Empty.packets (h : x.Empty) : x.Packets := fun s => ⟨[], h.staged s⟩

theorem ExchCall.Step.packets (h : c.Step x y) (hx : x.Packets) : y.Packets := by
  intro t
  cases h with
  | @enqueue _ s m S hs room ret =>
    obtain ⟨-, rfl⟩ := enqueueRxPacket_eq_ok ret
    obtain ⟨packets, hpackets⟩ := hx t
    by_cases ht : t = excBufIdx s
    · refine ⟨packets ++ [m], ?_⟩
      rw [List.map_append, ← hpackets, ht]
      exact Function.update_self ..
    · exact ⟨packets, (Function.update_of_ne ht ..).trans hpackets⟩
  | @flush _ s freed S hs ret batch back =>
    obtain ⟨packets, hpackets⟩ := hx s
    have hstaged := (flushesBatch hpackets ret batch back).staged
    by_cases ht : t = s
    · refine ⟨[], ?_⟩
      change S.rxBuffer t = _
      rw [hstaged, ht]
      exact Function.update_self ..
    · obtain ⟨packets, hpackets⟩ := hx t
      refine ⟨packets, ?_⟩
      change S.rxBuffer t = _
      rw [hstaged, Function.update_of_ne ht]
      exact hpackets
  | dequeue => exact hx t

/-- An operation that gets to its slot is a step of the flow of that slot. -/
theorem ExchCall.Step.flow_slot (h : c.Step x y) (hx : x.Packets) (reaches : c.reaches) :
    (x.flow c.slot).Step (y.flow c.slot) := by
  cases h with
  | @enqueue _ s m S hs room ret =>
    obtain ⟨-, rfl⟩ := enqueueRxPacket_eq_ok ret
    -- the slot number survives the narrowing, so the packet goes to the buffer of its slot
    have hidx : excBufIdx s = s := excBufIdx_eq_self_iff.mpr (of_decide_eq_true reaches)
    have hstaged : Function.update x.system.rxBuffer (excBufIdx s)
        (x.system.rxBuffer (excBufIdx s) ++ [some m]) s = x.system.rxBuffer s ++ [some m] := by
      rw [hidx]
      exact Function.update_self ..
    refine Flow.Step.of_eq (.put (some m)) ?_
    ext1
    · simp [Exchange.flow, slot]
    · exact hstaged
    · rfl
    · rfl
    · rfl
  | @flush _ s freed S hs ret batch back =>
    obtain ⟨packets, hpackets⟩ := hx s
    have hbatch := flushesBatch hpackets ret batch back
    have hstaged : S.rxBuffer s = [] := by
      rw [hbatch.staged]
      exact Function.update_self ..
    -- the batch is committed to the ring or dropped as a whole
    by_cases hroom : (x.system.shared.rxQ s).items.length + (x.system.rxBuffer s).length ≤
        (x.system.shared.rxQ s).capacity
    · obtain ⟨rfl, -, q, -, hitems, hring⟩ := hbatch.room hroom
      refine Flow.Step.of_eq .commit ?_
      ext1
      · rfl
      · exact hstaged
      · change (S.shared.rxQ s).items = _
        rw [hring, Function.update_self]
        exact hitems
      · rfl
      · simp [Exchange.flow, slot]
    · obtain ⟨hall, -, hring⟩ := hbatch.full (not_le.mp hroom)
      refine Flow.Step.of_eq .drop ?_
      ext1
      · rfl
      · exact hstaged
      · exact congrArg (fun ring => (ring s).items) hring
      · rfl
      · simp [Exchange.flow, slot, hall]
  | @dequeue _ s m q hs ret =>
    obtain ⟨-, hitems⟩ := BoundedQueue.dequeue_eq_some_iff.mp ret
    refine Flow.Step.of_eq (.take hitems) ?_
    ext1
    · rfl
    · rfl
    · simp [Exchange.flow, slot]
    · simp [Exchange.flow, slot]
    · rfl

/-- The flows of the other slots stay as they are. -/
theorem ExchCall.Step.flow_of_ne (h : c.Step x y) (hx : x.Packets) (reaches : c.reaches)
    (ht : t ≠ c.slot) : y.flow t = x.flow t := by
  cases h with
  | @enqueue _ s m S hs room ret =>
    obtain ⟨-, rfl⟩ := enqueueRxPacket_eq_ok ret
    have hidx : excBufIdx s = s := excBufIdx_eq_self_iff.mpr (of_decide_eq_true reaches)
    ext1
    · exact congrArg (List.map some) (record_of_ne ht)
    · exact Function.update_of_ne (hidx.symm ▸ ht) ..
    · rfl
    · rfl
    · rfl
  | @flush _ s freed S hs ret batch back =>
    obtain ⟨packets, hpackets⟩ := hx s
    have hbatch := flushesBatch hpackets ret batch back
    ext1
    · rfl
    · change S.rxBuffer t = _
      rw [hbatch.staged]
      exact Function.update_of_ne ht ..
    · change (S.shared.rxQ t).items = _
      by_cases hroom : (x.system.shared.rxQ s).items.length + (x.system.rxBuffer s).length ≤
          (x.system.shared.rxQ s).capacity
      · obtain ⟨-, -, q, -, -, hring⟩ := hbatch.room hroom
        have hts : t ≠ s := ht
        rw [hring, Function.update_of_ne hts]
        rfl
      · rw [(hbatch.full (not_le.mp hroom)).2.2]
        rfl
    · rfl
    · exact congrArg (List.map some) (record_of_ne ht)
  | @dequeue _ s m q hs ret =>
    ext1
    · rfl
    · rfl
    · exact congrArg BoundedQueue.items (Function.update_of_ne ht ..)
    · exact congrArg (List.map some) (record_of_ne ht)
    · rfl

/-- A packet that is put into the buffer of another slot is missing in its own. -/
theorem ExchCall.Step.not_accounted (h : c.Step x y) (accounted : (x.flow c.slot).Accounted)
    (strays : c.reaches = false) : ¬ (y.flow c.slot).Accounted := by
  intro accounted'
  cases h with
  | flush => cases strays
  | dequeue => cases strays
  | @enqueue _ s m S hs room ret =>
    obtain ⟨-, rfl⟩ := enqueueRxPacket_eq_ok ret
    have hidx : s ≠ excBufIdx s := fun h =>
      absurd (excBufIdx_eq_self_iff.mp h.symm) (of_decide_eq_false strays)
    have hstaged : Function.update x.system.rxBuffer (excBufIdx s)
        (x.system.rxBuffer (excBufIdx s) ++ [some m]) s = x.system.rxBuffer s :=
      Function.update_of_ne hidx ..
    have hlen : ((record x.enqueued s [m] s).map some).length = ((x.returned s).map some).length +
        (x.system.shared.rxQ s).items.length +
        (Function.update x.system.rxBuffer (excBufIdx s)
          (x.system.rxBuffer (excBufIdx s) ++ [some m]) s).length +
        ((x.dropped s).map some).length := accounted'.length
    have hlen₀ : ((x.enqueued s).map some).length = ((x.returned s).map some).length +
        (x.system.shared.rxQ s).items.length + (x.system.rxBuffer s).length +
        ((x.dropped s).map some).length := accounted.length
    have hone : ([m].map some).length = 1 := rfl
    rw [hstaged, record_self, List.map_append, List.length_append] at hlen
    omega

end Step

/-! ## Runs -/

section Runs

variable {x y z : Exchange} {c : ExchCall} {log : List ExchCall} {s : ℕ}

theorem Exchange.Empty.packets_run (start : x.Empty) (run : Run ExchCall.Step x log y) :
    y.Packets :=
  run.state_invariant start.packets fun _ _ _ hx h => h.packets hx

/-- As long as every packet gets to its slot, all slots are first-in first-out. -/
theorem Exchange.Empty.flows_run (start : x.Empty) (run : Run ExchCall.Step x log y)
    (reaches : ∀ c ∈ log, c.reaches) (s : ℕ) : (y.flow s).Ordered ∧ (y.flow s).Accounted := by
  -- an operation is a step of the flow of its slot, and keeps the flows of the others
  induction run with
  | nil =>
    rw [start.flow]
    exact ⟨Flow.ordered_fresh, Flow.accounted_fresh⟩
  | @snoc y z before c run hstep ih =>
    obtain ⟨ordered, accounted⟩ := ih fun c hc => reaches c (List.mem_append_left _ hc)
    have hpackets := start.packets_run run
    have hc := reaches c (List.mem_append_right _ (List.mem_singleton_self c))
    by_cases hs : s = c.slot
    · have hflow := hstep.flow_slot hpackets hc
      rw [hs] at ordered accounted ⊢
      exact ⟨hflow.ordered ordered, hflow.accounted accounted⟩
    · rw [hstep.flow_of_ne hpackets hc hs]
      exact ⟨ordered, accounted⟩

end Runs

/-- **The exchange of a slot.** In a run of enqueues, flushes and dequeues on rings of any
capacity, every slot is first-in first-out and loses nothing but what a flush drops, in every
state, exactly when nothing is enqueued for a slot from 256 on; and a flush drops the whole
batch if the ring has no room for it, and nothing otherwise. -/
theorem rx_exchange_iff {x y : Exchange} {log : List ExchCall} (start : x.Empty)
    (run : Run ExchCall.Step x log y) :
    (Run.Always ExchCall.Step (fun z => ∀ s, (z.flow s).Ordered ∧ (z.flow s).Accounted) x log y ↔
      ∀ c ∈ log, c.reaches) ∧
    ∀ s freed z, (ExchCall.flush s freed).Step y z → y.system.FlushesBatch z.system s freed := by
  constructor
  · have hall : (∀ c ∈ log, c.reaches) ↔ ∀ c ∈ log, (!c.reaches) = false := by simp
    rw [hall]
    apply Run.always_iff _ _ run
    · intro log z run hgood s
      exact start.flows_run run (by simpa using hgood) s
    · intro log z c u run hgood hbad hstep flows
      have accounted := (start.flows_run run (by simpa using hgood) c.slot).2
      exact hstep.not_accounted accounted (by simpa using hbad) (flows c.slot).2
  · intro s freed z hstep
    obtain ⟨packets, hpackets⟩ := start.packets_run run s
    cases hstep with
    | flush hs ret batch back => exact flushesBatch hpackets ret batch back

theorem ExchCall.exists_step_of_recvfrom {x : Exchange} {σ : Shared} {sockfd flags : ℤ}
    {bufNull srcAddr : Bool} {len : ℕ} {addrlen : Option ℕ} {m : Mbuf} {received : Received}
    (h : udpdkRecvfrom sockfd bufNull len flags srcAddr addrlen x.system.shared =
      .ok (.ok (m, received), σ)) :
    ∃ (s : ℕ) (y : Exchange), sockfd = s ∧ (ExchCall.dequeue s m).Step x y ∧
      y.system.shared.rxQ = σ.rxQ := by
  have spec : Prog.wp (fun _ => True)
      (udpdkRecvfrom sockfd bufNull len flags srcAddr addrlen) _ x.system.shared :=
    udpdkRecvfrom_spec sockfd bufNull len flags srcAddr addrlen (fun _ => trivial) trivial trivial
  obtain ⟨s, hs, hfd, -, q, hq, -, rfl⟩ := Prog.wp_of_ok spec h
  exact ⟨s, _, hfd, .dequeue hs hq, rfl⟩

/-- Both processes have started, and nothing was exchanged. -/
def exchangeInit (zones : AllocatorZones) : Exchange where
  system := systemInit zones
  enqueued _ := []
  returned _ := []
  dropped _ := []

theorem empty_exchangeInit (zones : AllocatorZones) : (exchangeInit zones).Empty :=
  ⟨fun _ => rfl, fun _ => rfl, fun _ => rfl, fun _ => rfl, fun _ => rfl⟩

/-- A packet goes through slot 255. -/
theorem rx_exchange_of_packet : ∃ y : Exchange,
    Run ExchCall.Step (exchangeInit ⟨0, 0, 0, 0⟩)
      [.enqueue 255 (fillMbuf 0 []), .flush 255 [], .dequeue 255 (fillMbuf 0 [])] y ∧
      y.returned 255 = [fillMbuf 0 []] ∧ (y.flow 255).Ordered ∧ (y.flow 255).Accounted := by
  obtain ⟨y, run, hreturned⟩ : ∃ y : Exchange, Run ExchCall.Step (exchangeInit ⟨0, 0, 0, 0⟩)
      [.enqueue 255 (fillMbuf 0 []), .flush 255 [], .dequeue 255 (fillMbuf 0 [])] y ∧
      y.returned 255 = [fillMbuf 0 []] := by
    apply Exists.intro
    apply And.intro
    · apply Run.cons (ExchCall.Step.enqueue (by decide) (by decide) rfl)
      have hnone : ∀ batch, (([] : List Mbuf).map some).Sublist batch := List.nil_sublist
      apply Run.cons (ExchCall.Step.flush (by decide) rfl (hnone _) rfl)
      exact .single (ExchCall.Step.dequeue (by decide) rfl)
    · rfl
  have always := (rx_exchange_iff (empty_exchangeInit ⟨0, 0, 0, 0⟩) run).1.mpr (by decide)
  obtain ⟨ordered, accounted⟩ := always _ [] y (List.append_nil _).symm run .nil 255
  exact ⟨y, run, hreturned, ordered, accounted⟩

/-- A packet for slot 256 is nowhere in that slot. -/
theorem not_rx_exchange : ¬ ∀ (x y : Exchange) (log : List ExchCall), x.Empty →
    Run ExchCall.Step x log y → ∀ s, (y.flow s).Ordered ∧ (y.flow s).Accounted := by
  intro h
  have hstep : (ExchCall.enqueue 256 (fillMbuf 0 [])).Step (exchangeInit ⟨0, 0, 0, 0⟩) _ :=
    .enqueue (by decide) (by decide) rfl
  have flows := h _ _ _ (empty_exchangeInit ⟨0, 0, 0, 0⟩) (.single hstep) 256
  have accounted : ((exchangeInit ⟨0, 0, 0, 0⟩).flow 256).Accounted := by
    rw [(empty_exchangeInit ⟨0, 0, 0, 0⟩).flow]
    exact Flow.accounted_fresh
  exact hstep.not_accounted accounted rfl flows.2

end Udpdk
