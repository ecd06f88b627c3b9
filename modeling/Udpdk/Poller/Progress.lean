import Mathlib.Algebra.BigOperators.Group.Finset.Piecewise
import Mathlib.Algebra.BigOperators.Ring.List
import Udpdk.Poller.Staging
import Udpdk.Poller.Transmit
import Udpdk.Syscall.Send

/-!
# Progress of the poller

`poller_body` is one loop, and an iteration of it visits every slot twice. Nothing in it waits:
an inner loop ends with the ring that it drains, or with a full batch. So an iteration ends, and
a slot that stays in use gets a packet out of its ring in each of them.

## Main definitions

* `PollerMove` — where a step leads from and to
* `SystemEvent.endsIteration` — the step ends an iteration of the loop
* `System.stepsLeft` — how far the end of the iteration is, with the packets still in a ring
* `System.past` — the poller is past the slot in this iteration

## Main results

* `poller_steps_accounted` — every step belongs to an iteration, or to a packet
* `iteration_terminates` — the poller on its own gets to the end of the iteration
* `no_tx_starvation` — a packet waits for as many iterations as there are packets before it
-/

namespace Udpdk

open Foundation

/-! ## Where a step leads -/

/-- The places before and after a step of the poller. -/
inductive PollerMove (choices : DpdkChoices) (S S' : System) : PollerEvent → Prop
  | skip {i : ℕ} (hi : i < numSocketsMax) (pc : S.pc = .txSlot i)
      (unused : (S.shared.desc.slots i).used = false) (pc' : S'.pc = .txSlot (i + 1)) :
      PollerMove choices S S' .internal
  | enter {i : ℕ} (hi : i < numSocketsMax) (pc : S.pc = .txSlot i) (pc' : S'.pc = .txDrain i)
      (count : S'.txCount = S.txCount) : PollerMove choices S S' .internal
  | take {i : ℕ} {m : Mbuf} (pc : S.pc = .txDrain i)
      (pc' : S'.pc = .txDrain i ∨ S'.pc = .txBatch i) : PollerMove choices S S' (.txTake i m)
  | leave {i : ℕ} (pc : S.pc = .txDrain i)
      (drained : (S.shared.txQ i).items = [] ∨ burstSize ≤ S.txCount) (pc' : S'.pc = .txBatch i) :
      PollerMove choices S S' .internal
  | next {i : ℕ} (pc : S.pc = .txBatch i) (pc' : S'.pc = .txSlot (i + 1)) :
      PollerMove choices S S' .internal
  | receive {i : ℕ} (hi : ¬ i < numSocketsMax) (pc : S.pc = .txSlot i)
      (pc' : S'.pc = if choices.burst.isEmpty then .txSlot 0 else .rx choices.burst) :
      PollerMove choices S S' (.rxBurst choices.burst)
  | packet {m : Mbuf} {pending : List Mbuf} {delivered : List Delivery}
      (pc : S.pc = .rx (m :: pending)) (pc' : S'.pc = .rx pending) :
      PollerMove choices S S' (.rxPacket m delivered)
  | received (pc : S.pc = .rx []) (pc' : S'.pc = .rxFlush 0) : PollerMove choices S S' .internal
  | visit {i : ℕ} (hi : i < numSocketsMax) (pc : S.pc = .rxFlush i)
      (pc' : S'.pc = .rxFlush (i + 1)) : PollerMove choices S S' (.rxFlush i)
  | done {i : ℕ} (hi : ¬ i < numSocketsMax) (pc : S.pc = .rxFlush i) (pc' : S'.pc = .txSlot 0) :
      PollerMove choices S S' .rxDone

section Move

variable {allowed : Fault → Prop} {dpdk : Dpdk} {choices : DpdkChoices} {S : System}

theorem burst_move {T : System} {i : ℕ} (hi : ¬ i < numSocketsMax) (hpc : S.pc = .txSlot i) :
    Prog.wp allowed (do
      if choices.burst.isEmpty then goto (.txSlot 0) else goto (.rx choices.burst)
      return PollerEvent.rxBurst choices.burst) (fun happened S' =>
        PollerMove choices S S' happened) T := by
  split
  · rename_i hempty
    exact .receive hi hpc (if_pos hempty).symm
  · rename_i hsome
    exact .receive hi hpc (if_neg hsome).symm

/-- **One step of the poller**, from place to place. Only a clone that fails, or a staging buffer
that is full, can stop it. -/
theorem pollerStep_move (ok : S.shared.mem.Ok)
    (hclone : (∃ n, choices.clone n = none) → allowed .nullDeref)
    (hroom : S.Overflows dpdk choices → allowed .outOfBounds) :
    Prog.wp allowed (pollerStep dpdk choices)
      (fun happened S' => PollerMove choices S S' happened) S := by
  unfold pollerStep
  rw [Prog.wp_bind, Prog.wp_read]
  cases hpc : S.pc with
  | txSlot i =>
    dsimp only
    split
    · rename_i hi
      split
      · exact .enter hi hpc rfl rfl
      · rename_i hunused
        exact .skip hi hpc (by simpa using hunused) rfl
    · rename_i hi
      split
      · rw [Prog.wp_bind]
        exact Prog.wp_mono (flushTxTable_spec _) fun _ T _ => burst_move hi hpc
      · exact burst_move hi hpc
  | txDrain i =>
    dsimp only
    split
    · cases hq : (S.shared.txQ i).dequeue with
      | none => exact .leave hpc (.inl (BoundedQueue.dequeue_eq_none_iff.mp hq)) rfl
      | some mq =>
        obtain ⟨pkt, q⟩ := mq
        dsimp only
        rw [Prog.wp_bind, wp_onShared, Prog.wp_update, Prog.wp_bind]
        apply Prog.wp_mono stageTx_spec
        intro more T h
        have hpcT : T.pc = .txDrain i := h.pc.trans hpc
        split
        · exact .take hpc (.inr rfl)
        · exact .take hpc (.inl hpcT)
    · rename_i hfull
      exact .leave hpc (.inr (not_lt.mp hfull)) rfl
  | txBatch i =>
    dsimp only
    split
    · rw [Prog.wp_bind]
      exact Prog.wp_mono (flushTxTable_spec _) fun _ T _ => .next hpc rfl
    · exact .next hpc rfl
  | rx pending =>
    cases pending with
    | nil => exact .received hpc rfl
    | cons m pending =>
      dsimp only
      rw [Prog.wp_bind]
      exact Prog.wp_mono (reassemble_spec ok hclone fun hfull => hroom ⟨m, pending, hpc, hfull⟩)
        fun _ T _ => .packet hpc rfl
  | rxFlush i =>
    dsimp only
    split
    · rename_i hi
      split
      · rw [Prog.wp_bind]
        exact Prog.wp_mono flushRxQueue_spec fun _ T _ => .visit hi hpc rfl
      · exact .visit hi hpc rfl
    · rename_i hi
      exact .done hi hpc rfl

theorem move_of_pollerStep {happened : PollerEvent} {S' : System} (ok : S.shared.mem.Ok)
    (h : pollerStep dpdk choices S = .ok (happened, S')) : PollerMove choices S S' happened := by
  have spec : Prog.wp (fun _ => True) (pollerStep dpdk choices)
      (fun happened S' => PollerMove choices S S' happened) S :=
    pollerStep_move ok (fun _ => trivial) fun _ => trivial
  have hmove := Prog.wp_of_ok spec h
  exact hmove

end Move

/-! ## Iterations -/

/-- The loop of `poller_body` is at its test again. -/
def PollerEvent.endsIteration : PollerEvent → Bool
  | .rxBurst [] | .rxDone => true
  | _ => false

namespace SystemEvent

/-- A step of the poller. -/
def isPoller : SystemEvent → Bool
  | .api _ => false
  | .poller .. => true

/-- A step of the poller that ends an iteration. -/
def endsIteration : SystemEvent → Bool
  | .api _ => false
  | .poller _ happened => happened.endsIteration

/-- A call that puts a packet into a ring. -/
def sends : SystemEvent → Bool
  | .api (.sendto _ _ _ _ _ _ (.ok _)) => true
  | _ => false

/-- The packet that a call puts into the ring of slot `s`. -/
def submittedTo (s : ℕ) : SystemEvent → List Mbuf
  | .api (.sendto _ sockfd _ _ _ _ (.ok (m, _))) => if sockfd.toNat = s then [m] else []
  | _ => []

/-- The packet that the poller takes out of the ring of slot `s`. -/
def takenFrom (s : ℕ) : SystemEvent → List Mbuf
  | .poller _ (.txTake t m) => if t = s then [m] else []
  | _ => []

end SystemEvent

/-- The steps of an iteration in which every ring is empty. -/
def iterationSteps : ℕ := 3 * numSocketsMax + 1 + (rxMbufTableSize + 1) + (numSocketsMax + 1)

/-- The steps from here to the end of the iteration, but for those that take a packet. -/
def PollerPc.stepsLeft : PollerPc → ℕ
  | .txSlot i => iterationSteps - 3 * min i numSocketsMax
  | .txDrain i => iterationSteps - 3 * min (i + 1) numSocketsMax + 2
  | .txBatch i => iterationSteps - 3 * min (i + 1) numSocketsMax + 1
  | .rx pending => pending.length + 1 + (numSocketsMax + 1)
  | .rxFlush i => numSocketsMax - i + 1

/-- The packets in the tx rings of all slots. -/
def System.queued (S : System) : ℕ :=
  ∑ s ∈ Finset.range numSocketsMax, (S.shared.txQ s).items.length

/-- The steps to the end of the iteration, if nothing more is sent. -/
def System.stepsLeft (S : System) : ℕ := S.pc.stepsLeft + S.queued

theorem System.one_le_stepsLeft (S : System) : 1 ≤ S.stepsLeft := by
  have hmax : numSocketsMax = 1024 := rfl
  have hsteps : iterationSteps = 4227 := rfl
  unfold System.stepsLeft
  cases S.pc <;> dsimp only [PollerPc.stepsLeft] <;> omega

section Law

variable {dpdk : Dpdk} {config : Configuration} {zones : AllocatorZones} {choices : DpdkChoices}
  {S S' : System} {e : SystemEvent} {happened : PollerEvent} {log : List SystemEvent}

theorem System.TxOk.step (ok : S.shared.Ok) (tx : S.TxOk) (h : e.step dpdk config S S') :
    S'.TxOk := by
  cases e with
  | api e =>
    obtain ⟨σ, -, rfl⟩ := h
    exact ⟨tx.count, tx.place, tx.table⟩
  | poller choices happened =>
    exact (Prog.wp_of_ok (pollerStep_tx ok.mem tx h.1) h.2).2

/-- In every run, slots, bind table and tx table are in order. -/
theorem ok_of_run (run : Run (SystemEvent.step dpdk config) (systemInit zones) log S) :
    S.shared.Ok ∧ S.TxOk := by
  refine run.invariant (fun _ S => S.shared.Ok ∧ S.TxOk) ?_ ?_
  · exact ⟨ok_sharedInit zones, System.TxOk.of_staged [] (Nat.zero_le _) trivial rfl⟩
  · exact fun _ _ _ _ _ ⟨ok, tx⟩ h => ⟨ok.systemStep h, tx.step ok h⟩

/-- What the action of a step does to a ring can be told from the event. -/
theorem taken_txAction (ok : S.shared.mem.Ok)
    (h : pollerStep dpdk choices S = .ok (happened, S')) (s : ℕ) :
    (txAction S (.poller choices happened)).submitted s = [] ∧
      ((txAction S (.poller choices happened)).taken s).map Prod.fst =
        (SystemEvent.poller choices happened).takenFrom s := by
  have hflush : ∀ n, (flushAction S choices n).submitted s = [] ∧
      (flushAction S choices n).taken s = [] := by
    intro n
    unfold flushAction
    split <;> exact ⟨rfl, rfl⟩
  cases move_of_pollerStep ok h with
  | skip hi pc =>
    simp [txAction, pc, hi, TxAction.submitted, TxAction.taken, SystemEvent.takenFrom]
  | enter hi pc =>
    simp [txAction, pc, hi, TxAction.submitted, TxAction.taken, SystemEvent.takenFrom]
  | @take i m pc =>
    by_cases hs : i = s <;>
      simp [txAction, pc, hs, TxAction.submitted, TxAction.taken, SystemEvent.takenFrom]
  | receive hi pc => simp [txAction, pc, hi, hflush, SystemEvent.takenFrom]
  | next pc => simp [txAction, pc, hflush, SystemEvent.takenFrom]
  | leave pc | packet pc | received pc | visit hi pc | done hi pc =>
    simp [txAction, pc, TxAction.submitted, TxAction.taken, SystemEvent.takenFrom]

/-- A tx ring is a queue: calls put packets in at its end, and the poller takes them out at its
front. -/
theorem ring_of_step (ok : S.shared.Ok) (tx : S.TxOk) (h : e.step dpdk config S S') (s : ℕ) :
    (S.shared.txQ s).items ++ e.submittedTo s = e.takenFrom s ++ (S'.shared.txQ s).items := by
  cases e with
  | api e =>
    obtain ⟨σ, hstep, rfl⟩ := h
    have hring := (api_tx ok.mem hstep).ring s
    cases e with
    | sendto pkt sockfd buf flags destAddr addrlen ret =>
      cases ret with
      | error => exact hring
      | ok r => exact hring
    | _ => exact hring
  | poller choices happened =>
    have hring := (Prog.wp_of_ok (pollerStep_tx ok.mem tx h.1) h.2).1.ring s
    obtain ⟨hsubmitted, htaken⟩ := taken_txAction ok.mem h.2 s
    rw [hsubmitted, htaken] at hring
    exact hring

theorem sum_length_ite (a : ℕ) (m : Mbuf) :
    ∑ s ∈ Finset.range numSocketsMax, (if a = s then [m] else []).length =
      if a < numSocketsMax then 1 else 0 := by
  simp [apply_ite List.length]

theorem sum_submittedTo (e : SystemEvent) :
    ∑ s ∈ Finset.range numSocketsMax, (e.submittedTo s).length ≤ e.sends.toNat := by
  cases e with
  | api e =>
    cases e with
    | sendto pkt sockfd buf flags destAddr addrlen ret =>
      cases ret with
      | error => simp [SystemEvent.submittedTo, SystemEvent.sends]
      | ok r =>
        refine (sum_length_ite sockfd.toNat r.1).trans_le ?_
        change _ ≤ 1
        split <;> omega
    | _ => simp [SystemEvent.submittedTo, SystemEvent.sends]
  | poller choices happened => simp [SystemEvent.submittedTo, SystemEvent.sends]

/-- What comes in is queued, and what is taken out is not queued any more. -/
theorem queued_of_step (ok : S.shared.Ok) (tx : S.TxOk) (h : e.step dpdk config S S') :
    ∑ s ∈ Finset.range numSocketsMax, (e.takenFrom s).length + S'.queued ≤
      S.queued + e.sends.toNat := by
  have hring : ∀ s, (e.takenFrom s).length + (S'.shared.txQ s).items.length =
      (S.shared.txQ s).items.length + (e.submittedTo s).length := by
    intro s
    rw [← List.length_append, ← List.length_append, ring_of_step ok tx h s]
  calc ∑ s ∈ Finset.range numSocketsMax, (e.takenFrom s).length + S'.queued
      = ∑ s ∈ Finset.range numSocketsMax,
          ((S.shared.txQ s).items.length + (e.submittedTo s).length) := by
        rw [System.queued, ← Finset.sum_add_distrib]
        exact Finset.sum_congr rfl fun s _ => hring s
    _ ≤ S.queued + e.sends.toNat := by
        rw [Finset.sum_add_distrib]
        exact Nat.add_le_add_left (sum_submittedTo e) S.queued

/-- **The cost of a step.** A step of the poller brings the end of the iteration nearer or takes
a packet out of a ring, or it ends the iteration. -/
theorem stepsLeft_of_step (ok : S.shared.Ok) (tx : S.TxOk) (h : e.step dpdk config S S') :
    S'.stepsLeft + e.isPoller.toNat ≤
      S.stepsLeft + (e.sends.toNat + iterationSteps * e.endsIteration.toNat) := by
  have hqueued := queued_of_step ok tx h
  have hmax : numSocketsMax = 1024 := rfl
  have hsteps : iterationSteps = 4227 := rfl
  unfold System.stepsLeft
  cases e with
  | api e =>
    obtain ⟨σ, -, rfl⟩ := h
    have hnone : (SystemEvent.api e).isPoller.toNat = 0 := rfl
    dsimp only
    omega
  | poller choices happened =>
    have hone : (SystemEvent.poller choices happened).isPoller.toNat = 1 := rfl
    cases move_of_pollerStep ok.mem h.2 with
    | skip hi pc unused pc' | enter hi pc pc' | leave pc drained pc' =>
      rw [pc, pc']
      dsimp only [PollerPc.stepsLeft]
      omega
    | next pc pc' =>
      rw [pc, pc']
      dsimp only [PollerPc.stepsLeft]
      omega
    | @take i m pc pc' =>
      -- the packet pays for the step
      have hi : i < numSocketsMax := by
        have hplace := tx.place
        rwa [pc] at hplace
      have hsum : ∑ s ∈ Finset.range numSocketsMax,
          ((SystemEvent.poller choices (.txTake i m)).takenFrom s).length = 1 :=
        (sum_length_ite i m).trans (if_pos hi)
      have hends : (SystemEvent.poller choices (.txTake i m)).endsIteration.toNat = 0 := rfl
      have hle : S'.pc.stepsLeft ≤ S.pc.stepsLeft := by
        rcases pc' with pc' | pc'
        · rw [pc, pc']
        · rw [pc, pc']
          exact Nat.le_succ _
      omega
    | @receive i hi pc pc' =>
      have hburst : choices.burst.length ≤ 128 := h.1.burst
      have hleft : S.pc.stepsLeft = iterationSteps - 3 * min i numSocketsMax := by rw [pc]; rfl
      rw [hone]
      cases hlist : choices.burst.isEmpty with
      | true =>
        have hends :
            (SystemEvent.poller choices (.rxBurst choices.burst)).endsIteration = true := by
          rw [List.isEmpty_iff.mp hlist]
          rfl
        have hleft' : S'.pc.stepsLeft = iterationSteps := by rw [pc', hlist]; rfl
        rw [hends, Bool.toNat_true]
        omega
      | false =>
        have hleft' : S'.pc.stepsLeft = choices.burst.length + 1 + (numSocketsMax + 1) := by
          rw [pc', hlist]
          rfl
        omega
    | packet pc pc' | received pc pc' | visit hi pc pc' =>
      rw [pc, pc']
      simp only [PollerPc.stepsLeft, List.length_cons, List.length_nil]
      omega
    | done hi pc pc' =>
      have hends : (SystemEvent.poller choices .rxDone).endsIteration = true := rfl
      have hleft' : S'.pc.stepsLeft = iterationSteps := by rw [pc']; rfl
      have hleft : 1 ≤ S.pc.stepsLeft := by rw [pc]; exact Nat.le_add_left 1 _
      rw [hone, hends, Bool.toNat_true]
      omega

/-- No iteration is longer than one with a full burst. -/
theorem stepsLeft_le_of_step (ok : S.shared.Ok) (hle : S.pc.stepsLeft ≤ iterationSteps)
    (h : e.step dpdk config S S') : S'.pc.stepsLeft ≤ iterationSteps := by
  have hmax : numSocketsMax = 1024 := rfl
  have hsteps : iterationSteps = 4227 := rfl
  cases e with
  | api e =>
    obtain ⟨σ, -, rfl⟩ := h
    exact hle
  | poller choices happened =>
    have hburst : choices.burst.length ≤ 128 := h.1.burst
    cases move_of_pollerStep ok.mem h.2 with
    | skip hi pc unused pc' | enter hi pc pc' | leave pc drained pc' | next pc pc' | received pc pc'
    | visit hi pc pc' | done hi pc pc' =>
      rw [pc']
      simp only [PollerPc.stepsLeft]
      omega
    | take pc pc' =>
      rcases pc' with pc' | pc'
      · rw [pc']
        simp only [PollerPc.stepsLeft]
        omega
      · rw [pc']
        simp only [PollerPc.stepsLeft]
        omega
    | receive hi pc pc' =>
      rw [pc']
      split
      · simp only [PollerPc.stepsLeft]
        omega
      · simp only [PollerPc.stepsLeft]
        omega
    | packet pc pc' =>
      rw [pc] at hle
      rw [pc']
      simp only [PollerPc.stepsLeft, List.length_cons] at hle ⊢
      omega

end Law

/-! ## Turns -/

/-- The poller does not get to the ring of slot `s` any more in this iteration. -/
def System.past (S : System) (s : ℕ) : Bool :=
  match S.pc with
  | .txSlot i => s < i
  | .txDrain i => s < i || (s == i && burstSize ≤ S.txCount)
  | .txBatch i => s ≤ i
  | .rx _ | .rxFlush _ => true

section Turn

variable {dpdk : Dpdk} {config : Configuration} {S S' : System} {e : SystemEvent} {s i : ℕ}

theorem System.past_txSlot (pc : S.pc = .txSlot i) : S.past s ↔ s < i := by
  rw [past, pc]
  exact decide_eq_true_iff

theorem System.past_txDrain (pc : S.pc = .txDrain i) :
    S.past s ↔ s < i ∨ s = i ∧ burstSize ≤ S.txCount := by
  rw [past, pc]
  simp

theorem System.past_txBatch (pc : S.pc = .txBatch i) : S.past s ↔ s ≤ i := by
  rw [past, pc]
  exact decide_eq_true_iff

theorem System.past_rx {pending : List Mbuf} (pc : S.pc = .rx pending) : S.past s := by
  rw [past, pc]

theorem System.past_rxFlush (pc : S.pc = .rxFlush i) : S.past s := by
  rw [past, pc]

theorem turn_of_past (hends : e.endsIteration = false) (hpast : S'.past s → S.past s) :
    e.endsIteration.toNat + (S'.past s).toNat ≤ (S.past s).toNat + (e.takenFrom s).length := by
  rw [hends, Bool.toNat_false, Nat.zero_add]
  exact (Bool.toNat_le_toNat (Bool.le_iff_imp.mpr hpast)).trans (Nat.le_add_right _ _)

theorem turn_of_restart (hpast : S.past s) (pc' : S'.pc = .txSlot 0) :
    e.endsIteration.toNat + (S'.past s).toNat ≤ (S.past s).toNat + (e.takenFrom s).length := by
  have hpast' : S'.past s = false := by
    rw [← Bool.not_eq_true, System.past_txSlot pc']
    exact Nat.not_lt_zero s
  rw [hpast, hpast', Bool.toNat_false, Bool.toNat_true, Nat.add_zero]
  exact (Bool.toNat_le _).trans (Nat.le_add_right _ _)

/-- A socket stays open unless it is closed. -/
theorem used_of_step (ok : S.shared.Ok) (used : (S.shared.desc.slots s).used)
    (notClosed : e ≠ .api (.close s (.ok ()))) (h : e.step dpdk config S S') :
    (S'.shared.desc.slots s).used := by
  cases e with
  | poller choices happened =>
    have hview := (poller_view ok h).2.1
    change (S'.shared.view.slot s).used
    rw [hview]
    exact used
  | api e =>
    obtain ⟨σ, hstep, rfl⟩ := h
    have hchange := (ApiEvent.step_spec ok.mem hstep).change
    change (σ.view.slot s).used
    generalize hv : S.shared.view = v at hchange
    have hused : (v.slot s).used := by rw [← hv]; exact used
    generalize σ.view = v' at hchange ⊢
    cases hchange with
    | kept => exact hused
    | @opened _ t =>
      by_cases hst : s = t
      · rw [hst, SocketView.slot_opened_self]
      · rwa [SocketView.slot_opened_of_ne hst]
    | option | bound | implicitlyBound =>
      simpa only [SocketView.used_withOption, SocketView.used_boundTo] using hused
    | @closed _ t =>
      have hst : s ≠ t := by
        rintro rfl
        exact notClosed rfl
      rwa [SocketView.slot_closed_of_ne hst]

/-- **Turns.** In an iteration, the poller does not get past a slot in use with a packet in its
ring unless it takes one. -/
theorem turn_of_step (ok : S.shared.Ok) (tx : S.TxOk) (hs : s < numSocketsMax)
    (used : (S.shared.desc.slots s).used) (pending : (S.shared.txQ s).items ≠ [])
    (h : e.step dpdk config S S') :
    e.endsIteration.toNat + (S'.past s).toNat ≤ (S.past s).toNat + (e.takenFrom s).length := by
  cases e with
  | api e =>
    obtain ⟨σ, -, rfl⟩ := h
    exact turn_of_past rfl id
  | poller choices happened =>
    cases move_of_pollerStep ok.mem h.2 with
    | @skip i hi pc unused pc' =>
      have hne : s ≠ i := by
        rintro rfl
        rw [unused] at used
        cases used
      refine turn_of_past rfl fun hpast => ?_
      rw [System.past_txSlot pc'] at hpast
      rw [System.past_txSlot pc]
      omega
    | @enter i hi pc pc' count =>
      have hroom : ¬ burstSize ≤ S'.txCount := by
        have hcount := tx.count
        rw [pc] at hcount
        rw [count]
        exact not_le.mpr (Nat.lt_of_le_pred (by decide) hcount)
      refine turn_of_past rfl fun hpast => ?_
      rw [System.past_txDrain pc'] at hpast
      rw [System.past_txSlot pc]
      exact hpast.resolve_right fun hfull => hroom hfull.2
    | @take i m pc pc' =>
      by_cases his : i = s
      · -- the turn of slot `s`
        have hone : ((SystemEvent.poller choices (.txTake i m)).takenFrom s).length = 1 := by
          rw [SystemEvent.takenFrom, if_pos his, List.length_singleton]
        have hends : (SystemEvent.poller choices (.txTake i m)).endsIteration.toNat = 0 := rfl
        have hle := Bool.toNat_le (S'.past s)
        omega
      · refine turn_of_past rfl fun hpast => ?_
        rw [System.past_txDrain pc]
        rcases pc' with pc' | pc'
        · rw [System.past_txDrain pc'] at hpast
          omega
        · rw [System.past_txBatch pc'] at hpast
          omega
    | @leave i pc drained pc' =>
      refine turn_of_past rfl fun hpast => ?_
      rw [System.past_txBatch pc'] at hpast
      rw [System.past_txDrain pc]
      refine hpast.lt_or_eq.imp_right fun his => ⟨his, ?_⟩
      -- the ring is not empty, so it is a full batch that ends the turn
      subst his
      exact drained.resolve_left pending
    | @next i pc pc' =>
      refine turn_of_past rfl fun hpast => ?_
      rw [System.past_txSlot pc'] at hpast
      rw [System.past_txBatch pc]
      exact Nat.le_of_lt_succ hpast
    | @receive i hi pc pc' =>
      have hpast : S.past s := (System.past_txSlot pc).mpr (by omega)
      cases hlist : choices.burst with
      | nil =>
        rw [hlist] at pc'
        exact turn_of_restart hpast pc'
      | cons m pending => exact turn_of_past rfl fun _ => hpast
    | done hi pc pc' => exact turn_of_restart (System.past_rxFlush pc) pc'
    | packet pc pc' | received pc pc' => exact turn_of_past rfl fun _ => System.past_rx pc
    | visit hi pc pc' => exact turn_of_past rfl fun _ => System.past_rxFlush pc

end Turn

/-! ## Iterations end -/

section Runs

variable {dpdk : Dpdk} {config : Configuration} {zones : AllocatorZones} {S T : System}
  {log log' : List SystemEvent}

/-- **Iterations end.** From a reachable state on, every step of the poller is one of the
bounded number of steps that an iteration takes, or is made for a packet that was in a ring or
has been sent since. -/
theorem poller_steps_accounted
    (run : Run (SystemEvent.step dpdk config) (systemInit zones) log S)
    (rest : Run (SystemEvent.step dpdk config) S log' T) :
    log'.countP SystemEvent.isPoller ≤
      iterationSteps * (log'.countP SystemEvent.endsIteration + 1) +
        S.queued + log'.countP SystemEvent.sends := by
  obtain ⟨guarded, -⟩ := rest.guarded (fun S => S.shared.Ok ∧ S.TxOk) (ok_of_run run)
    fun _ _ _ inv h => ⟨inv.1.systemStep h, inv.2.step inv.1 h⟩
  have hcost := guarded.potential System.stepsLeft (fun e => e.isPoller.toNat)
    (fun e => e.sends.toNat + iterationSteps * e.endsIteration.toNat)
    fun _ _ _ h => stepsLeft_of_step h.1.1 h.1.2 h.2
  rw [List.sum_map_add, List.sum_map_mul_left, sum_map_toNat, sum_map_toNat, sum_map_toNat] at hcost
  have hpc : S.pc.stepsLeft ≤ iterationSteps :=
    run.invariant (fun _ S => S.pc.stepsLeft ≤ iterationSteps) le_rfl
      fun _ _ _ _ before hle h => stepsLeft_le_of_step (Shared.Ok.systemRun before) hle h
  rw [Nat.mul_add, Nat.mul_one]
  unfold System.stepsLeft at hcost
  omega

/-- A step of the poller, in which DPDK decides as `strategy` says. -/
def SystemEvent.Follows (strategy : System → DpdkChoices) (S : System) : SystemEvent → Prop
  | .api _ => False
  | .poller choices _ => choices = strategy S

/-- Only the last step of the log ends an iteration. -/
def SystemEvent.IsIteration (log : List SystemEvent) : Prop :=
  ∃ before e, log = before ++ [e] ∧ (∀ a ∈ before, a.endsIteration = false) ∧ e.endsIteration

/-- In a state in order, the poller on its own gets to the end of the iteration, or to a staging
buffer that is full. -/
theorem exists_iteration (ok : S.shared.Ok) (tx : S.TxOk) {strategy : System → DpdkChoices}
    (admissible : ∀ S, S.TxOk → (strategy S).Admissible S)
    (clones : ∀ S n, (strategy S).clone n ≠ none) :
    ∃ (log : List SystemEvent) (T : System),
      Run (fun e S S' => SystemEvent.step dpdk config e S S' ∧ SystemEvent.Follows strategy S e) S
        log T ∧ log.length ≤ S.stepsLeft ∧
      (SystemEvent.IsIteration log ∨
        (∀ a ∈ log, a.endsIteration = false) ∧ T.Overflows dpdk (strategy T)) := by
  -- with every step the end of the iteration is nearer
  generalize hn : S.stepsLeft = n
  induction n using Nat.strong_induction_on generalizing S with
  | _ n ih =>
    by_cases hfull : S.Overflows dpdk (strategy S)
    · exact ⟨[], S, .nil, Nat.zero_le n, .inr ⟨by simp, hfull⟩⟩
    have spec : Prog.wp (fun _ => False) (pollerStep dpdk (strategy S))
        (fun happened S' => PollerMove (strategy S) S S' happened) S :=
      pollerStep_move ok.mem (fun ⟨n, hn⟩ => clones S n hn) hfull
    obtain ⟨happened, S', hret, -⟩ := Prog.exists_ok_of_wp spec
    have hstep : (SystemEvent.poller (strategy S) happened).step dpdk config S S' :=
      ⟨admissible S tx, hret⟩
    have hcost := stepsLeft_of_step ok tx hstep
    have hone : (SystemEvent.poller (strategy S) happened).isPoller.toNat = 1 := rfl
    have hnone : (SystemEvent.poller (strategy S) happened).sends.toNat = 0 := rfl
    cases hends : (SystemEvent.poller (strategy S) happened).endsIteration with
    | true =>
      refine ⟨_, S', Run.single ⟨hstep, rfl⟩, ?_, .inl ⟨[], _, rfl, by simp, hends⟩⟩
      rw [List.length_singleton, ← hn]
      exact S.one_le_stepsLeft
    | false =>
      rw [hends, Bool.toNat_false] at hcost
      obtain ⟨log, T, hrest, hlen, hlog⟩ := ih S'.stepsLeft (by omega)
        (ok.systemStep hstep) (tx.step ok hstep) rfl
      refine ⟨SystemEvent.poller (strategy S) happened :: log, T, hrest.cons ⟨hstep, rfl⟩, ?_, ?_⟩
      · rw [List.length_cons]
        omega
      · rcases hlog with ⟨before, e, rfl, hbefore, he⟩ | ⟨hlog, hoverflow⟩
        · exact .inl ⟨_ :: before, e, rfl, List.forall_mem_cons.mpr ⟨hends, hbefore⟩, he⟩
        · exact .inr ⟨List.forall_mem_cons.mpr ⟨hends, hlog⟩, hoverflow⟩

/-- **Iterations are completed.** Whatever DPDK decides, as long as packets can be cloned the
poller on its own gets to the end of the iteration, unless a packet comes for a staging buffer
that is full. -/
theorem iteration_terminates
    (run : Run (SystemEvent.step dpdk config) (systemInit zones) log S)
    {strategy : System → DpdkChoices} (admissible : ∀ S, S.TxOk → (strategy S).Admissible S)
    (clones : ∀ S n, (strategy S).clone n ≠ none) :
    ∃ (log : List SystemEvent) (T : System),
      Run (fun e S S' => SystemEvent.step dpdk config e S S' ∧ SystemEvent.Follows strategy S e) S
        log T ∧ log.length ≤ S.stepsLeft ∧
      (SystemEvent.IsIteration log ∨
        (∀ a ∈ log, a.endsIteration = false) ∧ T.Overflows dpdk (strategy T)) :=
  exists_iteration (ok_of_run run).1 (ok_of_run run).2 admissible clones

/-- No packet of a burst is waiting. -/
def System.Quiet (S : System) : Prop := ∀ m pending, S.pc ≠ .rx (m :: pending)

/-- Without bursts there is no packet to wait. -/
theorem System.Quiet.step (ok : S.shared.Ok) (quiet : S.Quiet) {e : SystemEvent}
    (hstep : e.step dpdk config S T) (follows : SystemEvent.Follows (fun _ => .whole []) S e) :
    T.Quiet := by
  intro m pending hpc
  cases e with
  | api => cases follows
  | poller choices happened =>
    obtain rfl : choices = .whole [] := follows
    cases move_of_pollerStep ok.mem hstep.2 with
    | packet pc pc' => exact quiet _ _ pc
    | take pc pc' =>
      rcases pc' with pc' | pc'
      · rw [pc'] at hpc
        cases hpc
      · rw [pc'] at hpc
        cases hpc
    | receive hi pc pc' =>
      rw [pc'] at hpc
      cases hpc
    | skip hi pc unused pc' | enter hi pc pc' | leave pc drained pc' | next pc pc' | received pc pc'
    | visit hi pc pc' | done hi pc pc' =>
      rw [pc'] at hpc
      cases hpc

/-- An iteration in which nothing is received. -/
theorem exists_iteration_of_quiet (ok : S.shared.Ok) (tx : S.TxOk) (quiet : S.Quiet) :
    ∃ (log : List SystemEvent) (T : System),
      Run (fun e S S' => SystemEvent.step dpdk config e S S' ∧
        SystemEvent.Follows (fun _ => .whole []) S e) S log T ∧
      SystemEvent.IsIteration log ∧ T.Quiet := by
  obtain ⟨log, T, run, -, hlog⟩ := @exists_iteration dpdk config S ok tx (fun _ => .whole [])
    (fun _ _ => admissible_whole (Nat.zero_le _)) fun _ n => Option.some_ne_none n
  have hquiet : T.shared.Ok ∧ T.Quiet :=
    run.invariant (fun _ T => T.shared.Ok ∧ T.Quiet) ⟨ok, quiet⟩
      fun _ _ _ _ _ inv h => ⟨inv.1.systemStep h.1, inv.2.step inv.1 h.1 h.2⟩
  rcases hlog with hlog | ⟨-, m, pending, hpc, -⟩
  · exact ⟨log, T, run, hlog, hquiet.2⟩
  · exact absurd hpc (hquiet.2 m pending)

/-- First in, first out, in a tx ring. -/
theorem ring_of_run (run : Run (SystemEvent.step dpdk config) (systemInit zones) log S)
    (rest : Run (SystemEvent.step dpdk config) S log' T) (s : ℕ) :
    (S.shared.txQ s).items ++ log'.flatMap (SystemEvent.submittedTo s) =
      log'.flatMap (SystemEvent.takenFrom s) ++ (T.shared.txQ s).items := by
  obtain ⟨guarded, -⟩ := rest.guarded (fun S => S.shared.Ok ∧ S.TxOk) (ok_of_run run)
    fun _ _ _ inv h => ⟨inv.1.systemStep h, inv.2.step inv.1 h⟩
  exact guarded.conserves_queue (fun S => (S.shared.txQ s).items) _ _
    fun _ _ _ h => ring_of_step h.1.1 h.1.2 h.2 s

/-- **No starvation.** The packet at place `k` of the tx ring of an open socket is taken out of
the ring, with all that are in front of it, before the poller has ended more than `k + 1`
iterations. -/
theorem no_tx_starvation (run : Run (SystemEvent.step dpdk config) (systemInit zones) log S)
    (rest : Run (SystemEvent.step dpdk config) S log' T) {s k : ℕ} (hs : s < numSocketsMax)
    (used : (S.shared.desc.slots s).used)
    (notClosed : SystemEvent.api (.close s (.ok ())) ∉ log')
    (hk : k < (S.shared.txQ s).items.length)
    (iterations : k + 2 ≤ log'.countP SystemEvent.endsIteration) :
    (S.shared.txQ s).items.take (k + 1) <+: log'.flatMap (SystemEvent.takenFrom s) := by
  have hopen : ∀ e ∈ log', ∀ S : System, e ≠ .api (.close s (.ok ())) :=
    fun e he _ heq => notClosed (heq ▸ he)
  obtain ⟨guarded, -⟩ := (rest.guard hopen).guarded
    (fun S => (S.shared.Ok ∧ S.TxOk) ∧ (S.shared.desc.slots s).used) ⟨ok_of_run run, used⟩
    fun e S S' inv h => ⟨⟨inv.1.1.systemStep h.1, inv.1.2.step inv.1.1 h.1⟩,
      used_of_step inv.1.1 inv.2 h.2 h.1⟩
  -- one packet for each turn, as long as the packet is still there
  have hturns : k + 1 ≤ (log'.flatMap (SystemEvent.takenFrom s)).length ∨
      log'.countP SystemEvent.endsIteration + (T.past s).toNat ≤
        1 + (log'.flatMap (SystemEvent.takenFrom s)).length := by
    refine guarded.invariant (fun log T => k + 1 ≤ (log.flatMap (SystemEvent.takenFrom s)).length ∨
      log.countP SystemEvent.endsIteration + (T.past s).toNat ≤
        1 + (log.flatMap (SystemEvent.takenFrom s)).length) ?_ ?_
    · exact .inr ((Nat.zero_add _).trans_le (Bool.toNat_le _))
    · intro log T e U before inv hstep
      have hring := congrArg List.length (ring_of_run run (before.mono fun _ _ _ h => h.2.1) s)
      rw [List.length_append, List.length_append] at hring
      rw [List.flatMap_append, List.length_append, List.countP_append, List.countP_singleton,
        List.flatMap_singleton]
      rcases inv with hdone | hmore
      · exact .inl (hdone.trans (Nat.le_add_right _ _))
      · by_cases hdone : k + 1 ≤ (log.flatMap (SystemEvent.takenFrom s)).length
        · exact .inl (hdone.trans (Nat.le_add_right _ _))
        · have hpending : (T.shared.txQ s).items ≠ [] := by
            intro hnil
            rw [hnil, List.length_nil] at hring
            omega
          have hturn := turn_of_step hstep.1.1.1 hstep.1.1.2 hs hstep.1.2 hpending hstep.2.1
          have hends : (if e.endsIteration = true then 1 else 0) = e.endsIteration.toNat := by
            cases e.endsIteration <;> rfl
          rw [hends]
          exact .inr (by omega)
  have htaken : k + 1 ≤ (log'.flatMap (SystemEvent.takenFrom s)).length := by omega
  have hring := ring_of_run run rest s
  have htake : (S.shared.txQ s).items.take (k + 1) =
      (log'.flatMap (SystemEvent.takenFrom s)).take (k + 1) := by
    have h := congrArg (List.take (k + 1)) hring
    rwa [List.take_append_of_le_length hk, List.take_append_of_le_length htaken] at h
  rw [htake]
  exact List.take_prefix _ _

end Runs

/-! ## A packet of one socket -/

/-- The steps of the poller to its first burst. -/
theorem poller_steps_accounted_of_burst : ∃ (log : List SystemEvent) (T : System),
    Run (SystemEvent.step Dpdk.reference Configuration.zero) (systemInit ⟨0, 0, 0, 0⟩) log T ∧
    T.pc = .rx [packetSmall] ∧
    log.countP SystemEvent.isPoller ≤
      iterationSteps * (log.countP SystemEvent.endsIteration + 1) +
        (systemInit ⟨0, 0, 0, 0⟩).queued + log.countP SystemEvent.sends := by
  have hburst : [packetSmall].length ≤ rxMbufTableSize := by decide
  have run := run_firstBurst Dpdk.reference Configuration.zero ⟨0, 0, 0, 0⟩ hburst
    (List.cons_ne_nil _ _)
  exact ⟨_, _, run, rfl, poller_steps_accounted .nil run⟩

/-- No staging buffer gets full before the iteration ends. -/
def System.Roomy (S : System) : Prop :=
  match S.pc with
  | .rx pending => ∀ s, (S.rxBuffer s).length + pending.length ≤ exchBufSize
  | .rxFlush _ => True
  | _ => ∀ s, S.rxBuffer s = []

section Roomy

variable {dpdk : Dpdk} {config : Configuration} {S S' : System} {choices : DpdkChoices}
  {happened : PollerEvent}

theorem System.roomy_of_transmitting (pc : S.pc.transmitting) :
    S.Roomy ↔ ∀ s, S.rxBuffer s = [] := by
  unfold System.Roomy
  cases hpc : S.pc with
  | rx => rw [hpc] at pc; cases pc
  | rxFlush => rw [hpc] at pc; cases pc
  | _ => exact Iff.rfl

theorem System.storedOnce_of_single (single : ∀ q, (S.shared.mem.bindings q).length ≤ 1)
    (packet : Option Mbuf) : S.StoredOnce packet := by
  intro s
  refine (List.length_filter_le _ _).trans ?_
  cases packet with
  | none => exact Nat.zero_le 1
  | some d => exact (receivers_sublist.trans List.filter_sublist).length_le.trans (single d.dstPort)

/-- The burst is at most as long as a buffer. -/
theorem System.Roomy.step (ok : S.shared.Ok) (single : ∀ q, (S.shared.mem.bindings q).length ≤ 1)
    (roomy : S.Roomy) (h : (SystemEvent.poller choices happened).step dpdk config S S')
    (unfinished : happened.endsIteration = false) : S'.Roomy := by
  obtain ⟨-, -, hchange⟩ := poller_view ok h
  have hidle : S.pc.transmitting → S'.pc.transmitting → S'.rxBuffer = S.rxBuffer → S'.Roomy := by
    intro pc pc' same
    rw [System.roomy_of_transmitting pc', same]
    exact (System.roomy_of_transmitting pc).mp roomy
  cases hchange with
  | transmit same pc pc' => exact hidle pc pc' same.rxBuffer
  | take pc pc' _ _ rxBuffer _ => exact hidle pc pc' rxBuffer
  | burst same pc pc' =>
    rcases pc' with pc' | pc'
    · have hempty := (System.roomy_of_transmitting pc).mp roomy
      rw [System.Roomy, pc']
      intro s
      rw [same.rxBuffer, hempty, List.length_nil, Nat.zero_add]
      exact h.1.burst
    · exact hidle pc pc' same.rxBuffer
  | @packet m pending delivered pc pc' _ _ rxBuffer receivers =>
    rw [System.Roomy, pc] at roomy
    rw [System.Roomy, pc']
    intro s
    have hroom := roomy s
    have honce := System.storedOnce_of_single single (datagramOf dpdk choices m) s
    rw [rxBuffer, List.length_append, length_stagedFor, receivers]
    rw [List.length_cons] at hroom
    omega
  | burstDone same pc pc' => rw [System.Roomy, pc']; trivial
  | skip _ same pc pc' => rw [System.Roomy, pc']; trivial
  | flush _ pc pc' => rw [System.Roomy, pc']; trivial
  | flushDone => cases unfinished

theorem System.Roomy.not_overflows (single : ∀ q, (S.shared.mem.bindings q).length ≤ 1)
    (roomy : S.Roomy) : ¬ S.Overflows dpdk choices := by
  rintro ⟨m, pending, hpc, hfull⟩
  apply hfull
  intro b _
  rw [System.Roomy, hpc] at roomy
  have hroom := roomy (excBufIdx b.sockfd)
  have honce := System.storedOnce_of_single single (datagramOf dpdk choices m) (excBufIdx b.sockfd)
  rw [List.length_cons] at hroom
  omega

end Roomy

/-- A packet is sent through a socket that is bound. -/
theorem exists_step_sent {σ : Shared} (used : (σ.desc.slots 0).used)
    (bound : (σ.desc.slots 0).bound) (hroom : (σ.txQ 0).items.length < (σ.txQ 0).capacity) : ∃ m q,
      (ApiEvent.sendto (some 0) (0 : ℕ) [1, 2, 3] 0 (some ⟨afInet, 53, 7⟩) sizeofSockaddrIn
        (.ok (m, 3))).step Dpdk.reference Configuration.zero σ
          { σ with txQ := Function.update σ.txQ 0 q } ∧
      q.capacity = (σ.txQ 0).capacity ∧ q.items = (σ.txQ 0).items ++ [m] := by
  obtain ⟨m, hm⟩ : ∃ m, m = fillMbuf 0 (buildFrame Dpdk.reference Configuration.zero
      (σ.desc.slots 0) ⟨afInet, 53, 7⟩ [1, 2, 3]) := ⟨_, rfl⟩
  have hsome : (σ.txQ 0).enqueue m ≠ none := by
    rw [Ne, BoundedQueue.enqueue_eq_none_iff]
    exact not_le.mpr hroom
  obtain ⟨q, hq⟩ := Option.ne_none_iff_exists'.mp hsome
  obtain ⟨-, hcapacity, hitems⟩ := BoundedQueue.enqueue_eq_some_iff.mp hq
  have hsend := udpdkSendto_eq (σ := σ) (s := 0) (by decide) used bound (by decide) (hm ▸ hq)
  rw [← hm] at hsend
  exact ⟨m, q, hsend, hcapacity, hitems⟩

/-- A socket is bound, and `n` packets are sent through it. -/
theorem exists_run_sent (n : ℕ) (hn : n ≤ exchRingSize - 1) : ∃ (log : List ApiEvent) (σ : Shared),
    Run (ApiEvent.step Dpdk.reference Configuration.zero) (sharedInit ⟨0, 0, 0, 0⟩) log σ ∧
    (σ.desc.slots 0).used ∧ (σ.desc.slots 0).bound ∧ (∀ q, (σ.mem.bindings q).length ≤ 1) ∧
    (σ.txQ 0).items.length = n ∧ (σ.txQ 0).capacity = exchRingSize - 1 := by
  induction n with
  | zero =>
    obtain ⟨σ, run, hbound⟩ := exists_run_bound ⟨0, 0, 0, 0⟩ (s := 0) (by decide) 7 53
    refine ⟨_, σ, run, by rw [hbound.slot], by rw [hbound.slot], hbound.single, ?_, ?_⟩
    · rw [hbound.frame]
      rfl
    · rw [hbound.frame]
      rfl
  | succ n ih =>
    obtain ⟨log, σ, run, used, bound, single, hlen, hcapacity⟩ := ih (Nat.le_of_succ_le hn)
    obtain ⟨m, q, hstep, hcapacity', hitems⟩ := exists_step_sent used bound
      (by rw [hlen, hcapacity]; exact hn)
    refine ⟨_, _, run.snoc hstep, used, bound, single, ?_, ?_⟩
    · dsimp only
      rw [Function.update_self, hitems, List.length_append, hlen, List.length_singleton]
    · dsimp only
      rw [Function.update_self, hcapacity', hcapacity]

/-- The tx ring of a socket is full and a full burst for the socket is received. -/
theorem iteration_terminates_of_full : ∃ (S T : System) (log : List SystemEvent),
    (S.shared.txQ 0).items.length = exchRingSize - 1 ∧
    Run (fun e S S' => SystemEvent.step Dpdk.reference Configuration.zero e S S' ∧
      SystemEvent.Follows (fun _ => .whole (List.replicate 128 (datagramTo 7 53))) S e) S log T ∧
    log.length ≤ S.stepsLeft ∧ SystemEvent.IsIteration log := by
  obtain ⟨log₀, σ, run₀, -, -, single, hlen, -⟩ := exists_run_sent _ le_rfl
  have run := run_api (S := systemInit ⟨0, 0, 0, 0⟩) run₀
  have hburst : (List.replicate 128 (datagramTo 7 53)).length ≤ rxMbufTableSize := by
    rw [List.length_replicate]
    exact Nat.le_of_ble_eq_true rfl
  obtain ⟨log, T, rest, hsteps, hlog⟩ := iteration_terminates run
    (fun _ _ => admissible_whole hburst) fun _ n => Option.some_ne_none n
  refine ⟨_, T, log, hlen, rest, hsteps, hlog.resolve_right ?_⟩
  rintro ⟨hunfinished, hfull⟩
  have inv : T.shared.Ok ∧ (∀ q, (T.shared.mem.bindings q).length ≤ 1) ∧ T.Roomy := by
    refine (rest.guard fun e he _ => hunfinished e he).invariant (fun _ T => T.shared.Ok ∧
      (∀ q, (T.shared.mem.bindings q).length ≤ 1) ∧ T.Roomy)
      ⟨Shared.Ok.run run₀, single, fun _ => rfl⟩ ?_
    rintro _ S e S' - ⟨ok, single, roomy⟩ ⟨⟨hstep, hfollows⟩, hends⟩
    cases e with
    | api => cases hfollows
    | poller choices happened =>
      obtain ⟨-, hview, -⟩ := poller_view ok hstep
      refine ⟨ok.systemStep hstep, fun q => ?_, roomy.step ok single hstep hends⟩
      have hbindings : S'.shared.mem.bindings = S.shared.mem.bindings :=
        congrArg SocketView.bindings hview
      rw [hbindings]
      exact single q
  exact inv.2.2.not_overflows inv.2.1 hfull

/-- A packet that is sent is taken out of the ring within two iterations. -/
theorem no_tx_starvation_of_send : ∃ (S T : System) (m : Mbuf) (log : List SystemEvent),
    (S.shared.txQ 0).items = [m] ∧
    Run (SystemEvent.step Dpdk.reference Configuration.zero) S log T ∧
    [m] <+: log.flatMap (SystemEvent.takenFrom 0) := by
  obtain ⟨before, σ, run₀, used, -, -, hlen, -⟩ := exists_run_sent 1 (by decide)
  obtain ⟨m, hring⟩ := List.length_eq_one_iff.mp hlen
  have run := run_api (S := systemInit ⟨0, 0, 0, 0⟩) run₀
  have hone : ∀ {log : List SystemEvent} {S : System}, S.Quiet →
      Run (SystemEvent.step Dpdk.reference Configuration.zero) (systemInit ⟨0, 0, 0, 0⟩) log S →
      ∃ (log : List SystemEvent) (T : System), T.Quiet ∧
        Run (SystemEvent.step Dpdk.reference Configuration.zero) S log T ∧
        1 ≤ log.countP SystemEvent.endsIteration ∧
        SystemEvent.api (.close (0 : ℕ) (.ok ())) ∉ log := by
    intro _ S quiet run
    obtain ⟨ok, tx⟩ := ok_of_run run
    obtain ⟨_, T, hrun, ⟨log, e, rfl, -, hends⟩, quiet'⟩ := @exists_iteration_of_quiet
      Dpdk.reference Configuration.zero S ok tx quiet
    refine ⟨log ++ [e], T, quiet', hrun.mono fun _ _ _ h => h.1, ?_, fun hmem => ?_⟩
    · rw [List.countP_append, List.countP_singleton, if_pos hends]
      exact Nat.le_add_left 1 _
    · obtain ⟨_, _, -, hfollows⟩ := hrun.exists_step hmem
      exact hfollows
  obtain ⟨log₁, T₁, quiet₁, run₁, hends₁, hopen₁⟩ :=
    hone (fun _ _ => PollerPc.noConfusion) run
  obtain ⟨log₂, T₂, -, run₂, hends₂, hopen₂⟩ := hone quiet₁ (run.append run₁)
  refine ⟨_, T₂, m, log₁ ++ log₂, hring, run₁.append run₂, ?_⟩
  have h := no_tx_starvation run (run₁.append run₂) (s := 0) (k := 0) (by decide) used
    (fun hmem => (List.mem_append.mp hmem).elim hopen₁ hopen₂) (by rw [hlen]; exact Nat.one_pos)
    (by rw [List.countP_append]; omega)
  change List.take 1 (σ.txQ 0).items <+: _ at h
  rwa [hring] at h

end Udpdk
