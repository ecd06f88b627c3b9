import Udpdk.Poller.Progress
import Udpdk.Poller.Staging

/-!
# Received packets leave the staging buffers

A packet that was received waits in the staging buffer of its socket until the loop over the slots
at the end of the iteration comes by. As long as the socket is open, that is before the iteration
ends, and the whole buffer then goes into the ring, or the whole buffer is dropped.

## Main definitions

* `SystemEvent.visits` — the loop visits a slot
* `System.Drained` — what a visit does

## Main results

* `staged_drained` — what is staged for an open socket is flushed in the same iteration
-/

namespace Udpdk

open Foundation

namespace SystemEvent

/-- The loop over the staging buffers visits slot `s`. -/
def visits (s : ℕ) : SystemEvent → Bool
  | .poller _ (.rxFlush i) => i = s
  | _ => false

/-- The packets that a step stores into the staging buffer of slot `s`. -/
def stagedTo (s : ℕ) : SystemEvent → List (Option Mbuf)
  | .poller _ (.rxPacket _ delivered) => stagedFor delivered s
  | _ => []

end SystemEvent

/-- A visit of slot `s` empties its staging buffer. All that was in it goes into the ring, behind
what is there, if there is room for all of it; otherwise the ring stays as it is. -/
structure System.Drained (S T : System) (s : ℕ) : Prop where
  staged : T.rxBuffer s = []
  room : (S.shared.rxQ s).items.length + (S.rxBuffer s).length ≤ (S.shared.rxQ s).capacity →
    (T.shared.rxQ s).items = (S.shared.rxQ s).items ++ S.rxBuffer s
  full : (S.shared.rxQ s).capacity < (S.shared.rxQ s).items.length + (S.rxBuffer s).length →
    T.shared.rxQ s = S.shared.rxQ s

section Step

variable {allowed : Fault → Prop} {dpdk : Dpdk} {config : Configuration} {choices : DpdkChoices}
  {S S' : System} {e : SystemEvent} {happened : PollerEvent} {s : ℕ}

theorem flushRxQueue_drained :
    Prog.wp allowed (flushRxQueue s) (fun _ S' => S.Drained S' s) S := by
  rw [flushRxQueue, Prog.wp_bind, Prog.wp_read]
  split
  · rename_i hempty
    have hnil : S.rxBuffer s = [] := List.isEmpty_iff.mp hempty
    refine ⟨hnil, fun _ => ?_, fun _ => rfl⟩
    rw [hnil, List.append_nil]
  · cases hq : (S.shared.rxQ s).enqueueBulk (S.rxBuffer s) with
    | none =>
      have hfull := BoundedQueue.enqueueBulk_eq_none_iff.mp hq
      dsimp only
      rw [Prog.wp_bind, wp_freeAll_id]
      exact ⟨Function.update_self .., fun hroom => absurd hroom (by omega), fun _ => rfl⟩
    | some q =>
      obtain ⟨hroom, -, hitems⟩ := BoundedQueue.enqueueBulk_eq_some_iff.mp hq
      refine ⟨Function.update_self .., fun _ => ?_, fun hfull => absurd hfull (by omega)⟩
      change (Function.update S.shared.rxQ s q s).items = _
      rw [Function.update_self, hitems]

/-- A slot in use is flushed when it is visited. -/
theorem drained_of_visit (hs : s < numSocketsMax) (used : (S.shared.desc.slots s).used)
    (pc : S.pc = .rxFlush s) (h : pollerStep dpdk choices S = .ok (happened, S')) :
    S.Drained S' s := by
  have spec : Prog.wp (fun _ => True) (pollerStep dpdk choices)
      (fun _ S' => S.Drained S' s) S := by
    unfold pollerStep
    rw [Prog.wp_bind, Prog.wp_read, pc]
    dsimp only
    rw [if_pos hs, if_pos used, Prog.wp_bind]
    exact Prog.wp_mono flushRxQueue_drained fun _ T h => ⟨h.staged, h.room, h.full⟩
  have hdrained := Prog.wp_of_ok spec h
  exact hdrained

/-- **Until it is visited**, the buffer of a slot only grows, and the iteration does not end. -/
theorem staged_of_step (ok : S.shared.Ok) (hs : s < numSocketsMax) (receiving : ¬ S.pc.Flushed s)
    (unvisited : e.visits s = false) (h : e.step dpdk config S S') :
    e.endsIteration = false ∧ ¬ S'.pc.Flushed s ∧
      S'.rxBuffer s = S.rxBuffer s ++ e.stagedTo s := by
  cases e with
  | api e =>
    obtain ⟨σ, -, rfl⟩ := h
    exact ⟨rfl, receiving, (List.append_nil _).symm⟩
  | poller choices happened =>
    have hchange := (poller_view ok h).2.2
    have hhere : ∀ {i}, S.pc = .rxFlush i → i ≤ s := by
      intro i pc
      rw [pc] at receiving
      exact not_lt.mp fun hlt => receiving (.inl hlt)
    -- a slot that has been visited is another one
    have hthere : ∀ {i}, S.pc = .rxFlush i → i ≠ s → S'.pc = .rxFlush (i + 1) →
        ¬ S'.pc.Flushed s := by
      intro i pc hne pc'
      have hle := hhere pc
      rw [pc']
      rintro (hlt | hge)
      · omega
      · omega
    cases hchange with
    | transmit same pc | take pc | burst same pc =>
      exact absurd (PollerPc.flushed_of_transmitting pc s) receiving
    | packet pc pc' rxQ txQ rxBuffer =>
      refine ⟨rfl, ?_, rxBuffer s⟩
      rw [pc']
      exact not_le.mpr hs
    | burstDone same pc pc' =>
      refine ⟨rfl, ?_, ?_⟩
      · rw [pc']
        rintro (hlt | hge)
        · exact Nat.not_lt_zero s hlt
        · exact absurd hs (not_lt.mpr hge)
      · rw [same.rxBuffer]
        exact (List.append_nil _).symm
    | skip hi same pc pc' unused =>
      refine ⟨rfl, hthere pc (of_decide_eq_false unvisited) pc', ?_⟩
      rw [same.rxBuffer]
      exact (List.append_nil _).symm
    | flush hi pc pc' used txQ rxBuffer rxQ =>
      have hne := of_decide_eq_false unvisited
      refine ⟨rfl, hthere pc hne pc', ?_⟩
      rw [rxBuffer, Function.update_of_ne (Ne.symm hne)]
      exact (List.append_nil _).symm
    | flushDone hi same pc pc' => exact absurd (hhere pc) (by omega)

theorem pc_of_visits (ok : S.shared.mem.Ok)
    (visited : (SystemEvent.poller choices happened).visits s)
    (h : pollerStep dpdk choices S = .ok (happened, S')) : S.pc = .rxFlush s := by
  cases move_of_pollerStep ok h with
  | visit hi pc => rw [pc, of_decide_eq_true visited]
  | _ => cases visited

end Step

section Runs

variable {dpdk : Dpdk} {config : Configuration} {zones : AllocatorZones} {S T : System}
  {log log' : List SystemEvent} {s : ℕ}

/-- **Received packets do not get stuck.** While packets are received, or the buffers before that
of slot `s` are flushed, let the socket in slot `s` be open and stay open. Before the iteration
ends the buffer of the slot is drained, with all that is stored into it until then. -/
theorem staged_drained (run : Run (SystemEvent.step dpdk config) (systemInit zones) log S)
    (rest : Run (SystemEvent.step dpdk config) S log' T) (hs : s < numSocketsMax)
    (receiving : ¬ S.pc.Flushed s) (used : (S.shared.desc.slots s).used)
    (notClosed : SystemEvent.api (.close s (.ok ())) ∉ log')
    (iteration : ∃ e ∈ log', e.endsIteration) :
    ∃ before e after U V, log' = before ++ e :: after ∧
      (∀ a ∈ before, a.endsIteration = false) ∧ e.visits s ∧
      Run (SystemEvent.step dpdk config) S before U ∧ e.step dpdk config U V ∧
      Run (SystemEvent.step dpdk config) V after T ∧
      U.rxBuffer s = S.rxBuffer s ++ before.flatMap (SystemEvent.stagedTo s) ∧
      U.Drained V s := by
  obtain ⟨ends, hends, hend⟩ := iteration
  obtain ⟨before, e, after, U, V, rfl, hbefore, he, first, hstep, last⟩ := rest.exists_first
    (p := fun e => e.visits s || e.endsIteration) ⟨ends, hends, by rw [hend, Bool.or_true]⟩
  have hquiet : ∀ a ∈ before, ∀ _ : System,
      a.visits s = false ∧ a ≠ .api (.close s (.ok ())) := fun a ha _ =>
    ⟨(Bool.or_eq_false_iff.mp (hbefore a ha)).1,
      fun heq => notClosed (List.mem_append_left _ (heq ▸ ha))⟩
  obtain ⟨ok, opened, pending, hbuffer⟩ : U.shared.Ok ∧ (U.shared.desc.slots s).used ∧
      ¬ U.pc.Flushed s ∧
      U.rxBuffer s = S.rxBuffer s ++ before.flatMap (SystemEvent.stagedTo s) := by
    refine (first.guard hquiet).invariant (fun log U => U.shared.Ok ∧
      (U.shared.desc.slots s).used ∧ ¬ U.pc.Flushed s ∧
      U.rxBuffer s = S.rxBuffer s ++ log.flatMap (SystemEvent.stagedTo s)) ?_ ?_
    · exact ⟨(ok_of_run run).1, used, receiving, (List.append_nil _).symm⟩
    · rintro log U a V - ⟨ok, opened, pending, hbuffer⟩ ⟨hstep, unvisited, hopen⟩
      obtain ⟨-, pending', hstaged⟩ := staged_of_step ok hs pending unvisited hstep
      refine ⟨ok.systemStep hstep, used_of_step ok opened hopen hstep, pending', ?_⟩
      rw [hstaged, hbuffer, List.append_assoc, List.flatMap_append, List.flatMap_singleton]
  have visited : e.visits s := by
    by_contra hunvisited
    have unvisited : e.visits s = false := Bool.eq_false_iff.mpr hunvisited
    rw [unvisited, Bool.false_or, (staged_of_step ok hs pending unvisited hstep).1] at he
    cases he
  refine ⟨before, e, after, U, V, rfl, fun a ha => (Bool.or_eq_false_iff.mp (hbefore a ha)).2,
    visited, first, hstep, last, hbuffer, ?_⟩
  cases e with
  | api => cases visited
  | poller choices happened =>
    exact drained_of_visit hs opened (pc_of_visits ok.mem visited hstep.2) hstep.2

end Runs

/-! ## A packet of one socket -/

/-- A packet for a bound socket was received and is staged. -/
theorem exists_run_staged : ∃ (log : List SystemEvent) (S : System),
    Run (SystemEvent.step Dpdk.reference Configuration.zero) (systemInit ⟨0, 0, 0, 0⟩) log S ∧
    S.pc = .rx [] ∧ (S.shared.desc.slots 0).used ∧ (S.rxBuffer 0).length = 1 := by
  obtain ⟨S, run, hpc, ok, hempty, -, hbound, hreceivers⟩ := exists_run_received
    (Nat.le_of_ble_eq_true rfl) (List.cons_ne_nil (datagramTo 7 53) [])
  have hroom : S.HasRoom (some (datagramTo 7 53)) :=
    hasRoom_of_empty hempty ((hbound.single _).trans (by decide))
  have hpacket : ∃ delivered T, (SystemEvent.poller (.whole []) (.rxPacket (datagramTo 7 53)
      delivered)).step Dpdk.reference Configuration.zero S T ∧ _ :=
    exists_step_rxPacket ok hpc (datagramOf_datagramTo (.whole []) 7 53) hroom
  obtain ⟨delivered, T, hstep, hpc', -, -, -, hstaged⟩ := hpacket
  have used : (S.shared.desc.slots 0).used := by rw [hbound.slot]
  have notClose : SystemEvent.poller (.whole []) (.rxPacket (datagramTo 7 53) delivered) ≠
      .api (.close (0 : ℕ) (.ok ())) := SystemEvent.noConfusion
  refine ⟨_, T, run.snoc hstep, hpc', used_of_step ok used notClose hstep, ?_⟩
  rw [hstaged, hempty, hreceivers]
  rfl

/-- The poller goes on to the end of the iteration. -/
theorem staged_drained_of_packet : ∃ (e : SystemEvent) (U V : System),
    e.visits 0 ∧ e.step Dpdk.reference Configuration.zero U V ∧ U.rxBuffer 0 ≠ [] ∧
      U.Drained V 0 := by
  obtain ⟨log, S, run, hpc, used, hlen⟩ := exists_run_staged
  have quiet : S.Quiet := fun m pending h => by rw [hpc] at h; cases h
  obtain ⟨_, T, rest, ⟨log', e, rfl, -, he⟩, -⟩ := @exists_iteration_of_quiet Dpdk.reference
    Configuration.zero S (ok_of_run run).1 (ok_of_run run).2 quiet
  have notClosed : SystemEvent.api (.close (0 : ℕ) (.ok ())) ∉ log' ++ [e] := by
    intro hmem
    obtain ⟨U, V, -, hfollows⟩ := rest.exists_step hmem
    exact hfollows
  have receiving : ¬ S.pc.Flushed 0 := by
    rw [hpc]
    exact not_le.mpr (by decide)
  obtain ⟨before, a, after, U, V, -, -, visited, -, hstep, -, hbuffer, drained⟩ :=
    staged_drained run (rest.mono fun _ _ _ h => h.1) (by decide) receiving used notClosed
      ⟨e, by simp, he⟩
  refine ⟨a, U, V, visited, hstep, ?_, drained⟩
  intro hnil
  rw [hbuffer] at hnil
  rw [(List.append_eq_nil_iff.mp hnil).1] at hlen
  cases hlen

end Udpdk
