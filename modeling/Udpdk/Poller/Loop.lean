import Udpdk.Poller.Transmit

/-!
# The loop of the poller, step by step

What `pollerStep` does at each place of the loop where its outcome is determined, and the way
past slots that are not in use. With these steps runs of the poller are put together.

## Main results

* `System.Overflows.pollerStep_eq` — a packet that finds a staging buffer full
* `reassemble_of_pollerStep` — a packet is demultiplexed by `reassemble`
* `run_txSlots`, `run_rxSlots` — the loops over the slots, where no slot is in use
* `exists_run_nextBurst` — from one burst to the next, while no socket is open
-/

namespace Udpdk

open Foundation

/-- A burst arrives, every packet can be cloned, and none can be fragmented. -/
def DpdkChoices.whole (burst : List Mbuf) : DpdkChoices := { smooth burst with fragments := none }

section Steps

variable {dpdk : Dpdk} {config : Configuration} {choices : DpdkChoices} {S S' T : System} {i : ℕ}
  {m pkt : Mbuf} {pending burst : List Mbuf} {delivered : List Delivery} {q : BoundedQueue Mbuf}

theorem admissible_whole (h : burst.length ≤ rxMbufTableSize) :
    (DpdkChoices.whole burst).Admissible S :=
  ⟨h, fun _ hfrags => absurd hfrags (Option.not_mem_none _), Nat.zero_le _⟩

theorem pollerStep_rx_cons (hpc : S.pc = .rx (m :: pending))
    (hret : reassemble dpdk choices m S = .ok (delivered, T)) :
    pollerStep dpdk choices S = .ok (.rxPacket m delivered, { T with pc := .rx pending }) := by
  rw [pollerStep, Prog.bind_of_ok (Prog.read_apply S), hpc]
  dsimp only
  rw [Prog.bind_of_ok hret]
  rfl

/-- The next packet of the burst finds no room in a staging buffer that it is for. -/
def System.Overflows (S : System) (dpdk : Dpdk) (choices : DpdkChoices) : Prop :=
  ∃ m pending, S.pc = .rx (m :: pending) ∧ ¬ S.HasRoom (datagramOf dpdk choices m)

/-- Then `enqueue_rx_packet` stores behind the end of the buffer. -/
theorem System.Overflows.pollerStep_eq (ok : S.shared.mem.Ok) (hclone : ∀ n, choices.clone n ≠ none)
    (h : S.Overflows dpdk choices) : pollerStep dpdk choices S = .error .outOfBounds := by
  obtain ⟨m, pending, hpc, hfull⟩ := h
  rw [pollerStep, Prog.bind_of_ok (Prog.read_apply S), hpc]
  exact Prog.bind_of_error (reassemble_of_full ok hclone hfull)

end Steps

/-! ## Packets that are demultiplexed -/

section Packets

variable {dpdk : Dpdk} {config : Configuration} {choices : DpdkChoices} {S S' : System} {m : Mbuf}
  {delivered : List Delivery}

/-- A packet of the burst is demultiplexed by `reassemble`. -/
theorem reassemble_of_pollerStep (ok : S.shared.mem.Ok)
    (h : pollerStep dpdk choices S = .ok (.rxPacket m delivered, S')) : ∃ pending T,
      S.pc = .rx (m :: pending) ∧ reassemble dpdk choices m S = .ok (delivered, T) ∧
        S' = { T with pc := .rx pending } := by
  obtain ⟨-, -, hchange⟩ := Prog.wp_of_ok (pollerStep_spec ok) h
  cases hchange with
  | @packet m pending delivered pc =>
    rw [pollerStep, Prog.bind_of_ok (Prog.read_apply S), pc] at h
    obtain ⟨delivered', T, hret, hrest⟩ := Prog.bind_eq_ok_iff.mp h
    obtain ⟨hevent, hstate⟩ := Prod.mk.inj (Except.ok.inj hrest)
    obtain ⟨-, rfl⟩ := PollerEvent.rxPacket.inj hevent
    exact ⟨pending, T, pc, hret, hstate.symm⟩

end Packets

/-! ## Slots that are not in use -/

section Slots

variable {dpdk : Dpdk} {config : Configuration} {S : System} {i : ℕ}

/-- Past slots that are not in use, the loop over the tx rings does nothing. -/
theorem run_txSlots (n : ℕ) (hpc : S.pc = .txSlot i) (hlen : i + n = numSocketsMax)
    (unused : ∀ j, i ≤ j → j < numSocketsMax → (S.shared.desc.slots j).used = false) :
    Run (SystemEvent.step dpdk config) S (List.replicate n (.poller (.whole []) .internal))
      { S with pc := .txSlot numSocketsMax } := by
  induction n generalizing S i with
  | zero =>
    have hend : { S with pc := .txSlot numSocketsMax } = S := by rw [← hlen, add_zero, ← hpc]
    rw [hend]
    exact .nil
  | succ n ih =>
    have hi : i < numSocketsMax := by omega
    have hstep : (SystemEvent.poller (.whole []) .internal).step dpdk config S
        { S with pc := .txSlot (i + 1) } := by
      refine ⟨admissible_whole (Nat.zero_le _), ?_⟩
      rw [pollerStep_txSlot hpc hi, unused i le_rfl hi]
      rfl
    rw [List.replicate_succ]
    refine Run.cons hstep ?_
    exact ih (S := { S with pc := .txSlot (i + 1) }) rfl (by omega)
      fun j hj => unused j (Nat.le_of_succ_le hj)

/-- At the start of an iteration the poller goes past all slots and receives a burst. -/
theorem run_burst (hpc : S.pc = .txSlot 0) (htable : S.txCount = 0)
    (unused : ∀ j < numSocketsMax, (S.shared.desc.slots j).used = false) {burst : List Mbuf}
    (hlen : burst.length ≤ rxMbufTableSize) (hne : burst ≠ []) :
    Run (SystemEvent.step dpdk config) S (List.replicate 1024 (.poller (.whole []) .internal) ++
      [.poller (.whole burst) (.rxBurst burst)]) { S with pc := .rx burst } := by
  have hloop : Run (SystemEvent.step dpdk config) S _ _ :=
    run_txSlots 1024 hpc rfl fun j _ => unused j
  have hsome : burst.isEmpty = false := by
    rw [← Bool.not_eq_true, List.isEmpty_iff]
    exact hne
  have hburst : pollerStep dpdk (.whole burst) { S with pc := .txSlot numSocketsMax } = _ :=
    pollerStep_burst_of_empty rfl (lt_irrefl numSocketsMax) htable
  refine hloop.snoc ⟨admissible_whole hlen, hburst.trans ?_⟩
  change Except.ok (PollerEvent.rxBurst burst, { S with
    pc := if burst.isEmpty then .txSlot 0 else .rx burst }) = _
  rw [hsome]
  rfl

theorem run_firstBurst (dpdk : Dpdk) (config : Configuration) (zones : AllocatorZones)
    {burst : List Mbuf} (hlen : burst.length ≤ rxMbufTableSize) (hne : burst ≠ []) :
    Run (SystemEvent.step dpdk config) (systemInit zones)
      (List.replicate 1024 (.poller (.whole []) .internal) ++
        [.poller (.whole burst) (.rxBurst burst)]) { systemInit zones with pc := .rx burst } :=
  run_burst rfl rfl (fun _ _ => rfl) hlen hne

/-- The loop that flushes the staging buffers passes over slots that are not in use. -/
theorem run_rxSlots (n : ℕ) (hpc : S.pc = .rxFlush i) (hlen : i + n = numSocketsMax)
    (unused : ∀ j, i ≤ j → j < numSocketsMax → (S.shared.desc.slots j).used = false) :
    Run (SystemEvent.step dpdk config) S
      ((List.range' i n).map fun j => .poller (.whole []) (.rxFlush j))
      { S with pc := .rxFlush numSocketsMax } := by
  induction n generalizing S i with
  | zero =>
    have hend : { S with pc := .rxFlush numSocketsMax } = S := by rw [← hlen, add_zero, ← hpc]
    rw [hend]
    exact .nil
  | succ n ih =>
    have hi : i < numSocketsMax := by omega
    have hstep : (SystemEvent.poller (.whole []) (.rxFlush i)).step dpdk config S
        { S with pc := .rxFlush (i + 1) } := by
      refine ⟨admissible_whole (Nat.zero_le _), ?_⟩
      rw [pollerStep, Prog.bind_of_ok (Prog.read_apply S), hpc]
      dsimp only
      rw [if_pos hi, unused i le_rfl hi]
      rfl
    refine Run.cons hstep ?_
    exact ih (S := { S with pc := .rxFlush (i + 1) }) rfl (by omega)
      fun j hj => unused j (Nat.le_of_succ_le hj)

/-- From the end of a burst to the next one, while no socket is open: nothing is flushed. -/
theorem exists_run_nextBurst (dpdk : Dpdk) (config : Configuration) (hpc : S.pc = .rx [])
    (htable : S.txCount = 0)
    (unused : ∀ j < numSocketsMax, (S.shared.desc.slots j).used = false) {burst : List Mbuf}
    (hlen : burst.length ≤ rxMbufTableSize) (hne : burst ≠ []) :
    ∃ log, Run (SystemEvent.step dpdk config) S log { S with
      pc := .rx burst
      deathRow := []
      shared := { S.shared with freed := S.shared.freed ++ S.deathRow } } := by
  have hfirst : (SystemEvent.poller (.whole []) .internal).step dpdk config S
      { S with pc := .rxFlush 0 } := by
    refine ⟨admissible_whole (Nat.zero_le _), ?_⟩
    rw [pollerStep, Prog.bind_of_ok (Prog.read_apply S), hpc]
    rfl
  have hflush : Run (SystemEvent.step dpdk config) { S with pc := .rxFlush 0 } _
      { S with pc := .rxFlush numSocketsMax } :=
    run_rxSlots (S := { S with pc := .rxFlush 0 }) 1024 rfl rfl fun j _ => unused j
  have hdone : (SystemEvent.poller (.whole []) .rxDone).step dpdk config
      { S with pc := .rxFlush numSocketsMax } { S with
        pc := .txSlot 0
        deathRow := []
        shared := { S.shared with freed := S.shared.freed ++ S.deathRow } } :=
    ⟨admissible_whole (Nat.zero_le _), rfl⟩
  obtain ⟨T, hT⟩ : ∃ T : System, T = { S with
      pc := .txSlot 0
      deathRow := []
      shared := { S.shared with freed := S.shared.freed ++ S.deathRow } } := ⟨_, rfl⟩
  have hburst : Run (SystemEvent.step dpdk config) T _ { T with pc := .rx burst } :=
    run_burst (by rw [hT]) (by rw [hT]; exact htable) (by rw [hT]; exact unused) hlen hne
  rw [hT] at hburst
  exact ⟨_, ((Run.single hfirst).append (hflush.snoc hdone)).append hburst⟩

end Slots

end Udpdk
