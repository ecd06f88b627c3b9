import Udpdk.Poller.Loop

/-!
# The death row

The fragments that the fragment table gives up are collected on the death row and freed once
in an iteration of the poller, behind the last packet of the burst. DPDK sizes the row for
bursts of 32 packets; the poller receives up to 128 at once.

## Main definitions

* `isFragment` — the packets that `reassemble` hands to the fragment table
* `SystemEvent.WithinFragTable` — what DPDK promises of one call of the table
* `System.RowFits` — the row has room for what the rest of the burst may add

## Main results

* `deathRow_pollerStep` — the effect of a step of the poller on the row
* `System.RowFits.step` — bursts with few fragments keep the room
* `death_row_bounded_iff` — for which bursts the row never overflows
-/

namespace Udpdk

open Foundation

/-- The packet goes to the fragment table. -/
def isFragment (dpdk : Dpdk) (m : Mbuf) : Bool :=
  dpdk.ethIsIpv4Hdr m.packetType && dpdk.ipv4FragPktIsFragmented m.fragmentOffset

/-- The packets of a burst that go to the fragment table. -/
def fragmentsIn (dpdk : Dpdk) (packets : List Mbuf) : ℕ := packets.countP (isFragment dpdk)

/-- `IP_FRAG_DEATH_ROW_LEN`. -/
def ipFragDeathRowLen : ℕ := 32

/-- What one call of the fragment table may add: a flow that is given up, and the packet. -/
def maxDead : ℕ := maxPacketFrag + 1

/-- The room of `struct rte_ip_frag_death_row`. -/
def deathRowRoom : ℕ := ipFragDeathRowLen * maxDead

/-- The fragment table adds no more to the row than it may. -/
def SystemEvent.WithinFragTable : SystemEvent → Prop
  | .api _ => True
  | .poller choices _ => choices.dead.length ≤ maxDead

/-- The packets of the burst that are still to be demultiplexed. -/
def PollerPc.pending : PollerPc → List Mbuf
  | .rx pending => pending
  | _ => []

section Step

variable {dpdk : Dpdk} {config : Configuration} {choices : DpdkChoices} {S S' T : System}
  {m : Mbuf} {delivered : List Delivery} {happened : PollerEvent}

/-! ## What keeps the row -/

theorem keeps_onTable {α : Type} (x : MemProg α) : Prog.Keeps System.deathRow (onTable x) :=
  .zoom fun _ _ => rfl

theorem keeps_onShared {α : Type} (x : SharedProg α) : Prog.Keeps System.deathRow (onShared x) :=
  .zoom fun _ _ => rfl

theorem keeps_freeMbuf (o : Option Mbuf) : Prog.Keeps System.deathRow (freeMbuf o) := by
  cases o with
  | none => exact .pure ()
  | some m => exact keeps_onShared _

theorem keeps_flushTxTable (txSent : ℕ) : Prog.Keeps System.deathRow (flushTxTable txSent) := by
  refine Prog.Keeps.read.bind fun S => ?_
  refine Prog.Keeps.bind (.update fun _ => rfl) fun _ => ?_
  exact (Prog.Keeps.forM keeps_freeMbuf _).bind fun _ => .update fun _ => rfl

theorem keeps_stageTx (pkt : Mbuf) : Prog.Keeps System.deathRow (stageTx choices pkt) := by
  refine .ite (.bind (.update fun _ => rfl) fun _ => .pure true) ?_
  cases choices.fragments with
  | none => exact (keeps_freeMbuf _).bind fun _ => .pure false
  | some frags =>
    refine Prog.Keeps.bind (.update fun _ => rfl) fun _ => ?_
    refine (keeps_freeMbuf _).bind fun _ => ?_
    have hlast : Prog.Keeps System.deathRow (do
        Prog.update fun S : System => { S with txCount := u16 (S.txCount + frags.length) }
        return true : SystemProg Bool) := .bind (.update fun _ => rfl) fun _ => .pure true
    refine .ite ?_ ?_
    · refine (Prog.Keeps.forM (fun frag => keeps_freeMbuf (some frag)) frags).bind fun _ => ?_
      exact Prog.Keeps.bind (.update fun _ => rfl) fun _ => hlast
    · exact Prog.Keeps.bind (.update fun _ => rfl) fun _ => hlast

theorem keeps_flushRxQueue (i : ℕ) : Prog.Keeps System.deathRow (flushRxQueue i) := by
  refine Prog.Keeps.read.bind fun S => ?_
  refine .ite (.pure ()) ?_
  cases (S.shared.rxQ i).enqueueBulk (S.rxBuffer i) with
  | none => exact (Prog.Keeps.forM keeps_freeMbuf _).bind fun _ => .update fun _ => rfl
  | some q => exact (keeps_onShared _).bind fun _ => .update fun _ => rfl

theorem keeps_enqueueRxPacket (sockfd : ℤ) (buf : Option Mbuf) :
    Prog.Keeps System.deathRow (enqueueRxPacket sockfd buf) :=
  Prog.Keeps.read.bind fun _ => .ite (.update fun _ => rfl) (.stop _)

theorem keeps_reassembleStep (ip : InAddr) (node : ℕ) (d : Demux) :
    Prog.Keeps System.deathRow (reassembleStep choices ip node d) := by
  refine (keeps_onTable _).bind fun n => ?_
  refine (keeps_onTable _).bind fun b => ?_
  refine .ite ?_ (.pure _)
  refine (keeps_enqueueRxPacket b.sockfd d.m).bind fun _ => ?_
  refine .ite (.bind ?_ fun _ => .pure _) (.pure _)
  cases d.m with
  | none => exact .stop _
  | some m => exact .pure _

/-- `reassemble` hands a fragment to the table, which may add to the row. -/
theorem deathRow_reassemble (h : reassemble dpdk choices m S = .ok (delivered, T)) :
    T.deathRow = S.deathRow ++ if isFragment dpdk m then choices.dead else [] := by
  obtain ⟨whole, U, hwhole, hrest⟩ := Prog.bind_eq_ok_iff.mp h
  have hkeeps : T.deathRow = U.deathRow := by
    refine (?_ : Prog.Keeps System.deathRow _) U delivered T hrest
    cases whole with
    | none => exact .pure []
    | some m =>
      refine .ite (.pure []) ?_
      refine (keeps_onTable _).bind fun binds => ?_
      refine .ite (.pure []) ?_
      refine (keeps_onTable _).bind fun it => ?_
      refine (Prog.Keeps.whileSome (keeps_onTable _)
        (keeps_reassembleStep m.dstAddr) _ _).bind fun d => ?_
      have hend : Prog.Keeps System.deathRow (do
          onTable (listIteratorDestroy it)
          return d.delivered : SystemProg (List Delivery)) :=
        (keeps_onTable _).bind fun _ => .pure d.delivered
      exact .ite ((keeps_freeMbuf d.m).bind fun _ => hend) hend
  rw [hkeeps]
  unfold wholePacket at hwhole
  unfold isFragment
  cases hip : dpdk.ethIsIpv4Hdr m.packetType with
  | false =>
    rw [hip] at hwhole
    obtain ⟨-, rfl⟩ := Prod.mk.inj (Except.ok.inj hwhole)
    exact (List.append_nil _).symm
  | true =>
    cases hfrag : dpdk.ipv4FragPktIsFragmented m.fragmentOffset with
    | false =>
      rw [hip, hfrag] at hwhole
      obtain ⟨-, rfl⟩ := Prod.mk.inj (Except.ok.inj hwhole)
      exact (List.append_nil _).symm
    | true =>
      rw [hip, hfrag] at hwhole
      obtain ⟨-, rfl⟩ := Prod.mk.inj (Except.ok.inj hwhole)
      rfl

/-- A step of the poller adds to the row what the fragment table gives up, and frees it behind
the burst. -/
theorem deathRow_pollerStep (h : pollerStep dpdk choices S = .ok (happened, S')) :
    S'.deathRow = match S.pc with
      | .rx (m :: _) => S.deathRow ++ if isFragment dpdk m then choices.dead else []
      | .rxFlush i => if i < numSocketsMax then S.deathRow else []
      | _ => S.deathRow := by
  rw [pollerStep, Prog.bind_of_ok (Prog.read_apply S)] at h
  have hgoto : ∀ pc, Prog.Keeps System.deathRow (goto pc) := fun _ => .update fun _ => rfl
  cases hpc : S.pc with
  | txSlot i =>
    rw [hpc] at h
    refine (?_ : Prog.Keeps System.deathRow _) S happened S' h
    refine .ite (.ite ((hgoto _).bind fun _ => .pure _) ((hgoto _).bind fun _ => .pure _)) ?_
    have hburst : Prog.Keeps System.deathRow (do
        if choices.burst.isEmpty then goto (.txSlot 0) else goto (.rx choices.burst)
        return PollerEvent.rxBurst choices.burst : SystemProg PollerEvent) :=
      .ite ((hgoto _).bind fun _ => .pure _) ((hgoto _).bind fun _ => .pure _)
    exact .ite ((keeps_flushTxTable _).bind fun _ => hburst) hburst
  | txDrain i =>
    rw [hpc] at h
    refine (?_ : Prog.Keeps System.deathRow _) S happened S' h
    refine .ite ?_ ((hgoto _).bind fun _ => .pure _)
    cases (S.shared.txQ i).dequeue with
    | none => exact (hgoto _).bind fun _ => .pure _
    | some r =>
      refine (keeps_onShared _).bind fun _ => ?_
      refine (keeps_stageTx _).bind fun more => ?_
      exact .ite ((hgoto _).bind fun _ => .pure _) (.pure _)
  | txBatch i =>
    rw [hpc] at h
    refine (?_ : Prog.Keeps System.deathRow _) S happened S' h
    have hnext : Prog.Keeps System.deathRow (do
        goto (.txSlot (i + 1))
        return PollerEvent.internal : SystemProg PollerEvent) := (hgoto _).bind fun _ => .pure _
    exact .ite ((keeps_flushTxTable _).bind fun _ => hnext) hnext
  | rx pending =>
    rw [hpc] at h
    cases pending with
    | nil => exact ((hgoto (.rxFlush 0)).bind fun _ => .pure _) S happened S' h
    -- the one place where fragments are given up
    | cons m pending =>
      obtain ⟨delivered, T, hret, hrest⟩ := Prog.bind_eq_ok_iff.mp h
      have hrow : S'.deathRow = T.deathRow :=
        ((hgoto (.rx pending)).bind fun _ => .pure _) T happened S' hrest
      rw [hrow, deathRow_reassemble hret]
  | rxFlush i =>
    rw [hpc] at h
    dsimp only at h ⊢
    by_cases hi : i < numSocketsMax
    · rw [if_pos hi] at h ⊢
      refine (?_ : Prog.Keeps System.deathRow _) S happened S' h
      have hnext : Prog.Keeps System.deathRow (do
          goto (.rxFlush (i + 1))
          return PollerEvent.rxFlush i : SystemProg PollerEvent) :=
        (hgoto _).bind fun _ => .pure _
      exact .ite ((keeps_flushRxQueue i).bind fun _ => hnext) hnext
    · -- `rte_ip_frag_free_death_row`
      rw [if_neg hi] at h ⊢
      obtain ⟨-, rfl⟩ := Prod.mk.inj (Except.ok.inj h)
      rfl

end Step

/-! ## Bursts with few fragments -/

/-- The row is empty outside the reception of a burst, and has room for what every packet that is
still to be demultiplexed may add. -/
structure System.RowFits (S : System) (dpdk : Dpdk) : Prop where
  room : S.deathRow.length + maxDead * fragmentsIn dpdk S.pc.pending ≤ deathRowRoom
  empty : S.pc.transmitting → S.deathRow = []

section Runs

variable {dpdk : Dpdk} {config : Configuration} {choices : DpdkChoices} {S S' : System}
  {e : SystemEvent} {log : List SystemEvent} {m : Mbuf} {pending : List Mbuf}

theorem length_append_dead (hdead : choices.dead.length ≤ maxDead) (row : List ℕ) :
    (row ++ if isFragment dpdk m then choices.dead else []).length +
      maxDead * fragmentsIn dpdk pending ≤
        row.length + maxDead * fragmentsIn dpdk (m :: pending) := by
  unfold fragmentsIn
  rw [List.length_append, List.countP_cons]
  cases isFragment dpdk m with
  | false => exact le_rfl
  | true =>
    rw [if_pos rfl, if_pos rfl, Nat.mul_add]
    omega

theorem PollerPc.pending_of_transmitting {pc : PollerPc} (h : pc.transmitting) :
    pc.pending = [] := by
  cases pc with
  | rx pending => cases h
  | _ => rfl

theorem System.RowFits.of_empty (hrow : S.deathRow = []) (hpc : S.pc.transmitting) :
    S.RowFits dpdk where
  room := by
    rw [hrow, PollerPc.pending_of_transmitting hpc]
    exact Nat.zero_le _
  empty _ := hrow

theorem System.RowFits.of_receiving (hpc : ¬ S.pc.transmitting)
    (room : S.deathRow.length + maxDead * fragmentsIn dpdk S.pc.pending ≤ deathRowRoom) :
    S.RowFits dpdk where
  room := room
  empty htrans := absurd htrans hpc

/-- **One step.** The row keeps its room when a burst has no more fragments than it is made
for. -/
theorem System.RowFits.step (ok : S.shared.Ok) (fits : S.RowFits dpdk)
    (h : e.step dpdk config S S') (hdead : e.WithinFragTable)
    (hburst : ∀ choices burst, e = .poller choices (.rxBurst burst) →
      fragmentsIn dpdk burst ≤ ipFragDeathRowLen) : S'.RowFits dpdk := by
  cases e with
  | api e =>
    obtain ⟨σ, -, rfl⟩ := h
    exact ⟨fits.room, fits.empty⟩
  | poller choices happened =>
    have hrow := deathRow_pollerStep h.2
    obtain ⟨-, -, hchange⟩ := poller_view ok h
    have hempty : S.pc.transmitting → S'.deathRow = [] := by
      intro hpc
      rw [hrow, ← fits.empty hpc]
      cases hplace : S.pc with
      | rx pending => rw [hplace] at hpc; cases hpc
      | rxFlush i => rw [hplace] at hpc; cases hpc
      | _ => rfl
    cases hchange with
    | transmit _ pc pc' => exact .of_empty (hempty pc) pc'
    | take pc pc' => exact .of_empty (hempty pc) pc'
    | burst _ pc pc' =>
      obtain hrx | htrans := pc'
      · refine .of_receiving (by rw [hrx]; exact Bool.false_ne_true) ?_
        rw [hempty pc, hrx, List.length_nil, Nat.zero_add, deathRowRoom,
          Nat.mul_comm ipFragDeathRowLen]
        exact Nat.mul_le_mul_left maxDead (hburst choices choices.burst rfl)
      · exact .of_empty (hempty pc) htrans
    | packet pc pc' =>
      have hroom := fits.room
      rw [pc] at hrow hroom
      refine .of_receiving (by rw [pc']; exact Bool.false_ne_true) ?_
      rw [hrow, pc']
      exact (length_append_dead hdead S.deathRow).trans hroom
    | burstDone _ pc pc' =>
      have hroom := fits.room
      rw [pc] at hrow hroom
      refine .of_receiving (by rw [pc']; exact Bool.false_ne_true) ?_
      rw [hrow, pc']
      exact hroom
    | skip hi _ pc pc' =>
      have hroom := fits.room
      rw [pc] at hrow hroom
      refine .of_receiving (by rw [pc']; exact Bool.false_ne_true) ?_
      rw [hrow, pc']
      dsimp only
      rw [if_pos hi]
      exact hroom
    | flush hi pc pc' =>
      have hroom := fits.room
      rw [pc] at hrow hroom
      refine .of_receiving (by rw [pc']; exact Bool.false_ne_true) ?_
      rw [hrow, pc']
      dsimp only
      rw [if_pos hi]
      exact hroom
    | flushDone hi _ pc pc' =>
      rw [pc] at hrow
      dsimp only at hrow
      rw [if_neg hi] at hrow
      exact .of_empty hrow pc'

/-! ## Bursts with too many fragments -/

/-- With every fragment, the table gives up as much as it may. -/
def DpdkChoices.expiring : DpdkChoices := { whole [] with dead := List.replicate maxDead 0 }

/-- The rest of a burst, where every fragment costs a flow and no socket is bound. -/
theorem exists_run_expiring (dpdk : Dpdk) (config : Configuration) (ok : S.shared.Ok)
    (unbound : ∀ p, S.shared.mem.bindings p = []) (hpc : S.pc = .rx pending) :
    ∃ log S', Run (SystemEvent.step dpdk config) S log S' ∧
      (∀ e ∈ log, e.WithinFragTable ∧ ∀ choices burst, e ≠ .poller choices (.rxBurst burst)) ∧
      S'.deathRow.length = S.deathRow.length + maxDead * fragmentsIn dpdk pending := by
  induction pending generalizing S with
  | nil => exact ⟨[], S, .nil, fun _ he => absurd he List.not_mem_nil, rfl⟩
  | cons m pending ih =>
    have hroom : S.HasRoom (datagramOf dpdk .expiring m) := by
      cases datagramOf dpdk .expiring m with
      | none => exact System.roomFor_nil
      | some d =>
        rw [System.HasRoom, System.receiversOf, unbound]
        exact System.roomFor_nil
    obtain ⟨delivered, T, hret, -⟩ :=
      exists_reassemble ok.mem (fun n => Option.some_ne_none n) hroom
    have hrow := deathRow_reassemble hret
    have hstep : (SystemEvent.poller .expiring (.rxPacket m delivered)).step dpdk config S
        { T with pc := .rx pending } :=
      ⟨⟨Nat.zero_le _, fun _ hfrags => absurd hfrags (Option.not_mem_none _), Nat.zero_le _⟩,
        pollerStep_rx_cons hpc hret⟩
    have hview := (poller_view ok hstep).2.1
    obtain ⟨log, S', run, hlog, hlen⟩ := ih (ok.systemStep hstep)
      (fun p => (congrFun (congrArg SocketView.bindings hview) p).trans (unbound p)) rfl
    refine ⟨_, S', .cons hstep run, ?_, ?_⟩
    · intro e he
      obtain rfl | he := List.mem_cons.mp he
      · refine ⟨(List.length_replicate ..).le, fun choices burst h => ?_⟩
        cases h
      · exact hlog e he
    · rw [hlen]
      change T.deathRow.length + _ = _
      rw [hrow, List.length_append]
      unfold fragmentsIn
      rw [List.countP_cons]
      cases isFragment dpdk m with
      | false =>
        rw [if_neg Bool.false_ne_true, if_neg Bool.false_ne_true, List.length_nil, Nat.add_zero,
          Nat.add_zero]
      | true =>
        have hdead : DpdkChoices.expiring.dead.length = maxDead := List.length_replicate ..
        rw [if_pos rfl, if_pos rfl, hdead, Nat.mul_add]
        omega

/-- A burst with more fragments than the row is made for can overflow it. -/
theorem exists_overflow (dpdk : Dpdk) (config : Configuration) (zones : AllocatorZones)
    {burst : List Mbuf} (hlen : burst.length ≤ rxMbufTableSize)
    (hmany : ipFragDeathRowLen < fragmentsIn dpdk burst) :
    ∃ log S, Run (SystemEvent.step dpdk config) (systemInit zones) log S ∧
      (∀ e ∈ log, e.WithinFragTable ∧
        ∀ choices packets, e = .poller choices (.rxBurst packets) → packets = burst) ∧
      deathRowRoom < S.deathRow.length := by
  have hne : burst ≠ [] := by
    rintro rfl
    exact absurd hmany (Nat.not_lt_zero _)
  have first := run_firstBurst dpdk config zones hlen hne
  have ok : (systemInit zones).shared.Ok := ok_sharedInit zones
  obtain ⟨log, S, rest, hlog, hrow⟩ := exists_run_expiring dpdk config
    (S := { systemInit zones with pc := .rx burst }) ok (congrFun (bindings_btableInit zones)) rfl
  refine ⟨_, S, first.append rest, ?_, ?_⟩
  · intro e he
    rw [List.mem_append, List.mem_append, List.mem_singleton] at he
    obtain (he | rfl) | he := he
    · rw [List.eq_of_mem_replicate he]
      refine ⟨Nat.zero_le _, fun choices packets h => ?_⟩
      cases h
    · refine ⟨Nat.zero_le _, fun choices packets h => ?_⟩
      cases h
      rfl
    · exact ⟨(hlog e he).1, fun choices packets h => absurd h ((hlog e he).2 choices packets)⟩
  · rw [hrow]
    have hroom := Nat.mul_lt_mul_of_pos_left hmany (Nat.succ_pos maxPacketFrag)
    rw [deathRowRoom, Nat.mul_comm]
    exact hroom.trans_le (Nat.le_add_left _ _)

end Runs

/-- **The death row.** Whatever the fragment table does in its bounds, the row never overflows
exactly when no burst that arrives has more than 32 fragments. -/
theorem death_row_bounded_iff (dpdk : Dpdk) (config : Configuration) (zones : AllocatorZones)
    (bursts : Set (List Mbuf)) :
    (∀ log S, Run (SystemEvent.step dpdk config) (systemInit zones) log S →
      (∀ e ∈ log, e.WithinFragTable ∧
        ∀ choices burst, e = .poller choices (.rxBurst burst) → burst ∈ bursts) →
      S.deathRow.length ≤ deathRowRoom) ↔
    ∀ burst ∈ bursts, burst.length ≤ rxMbufTableSize →
      fragmentsIn dpdk burst ≤ ipFragDeathRowLen := by
  constructor
  · intro bounded burst hburst hlen
    by_contra hmany
    obtain ⟨log, S, run, hlog, hover⟩ :=
      exists_overflow dpdk config zones hlen (not_le.mp hmany)
    refine absurd (bounded log S run fun e he => ⟨(hlog e he).1, ?_⟩) (not_le.mpr hover)
    intro choices packets h
    rw [(hlog e he).2 choices packets h]
    exact hburst
  · intro hfew log S run hlog
    have fits : S.RowFits dpdk := by
      induction run with
      | nil => exact .of_empty rfl rfl
      | @snoc T S before e run hstep ih =>
        have he := hlog e (List.mem_append_right _ (List.mem_singleton_self e))
        refine (ih fun e he => hlog e (List.mem_append_left _ he)).step (.systemRun run) hstep
          he.1 ?_
        rintro choices burst rfl
        obtain ⟨-, -, hchange⟩ := poller_view (.systemRun run) hstep
        cases hchange with
        | burst => exact hfew _ (he.2 choices _ rfl) hstep.1.burst
    exact (Nat.le_add_right _ _).trans fits.room

/-- A frame with the flag for more fragments. -/
def someFragment : Mbuf where
  addr := 0
  packetType := ptypeEtherIpv4Udp
  pktLen := 64
  head := {
    data := fun i => if i = sizeofEtherHdr + 6 then 0x20 else 0
    dataLen := 64 }
  chain := []

theorem isFragment_someFragment : isFragment Dpdk.reference someFragment := by decide

/-- A burst of 33 fragments overflows the row. -/
theorem not_death_row_bounded : ¬ ∀ (dpdk : Dpdk) (config : Configuration)
    (zones : AllocatorZones) (log : List SystemEvent) (S : System),
    Run (SystemEvent.step dpdk config) (systemInit zones) log S →
      (∀ e ∈ log, e.WithinFragTable) → S.deathRow.length ≤ deathRowRoom := by
  intro h
  have hmany : ipFragDeathRowLen <
      fragmentsIn Dpdk.reference (List.replicate 33 someFragment) := by
    rw [fragmentsIn, List.countP_replicate, if_pos isFragment_someFragment]
    decide
  have hlen : (List.replicate 33 someFragment).length ≤ rxMbufTableSize := by
    rw [List.length_replicate]
    decide
  obtain ⟨log, S, run, hlog, hover⟩ :=
    exists_overflow Dpdk.reference Configuration.zero ⟨0, 0, 0, 0⟩ hlen hmany
  exact absurd (h _ _ _ log S run fun e he => (hlog e he).1) (not_le.mpr hover)

end Udpdk
