import Mathlib.Algebra.BigOperators.Group.Finset.Basic
import Mathlib.Tactic.Abel
import Udpdk.Foundation.Conservation
import Udpdk.Poller.System

/-!
# The transmit part of the poller

Packets go from the tx rings into the tx table, whole or in fragments, and from the table to
the network card. Here each step of that part is an action on the table: a packet is taken
out of a ring, or the table is flushed.
-/

namespace Udpdk

open Foundation

/-! ## The tx table -/

/-- The entries of the tx table that are in use. -/
def System.staged (S : System) : List (Option Mbuf) := (List.range S.txCount).map S.txMbufTable

/-- The frames that are put into the table for a packet. -/
def txFrames (choices : DpdkChoices) (pkt : Mbuf) : List Mbuf :=
  if pkt.pktLen.toNat ≤ ipv4MtuDefault then [pkt]
  else if choices.prependFails then []
  else (choices.fragments.getD []).map (reattachEtherHdr pkt)

/-- The buffers that are allocated for the fragments of a packet. -/
def txCreated (choices : DpdkChoices) (pkt : Mbuf) : List ℕ :=
  if pkt.pktLen.toNat ≤ ipv4MtuDefault then [] else (choices.fragments.getD []).map Mbuf.addr

/-- The buffers that are given back when a packet was taken out of its ring. -/
def txReleased (choices : DpdkChoices) (pkt : Mbuf) : List ℕ :=
  if pkt.pktLen.toNat ≤ ipv4MtuDefault then []
  else pkt.addr ::
    if choices.prependFails then (choices.fragments.getD []).map Mbuf.addr else []

/-- The state `S'` has `frames` in the table behind those of `S`, and the buffers `released`
were given back. -/
structure System.Stages (S S' : System) (frames : List Mbuf) (released : List ℕ) : Prop where
  rx : S.SameRx S'
  staged : S'.staged = S.staged ++ frames.map some
  freed : S'.shared.freed = S.shared.freed ++ released
  sent : S'.sent = S.sent

section Table

variable {allowed : Fault → Prop} {choices : DpdkChoices} {S S' : System} {pkt : Mbuf}

theorem length_staged : S.staged.length = S.txCount := by
  rw [System.staged, List.length_map, List.length_range]

theorem map_writeFrom_below {α : Type} (table : ℕ → Option α) (n : ℕ) (xs : List α) :
    (List.range n).map (writeFrom table n xs) = (List.range n).map table := by
  apply List.map_congr_left
  intro k hk
  have hlt : k < n := List.mem_range.mp hk
  rw [writeFrom, if_neg (by omega)]

theorem map_writeFrom {α : Type} (table : ℕ → Option α) (n : ℕ) (xs : List α) :
    (List.range (n + xs.length)).map (writeFrom table n xs) =
      (List.range n).map table ++ xs.map some := by
  rw [List.range_add, List.map_append, map_writeFrom_below, List.map_map]
  congr 1
  apply List.ext_getElem
  · simp
  · intro k hk _
    have hk : k < xs.length := by simpa using hk
    simp [writeFrom, hk]

/-- The frames of a packet fit into the table. -/
theorem add_length_txFrames_le (hroom : S.txCount < burstSize)
    (hfit : ∀ frags ∈ choices.fragments, S.txCount + frags.length ≤ txMbufTableSize) :
    S.txCount + (txFrames choices pkt).length ≤ txMbufTableSize := by
  have hsize : txMbufTableSize = 256 := rfl
  have hburst : burstSize = 128 := rfl
  unfold txFrames
  split_ifs
  · rw [List.length_singleton]
    omega
  · rw [List.length_nil]
    omega
  · rw [List.length_map]
    cases hfrags : choices.fragments with
    | none =>
      rw [Option.getD_none, List.length_nil]
      omega
    | some frags => exact hfit frags hfrags

/-- **Staging.** With room in the table, its counter does not wrap, and the frames of the
packet come behind those that are there. -/
theorem stageTx_stages (hroom : S.txCount < burstSize)
    (hfit : ∀ frags ∈ choices.fragments, S.txCount + frags.length ≤ txMbufTableSize) :
    Prog.wp allowed (stageTx choices pkt) (fun _ S' =>
      S.Stages S' (txFrames choices pkt) (txReleased choices pkt)) S := by
  have hsize : txMbufTableSize = 256 := rfl
  have hburst : burstSize = 128 := rfl
  unfold stageTx txFrames txReleased
  split
  · -- the packet fits into one frame
    have hcount : u16 (S.txCount + 1) = S.txCount + [pkt].length := Nat.mod_eq_of_lt (by omega)
    refine ⟨⟨rfl, rfl, rfl, rfl, rfl, rfl⟩, ?_, (List.append_nil _).symm, rfl⟩
    change (List.range (u16 (S.txCount + 1))).map (writeFrom S.txMbufTable S.txCount [pkt]) = _
    rw [hcount]
    exact map_writeFrom ..
  · cases hfrags : choices.fragments with
    | none =>
      have hstaged : (S.freeing [pkt.addr]).staged = S.staged ++ [].map some :=
        (List.append_nil _).symm
      cases choices.prependFails with
      | true => exact ⟨⟨rfl, rfl, rfl, rfl, rfl, rfl⟩, hstaged, rfl, rfl⟩
      | false => exact ⟨⟨rfl, rfl, rfl, rfl, rfl, rfl⟩, hstaged, rfl, rfl⟩
    | some frags =>
      have hfit := hfit frags hfrags
      dsimp only [Option.getD_some]
      rw [Prog.wp_bind, Prog.wp_update, Prog.wp_bind, wp_freeMbuf]
      cases choices.prependFails with
      | true =>
        -- the counter goes below zero and comes back
        have hcount : u16 (u16 (S.txCount + 2 ^ 16 - frags.length) + frags.length) = S.txCount := by
          unfold u16
          omega
        rw [if_pos rfl, Prog.wp_bind, wp_freeAll some]
        refine ⟨⟨rfl, rfl, rfl, rfl, rfl, rfl⟩, ?_, ?_, rfl⟩
        · change (List.range (u16 (u16 (S.txCount + 2 ^ 16 - frags.length) + frags.length))).map
            (writeFrom S.txMbufTable S.txCount frags) = _
          rw [hcount, map_writeFrom_below]
          exact (List.append_nil _).symm
        · change S.shared.freed ++ [pkt.addr] ++ (frags.filterMap some).map Mbuf.addr = _
          rw [List.filterMap_some, List.append_assoc]
          rfl
      | false =>
        -- the entries are written twice, first without the Ethernet header
        have hcount : u16 (S.txCount + frags.length) =
            S.txCount + (frags.map (reattachEtherHdr pkt)).length := by
          rw [List.length_map]
          exact Nat.mod_eq_of_lt (by omega)
        rw [if_neg Bool.false_ne_true]
        refine ⟨⟨rfl, rfl, rfl, rfl, rfl, rfl⟩, ?_, rfl, rfl⟩
        change (List.range (u16 (S.txCount + frags.length))).map
          (writeFrom (writeFrom S.txMbufTable S.txCount frags) S.txCount
            (frags.map (reattachEtherHdr pkt))) = _
        rw [hcount, map_writeFrom, map_writeFrom_below]
        rfl

/-- The state `S'` is `S` after its table was offered to the network card, which took the first
`txSent` frames. -/
structure System.Flushes (S S' : System) (txSent : ℕ) : Prop where
  rx : S.SameRx S'
  staged : S'.staged = []
  freed : S'.shared.freed =
    S.shared.freed ++ ((S.staged.drop txSent).filterMap id).map Mbuf.addr
  sent : S'.sent = S.sent ++ (S.staged.take txSent).filterMap id

/-- **Flushing.** A frame is taken by the network card or given back, and the table is empty. -/
theorem flushTxTable_flushes (txSent : ℕ) :
    Prog.wp allowed (flushTxTable txSent) (fun _ S' => S.Flushes S' txSent) S := by
  rw [flushTxTable, Prog.wp_bind, Prog.wp_read, Prog.wp_bind, Prog.wp_update, Prog.wp_bind]
  exact (wp_freeAll_id _).mpr ⟨⟨rfl, rfl, rfl, rfl, rfl, rfl⟩, rfl, rfl, rfl⟩

end Table

/-! ## Actions -/

/-- What a step of the system does in the transmit part. -/
inductive TxAction
  /-- nothing -/
  | idle
  /-- `udpdk_sendto` puts a packet into the ring of a slot -/
  | submit (s : ℕ) (m : Mbuf)
  /-- the poller takes a packet out of the ring of a slot -/
  | take (s : ℕ) (pkt : Mbuf) (choices : DpdkChoices)
  /-- the poller offers the table to the network card, which takes the first `txSent` frames -/
  | flush (batch : List Mbuf) (txSent : ℕ)

/-- The frames in the table. -/
def System.frames (S : System) : List Mbuf := S.staged.filterMap id

/-- The flush at the end of the table, if there is anything in it. -/
def flushAction (S : System) (choices : DpdkChoices) (threshold : ℕ) : TxAction :=
  if threshold ≤ S.txCount then .flush S.frames choices.txSent else .idle

/-- The action of a step that starts in the state `S`. -/
def txAction (S : System) : SystemEvent → TxAction
  | .api (.sendto _ sockfd _ _ _ _ (.ok (m, _))) => .submit sockfd.toNat m
  | .api _ => .idle
  | .poller choices happened =>
    match S.pc, happened with
    | .txSlot i, _ => if i < numSocketsMax then .idle else flushAction S choices 1
    | .txDrain i, .txTake _ pkt => .take i pkt choices
    | .txBatch _, _ => flushAction S choices burstSize
    | _, _ => .idle

namespace TxAction

variable (s : ℕ)

/-- The packets put into the ring of slot `s`. -/
def submitted : TxAction → List Mbuf
  | submit t m => if t = s then [m] else []
  | _ => []

/-- The packets taken out of the ring of slot `s`, with what was decided about them. -/
def taken : TxAction → List (Mbuf × DpdkChoices)
  | take t pkt choices => if t = s then [(pkt, choices)] else []
  | _ => []

/-- The frames put into the table, with the slots that they come from. -/
def staged : TxAction → List (ℕ × Mbuf)
  | take t pkt choices => (txFrames choices pkt).map fun m => (t, m)
  | _ => []

/-- The frames offered to the network card. -/
def offered : TxAction → List Mbuf
  | flush batch _ => batch
  | _ => []

/-- The frames that it takes. -/
def accepted : TxAction → List Mbuf
  | flush batch txSent => batch.take txSent
  | _ => []

/-- The buffers given back. -/
def released : TxAction → List ℕ
  | take _ pkt choices => txReleased choices pkt
  | flush batch txSent => (batch.drop txSent).map Mbuf.addr
  | _ => []

/-- The buffers that enter the transmit part. -/
def allocated : TxAction → List ℕ
  | submit _ m => [m.addr]
  | take _ pkt choices => txCreated choices pkt
  | _ => []

end TxAction

/-- The poller transmits in this action. -/
def TxAction.transmits : TxAction → Bool
  | take .. | flush .. => true
  | idle | submit .. => false

/-- The effect of an action. The rings and the table are queues. -/
structure TxEffect (S S' : System) (a : TxAction) : Prop where
  ring : ∀ s, (S.shared.txQ s).items ++ a.submitted s =
    (a.taken s).map Prod.fst ++ (S'.shared.txQ s).items
  table : S.staged ++ (a.staged.map Prod.snd).map some = a.offered.map some ++ S'.staged
  sent : S'.sent = S.sent ++ a.accepted
  freed : a.transmits → S'.shared.freed = S.shared.freed ++ a.released

/-- How far the counter of the table may have come at a place of the loop. -/
def PollerPc.txRoom : PollerPc → ℕ
  | .txSlot _ => burstSize - 1
  | .txDrain _ | .txBatch _ => txMbufTableSize
  | .rx _ | .rxFlush _ => 0

/-- The ring that is being drained is that of a slot. -/
def PollerPc.InRange : PollerPc → Prop
  | .txDrain i => i < numSocketsMax
  | _ => True

/-- Counter and place are in range, and the table has no null pointers. -/
structure System.TxOk (S : System) : Prop where
  count : S.txCount ≤ S.pc.txRoom
  place : S.pc.InRange
  table : S.staged = S.frames.map some

section Step

variable {dpdk : Dpdk} {choices : DpdkChoices} {S S' : System} {i k : ℕ} {e : ApiEvent}
  {config : Configuration}

theorem filterMap_id_map_some (ms : List Mbuf) : (ms.map some).filterMap id = ms := by
  rw [List.filterMap_map, Function.id_comp, List.filterMap_some]

theorem System.TxOk.of_staged (ms : List Mbuf) (count : S.txCount ≤ S.pc.txRoom)
    (place : S.pc.InRange) (h : S.staged = ms.map some) : S.TxOk where
  count := count
  place := place
  table := by rw [System.frames, h, filterMap_id_map_some]

theorem System.TxOk.length_frames (ok : S.TxOk) : S.frames.length = S.txCount := by
  rw [← length_staged, ok.table, List.length_map]

theorem TxEffect.idle (ring : S'.shared.txQ = S.shared.txQ) (staged : S'.staged = S.staged)
    (sent : S'.sent = S.sent) : TxEffect S S' .idle where
  ring s := by simp [TxAction.submitted, TxAction.taken, ring]
  table := by simp [TxAction.staged, TxAction.offered, staged]
  sent := by simp [TxAction.accepted, sent]
  freed := nofun

theorem TxEffect.flush (ok : S.TxOk) (h : S.Flushes S' k) :
    TxEffect S S' (.flush S.frames k) where
  ring s := by simp [TxAction.submitted, TxAction.taken, h.rx.txQ]
  table := by simp [TxAction.staged, TxAction.offered, h.staged, ← ok.table]
  sent := by
    rw [h.sent, ok.table, ← List.map_take, filterMap_id_map_some]
    rfl
  freed _ := by
    rw [h.freed, ok.table, ← List.map_drop, filterMap_id_map_some]
    rfl

theorem TxEffect.flushAction (ok : S.TxOk) {threshold : ℕ} (hflush : threshold ≤ S.txCount →
    S.Flushes S' choices.txSent) (hskip : ¬ threshold ≤ S.txCount → S' = S) :
    TxEffect S S' (flushAction S choices threshold) := by
  unfold Udpdk.flushAction
  split
  · rename_i h
    exact TxEffect.flush ok (hflush h)
  · rename_i h
    obtain rfl := hskip h
    exact TxEffect.idle rfl rfl rfl

theorem TxEffect.goto {a : TxAction} (h : TxEffect S S' a) (pc : PollerPc) :
    TxEffect S { S' with pc := pc } a :=
  ⟨h.ring, h.table, h.sent, h.freed⟩

/-- Taking a packet out of the ring of a slot and staging it. -/
theorem TxEffect.take {pkt : Mbuf} {q : BoundedQueue Mbuf}
    (hq : (S.shared.txQ i).dequeue = some (pkt, q))
    (h : { S with shared := { S.shared with txQ := Function.update S.shared.txQ i q } }.Stages S'
      (txFrames choices pkt) (txReleased choices pkt)) :
    TxEffect S S' (.take i pkt choices) where
  ring s := by
    rw [h.rx.txQ]
    by_cases hs : i = s
    · subst hs
      rw [(BoundedQueue.dequeue_eq_some_iff.mp hq).2]
      simp [TxAction.submitted, TxAction.taken]
    · simp [TxAction.submitted, TxAction.taken, hs, Function.update_of_ne (Ne.symm hs)]
  table := by
    rw [h.staged]
    simp [TxAction.staged, TxAction.offered, System.staged]
  sent := h.sent.trans (List.append_nil _).symm
  freed _ := h.freed

theorem flushRxQueue_tx {allowed : Fault → Prop} : Prog.wp allowed (flushRxQueue i)
    (fun _ S' => S'.shared.txQ = S.shared.txQ ∧ S'.staged = S.staged ∧ S'.sent = S.sent ∧
      S'.pc = S.pc) S := by
  rw [flushRxQueue, Prog.wp_bind, Prog.wp_read]
  split
  · exact ⟨rfl, rfl, rfl, rfl⟩
  · cases (S.shared.rxQ i).enqueueBulk (S.rxBuffer i) with
    | none =>
      dsimp only
      rw [Prog.wp_bind]
      exact (wp_freeAll_id _).mpr ⟨rfl, rfl, rfl, rfl⟩
    | some q => exact ⟨rfl, rfl, rfl, rfl⟩

theorem System.TxOk.of_empty {T : System} (hstaged : T.staged = []) {pc : PollerPc}
    (place : pc.InRange) : ({ T with pc := pc } : System).TxOk := by
  have hzero : T.txCount = 0 := by rw [← length_staged, hstaged, List.length_nil]
  exact System.TxOk.of_staged (S := { T with pc := pc }) [] (hzero ▸ Nat.zero_le pc.txRoom) place
    hstaged

theorem TxEffect.received {T : System} (hcount : S.txCount ≤ 0) (htxQ : T.shared.txQ = S.shared.txQ)
    (hstaged : T.staged = S.staged) (hsent : T.sent = S.sent) {pc : PollerPc}
    (place : pc.InRange) :
    TxEffect S { T with pc := pc } .idle ∧ ({ T with pc := pc } : System).TxOk := by
  have hempty : T.staged = [] := by
    rw [hstaged, ← List.length_eq_zero_iff, length_staged]
    exact Nat.le_zero.mp hcount
  exact ⟨TxEffect.idle htxQ hstaged hsent, System.TxOk.of_empty hempty place⟩

theorem burst_tx {T : System} (heffect : TxEffect S T (flushAction S choices 1))
    (hstaged : T.staged = []) : Prog.wp (fun _ => True) (do
      if choices.burst.isEmpty then goto (.txSlot 0) else goto (.rx choices.burst)
      return PollerEvent.rxBurst choices.burst) (fun _ S' =>
        TxEffect S S' (flushAction S choices 1) ∧ S'.TxOk) T := by
  split
  · exact ⟨heffect.goto _, System.TxOk.of_empty hstaged trivial⟩
  · exact ⟨heffect.goto _, System.TxOk.of_empty hstaged trivial⟩

section Ok

variable {T : System} (ok : S.TxOk)

include ok

theorem System.TxOk.moved {pc : PollerPc} (count : S.txCount ≤ pc.txRoom) (place : pc.InRange) :
    TxEffect S { S with pc := pc } .idle ∧ ({ S with pc := pc } : System).TxOk :=
  ⟨TxEffect.idle rfl rfl rfl, ⟨count, place, ok.table⟩⟩

theorem System.TxOk.stages {pkt : Mbuf} {q : BoundedQueue Mbuf} (hroom : S.txCount < burstSize)
    (hfit : ∀ frags ∈ choices.fragments, S.txCount + frags.length ≤ txMbufTableSize)
    (h : { S with shared := { S.shared with txQ := Function.update S.shared.txQ i q } }.Stages T
      (txFrames choices pkt) (txReleased choices pkt)) :
    T.staged = (S.frames ++ txFrames choices pkt).map some ∧ T.txCount ≤ txMbufTableSize := by
  have hstaged : T.staged = (S.frames ++ txFrames choices pkt).map some := by
    rw [h.staged, List.map_append, ← ok.table]
    rfl
  refine ⟨hstaged, ?_⟩
  rw [← length_staged, hstaged, List.length_map, List.length_append, ok.length_frames]
  exact add_length_txFrames_le hroom hfit

end Ok

/-- **One step of the poller** on the transmit part. -/
theorem pollerStep_tx (mem : S.shared.mem.Ok) (ok : S.TxOk) (adm : choices.Admissible S) :
    Prog.wp (fun _ => True) (pollerStep dpdk choices) (fun happened S' =>
      TxEffect S S' (txAction S (.poller choices happened)) ∧ S'.TxOk) S := by
  have hcount := ok.count
  have hburst : burstSize = 128 := rfl
  have hsize : txMbufTableSize = 256 := rfl
  unfold pollerStep txAction
  rw [Prog.wp_bind, Prog.wp_read]
  cases hpc : S.pc with
  | txSlot i =>
    rw [hpc] at hcount
    dsimp only [PollerPc.txRoom] at hcount ⊢
    split
    · -- a slot: its ring is drained if it is in use
      rename_i hi
      have hroom : S.txCount ≤ txMbufTableSize := by omega
      split
      · exact ok.moved hroom hi
      · exact ok.moved hcount trivial
    · -- past the last slot: what is left in the table goes out before a burst is received
      split
      · rename_i hpos
        rw [Prog.wp_bind]
        apply Prog.wp_mono (flushTxTable_flushes _)
        intro _ T h
        exact burst_tx (TxEffect.flushAction ok (fun _ => h) fun hn => absurd hpos hn) h.staged
      · rename_i hzero
        have hnil : S.staged = [] := by
          rw [← List.length_eq_zero_iff, length_staged]
          omega
        exact burst_tx (TxEffect.flushAction ok (fun hpos => absurd hpos hzero) fun _ => rfl) hnil
  | txDrain i =>
    rw [hpc] at hcount
    dsimp only [PollerPc.txRoom] at hcount ⊢
    split
    · rename_i hroom
      cases hq : (S.shared.txQ i).dequeue with
      | none => exact ok.moved hcount trivial
      | some mq =>
        obtain ⟨pkt, q⟩ := mq
        dsimp only
        rw [Prog.wp_bind, wp_onShared, Prog.wp_update, Prog.wp_bind]
        have hstage : Prog.wp (fun _ => True) (stageTx choices pkt)
            (fun _ T => System.Stages _ T (txFrames choices pkt) (txReleased choices pkt))
            { S with shared := { S.shared with txQ := Function.update S.shared.txQ i q } } :=
          stageTx_stages hroom adm.fragments
        apply Prog.wp_mono hstage
        intro more T h
        obtain ⟨hstaged, hroom'⟩ := ok.stages hroom adm.fragments h
        have hpcT : T.pc = .txDrain i := h.rx.pc.trans hpc
        have heffect : TxEffect S T (.take i pkt choices) := TxEffect.take hq h
        split
        · exact ⟨heffect.goto _, System.TxOk.of_staged _ hroom' trivial hstaged⟩
        · refine ⟨heffect, System.TxOk.of_staged _ ?_ ?_ hstaged⟩
          · rw [hpcT]
            exact hroom'
          · rw [hpcT, ← hpc]
            exact ok.place
    · exact ok.moved hcount trivial
  | txBatch i =>
    dsimp only
    -- a full batch is flushed at once; a smaller one leaves room for the next slot
    split
    · rename_i hfull
      rw [Prog.wp_bind]
      apply Prog.wp_mono (flushTxTable_flushes _)
      intro _ T h
      exact ⟨(TxEffect.flushAction ok (fun _ => h) fun hn => absurd hfull hn).goto _,
        System.TxOk.of_empty h.staged trivial⟩
    · rename_i hshort
      have hroom : S.txCount ≤ burstSize - 1 := by omega
      exact ⟨(TxEffect.flushAction ok (fun h => absurd h hshort) fun _ => rfl).goto _,
        ⟨hroom, trivial, ok.table⟩⟩
  | rx pending =>
    rw [hpc] at hcount
    cases pending with
    | nil => exact ok.moved hcount trivial
    | cons m pending =>
      dsimp only
      rw [Prog.wp_bind]
      apply Prog.wp_mono (reassemble_spec mem (fun _ => trivial) fun _ => trivial)
      intro delivered T h
      have hframe := h.frame
      have htxQ : T.shared.txQ = S.shared.txQ := by rw [hframe]
      have hstaged : T.staged = S.staged := by rw [hframe]; rfl
      have hsent : T.sent = S.sent := by rw [hframe]; rfl
      exact TxEffect.received hcount htxQ hstaged hsent trivial
  | rxFlush i =>
    rw [hpc] at hcount
    dsimp only
    split
    · split
      · rw [Prog.wp_bind]
        apply Prog.wp_mono flushRxQueue_tx
        rintro _ T ⟨htxQ, hstaged, hsent, -⟩
        exact TxEffect.received hcount htxQ hstaged hsent trivial
      · exact ok.moved hcount trivial
    · have hzero : S.txCount ≤ burstSize - 1 := hcount.trans (Nat.zero_le _)
      exact ⟨TxEffect.idle rfl rfl rfl, ⟨hzero, trivial, ok.table⟩⟩

/-- A call of the application on the transmit part. -/
theorem api_tx (mem : S.shared.mem.Ok) {σ : Shared} (h : e.step dpdk config S.shared σ) :
    TxEffect S { S with shared := σ } (txAction S (.api e)) := by
  have rings := (ApiEvent.step_spec mem h).rings
  cases e with
  | sendto pkt sockfd buf flags destAddr addrlen ret =>
    cases ret with
    | error => exact TxEffect.idle rings.2 rfl rfl
    | ok r =>
      obtain ⟨-, s, -, rfl, -, q, hq, htxQ⟩ := rings
      refine ⟨fun t => ?_, List.append_nil _, (List.append_nil _).symm, fun h => by cases h⟩
      change (S.shared.txQ t).items ++ _ = (σ.txQ t).items
      rw [htxQ]
      by_cases ht : s = t
      · subst ht
        rw [Function.update_self, (BoundedQueue.enqueue_eq_some_iff.mp hq).2.2]
        simp [txAction, TxAction.submitted]
      · rw [Function.update_of_ne (Ne.symm ht)]
        simp [txAction, TxAction.submitted, ht]
  | recvfrom sockfd bufNull len flags srcAddr addrlen ret =>
    cases ret with
    | error => exact TxEffect.idle rings.2 rfl rfl
    | ok r => exact TxEffect.idle rings.1 rfl rfl
  | _ => exact TxEffect.idle rings.2 rfl rfl

end Step

/-! ## What the transmit part holds -/

/-- The addresses of the packets in the rings. -/
def System.ringed (S : System) : Multiset ℕ :=
  ∑ s ∈ Finset.range numSocketsMax, (((S.shared.txQ s).items.map Mbuf.addr : List ℕ) : Multiset ℕ)

/-- The buffers that the transmit part holds, in the rings and in the table. -/
def System.txHeld (S : System) : Multiset ℕ := S.ringed + (S.frames.map Mbuf.addr : List ℕ)

/-- The buffers that leave the transmit part in an action. -/
def TxAction.gone (a : TxAction) : Multiset ℕ := (a.accepted.map Mbuf.addr : List ℕ) + a.released

/-- The slot of the ring that an action uses is in range. -/
def TxAction.InRange : TxAction → Prop
  | .submit s _ | .take s _ _ => s < numSocketsMax
  | .idle | .flush .. => True

section Held

variable {S S' : System} {a : TxAction} {choices : DpdkChoices} {pkt : Mbuf} {s : ℕ}

/-- Of a packet and its fragments, each is put into the table or given back. -/
theorem txFrames_add_txReleased : ((txFrames choices pkt).map Mbuf.addr : Multiset ℕ) +
    txReleased choices pkt = pkt.addr ::ₘ (txCreated choices pkt : Multiset ℕ) := by
  have haddr : Mbuf.addr ∘ reattachEtherHdr pkt = Mbuf.addr := rfl
  unfold txFrames txReleased txCreated
  split
  · rfl
  · cases choices.prependFails with
    | true => exact zero_add _
    | false =>
      simp only [Bool.false_eq_true, if_false, List.map_map, haddr]
      exact Multiset.add_comm _ _

theorem TxEffect.ringed_eq (h : TxEffect S S' a) :
    S.ringed + ∑ s ∈ Finset.range numSocketsMax, ((a.submitted s).map Mbuf.addr : Multiset ℕ) =
      ∑ s ∈ Finset.range numSocketsMax, (((a.taken s).map Prod.fst).map Mbuf.addr : Multiset ℕ) +
        S'.ringed := by
  unfold System.ringed
  rw [← Finset.sum_add_distrib, ← Finset.sum_add_distrib]
  apply Finset.sum_congr rfl
  intro s _
  have hring := congrArg (List.map Mbuf.addr) (h.ring s)
  rw [List.map_append, List.map_append] at hring
  exact congrArg Multiset.ofList hring

theorem TxEffect.frames_eq (ok : S.TxOk) (ok' : S'.TxOk) (h : TxEffect S S' a) :
    S.frames ++ a.staged.map Prod.snd = a.offered ++ S'.frames := by
  have htable := h.table
  rw [ok.table, ok'.table, ← List.map_append, ← List.map_append] at htable
  exact List.map_injective_iff.mpr (Option.some_injective _) htable

theorem sum_slots (hs : s < numSocketsMax) (xs : List ℕ) :
    ∑ t ∈ Finset.range numSocketsMax, ((if s = t then xs else [] : List ℕ) : Multiset ℕ) = xs := by
  rw [Finset.sum_eq_single_of_mem s (Finset.mem_range.mpr hs)]
  · rw [if_pos rfl]
  · intro t _ hts
    rw [if_neg (Ne.symm hts)]
    rfl

/-- **Conservation.** What was held and what was allocated is what has gone and what is held. -/
theorem TxEffect.conserves (ok : S.TxOk) (ok' : S'.TxOk) (inRange : a.InRange)
    (h : TxEffect S S' a) : S.txHeld + (a.allocated : Multiset ℕ) = a.gone + S'.txHeld := by
  have hring := h.ringed_eq
  have hframes := h.frames_eq ok ok'
  unfold System.txHeld TxAction.gone
  cases a with
  | idle =>
    have hframes : S.frames = S'.frames := by
      simpa [TxAction.staged, TxAction.offered] using hframes
    have hring : S.ringed = S'.ringed := by
      simpa [TxAction.submitted, TxAction.taken] using hring
    rw [hframes, hring]
    exact Multiset.add_comm _ 0
  | submit s m =>
    have hsum := sum_slots inRange [m.addr]
    have hframes : S.frames = S'.frames := by
      simpa [TxAction.staged, TxAction.offered] using hframes
    have hring : S.ringed + ([m.addr] : List ℕ) = S'.ringed := by
      simpa [TxAction.submitted, TxAction.taken, apply_ite (List.map Mbuf.addr), hsum] using hring
    rw [← hring, hframes]
    simp only [TxAction.allocated, TxAction.accepted, TxAction.released, List.map_nil,
      Multiset.coe_nil, zero_add]
    exact add_right_comm _ _ _
  | take s pkt choices =>
    have hsum := sum_slots inRange [pkt.addr]
    have hframes : S.frames ++ txFrames choices pkt = S'.frames := by
      simpa [TxAction.staged, TxAction.offered] using hframes
    have hring : S.ringed = ([pkt.addr] : List ℕ) + S'.ringed := by
      simpa [TxAction.submitted, TxAction.taken, apply_ite (List.map Prod.fst),
        apply_ite (List.map Mbuf.addr), hsum] using hring
    have hpacket : ((txFrames choices pkt).map Mbuf.addr : Multiset ℕ) +
        txReleased choices pkt = pkt.addr ::ₘ (txCreated choices pkt : Multiset ℕ) :=
      txFrames_add_txReleased
    simp only [TxAction.allocated, TxAction.accepted, TxAction.released, List.map_nil,
      Multiset.coe_nil, zero_add]
    calc S.ringed + (S.frames.map Mbuf.addr : List ℕ) + (txCreated choices pkt : Multiset ℕ)
        = S'.ringed + (S.frames.map Mbuf.addr : List ℕ) +
            (pkt.addr ::ₘ (txCreated choices pkt : Multiset ℕ)) := by
          rw [hring, ← Multiset.singleton_add, Multiset.coe_singleton]
          abel
      _ = (txReleased choices pkt : Multiset ℕ) + (S'.ringed + ((S.frames.map Mbuf.addr : List ℕ) +
            ((txFrames choices pkt).map Mbuf.addr : List ℕ))) := by
          rw [← hpacket]
          abel
      _ = (txReleased choices pkt : Multiset ℕ) +
            (S'.ringed + (S'.frames.map Mbuf.addr : List ℕ)) := by
          rw [← hframes, List.map_append, ← Multiset.coe_add]
  | flush batch txSent =>
    have hframes : S.frames = batch ++ S'.frames := by
      simpa [TxAction.staged, TxAction.offered] using hframes
    have hring : S.ringed = S'.ringed := by
      simpa [TxAction.submitted, TxAction.taken] using hring
    -- every frame of the batch is taken by the network card or given back
    have hbatch : (batch.map Mbuf.addr : Multiset ℕ) =
        ((batch.take txSent).map Mbuf.addr : List ℕ) +
          ((batch.drop txSent).map Mbuf.addr : List ℕ) := by
      rw [Multiset.coe_add, ← List.map_append, List.take_append_drop]
    rw [hring, hframes, List.map_append, ← Multiset.coe_add, hbatch]
    simp only [TxAction.allocated, TxAction.accepted, TxAction.released, Multiset.coe_nil, add_zero]
    abel

end Held

/-! ## Runs -/

/-- The buffers that an action allocates are handed out by a pool: they are different from each
other, and none of them is held. -/
structure TxAction.Fresh (a : TxAction) (S : System) : Prop where
  nodup : a.allocated.Nodup
  disjoint : Disjoint (a.allocated : Multiset ℕ) S.txHeld

/-- A step of the system with its action, in which pools hand out fresh buffers. -/
def TxStep (dpdk : Dpdk) (config : Configuration) (a : TxAction) (S S' : System) : Prop :=
  ∃ e : SystemEvent, e.step dpdk config S S' ∧ a = txAction S e ∧ a.Fresh S

/-- What holds of the transmit part all along. -/
structure System.TxInv (S : System) : Prop where
  shared : S.shared.Ok
  tx : S.TxOk
  distinct : S.txHeld.Nodup

/-- What becomes of a packet that was taken out of its ring: it is staged as it is; or it is
given back, and all its fragments are staged in its place, in order; or it is given back with
every fragment made from it. -/
def TxOutcome (choices : DpdkChoices) (pkt : Mbuf) : Prop :=
  (txFrames choices pkt = [pkt] ∧ txReleased choices pkt = []) ∨
  (∃ frags, choices.fragments = some frags ∧
    txFrames choices pkt = frags.map (reattachEtherHdr pkt) ∧
    txReleased choices pkt = [pkt.addr]) ∨
  (txFrames choices pkt = [] ∧
    txReleased choices pkt = pkt.addr :: txCreated choices pkt)

theorem txOutcome (choices : DpdkChoices) (pkt : Mbuf) : TxOutcome choices pkt := by
  unfold TxOutcome txFrames txReleased txCreated
  split
  · exact .inl ⟨rfl, rfl⟩
  · cases choices.prependFails with
    | true => exact .inr (.inr ⟨rfl, rfl⟩)
    | false =>
      cases hfrags : choices.fragments with
      | none => exact .inr (.inr ⟨rfl, rfl⟩)
      | some frags => exact .inr (.inl ⟨frags, rfl, rfl, rfl⟩)

-- Checking a term must not unroll the sum over all slots.
attribute [local irreducible] System.ringed

section Runs

variable {dpdk : Dpdk} {config : Configuration} {a : TxAction} {S₀ S S' : System}
  {log : List TxAction}

/-- The effect of a step, and the slot that it works on. -/
theorem System.TxInv.effect (inv : S.TxInv) (h : TxStep dpdk config a S S') :
    TxEffect S S' a ∧ a.InRange ∧ S'.TxOk := by
  obtain ⟨e, hstep, rfl, -⟩ := h
  cases e with
  | api e =>
    obtain ⟨σ, hcall, rfl⟩ := hstep
    refine ⟨api_tx inv.shared.mem hcall, ?_, ⟨inv.tx.count, inv.tx.place, inv.tx.table⟩⟩
    have rings := (ApiEvent.step_spec inv.shared.mem hcall).rings
    cases e with
    | sendto pkt sockfd buf flags destAddr addrlen ret =>
      cases ret with
      | error => trivial
      | ok r =>
        obtain ⟨-, s, hs, rfl, -⟩ := rings
        exact hs
    | _ => trivial
  | poller choices happened =>
    obtain ⟨adm, hret⟩ := hstep
    obtain ⟨heffect, hok⟩ := Prog.wp_of_ok (pollerStep_tx inv.shared.mem inv.tx adm) hret
    refine ⟨heffect, ?_, hok⟩
    have hplace := inv.tx.place
    unfold txAction flushAction
    cases hpc : S.pc with
    | txSlot i =>
      dsimp only
      split_ifs <;> trivial
    | txDrain i =>
      rw [hpc] at hplace
      cases happened with
      | txTake => exact hplace
      | _ => trivial
    | txBatch i =>
      dsimp only
      split_ifs <;> trivial
    | rx => trivial
    | rxFlush => trivial

theorem System.TxInv.step (inv : S.TxInv) (h : TxStep dpdk config a S S') : S'.TxInv := by
  obtain ⟨heffect, hslot, hok⟩ := inv.effect h
  obtain ⟨e, hstep, -, hfresh⟩ := h
  refine ⟨inv.shared.systemStep hstep, hok, ?_⟩
  have hall : (S.txHeld + (a.allocated : Multiset ℕ)).Nodup :=
    (Multiset.nodup_add).mpr ⟨inv.distinct, Multiset.coe_nodup.mpr hfresh.nodup,
      hfresh.disjoint.symm⟩
  rw [heffect.conserves inv.tx hok hslot] at hall
  exact (Multiset.nodup_add.mp hall).2.1

theorem staged_filter (s : ℕ) : (a.staged.filter fun p => p.1 = s).map Prod.snd =
    (a.taken s).flatMap fun p => txFrames p.2 p.1 := by
  cases a with
  | take t pkt choices =>
    unfold TxAction.staged TxAction.taken
    by_cases hts : t = s
    · simp [hts, List.filter_map, Function.comp_def]
    · simp [hts, List.filter_map, Function.comp_def]
  | _ => rfl

end Runs

/-- The frames that were offered to the network card in a log, with their slots. -/
def offeredFrames (log : List TxAction) : List (ℕ × Mbuf) :=
  (log.flatMap TxAction.staged).take (log.flatMap TxAction.offered).length

/-- The transmit part after a run from `S₀` to `S`. -/
structure TxSound (dpdk : Dpdk) (config : Configuration) (S₀ : System) (log : List TxAction)
    (S : System) : Prop where
  /-- no store and no flush is behind the end of the table -/
  count : S.txCount ≤ txMbufTableSize
  table : S.staged = S.frames.map some
  /-- the entries of the table are different buffers, and none of them is in a ring -/
  distinct : S.txHeld.Nodup
  /-- every buffer is held, or was sent, or was given back, as often as it was allocated -/
  balance : S₀.txHeld + (log.map fun a => (a.allocated : Multiset ℕ)).sum =
    (log.map TxAction.gone).sum + S.txHeld
  /-- the next step has the effect of its action -/
  step : ∀ a S', TxStep dpdk config a S S' → TxEffect S S' a
  outcome : ∀ s pkt choices, TxAction.take s pkt choices ∈ log → TxOutcome choices pkt
  /-- what was staged was offered once, or is in the table -/
  flushed : (log.flatMap TxAction.staged).map Prod.snd = log.flatMap TxAction.offered ++ S.frames
  offered : (offeredFrames log).map Prod.snd = log.flatMap TxAction.offered
  /-- packets are taken in the order of the calls that submitted them -/
  ring : ∀ s, (S₀.shared.txQ s).items ++ log.flatMap (TxAction.submitted s) =
    (log.flatMap (TxAction.taken s)).map Prod.fst ++ (S.shared.txQ s).items
  /-- and their frames are offered in that order -/
  order : ∀ s, ((offeredFrames log).filter fun p => p.1 = s).map Prod.snd <+:
    (log.flatMap (TxAction.taken s)).flatMap fun p => txFrames p.2 p.1

/-- **The transmit part.** From every state at the start of the transmit part, with any packets
in the rings and any slots in use, and whatever DPDK decides: the counter of the table stays
in range, the table holds live and distinct buffers, no buffer is lost or given back twice, and
the frames of a socket are offered to the network card in the order of its calls. -/
theorem tx_pipeline (dpdk : Dpdk) (config : Configuration) {S₀ S : System} {log : List TxAction}
    (ok : S₀.shared.Ok) (start : S₀.pc = .txSlot 0) (empty : S₀.txCount = 0)
    (distinct : S₀.txHeld.Nodup) (run : Run (TxStep dpdk config) S₀ log S) :
    TxSound dpdk config S₀ log S := by
  -- the table is empty at the start, so the invariant holds there
  have hnil : S₀.staged = [] := by rw [← List.length_eq_zero_iff, length_staged, empty]
  have hframes : S₀.frames = [] := by rw [System.frames, hnil, List.filterMap_nil]
  have inv₀ : S₀.TxInv := by
    refine ⟨ok, ⟨empty ▸ Nat.zero_le _, ?_, ?_⟩, distinct⟩
    · rw [start]
      trivial
    · rw [hnil, hframes, List.map_nil]
  obtain ⟨guarded, inv⟩ := run.guarded System.TxInv inv₀ fun a s t inv h => inv.step h
  have hcount : S.pc.txRoom ≤ txMbufTableSize := by
    cases S.pc with
    | txSlot => exact Nat.le_of_ble_eq_true rfl
    | txDrain => exact le_rfl
    | txBatch => exact le_rfl
    | rx => exact Nat.zero_le _
    | rxFlush => exact Nat.zero_le _
  -- the table is a queue: what was staged is what was offered, and then what is in the table
  have hflushed : (log.flatMap TxAction.staged).map Prod.snd =
      log.flatMap TxAction.offered ++ S.frames := by
    have hqueue := guarded.conserves_queue System.frames (fun a => a.staged.map Prod.snd)
      TxAction.offered fun a s t h =>
        (h.1.effect h.2).1.frames_eq h.1.tx (h.1.effect h.2).2.2
    rwa [hframes, List.nil_append, ← List.map_flatMap] at hqueue
  have hoffered : (offeredFrames log).map Prod.snd = log.flatMap TxAction.offered := by
    rw [offeredFrames, List.map_take, hflushed, List.take_left]
  have hring := fun s => guarded.conserves_queue (fun S => (S.shared.txQ s).items)
    (TxAction.submitted s) (fun a => (a.taken s).map Prod.fst) fun a _ _ h =>
      (h.1.effect h.2).1.ring s
  refine ⟨inv.tx.count.trans hcount, inv.tx.table, inv.distinct, ?_, ?_, ?_, hflushed, hoffered,
    ?_, ?_⟩
  · exact guarded.conserves_stock System.txHeld _ _ fun a s t h =>
      (h.1.effect h.2).1.conserves h.1.tx (h.1.effect h.2).2.2 (h.1.effect h.2).2.1
  · exact fun a S' h => (inv.effect h).1
  · exact fun _ pkt choices _ => txOutcome choices pkt
  · intro s
    rw [List.map_flatMap]
    exact hring s
  · intro s
    -- what a slot offered is a prefix of what it staged, packet by packet
    have hall : ((log.flatMap TxAction.staged).filter fun p => p.1 = s).map Prod.snd =
        (log.flatMap (TxAction.taken s)).flatMap fun p => txFrames p.2 p.1 := by
      rw [List.filter_flatMap, List.map_flatMap, List.flatMap_assoc]
      exact congrArg (List.flatMap · log) (funext fun a => staged_filter s)
    rw [← hall]
    exact ((List.take_prefix _ _).filter _).map _

/-! ## Steps with one outcome -/

section Steps

variable {dpdk : Dpdk} {choices : DpdkChoices} {S : System} {i : ℕ} {pkt : Mbuf}
  {q : BoundedQueue Mbuf}

theorem pollerStep_txSlot (hpc : S.pc = .txSlot i) (hi : i < numSocketsMax) :
    pollerStep dpdk choices S = .ok (.internal, { S with
      pc := if (S.shared.desc.slots i).used then .txDrain i else .txSlot (i + 1) }) := by
  rw [pollerStep, Prog.bind_of_ok (Prog.read_apply S), hpc]
  dsimp only
  rw [if_pos hi]
  cases (S.shared.desc.slots i).used with
  | true => rfl
  | false => rfl

theorem pollerStep_txDrain_nil (hpc : S.pc = .txDrain i) (hroom : S.txCount < burstSize)
    (hq : (S.shared.txQ i).dequeue = none) :
    pollerStep dpdk choices S = .ok (.internal, { S with pc := .txBatch i }) := by
  rw [pollerStep, Prog.bind_of_ok (Prog.read_apply S), hpc]
  dsimp only
  rw [if_pos hroom, hq]
  rfl

/-- The loop over a ring goes on unless a packet could not be fragmented. -/
theorem stageTx_more (hfrags : choices.fragments ≠ none) :
    Prog.wp (fun _ => False) (stageTx choices pkt) (fun more _ => more = true) S := by
  unfold stageTx
  split
  · exact rfl
  · obtain ⟨frags, hsome⟩ := Option.ne_none_iff_exists'.mp hfrags
    rw [hsome]
    dsimp only
    rw [Prog.wp_bind, Prog.wp_update, Prog.wp_bind, wp_freeMbuf]
    cases choices.prependFails with
    | true =>
      rw [if_pos rfl, Prog.wp_bind, wp_freeAll some frags]
      rfl
    | false =>
      rw [if_neg Bool.false_ne_true]
      rfl

/-- A ring with a packet that goes into the table. -/
theorem pollerStep_txDrain_cons (hpc : S.pc = .txDrain i)
    (hq : (S.shared.txQ i).dequeue = some (pkt, q)) (hroom : S.txCount < burstSize)
    (hfit : ∀ frags ∈ choices.fragments, S.txCount + frags.length ≤ txMbufTableSize)
    (hfrags : choices.fragments ≠ none) : ∃ T, pollerStep dpdk choices S = .ok (.txTake i pkt, T) ∧
      { S with shared := { S.shared with txQ := Function.update S.shared.txQ i q } }.Stages T
        (txFrames choices pkt) (txReleased choices pkt) := by
  obtain ⟨S₁, hS₁⟩ : ∃ S₁ : System, S₁ =
      { S with shared := { S.shared with txQ := Function.update S.shared.txQ i q } } := ⟨_, rfl⟩
  have hroom₁ : S₁.txCount < burstSize := by rwa [hS₁]
  have hfit₁ : ∀ frags ∈ choices.fragments, S₁.txCount + frags.length ≤ txMbufTableSize := by
    rwa [hS₁]
  have spec : Prog.wp (fun _ => False) (stageTx choices pkt) _ S₁ := stageTx_stages hroom₁ hfit₁
  obtain ⟨more, T, hret, hstages⟩ := Prog.exists_ok_of_wp spec
  have hspec : Prog.wp (fun _ => False) (stageTx choices pkt) (fun more _ => more = true) S₁ :=
    stageTx_more hfrags
  have hmore := Prog.wp_of_ok hspec hret
  subst hmore
  have htake : onShared (Prog.update fun σ => { σ with txQ := Function.update σ.txQ i q }) S =
      .ok ((), S₁) := by
    rw [hS₁]
    rfl
  refine ⟨T, ?_, hS₁ ▸ hstages⟩
  rw [pollerStep, Prog.bind_of_ok (Prog.read_apply S), hpc]
  dsimp only
  rw [if_pos hroom, hq]
  dsimp only
  rw [Prog.bind_of_ok htake, Prog.bind_of_ok hret]
  rfl

theorem pollerStep_txBatch (hpc : S.pc = .txBatch i) (hroom : S.txCount < burstSize) :
    pollerStep dpdk choices S = .ok (.internal, { S with pc := .txSlot (i + 1) }) := by
  rw [pollerStep, Prog.bind_of_ok (Prog.read_apply S), hpc]
  dsimp only
  rw [if_neg (not_le.mpr hroom)]
  rfl

theorem pollerStep_txDrain_full (hpc : S.pc = .txDrain i) (hfull : burstSize ≤ S.txCount) :
    pollerStep dpdk choices S = .ok (.internal, { S with pc := .txBatch i }) := by
  rw [pollerStep, Prog.bind_of_ok (Prog.read_apply S), hpc]
  dsimp only
  rw [if_neg (not_lt.mpr hfull)]
  rfl

theorem pollerStep_txBatch_full (hpc : S.pc = .txBatch i) (hfull : burstSize ≤ S.txCount) :
    ∃ T, S.Flushes T choices.txSent ∧
      pollerStep dpdk choices S = .ok (.internal, { T with pc := .txSlot (i + 1) }) := by
  have spec : Prog.wp (fun _ => False) (flushTxTable choices.txSent) _ S :=
    flushTxTable_flushes choices.txSent
  obtain ⟨_, T, hret, hflushes⟩ := Prog.exists_ok_of_wp spec
  refine ⟨T, hflushes, ?_⟩
  rw [pollerStep, Prog.bind_of_ok (Prog.read_apply S), hpc]
  dsimp only
  rw [if_pos hfull, Prog.bind_of_ok hret]
  rfl

theorem pollerStep_burst (hpc : S.pc = .txSlot i) (hi : ¬ i < numSocketsMax)
    (htable : 0 < S.txCount) : ∃ T, S.Flushes T choices.txSent ∧
      pollerStep dpdk choices S = .ok (.rxBurst choices.burst, { T with
        pc := if choices.burst.isEmpty then .txSlot 0 else .rx choices.burst }) := by
  have spec : Prog.wp (fun _ => False) (flushTxTable choices.txSent) _ S :=
    flushTxTable_flushes choices.txSent
  obtain ⟨_, T, hret, hflushes⟩ := Prog.exists_ok_of_wp spec
  refine ⟨T, hflushes, ?_⟩
  rw [pollerStep, Prog.bind_of_ok (Prog.read_apply S), hpc]
  dsimp only
  rw [if_neg hi, if_pos htable, Prog.bind_of_ok hret]
  cases choices.burst.isEmpty with
  | true => rfl
  | false => rfl

theorem pollerStep_burst_of_empty (hpc : S.pc = .txSlot i) (hi : ¬ i < numSocketsMax)
    (htable : S.txCount = 0) : pollerStep dpdk choices S = .ok (.rxBurst choices.burst, { S with
        pc := if choices.burst.isEmpty then .txSlot 0 else .rx choices.burst }) := by
  rw [pollerStep, Prog.bind_of_ok (Prog.read_apply S), hpc]
  dsimp only
  rw [if_neg hi, if_neg (by omega)]
  cases choices.burst.isEmpty with
  | true => rfl
  | false => rfl

end Steps

/-! ## A batch -/

/-- A small packet. -/
def packetSmall : Mbuf where
  addr := 5
  packetType := ptypeEtherIpv4Udp
  pktLen := 42
  head := { data := fun _ => 0, dataLen := 42 }
  chain := []

/-- One that has to be fragmented. -/
def packetLarge : Mbuf := { packetSmall with pktLen := 2000 }

/-- DPDK makes 128 fragments of it. -/
def fragmenting : DpdkChoices :=
  { DpdkChoices.smooth [] with
    fragments := some ((List.range 128).map fun k => { packetSmall with addr := 6 + k }) }

/-- Socket 0 is open, and its ring has the packet. -/
def systemSending : System :=
  { systemInit ⟨0, 0, 0, 0⟩ with
    shared := { sharedOpen ⟨0, 0, 0, 0⟩ 1 with
      txQ := fun s => {
        capacity := exchRingSize - 1
        items := if 0 = s then [packetLarge] else []
        bounded := by
          split
          · exact Nat.le_of_ble_eq_true rfl
          · exact Nat.zero_le _ } } }

theorem txHeld_systemSending (pc : PollerPc) :
    System.txHeld { systemSending with pc := pc } = ([5] : List ℕ) := by
  have hframes : System.frames { systemSending with pc := pc } = [] := rfl
  have hring : System.ringed { systemSending with pc := pc } = ([5] : List ℕ) := by
    rw [System.ringed, ← sum_slots (s := 0) (by decide) [5]]
    apply Finset.sum_congr rfl
    intro s _
    change ((List.map Mbuf.addr (if 0 = s then [packetLarge] else []) : List ℕ) : Multiset ℕ) = _
    rw [apply_ite (List.map Mbuf.addr)]
    rfl
  rw [System.txHeld, hring, hframes]
  rfl

section Batch

variable {S : System} {a : TxAction} {k : ℕ} {pc : PollerPc}

theorem TxAction.Fresh.of_nil (h : a.allocated = []) : a.Fresh S :=
  ⟨h ▸ List.nodup_nil, h ▸ Multiset.zero_disjoint _⟩

theorem admissible_sending (hcount : S.txCount ≤ txMbufTableSize) (hk : k ≤ S.txCount) :
    { DpdkChoices.smooth [] with txSent := k }.Admissible S := by
  refine ⟨Nat.zero_le _, fun frags hfrags => ?_, hk⟩
  obtain rfl := Option.some.inj hfrags
  exact hcount

theorem fresh_fragmenting : (TxAction.take 0 packetLarge fragmenting).Fresh
    { systemSending with pc := pc } := by
  have hcreated : (TxAction.take 0 packetLarge fragmenting).allocated =
      (List.range 128).map (6 + ·) := rfl
  refine ⟨?_, ?_⟩
  · rw [hcreated]
    exact List.nodup_range.map fun _ _ => Nat.add_left_cancel
  · rw [hcreated, txHeld_systemSending, Multiset.coe_disjoint, List.disjoint_singleton]
    intro hmem
    obtain ⟨j, -, hj⟩ := List.mem_map.mp hmem
    omega

/-- The packet is taken out of the ring, and its fragments fill the table. -/
theorem exists_filled : ∃ T, TxStep Dpdk.reference Configuration.zero
    (.take 0 packetLarge fragmenting) { systemSending with pc := .txDrain 0 } T ∧
      T.pc = .txDrain 0 ∧ T.sent = [] ∧ T.txCount = 128 ∧
      T.staged = (txFrames fragmenting packetLarge).map some := by
  obtain ⟨q, hq⟩ : ∃ q, (systemSending.shared.txQ 0).dequeue = some (packetLarge, q) := ⟨_, rfl⟩
  have hfit : ∀ frags ∈ fragmenting.fragments, 0 + frags.length ≤ txMbufTableSize := by
    intro frags hfrags
    obtain rfl := Option.some.inj hfrags
    rw [List.length_map, List.length_range]
    exact Nat.le_of_ble_eq_true rfl
  have htake : ∃ T, pollerStep Dpdk.reference fragmenting { systemSending with pc := .txDrain 0 } =
      .ok (.txTake 0 packetLarge, T) ∧ _ :=
    pollerStep_txDrain_cons rfl hq (Nat.lt_of_sub_eq_succ rfl) hfit (Option.some_ne_none _)
  obtain ⟨T, hret, hstages⟩ := htake
  have hstaged : T.staged = (txFrames fragmenting packetLarge).map some := hstages.staged
  refine ⟨T, ⟨.poller fragmenting (.txTake 0 packetLarge), ⟨⟨Nat.zero_le _, hfit, le_rfl⟩, hret⟩,
    rfl, fresh_fragmenting⟩, hstages.rx.pc, hstages.sent, ?_, hstaged⟩
  rw [← length_staged, hstaged, List.length_map]
  rfl

end Batch

/-- The fragments of a packet fill the table, and the network card takes 100 of them. -/
theorem tx_pipeline_of_batch : ∃ log S,
    TxSound Dpdk.reference Configuration.zero systemSending log S ∧
      S.frames = [] ∧ S.sent.length = 100 := by
  have hopen := run_sharedOpen Dpdk.reference Configuration.zero ⟨0, 0, 0, 0⟩ 1 (by decide)
  have ok : systemSending.shared.Ok := ⟨(Shared.Ok.run hopen).mem, (Shared.Ok.run hopen).sockets⟩
  have hdistinct : systemSending.txHeld.Nodup := by
    have hheld : systemSending.txHeld = ([5] : List ℕ) := txHeld_systemSending (.txSlot 0)
    rw [hheld]
    decide
  have henter : TxStep Dpdk.reference Configuration.zero .idle systemSending
      { systemSending with pc := .txDrain 0 } :=
    ⟨.poller (.smooth []) .internal, ⟨admissible_sending (Nat.zero_le _) le_rfl, rfl⟩, rfl,
      .of_nil rfl⟩
  obtain ⟨T, htake, hpc, hnone, hcount, hstaged⟩ := exists_filled
  have hle : T.txCount ≤ txMbufTableSize := hcount.trans_le (Nat.le_of_ble_eq_true rfl)
  have hleave : TxStep Dpdk.reference Configuration.zero .idle T { T with pc := .txBatch 0 } :=
    ⟨.poller (.smooth []) .internal, ⟨admissible_sending hle (Nat.zero_le _),
      pollerStep_txDrain_full hpc hcount.ge⟩, by simp [txAction, hpc], .of_nil rfl⟩
  have hfull : burstSize ≤ ({ T with pc := .txBatch 0 } : System).txCount := hcount.ge
  obtain ⟨c, hc⟩ : ∃ c, c = { DpdkChoices.smooth [] with txSent := 100 } := ⟨_, rfl⟩
  have hbatch : ∃ U, System.Flushes { T with pc := .txBatch 0 } U c.txSent ∧
      pollerStep Dpdk.reference c { T with pc := .txBatch 0 } = _ :=
    pollerStep_txBatch_full rfl hfull
  obtain ⟨U, hflushes, hret⟩ := hbatch
  have hadm : c.Admissible { T with pc := .txBatch 0 } := by
    rw [hc]
    exact admissible_sending hle ((Nat.le_of_ble_eq_true rfl).trans hcount.ge)
  have hflush : TxStep Dpdk.reference Configuration.zero (.flush T.frames c.txSent)
      { T with pc := .txBatch 0 } { U with pc := .txSlot 1 } :=
    ⟨.poller c .internal, ⟨hadm, hret⟩, (if_pos hcount.ge).symm, .of_nil rfl⟩
  refine ⟨_, { U with pc := .txSlot 1 }, tx_pipeline Dpdk.reference Configuration.zero ok rfl rfl
    hdistinct ((((Run.single henter).snoc htake).snoc hleave).snoc hflush), ?_, ?_⟩
  · change U.staged.filterMap id = []
    rw [hflushes.staged, List.filterMap_nil]
  · have hsent : U.sent = T.sent ++ (T.staged.take c.txSent).filterMap id := hflushes.sent
    change U.sent.length = 100
    rw [hsent, hnone, hstaged, ← List.map_take, filterMap_id_map_some, hc]
    rfl

end Udpdk
