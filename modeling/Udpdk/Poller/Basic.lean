import Udpdk.Syscall.Transfer

/-!
# The poller

`udpdk_poller.c`. The body of the poller is an endless loop: it collects packets from the
tx rings and hands them to the network card, then receives a burst, demultiplexes every
packet into the staging buffers of the exchange slots, and flushes the buffers of the used
slots into their rx rings. `pollerStep` is one step of it; between any two steps the
application may make a call.

What DPDK decides in a step is a parameter: what was received, how many packets were sent,
the results of fragmentation and reassembly, and whether buffers could be allocated.
-/

namespace Udpdk

open Foundation

/-- Where `poller_body` is. -/
inductive PollerPc
  /-- at slot `i` of the loop over the tx rings -/
  | txSlot (i : ℕ)
  /-- inside the loop that drains the tx ring of slot `i` -/
  | txDrain (i : ℕ)
  /-- after that loop -/
  | txBatch (i : ℕ)
  /-- with packets of the burst still to be demultiplexed -/
  | rx (pending : List Mbuf)
  /-- at slot `i` of the loop that flushes the staging buffers -/
  | rxFlush (i : ℕ)

/-- The shared state and the state of the poller. `rxBuffer i` lists the first `rx_count`
entries of `exch_slots[i].rx_buffer`. Entries of the tx table from `txCount` on are stale. -/
structure System where
  shared : Shared
  pc : PollerPc
  rxBuffer : ℕ → List (Option Mbuf)
  deathRow : List ℕ
  txMbufTable : ℕ → Option Mbuf
  txCount : ℕ
  sent : List Mbuf

/-- The system when both processes have finished their initialisation. -/
def systemInit (zones : AllocatorZones) : System where
  shared := sharedInit zones
  pc := .txSlot 0
  rxBuffer _ := []
  deathRow := []
  txMbufTable _ := none
  txCount := 0
  sent := []

/-- What DPDK decides in one step of the poller. -/
structure DpdkChoices where
  /-- the result of `rte_eth_rx_burst` -/
  burst : List Mbuf
  /-- the result of `rte_ipv4_frag_reassemble_packet` -/
  assembled : Option Mbuf
  /-- the buffers that it puts on the death row -/
  dead : List ℕ
  /-- the buffers that the successive calls of `rte_pktmbuf_clone` get -/
  clone : ℕ → Option ℕ
  /-- the output of `rte_ipv4_fragment_packet`, unless it fails -/
  fragments : Option (List Mbuf)
  /-- some fragment has no room for `rte_pktmbuf_prepend` -/
  prependFails : Bool
  /-- the result of `rte_eth_tx_burst` -/
  txSent : ℕ

/-- A result of DPDK is never larger than what it was given room for. -/
structure DpdkChoices.Admissible (choices : DpdkChoices) (S : System) : Prop where
  burst : choices.burst.length ≤ rxMbufTableSize
  fragments : ∀ frags ∈ choices.fragments, S.txCount + frags.length ≤ txMbufTableSize
  txSent : choices.txSent ≤ S.txCount

/-- A burst arrives, no allocation fails, and everything is sent. -/
def DpdkChoices.smooth (burst : List Mbuf) : DpdkChoices where
  burst := burst
  assembled := none
  dead := []
  clone n := some n
  fragments := some []
  prependFails := false
  txSent := 0

abbrev SystemProg := Prog Fault System

/-- Run an operation on the shared state. -/
def onShared {α : Type} (x : SharedProg α) : SystemProg α :=
  Prog.zoom System.shared (fun σ S => { S with shared := σ }) x

/-- Run an operation of the bind table. -/
def onTable {α : Type} (x : MemProg α) : SystemProg α :=
  Prog.zoom (fun S => S.shared.mem) (fun m S => { S with shared := { S.shared with mem := m } }) x

/-- `rte_pktmbuf_free`, which ignores a null pointer. -/
def freeMbuf : Option Mbuf → SystemProg Unit
  | none => return ()
  | some m => onShared (rtePktmbufFree m)

/-- `rte_pktmbuf_clone`: a buffer with the same data; NULL if there is none left. -/
def rtePktmbufClone (clone : Option ℕ) : Option Mbuf → SystemProg (Option Mbuf)
  | none => Prog.stop .nullDeref
  | some m => return clone.map fun addr => { m with addr := addr }

/-! ## Receiving -/

/-- A descriptor as the `uint8_t` parameter of `enqueue_rx_packet`. -/
def excBufIdx (sockfd : ℤ) : ℕ := (sockfd % 256).toNat

/-- `enqueue_rx_packet`. Nothing checks that `rx_buffer` has room: behind its last entry the store
leaves the array. -/
def enqueueRxPacket (sockfd : ℤ) (buf : Option Mbuf) : SystemProg Unit := do
  let idx := excBufIdx sockfd
  let S ← Prog.read
  if (S.rxBuffer idx).length < exchBufSize then
    Prog.update fun S =>
      { S with rxBuffer := Function.update S.rxBuffer idx (S.rxBuffer idx ++ [buf]) }
  else
    Prog.stop .outOfBounds

/-- The part of `reassemble` that handles fragments: the packet to demultiplex, if any. -/
def wholePacket (dpdk : Dpdk) (choices : DpdkChoices) (m : Mbuf) : SystemProg (Option Mbuf) := do
  if dpdk.ethIsIpv4Hdr m.packetType then
    if dpdk.ipv4FragPktIsFragmented m.fragmentOffset then
      -- Handle this fragment
      Prog.update fun S => { S with deathRow := S.deathRow ++ choices.dead }
      return choices.assembled
    else
      return some m
  else
    return none

/-- The variables of the scan in `reassemble`: the buffer to deliver next, whether the last
buffer was delivered, and the calls of `enqueue_rx_packet` so far. -/
structure Demux where
  m : Option Mbuf
  deliveredLast : Bool
  delivered : List (BindInfo × Option Mbuf)

/-- The body of the scan in `reassemble`. -/
def reassembleStep (choices : DpdkChoices) (ipDstAddr : InAddr) (node : ℕ) (d : Demux) :
    SystemProg (ForInStep Demux) := do
  let n ← onTable (load udpdkListNodeTAlloc (some node))
  let b ← onTable (load bindInfoAlloc (some n.val))
  -- If matching
  if ipDstAddr = b.ipAddr ∨ b.ipAddr = inaddrAny then
    -- Deliver to this socket
    enqueueRxPacket b.sockfd d.m
    let delivered := d.delivered ++ [(b, d.m)]
    -- If other socket may exist on the same port, keep scanning
    if b.reuseAddr ∨ b.reusePort then
      let m ← rtePktmbufClone (choices.clone d.delivered.length) d.m
      return .yield { m := m, deliveredLast := false, delivered := delivered }
    else
      return .done { m := d.m, deliveredLast := true, delivered := delivered }
  else
    return .yield d

/-- `reassemble`, with the deliveries it makes. -/
def reassemble (dpdk : Dpdk) (choices : DpdkChoices) (m : Mbuf) :
    SystemProg (List (BindInfo × Option Mbuf)) := do
  match ← wholePacket dpdk choices m with
  | none => return []
  | some m =>
    if m.nextProtoId ≠ BitVec.ofInt 8 ipprotoUdp then
      return []
    else
      -- Find the sock_ids corresponding to the UDP dst port
      let binds ← onTable (btableGetBindings m.dstPort)
      if binds = none then
        return []
      else
        let it ← onTable (listIteratorNew binds .LIST_HEAD)
        let d ← Prog.whileSome .noReturn (onTable (listIteratorNext it))
          (reassembleStep choices m.dstAddr) scanFuel
          { m := some m, deliveredLast := false, delivered := [] }
        if !d.deliveredLast then
          freeMbuf d.m
        onTable (listIteratorDestroy it)
        return d.delivered

/-- `flush_rx_queue`: the whole buffer goes into the ring, or is freed. -/
def flushRxQueue (idx : ℕ) : SystemProg Unit := do
  let S ← Prog.read
  if (S.rxBuffer idx).isEmpty then
    return ()
  else
    match (S.shared.rxQ idx).enqueueBulk (S.rxBuffer idx) with
    | some q =>
      onShared (Prog.update fun σ => { σ with rxQ := Function.update σ.rxQ idx q })
    | none => (S.rxBuffer idx).forM freeMbuf
    Prog.update fun S => { S with rxBuffer := Function.update S.rxBuffer idx [] }

/-! ## Transmitting -/

def u16 (n : ℕ) : ℕ := n % 2 ^ 16

def writeFrom {α : Type} (table : ℕ → Option α) (i : ℕ) (xs : List α) : ℕ → Option α := fun k =>
  if i ≤ k ∧ k < i + xs.length then xs[k - i]? else table k

/-- A fragment with the Ethernet header of the packet in front. -/
def reattachEtherHdr (old frag : Mbuf) : Mbuf where
  addr := frag.addr
  packetType := ptypeEtherIpv4Udp
  pktLen := frag.pktLen + BitVec.ofNat 32 sizeofEtherHdr
  head := {
    data := fun i =>
      if i < sizeofEtherHdr then old.head.data i else frag.head.data (i - sizeofEtherHdr)
    dataLen := frag.head.dataLen + BitVec.ofNat 16 sizeofEtherHdr }
  chain := frag.chain

/-- The body of the loop that drains a tx ring, for a dequeued packet; `false` is `break`. -/
def stageTx (choices : DpdkChoices) (pkt : Mbuf) : SystemProg Bool := do
  -- fragmentation not needed
  if pkt.pktLen.toNat ≤ ipv4MtuDefault then
    Prog.update fun S =>
      { S with
        txMbufTable := writeFrom S.txMbufTable S.txCount [pkt]
        txCount := u16 (S.txCount + 1) }
    return true
  -- fragmentation needed
  else
    match choices.fragments with
    | none =>
      freeMbuf (some pkt)
      return false
    | some frags =>
      Prog.update fun S => { S with txMbufTable := writeFrom S.txMbufTable S.txCount frags }
      -- Free the original mbuf
      freeMbuf (some pkt)
      -- Re-attach (and adjust) the Ethernet header to each fragment
      if choices.prependFails then
        frags.forM fun frag => freeMbuf (some frag)
        Prog.update fun S => { S with txCount := u16 (S.txCount + 2 ^ 16 - frags.length) }
      else
        let frags := frags.map (reattachEtherHdr pkt)
        Prog.update fun S => { S with txMbufTable := writeFrom S.txMbufTable S.txCount frags }
      Prog.update fun S => { S with txCount := u16 (S.txCount + frags.length) }
      return true

/-- `flush_tx_table` on the first `tx_count` entries, and `tx_count = 0`. -/
def flushTxTable (txSent : ℕ) : SystemProg Unit := do
  let S ← Prog.read
  let staged := (List.range S.txCount).map S.txMbufTable
  Prog.update fun S => { S with sent := S.sent ++ (staged.take txSent).filterMap id }
  -- Free unsent mbufs
  (staged.drop txSent).forM freeMbuf
  Prog.update fun S => { S with txCount := 0 }

/-! ## The loop -/

/-- What happened in a step of the poller. -/
inductive PollerEvent
  /-- a step that moves no packet but to the network card -/
  | internal
  /-- a packet was taken from the tx ring of a slot -/
  | txTake (s : ℕ) (m : Mbuf)
  /-- a burst was received -/
  | rxBurst (packets : List Mbuf)
  /-- a packet was demultiplexed -/
  | rxPacket (m : Mbuf) (delivered : List (BindInfo × Option Mbuf))
  /-- the loop that flushes the staging buffers has visited a slot -/
  | rxFlush (s : ℕ)
  /-- the death row was freed -/
  | rxDone

def goto (pc : PollerPc) : SystemProg Unit := Prog.update fun S => { S with pc := pc }

/-- One step of `poller_body`. -/
def pollerStep (dpdk : Dpdk) (choices : DpdkChoices) : SystemProg PollerEvent := do
  let S ← Prog.read
  match S.pc with
  | .txSlot i =>
    if i < numSocketsMax then
      if (S.shared.desc.slots i).used then goto (.txDrain i) else goto (.txSlot (i + 1))
      return .internal
    else
      -- Flush remaining packets
      if 0 < S.txCount then
        flushTxTable choices.txSent
      -- Receive packets from DPDK port 0 (queue 0)
      if choices.burst.isEmpty then goto (.txSlot 0) else goto (.rx choices.burst)
      return .rxBurst choices.burst
  | .txDrain i =>
    if S.txCount < burstSize then
      match (S.shared.txQ i).dequeue with
      | none =>
        goto (.txBatch i)
        return .internal
      | some (pkt, q) =>
        onShared (Prog.update fun σ => { σ with txQ := Function.update σ.txQ i q })
        if !(← stageTx choices pkt) then
          goto (.txBatch i)
        return .txTake i pkt
    else
      goto (.txBatch i)
      return .internal
  | .txBatch i =>
    -- If a batch of packets is ready, send it
    if burstSize ≤ S.txCount then
      flushTxTable choices.txSent
    goto (.txSlot (i + 1))
    return .internal
  | .rx [] =>
    goto (.rxFlush 0)
    return .internal
  | .rx (m :: pending) =>
    let delivered ← reassemble dpdk choices m
    goto (.rx pending)
    return .rxPacket m delivered
  | .rxFlush i =>
    if i < numSocketsMax then
      if (S.shared.desc.slots i).used then
        flushRxQueue i
      goto (.rxFlush (i + 1))
      return .rxFlush i
    else
      -- Free death row
      Prog.update fun S =>
        { S with
          deathRow := []
          shared := { S.shared with freed := S.shared.freed ++ S.deathRow } }
      goto (.txSlot 0)
      return .rxDone

end Udpdk
