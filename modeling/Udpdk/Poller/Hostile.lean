import Udpdk.Poller.Delivery
import Udpdk.Syscall.Receive

/-!
# Hostile frames

The lengths that a receive computes with come from the UDP header and from the segments of a
packet, and nothing on the way to the socket checks them. Here every round of the copy loop
is on record, with what it reads and where it writes.

## Main definitions

* `copyRounds` — the rounds of the copy loop
* `Mbuf.LengthsSound` — no difference wraps, and no round leaves its segment or the buffer

## Main results

* `copySegments_eq_copyRounds` — the loop copies just what its rounds read
* `recvfrom_lengths_iff` — when the lengths are sound or the packet is rejected
-/

namespace Udpdk

open Foundation

/-! ## The rounds of the copy loop -/

/-- A round of the loop: the number of the segment, the segment, the bytes written before, and
the bytes copied. -/
structure CopyRound where
  s : ℕ
  seg : Segment
  written : ℕ
  effLen : ℕ

/-- What the round reads out of its segment. -/
def CopyRound.read (r : CopyRound) : List Byte := r.seg.slice (payloadOffset r.s) r.effLen

/-- The rounds over the segments from number `s` on. -/
def copyRounds (dgramPaylLen : BitVec 16) (s : ℕ) : List Segment → ℕ → BitVec 32 → List CopyRound
  | [], _, _ => []
  | seg :: rest, written, bytesLeft =>
    let eff := effLen dgramPaylLen s seg bytesLeft
    { s := s, seg := seg, written := written, effLen := eff.toNat } ::
      if bytesLeft - eff = 0 then []
      else copyRounds dgramPaylLen (s + 1) rest (written + eff.toNat) (bytesLeft - eff)

/-- The payload starts inside the segment, and the round reads no byte behind its end and
writes none behind the end of a buffer of `len` bytes. -/
structure CopyRound.Sound (r : CopyRound) (len : ℕ) : Prop where
  offset : payloadOffset r.s ≤ r.seg.dataLen.toNat
  inSegment : r.effLen ≤ r.seg.dataLen.toNat - payloadOffset r.s
  inBuffer : r.written + r.effLen ≤ len

/-- A receive of `len` bytes of the packet subtracts no length from a smaller one, and all
its rounds are sound. -/
structure Mbuf.LengthsSound (m : Mbuf) (len : ℕ) : Prop where
  dgram : sizeofUdpHdr ≤ (beToCpu16 m.dgramLen).toNat
  rounds : ∀ r ∈ copyRounds m.payloadLen 0 m.segments 0 (BitVec.ofNat 32 len), r.Sound len

section Rounds

variable {P : BitVec 16} {s written len : ℕ} {seg : Segment} {segs rest : List Segment}
  {out : List Byte} {bytesLeft : BitVec 32} {m : Mbuf}

theorem copyRounds_cons : copyRounds P s (seg :: rest) written bytesLeft =
    let eff := effLen P s seg bytesLeft
    { s := s, seg := seg, written := written, effLen := eff.toNat } ::
      if bytesLeft - eff = 0 then []
      else copyRounds P (s + 1) rest (written + eff.toNat) (bytesLeft - eff) := rfl

/-- The loop copies what its rounds read, and `written` counts it. -/
theorem copySegments_eq_copyRounds : (copySegments P s segs out bytesLeft).1 =
    out ++ (copyRounds P s segs out.length bytesLeft).flatMap CopyRound.read := by
  induction segs generalizing s out bytesLeft with
  | nil => simp [copySegments, copyRounds]
  | cons seg rest ih =>
    have hlen : (out ++ seg.slice (payloadOffset s) (effLen P s seg bytesLeft).toNat).length =
        out.length + (effLen P s seg bytesLeft).toNat := by
      simp [Segment.slice]
    rw [copySegments_cons, copyRounds_cons]
    dsimp only
    rw [List.flatMap_cons, ← List.append_assoc]
    by_cases hdone : bytesLeft - effLen P s seg bytesLeft = 0
    · rw [if_pos hdone, if_pos hdone, List.flatMap_nil, List.append_nil]
      rfl
    · rw [if_neg hdone, if_neg hdone, ih, hlen]
      rfl

theorem toNat_effLen_le : (effLen P s seg bytesLeft).toNat ≤ bytesLeft.toNat := by
  have hmin : ∀ a b : BitVec 32, (if a < b then a else b).toNat ≤ b.toNat := by
    intro a b
    split
    · rename_i hlt
      exact (BitVec.lt_def.mp hlt).le
    · exact le_rfl
  exact hmin _ _

/-- The rounds over later segments are sound as long as what is left fits. -/
theorem sound_of_mem_copyRounds (hs : s ≠ 0) (hfit : written + bytesLeft.toNat ≤ len) :
    ∀ r ∈ copyRounds P s segs written bytesLeft, r.Sound len := by
  induction segs generalizing s written bytesLeft with
  | nil => exact fun r hr => absurd hr List.not_mem_nil
  | cons seg rest ih =>
    have heff : (effLen P s seg bytesLeft).toNat = min seg.dataLen.toNat bytesLeft.toNat :=
      toNat_effLen hs
    have hleft : (bytesLeft - effLen P s seg bytesLeft).toNat =
        bytesLeft.toNat - (effLen P s seg bytesLeft).toNat :=
      toNat_sub_effLen toNat_effLen_le
    have hoff : payloadOffset s = 0 := if_neg hs
    intro r hr
    rw [copyRounds_cons] at hr
    rcases List.mem_cons.mp hr with rfl | hr
    · exact ⟨by simp [hoff], by simp [hoff, heff], by simp only [heff]; omega⟩
    · split at hr
      · exact absurd hr List.not_mem_nil
      · exact ih (Nat.succ_ne_zero s) (by omega) r hr

/-- **Sound lengths.** The lengths of a packet are sound just when its UDP length counts the
UDP header and its first segment holds all headers. -/
theorem lengthsSound_iff : m.LengthsSound len ↔
    sizeofUdpHdr ≤ (beToCpu16 m.dgramLen).toNat ∧ sizeofHeaders ≤ m.head.dataLen.toNat := by
  have hrounds : copyRounds m.payloadLen 0 m.segments 0 (BitVec.ofNat 32 len) =
      let eff := effLen m.payloadLen 0 m.head (BitVec.ofNat 32 len)
      { s := 0, seg := m.head, written := 0, effLen := eff.toNat } ::
        if BitVec.ofNat 32 len - eff = 0 then []
        else copyRounds m.payloadLen 1 m.chain (0 + eff.toNat) (BitVec.ofNat 32 len - eff) := rfl
  have hfirst : payloadOffset 0 = sizeofHeaders := rfl
  constructor
  · rintro ⟨hdgram, hsound⟩
    rw [hrounds] at hsound
    exact ⟨hdgram, (hsound _ List.mem_cons_self).offset⟩
  · rintro ⟨hdgram, hhead⟩
    refine ⟨hdgram, fun r hr => ?_⟩
    have hwanted : (BitVec.ofNat 32 len).toNat ≤ len := by
      rw [BitVec.toNat_ofNat]
      exact Nat.mod_le _ _
    have heff : (effLen m.payloadLen 0 m.head (BitVec.ofNat 32 len)).toNat = min
        (min (m.head.dataLen.toNat - sizeofHeaders) m.payloadLen.toNat)
          (BitVec.ofNat 32 len).toNat :=
      toNat_effLen_zero hhead
    have hleft : (BitVec.ofNat 32 len - effLen m.payloadLen 0 m.head (BitVec.ofNat 32 len)).toNat =
        (BitVec.ofNat 32 len).toNat -
          (effLen m.payloadLen 0 m.head (BitVec.ofNat 32 len)).toNat :=
      toNat_sub_effLen toNat_effLen_le
    rw [hrounds] at hr
    rcases List.mem_cons.mp hr with rfl | hr
    · exact ⟨hhead, by simp only [heff, hfirst]; omega, by simp only [heff]; omega⟩
    · split at hr
      · exact absurd hr List.not_mem_nil
      · exact sound_of_mem_copyRounds Nat.one_ne_zero (by omega) r hr

end Rounds

/-! ## Receiving a hostile frame -/

/-- **Hostile frames.** A receive never rejects a packet. So either it does, or the lengths
that it computes with are sound, exactly when the UDP length of the packet counts the UDP
header and its first segment holds all headers. -/
theorem recvfrom_lengths_iff {σ : Shared} {s : ℕ} (hs : s < numSocketsMax)
    (used : (σ.desc.slots s).used) (awake : σ.interrupted = false) {pkt : Mbuf}
    {q : BoundedQueue (Option Mbuf)} (hq : (σ.rxQ s).dequeue = some (some pkt, q)) (len : ℕ)
    {srcAddr : Bool} {addrlen : Option ℕ} (haddr : srcAddr → addrlen.isSome) :
    ∃ ret σ', udpdkRecvfrom s false len 0 srcAddr addrlen σ = .ok (ret, σ') ∧
      (((∃ e, ret = .error e) ∨ pkt.LengthsSound len) ↔
        sizeofUdpHdr ≤ (beToCpu16 pkt.dgramLen).toNat ∧
          sizeofHeaders ≤ pkt.head.dataLen.toNat) := by
  obtain ⟨σ', hret⟩ := exists_udpdkRecvfrom hs used awake hq len haddr
  refine ⟨_, σ', hret, ?_⟩
  have hsound : pkt.LengthsSound len ↔ _ := lengthsSound_iff
  rw [← hsound]
  exact or_iff_right fun ⟨e, he⟩ => by cases he

/-- A datagram to 7:53 that announces a length of zero. -/
def datagramShort : Mbuf :=
  { datagramTo 7 53 with
    head := {
      data := fun i =>
        if i = sizeofEtherHdr + sizeofIpv4Hdr + 5 then 0 else (datagramTo 7 53).head.data i
      dataLen := (datagramTo 7 53).head.dataLen } }

/-- The poller does not look at the length. -/
theorem datagramOf_datagramShort (choices : DpdkChoices) :
    datagramOf Dpdk.reference choices datagramShort = some datagramShort := by
  have hipv4 : Dpdk.reference.ethIsIpv4Hdr datagramShort.packetType := by decide
  have hfrag : Dpdk.reference.ipv4FragPktIsFragmented datagramShort.fragmentOffset = false := by
    decide
  have hproto : datagramShort.nextProtoId = BitVec.ofInt 8 ipprotoUdp := by decide
  rw [datagramOf, hipv4, hfrag]
  exact Option.filter_eq_some_iff.mpr ⟨rfl, decide_eq_true hproto⟩

/-- A datagram that announces a length of zero gets to a socket, and is received. -/
theorem not_recvfrom_lengths : ¬ ∀ (dpdk : Dpdk) (config : Configuration)
    (zones : AllocatorZones) (log : List SystemEvent) (S : System),
    Run (SystemEvent.step dpdk config) (systemInit zones) log S →
    ∀ (choices : DpdkChoices) (m : Mbuf) (delivered : List Delivery) (S' : System),
    reassemble dpdk choices m S = .ok (delivered, S') →
    ∀ (b : BindInfo) (pkt : Mbuf), (b, some pkt) ∈ delivered →
    ∀ (σ : Shared) (s : ℕ), s < numSocketsMax → (σ.desc.slots s).used → σ.interrupted = false →
    ∀ q, (σ.rxQ s).dequeue = some (some pkt, q) →
    ∀ (len : ℕ) (srcAddr : Bool) (addrlen : Option ℕ), (srcAddr → addrlen.isSome) →
    ∃ ret σ', udpdkRecvfrom s false len 0 srcAddr addrlen σ = .ok (ret, σ') ∧
      ((∃ e, ret = .error e) ∨ pkt.LengthsSound len) := by
  intro h
  obtain ⟨σ, run, ⟨hbindings, -⟩⟩ := exists_run_bound ⟨0, 0, 0, 0⟩ (s := 0) (by decide) 7 53
  have run' := run_api (S := systemInit ⟨0, 0, 0, 0⟩) run
  have hport : datagramShort.dstPort = 53 := by decide
  have haddr : datagramShort.dstAddr = 7 := by decide
  have hrec : newBinding 0 7 0 ∈
      receivers datagramShort.dstAddr (σ.mem.bindings datagramShort.dstPort) := by
    rw [hport, haddr, hbindings]
    decide
  have hspace : System.HasRoom { systemInit ⟨0, 0, 0, 0⟩ with shared := σ }
      (some datagramShort) := by
    apply hasRoom_of_empty fun _ => rfl
    rw [hport, hbindings]
    decide
  obtain ⟨delivered, S', pkt, hret, hmem, addr, rfl⟩ := exists_delivered
    (Shared.Ok.systemRun run') (fun n => Option.some_ne_none n)
    (datagramOf_datagramShort (.smooth [])) hspace hrec
  have hroom : true → (some sizeofSockaddrIn).isSome := fun _ => rfl
  obtain ⟨ret, σ', hcall, hsound⟩ := h _ _ _ _ _ run' _ _ _ _ hret _ _ hmem
    (sharedHolding _) 0 (by decide) rfl rfl _ rfl 0 true _ hroom
  obtain ⟨σ'', hcall'⟩ := exists_udpdkRecvfrom
    (σ := sharedHolding { datagramShort with addr := addr }) (s := 0) (by decide) rfl rfl rfl 0
    hroom
  obtain ⟨hok, -⟩ := Prod.mk.inj (Except.ok.inj (hcall.symm.trans hcall'))
  rcases hsound with ⟨e, he⟩ | hsound
  · cases he.symm.trans hok
  · have hdgram : ¬ sizeofUdpHdr ≤ (beToCpu16 datagramShort.dgramLen).toNat := by decide
    exact hdgram hsound.dgram

/-- A datagram without payload. -/
theorem recvfrom_lengths_of_datagram : ∃ ret σ',
    udpdkRecvfrom 0 false 9 0 true (some sizeofSockaddrIn) (sharedHolding (datagramTo 7 53)) =
      .ok (ret, σ') ∧ ((∃ e, ret = .error e) ∨ (datagramTo 7 53).LengthsSound 9) := by
  have hroom : true → (some sizeofSockaddrIn).isSome := fun _ => rfl
  obtain ⟨ret, σ', hret, hiff⟩ := recvfrom_lengths_iff (σ := sharedHolding (datagramTo 7 53))
    (s := 0) (by decide) rfl rfl rfl 9 hroom
  exact ⟨ret, σ', hret, hiff.mpr ⟨by decide, by decide⟩⟩

end Udpdk
