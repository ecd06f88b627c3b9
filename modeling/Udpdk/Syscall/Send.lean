import Udpdk.Syscall.Frame
import Udpdk.Syscall.Pools

/-!
# What a send emits

`udpdk_sendto` in every well-formed state: which calls are accepted, what frame goes into the
ring, and when the frame does not fit into its buffer.

## Main definitions

* `Shared.Sent` — the effect of a send that succeeds
* `Mbuf.LengthsExact` — the length fields of a frame tell its length

## Main results

* `udpdkSendto_outcome` — every send that returns has that effect, or leaves the rings alone
* `Shared.Ok.view_of_sendto` — the implicit bind is all it does to slots and bindings
* `Shared.Ok.sendsTruthfully_iff` — when a send emits a frame with exact lengths, or fails
-/

namespace Udpdk

open Foundation

/-- A call of `udpdk_sendto` that passes the validation and gets a buffer has a frame that fits
into that buffer, and the descriptor is not negative. -/
structure Shared.SendFits (σ : Shared) (pkt : Option ℕ) (sockfd : ℤ) (buf : List Byte) (flags : ℤ)
    (destAddr : Option SockaddrIn) (addrlen : ℕ) : Prop where
  nonneg : 0 ≤ sockfd
  fits : (∃ s dest, σ.AcceptsSend sockfd flags destAddr addrlen s dest) → pkt.isSome →
    sizeofHeaders + buf.length ≤ mbufDataRoom

/-- A frame with the payload `buf` to `dest` was put into the ring of socket `s`, which is
bound now. -/
structure Shared.Sent (σ : Shared) (dpdk : Dpdk) (config : Configuration) (pkt : Option ℕ)
    (buf : List Byte) (s : ℕ) (dest : SockaddrIn) (σ' : Shared) (m : Mbuf) (n : ℕ) : Prop where
  count : n = buf.length
  fits : sizeofHeaders + buf.length ≤ mbufDataRoom
  bound : (σ'.desc.slots s).bound
  source : sourceAddr config (σ'.desc.slots s) = sourceAddr config (σ.desc.slots s)
  frame : ∃ addr ∈ pkt, m = fillMbuf addr (buildFrame dpdk config (σ'.desc.slots s) dest buf)
  queued : ∃ q, (σ.txQ s).enqueue m = some q ∧ σ'.txQ = Function.update σ.txQ s q

section Send

variable {allowed : Fault → Prop} {dpdk : Dpdk} {config : Configuration} {σ : Shared}
  {pkt : Option ℕ} {sockfd flags : ℤ} {buf : List Byte} {destAddr : Option SockaddrIn}
  {addrlen s : ℕ}

-- Checking a term that runs it must not unroll the scan of all ports.
attribute [local irreducible] btableGetFreePort

/-- In a well-formed state the implicit bind succeeds, on the lowest port without bindings. -/
theorem exists_bindIfUnbound (ok : σ.Ok) (hs : s < numSocketsMax) (used : (σ.desc.slots s).used)
    (unbound : (σ.desc.slots s).bound = false) :
    ∃ (p : Port) (σ' : Shared), bindIfUnbound s σ = .ok (.ok (), σ') ∧
      σ' = { σ with desc := σ'.desc, mem := σ'.mem } ∧ σ'.view = σ.view.boundTo s inaddrAny p ∧
      σ.mem.bindings p = [] ∧ ∀ q : Port, q.toNat < p.toNat → σ.mem.bindings q ≠ [] := by
  -- fewer sockets than ports are bound, so there is a free one, and every socket may have it
  obtain ⟨p, hport, hfree, hlow⟩ := ok.exists_btableGetFreePort
  have hnil : σ.mem.bindings p = [] := (ok.mem.null_iff p).mp hfree
  have hlow' : ∀ q : Port, q.toNat < p.toNat → σ.mem.bindings q ≠ [] := fun q hq hq' =>
    hlow q hq ((ok.mem.null_iff q).mpr hq')
  obtain ⟨σ', hbind, hframe, hview⟩ : ∃ σ',
      (ApiEvent.bind s (some ⟨afInet, p, inaddrAny⟩) sizeofSockaddrIn (.ok ())).step
        Dpdk.reference Configuration.zero σ σ' ∧
      σ' = { σ with desc := σ'.desc, mem := σ'.mem } ∧ σ'.view = σ.view.boundTo s inaddrAny p :=
    ApiEvent.exists_step_bind ok hs used unbound (by rw [hnil]; rfl)
  have spec : Prog.wp (fun _ => False) (bindIfUnbound s) (fun ret σ₁ => ret = .ok () ∧ σ₁ = σ')
      σ := by
    unfold bindIfUnbound
    rw [Prog.wp_bind, wp_getSlot hs, unbound, if_neg Bool.false_ne_true, Prog.wp_bind, wp_onMem]
    apply Prog.wp_of_eq_ok hport
    have hraw : BitVec.ofInt 16 p.toNat = p := by simp
    rw [hraw]
    exact Prog.wp_of_eq_ok hbind ⟨rfl, rfl⟩
  obtain ⟨_, _, hret, rfl, rfl⟩ := Prog.exists_ok_of_wp spec
  exact ⟨p, _, hret, hframe, hview, hnil, hlow'⟩

/-- After it, the socket is bound and sends from the same address as before. -/
theorem bindIfUnbound_outcome (ok : σ.Ok) (hs : s < numSocketsMax)
    (used : (σ.desc.slots s).used) :
    Prog.wp allowed (bindIfUnbound s) (fun ret σ' => ret = .ok () ∧
      σ' = { σ with desc := σ'.desc, mem := σ'.mem } ∧ (σ'.desc.slots s).bound ∧
      sourceAddr config (σ'.desc.slots s) = sourceAddr config (σ.desc.slots s)) σ := by
  cases hbound : (σ.desc.slots s).bound with
  | true =>
    unfold bindIfUnbound
    rw [Prog.wp_bind, wp_getSlot hs, hbound]
    exact ⟨rfl, rfl, hbound, rfl⟩
  | false =>
    obtain ⟨p, σ', hret, hframe, hview, -⟩ := exists_bindIfUnbound ok hs used hbound
    have hslot : σ'.desc.slots s =
        { σ.desc.slots s with bound := true, udpPort := p, ipAddr := inaddrAny } := by
      rw [← Shared.view_slot, hview, SocketView.slot_boundTo_self, Shared.view_slot]
    have hsource : sourceAddr config (σ'.desc.slots s) = sourceAddr config (σ.desc.slots s) := by
      rw [hslot]
      unfold sourceAddr
      rw [if_neg (fun h => h.2 rfl), if_neg (fun h => by rw [hbound] at h; cases h.1)]
    exact Prog.wp_of_eq_ok hret ⟨rfl, hframe, by rw [hslot], hsource⟩

/-- **What a send does.** In a well-formed state a send whose frame fits into its buffer
returns, and either puts that frame into the ring of the socket or leaves all rings alone. -/
theorem udpdkSendto_outcome (ok : σ.Ok) : Prog.wp
    (fun _ => ¬ σ.SendFits pkt sockfd buf flags destAddr addrlen)
    (udpdkSendto dpdk config pkt sockfd buf flags destAddr addrlen)
    (fun ret σ' => σ.SendFits pkt sockfd buf flags destAddr addrlen ∧ match ret with
      | .error _ => σ'.txQ = σ.txQ
      | .ok (m, n) => ∃ s dest, σ.AcceptsSend sockfd flags destAddr addrlen s dest ∧
        σ.Sent dpdk config pkt buf s dest σ' m n) σ := by
  unfold udpdkSendto
  rw [Prog.wp_bind]
  -- the faults that are left are those of a negative descriptor and of a payload that is too long
  apply Prog.wp_mono (sendtoValidateArgs_outcome fun hneg h => absurd h.nonneg (not_le.mpr hneg))
  rintro (e | dest) σ₁ ⟨rfl, hnonneg, hvalid⟩
  · exact ⟨⟨hnonneg, fun h => absurd h hvalid⟩, rfl⟩
  obtain ⟨s, haccepts⟩ := hvalid
  have hfd := haccepts.fd
  subst hfd
  rw [Prog.wp_bind]
  apply Prog.wp_mono (bindIfUnbound_outcome ok haccepts.inRange haccepts.used)
  rintro _ σ₂ ⟨rfl, hframe, hbound, hsource⟩
  have htx : σ₂.txQ = σ₁.txQ := by rw [hframe]
  cases pkt with
  | none => exact ⟨⟨hnonneg, fun _ h => by cases h⟩, htx⟩
  | some addr =>
    dsimp only
    rw [Prog.wp_bind, wp_getSlot haccepts.inRange]
    split
    · rename_i hover
      exact fun h => absurd (h.fits ⟨s, dest, haccepts⟩ rfl) (not_le.mpr hover)
    rename_i hfits
    have hfits := not_lt.mp hfits
    have hsend : σ₁.SendFits (some addr) s buf flags destAddr addrlen :=
      ⟨hnonneg, fun _ _ => hfits⟩
    simp only [enqueueTx, Int.toNat_natCast, Prog.wp_bind, Prog.wp_read]
    cases hq : (σ₂.txQ s).enqueue
        (fillMbuf addr (buildFrame dpdk config (σ₂.desc.slots s) dest buf)) with
    | none => exact ⟨hsend, htx⟩
    | some q =>
      exact ⟨hsend, s, dest, haccepts, rfl, hfits, hbound, hsource, ⟨addr, rfl, rfl⟩, q, htx ▸ hq,
        congrArg (Function.update · s q) htx⟩

/-- After the implicit bind a send leaves slots and bindings alone. -/
theorem view_udpdkSendto {ret : Except Errno (Mbuf × ℕ)} {σ₁ σ₂ : Shared} {dest : SockaddrIn}
    (accepts : σ.AcceptsSend sockfd flags destAddr addrlen s dest)
    (hbind : bindIfUnbound sockfd σ = .ok (.ok (), σ₁))
    (hsend : udpdkSendto dpdk config pkt sockfd buf flags destAddr addrlen σ = .ok (ret, σ₂)) :
    σ₂.view = σ₁.view := by
  have spec : Prog.wp (fun _ => True)
      (udpdkSendto dpdk config pkt sockfd buf flags destAddr addrlen)
      (fun _ σ' => σ'.view = σ₁.view) σ := by
    unfold udpdkSendto
    rw [Prog.wp_bind]
    apply Prog.wp_mono (sendtoValidateArgs_outcome fun _ => trivial)
    rintro (e | dest') σ' ⟨rfl, -, hvalid⟩
    · exact absurd ⟨s, dest, accepts⟩ hvalid
    rw [Prog.wp_bind]
    apply Prog.wp_of_eq_ok hbind
    cases pkt with
    | none => rfl
    | some addr =>
      have hfd := accepts.fd
      subst hfd
      dsimp only
      rw [Prog.wp_bind, wp_getSlot accepts.inRange]
      split
      · trivial
      simp only [enqueueTx, Prog.wp_bind, Prog.wp_read]
      cases (σ₁.txQ (s : ℤ).toNat).enqueue
          (fillMbuf addr (buildFrame dpdk config (σ₁.desc.slots s) dest' buf)) with
      | none => rfl
      | some q => rfl
  have hview := Prog.wp_of_ok spec hsend
  exact hview

/-- **What a send does to slots and bindings.** A send that passes the validation binds its
socket if it was not bound; apart from that it leaves slots and bindings alone. -/
theorem Shared.Ok.view_of_sendto (ok : σ.Ok) {ret : Except Errno (Mbuf × ℕ)} {σ' : Shared}
    (h : udpdkSendto dpdk config pkt sockfd buf flags destAddr addrlen σ = .ok (ret, σ')) :
    (∃ s dest, σ.AcceptsSend sockfd flags destAddr addrlen s dest ∧
        (σ.desc.slots s).bound = false ∧ ∃ p, σ'.view = σ.view.boundTo s inaddrAny p) ∨
      σ'.view = σ.view ∧ ∀ s dest, σ.AcceptsSend sockfd flags destAddr addrlen s dest →
        (σ.desc.slots s).bound := by
  by_cases haccepts : ∃ s dest, σ.AcceptsSend sockfd flags destAddr addrlen s dest
  · obtain ⟨s, dest, haccepts⟩ := haccepts
    have hfd := haccepts.fd
    subst hfd
    cases hbound : (σ.desc.slots s).bound with
    | true =>
      have hkeep : bindIfUnbound s σ = .ok (.ok (), σ) := by
        have spec : Prog.wp (fun _ => False) (bindIfUnbound s)
            (fun ret σ' => ret = .ok () ∧ σ' = σ) σ := by
          rw [bindIfUnbound, Prog.wp_bind, wp_getSlot haccepts.inRange, hbound]
          exact ⟨rfl, rfl⟩
        obtain ⟨_, _, hret, rfl, rfl⟩ := Prog.exists_ok_of_wp spec
        exact hret
      refine .inr ⟨view_udpdkSendto haccepts hkeep h, fun t _ ht => ?_⟩
      obtain rfl : s = t := Nat.cast_inj.mp ht.fd
      exact hbound
    | false =>
      obtain ⟨p, σ₁, hbind, -, hview, -⟩ :=
        exists_bindIfUnbound ok haccepts.inRange haccepts.used hbound
      refine .inl ⟨s, dest, haccepts, hbound, p, ?_⟩
      rw [view_udpdkSendto haccepts hbind h, hview]
  · refine .inr ⟨?_, fun s dest hs => absurd ⟨s, dest, hs⟩ haccepts⟩
    have spec : Prog.wp (fun _ => True)
        (udpdkSendto dpdk config pkt sockfd buf flags destAddr addrlen)
        (fun _ σ' => σ'.view = σ.view) σ := by
      unfold udpdkSendto
      rw [Prog.wp_bind]
      apply Prog.wp_mono (sendtoValidateArgs_outcome fun _ => trivial)
      rintro (e | dest) σ₁ ⟨rfl, -, hvalid⟩
      · rfl
      · obtain ⟨s, hs⟩ := hvalid
        exact absurd ⟨s, dest, hs⟩ haccepts
    have hview := Prog.wp_of_ok spec h
    exact hview

/-- A send on an open socket whose ring has room succeeds. -/
theorem udpdkSendto_of_bindIfUnbound {σ₁ : Shared} (hs : s < numSocketsMax)
    (used : (σ.desc.slots s).used) (hbind : bindIfUnbound s σ = .ok (.ok (), σ₁))
    (hfits : sizeofHeaders + buf.length ≤ mbufDataRoom)
    {addr : ℕ} {dest : SockaddrIn} {q : BoundedQueue Mbuf}
    (hq : (σ₁.txQ s).enqueue (fillMbuf addr (buildFrame dpdk config (σ₁.desc.slots s) dest buf)) =
      some q) :
    udpdkSendto dpdk config (some addr) s buf 0 (some dest) sizeofSockaddrIn σ =
      .ok (.ok (fillMbuf addr (buildFrame dpdk config (σ₁.desc.slots s) dest buf), buf.length),
        { σ₁ with txQ := Function.update σ₁.txQ s q }) := by
  have hmax : ¬ (numSocketsMax : ℤ) ≤ s := by omega
  have hvalid : Prog.wp (fun _ => False) (sendtoValidateArgs s 0 (some dest) sizeofSockaddrIn)
      (fun ret σ' => ret = .ok dest ∧ σ' = σ) σ := by
    rw [sendtoValidateArgs, if_neg hmax, Prog.wp_bind, wp_getSlot hs, used]
    exact ⟨rfl, rfl⟩
  have spec : Prog.wp (fun _ => False)
      (udpdkSendto dpdk config (some addr) s buf 0 (some dest) sizeofSockaddrIn)
      (fun ret σ' => ret = .ok (fillMbuf addr (buildFrame dpdk config (σ₁.desc.slots s) dest buf),
        buf.length) ∧ σ' = { σ₁ with txQ := Function.update σ₁.txQ s q }) σ := by
    rw [udpdkSendto, Prog.wp_bind]
    apply Prog.wp_mono hvalid
    rintro _ _ ⟨rfl, rfl⟩
    dsimp only
    rw [Prog.wp_bind]
    apply Prog.wp_of_eq_ok hbind
    dsimp only
    rw [Prog.wp_bind, wp_getSlot hs, if_neg (not_lt.mpr hfits)]
    simp only [enqueueTx, Int.toNat_natCast, Prog.wp_bind, Prog.wp_read, hq]
    exact ⟨rfl, rfl⟩
  obtain ⟨ret, σ', hret, rfl, rfl⟩ := Prog.exists_ok_of_wp spec
  exact hret

/-- A socket that is bound stays as it is. -/
theorem udpdkSendto_eq (hs : s < numSocketsMax) (used : (σ.desc.slots s).used)
    (bound : (σ.desc.slots s).bound) (hfits : sizeofHeaders + buf.length ≤ mbufDataRoom)
    {addr : ℕ} {dest : SockaddrIn} {q : BoundedQueue Mbuf}
    (hq : (σ.txQ s).enqueue (fillMbuf addr (buildFrame dpdk config (σ.desc.slots s) dest buf)) =
      some q) :
    udpdkSendto dpdk config (some addr) s buf 0 (some dest) sizeofSockaddrIn σ =
      .ok (.ok (fillMbuf addr (buildFrame dpdk config (σ.desc.slots s) dest buf), buf.length),
        { σ with txQ := Function.update σ.txQ s q }) := by
  have spec : Prog.wp (fun _ => False) (bindIfUnbound s)
      (fun ret σ' => ret = .ok () ∧ σ' = σ) σ := by
    rw [bindIfUnbound, Prog.wp_bind, wp_getSlot hs, bound]
    exact ⟨rfl, rfl⟩
  obtain ⟨ret, σ₁, hbind, rfl, rfl⟩ := Prog.exists_ok_of_wp spec
  exact udpdkSendto_of_bindIfUnbound hs used hbind hfits hq

end Send

/-! ## Lengths -/

/-- The length fields of a frame, and those of its buffer, tell its length with a payload of
`len` bytes. -/
structure Mbuf.LengthsExact (m : Mbuf) (len : ℕ) : Prop where
  total : (beToCpu16 m.totalLength).toNat = len + sizeofIpv4Hdr + sizeofUdpHdr
  dgram : (beToCpu16 m.dgramLen).toNat = len + sizeofUdpHdr
  pkt : m.pktLen.toNat = len + sizeofHeaders
  data : m.head.dataLen.toNat = len + sizeofHeaders

/-- A frame that fits into a buffer has exact lengths. -/
theorem lengthsExact_fillMbuf {dpdk : Dpdk} {config : Configuration} {slot : ExchSlotInfo}
    {dest : SockaddrIn} {payload : List Byte} {addr : ℕ}
    (h : sizeofHeaders + payload.length ≤ mbufDataRoom) :
    (fillMbuf addr (buildFrame dpdk config slot dest payload)).LengthsExact payload.length := by
  have hlen : (buildFrame dpdk config slot dest payload).length = payload.length + 42 := by
    rw [length_buildFrame, add_comm]
    rfl
  have hroom : 42 + payload.length ≤ 2048 := h
  have hip : sizeofIpv4Hdr = 20 := rfl
  have hudp : sizeofUdpHdr = 8 := rfl
  have hheaders : sizeofHeaders = 42 := rfl
  constructor
  · rw [totalLength_fillMbuf, beToCpu16_beToCpu16, BitVec.toNat_ofNat]
    omega
  · rw [dgramLen_fillMbuf, beToCpu16_beToCpu16, BitVec.toNat_ofNat]
    omega
  · change (BitVec.ofNat 32 (buildFrame dpdk config slot dest payload).length).toNat = _
    rw [hlen, BitVec.toNat_ofNat]
    omega
  · change ((BitVec.ofNat 32 (buildFrame dpdk config slot dest payload).length).setWidth 16).toNat
      = _
    rw [hlen, BitVec.toNat_setWidth, BitVec.toNat_ofNat]
    omega

/-- The call returns. If it returns the length of `buf`, the frame that it emits fits into its
buffer and has exact lengths; otherwise it fails and puts nothing into a ring. -/
def Shared.SendsTruthfully (σ : Shared) (dpdk : Dpdk) (config : Configuration) (pkt : Option ℕ)
    (sockfd : ℤ) (buf : List Byte) (flags : ℤ) (destAddr : Option SockaddrIn) (addrlen : ℕ) :
    Prop :=
  ∃ ret σ', udpdkSendto dpdk config pkt sockfd buf flags destAddr addrlen σ = .ok (ret, σ') ∧
    match ret with
    | .ok (m, n) => n = buf.length ∧ sizeofHeaders + buf.length ≤ mbufDataRoom ∧
      m.LengthsExact buf.length
    | .error _ => σ'.txQ = σ.txQ

/-- A send that fits is truthful, and one that does not is not. -/
theorem Shared.Ok.sendsTruthfully_iff {σ : Shared} (ok : σ.Ok) {dpdk : Dpdk}
    {config : Configuration} {pkt : Option ℕ} {sockfd flags : ℤ} {buf : List Byte}
    {destAddr : Option SockaddrIn} {addrlen : ℕ} :
    σ.SendsTruthfully dpdk config pkt sockfd buf flags destAddr addrlen ↔
      σ.SendFits pkt sockfd buf flags destAddr addrlen := by
  have spec : Prog.wp (fun _ => ¬ σ.SendFits pkt sockfd buf flags destAddr addrlen)
      (udpdkSendto dpdk config pkt sockfd buf flags destAddr addrlen) _ σ :=
    udpdkSendto_outcome ok
  constructor
  · rintro ⟨ret, σ', hret, -⟩
    exact (Prog.wp_of_ok spec hret).1
  · intro hfits
    obtain ⟨ret, σ', hret, -, hspec⟩ :=
      Prog.exists_ok_of_wp (Prog.wp_allow spec fun _ h => absurd hfits h)
    refine ⟨ret, σ', hret, ?_⟩
    cases ret with
    | error e => exact hspec
    | ok r =>
      obtain ⟨s, dest, -, hsent⟩ := hspec
      obtain ⟨addr, -, hm⟩ := hsent.frame
      refine ⟨hsent.count, hsent.fits, ?_⟩
      rw [hm]
      exact lengthsExact_fillMbuf hsent.fits

end Udpdk
