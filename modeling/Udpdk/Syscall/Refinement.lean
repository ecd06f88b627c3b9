import Udpdk.Poller.System
import Udpdk.Syscall.Machine
import Udpdk.Syscall.Send

/-!
# The calls do what they are for

What a slot, the table of list pointers and the four allocators stand for is a state of
`Sockets`. In every reachable state of the system a call of the library and the call on
`Sockets` give the same reply, or stop with the same fault, and leave states that stand for
each other. Where an object lies, in which order the allocators handed it out, and what is
left in a slot or a block that is not in use, can therefore not be observed through the calls.

## Main definitions

* `Shared.sockets` — what the shared state stands for

## Main results

* `SocketCall.tracks` — one call
* `calls_refine` — any calls in a row, from any reachable state of the system
* `memory_unobservable` — two reachable states that stand for the same give the same replies
-/

namespace Udpdk

open Foundation

/-! ## What the shared state stands for -/

/-- The open socket that a slot in use describes. -/
def ExchSlotInfo.open (slot : ExchSlotInfo) : Socket where
  options := slot.soOptions
  name := if slot.bound then some (slot.ipAddr, slot.udpPort) else none

/-- The socket that a slot describes, if it is in use. -/
def ExchSlotInfo.socket (slot : ExchSlotInfo) : Option Socket :=
  if slot.used then some slot.open else none

/-- The sockets that the shared state stands for. -/
def Shared.sockets (σ : Shared) : Sockets where
  sockets s := (σ.desc.slots s).socket
  counted := σ.desc.nZonesActive
  bindings := σ.mem.bindings
  rxQ := σ.rxQ
  txQ := σ.txQ
  freed := σ.freed
  interrupted := σ.interrupted

variable {dpdk : Dpdk} {config : Configuration} {σ τ : Shared} {s : ℕ} {fd : ℤ} {α : Type}

theorem sockets_modifySlot (f : ExchSlotInfo → ExchSlotInfo) :
    (fun t => ((σ.desc.modifySlot s f).slots t).socket) =
      Function.update σ.sockets.sockets s (f (σ.desc.slots s)).socket := by
  funext t
  by_cases hts : t = s
  · rw [hts, Function.update_self]
    exact congrArg _ (Function.update_self ..)
  · rw [Function.update_of_ne hts]
    exact congrArg _ (Function.update_of_ne hts ..)

theorem sockets_sharedInit (zones : AllocatorZones) : (sharedInit zones).sockets = .init := rfl

/-- A call that looks its descriptor up first: outside the array it stops, on a free slot it
fails, and on an open socket it has to do what the call on that socket does. -/
theorem tracks_onSocket {x : SharedProg (Except Errno α)}
    {call : ℕ → Socket → SocketProg (Except Errno α)}
    (out : (¬ ∃ s < numSocketsMax, fd = (s : ℕ)) →
      Prog.wp (fun e => e = .outOfBounds) x (fun _ _ => False) σ)
    (free : ∀ s < numSocketsMax, fd = (s : ℕ) → (σ.desc.slots s).used = false →
      Prog.wp (fun _ => False) x (fun ret σ' => ret = .error .EBADF ∧ σ' = σ) σ)
    (used : ∀ s < numSocketsMax, fd = (s : ℕ) → (σ.desc.slots s).used →
      Prog.Tracks Shared.sockets x (call s (σ.desc.slots s).open) σ) :
    Prog.Tracks Shared.sockets x (Sockets.onSocket fd call) σ := by
  by_cases hfd : ∃ s < numSocketsMax, fd = (s : ℕ)
  · obtain ⟨s, hs, rfl⟩ := hfd
    have hrange : (0 : ℤ) ≤ s ∧ (s : ℤ).toNat < numSocketsMax := by omega
    unfold Prog.Tracks Sockets.onSocket
    rw [if_pos hrange, Int.toNat_natCast]
    have hsocket : σ.sockets.sockets s = (σ.desc.slots s).socket := rfl
    rw [hsocket, ExchSlotInfo.socket]
    cases hused : (σ.desc.slots s).used with
    | false =>
      obtain ⟨_, _, hret, rfl, rfl⟩ := Prog.exists_ok_of_wp (free s hs rfl hused)
      rw [hret]
      rfl
    | true => exact used s hs rfl hused
  · have hrange : ¬ (0 ≤ fd ∧ fd.toNat < numSocketsMax) := fun h => hfd ⟨fd.toNat, h.2, by omega⟩
    unfold Prog.Tracks Sockets.onSocket
    rw [if_neg hrange]
    have hout := out hfd
    cases hx : x σ with
    | error e => rw [Prog.allowed_of_wp hout hx]; rfl
    | ok r => exact (Prog.wp_of_ok hout hx).elim

/-! ## The calls -/

theorem tracks_socket (domain type protocol : ℤ) :
    Prog.Tracks Shared.sockets (udpdkSocket domain type protocol)
      (Sockets.socket domain type protocol) σ := by
  rw [Prog.tracks_iff_wp]
  apply Prog.wp_mono (udpdkSocket_spec domain type protocol)
  intro ret σ' hret
  unfold Sockets.socket
  cases hargs : socketValidateArgs domain type protocol with
  | error e =>
    rw [hargs] at hret
    obtain ⟨rfl, rfl⟩ := Prod.mk.inj hret
    rfl
  | ok u =>
    rw [hargs] at hret
    have hcounted : σ.sockets.counted = σ.desc.nZonesActive := rfl
    dsimp only at hret ⊢
    rw [hcounted]
    split at hret
    · rename_i hfull
      obtain ⟨rfl, rfl⟩ := Prod.mk.inj hret
      rw [if_pos hfull]
      rfl
    rename_i hroom
    rw [if_neg hroom]
    have hfree : (fun s => (σ.sockets.sockets s).isNone) = fun s => !(σ.desc.slots s).used := by
      funext s
      have hsocket : σ.sockets.sockets s = (σ.desc.slots s).socket := rfl
      rw [hsocket, ExchSlotInfo.socket]
      cases (σ.desc.slots s).used with
      | false => rfl
      | true => rfl
    rw [hfree]
    cases hfind : (List.range numSocketsMax).find? fun s => !(σ.desc.slots s).used with
    | none =>
      rw [hfind] at hret
      obtain ⟨rfl, rfl⟩ := Prod.mk.inj hret
      rfl
    | some s =>
      rw [hfind] at hret
      obtain ⟨rfl, rfl⟩ := Prod.mk.inj hret
      dsimp only
      have hopened : σ.sockets.opened s =
          Shared.sockets { σ with desc := (σ.view.opened s).desc } := by
        have hslots := sockets_modifySlot (σ := σ) (s := s) fun slot =>
          { slot with used := true, bound := false, sockfd := s, soOptions := 0 }
        unfold Sockets.opened
        rw [Shared.sockets]
        exact congrArg (fun sockets => { σ.sockets with
          sockets := sockets
          counted := (σ.desc.nZonesActive + 1) % 2 ^ 64 }) hslots.symm
      rw [hopened]

theorem wp_getsetsockoptValidateArgs {allowed : Fault → Prop} (hs : s < numSocketsMax)
    (used : (σ.desc.slots s).used) {level optname : ℤ} {optvalNull optlenNull : Bool}
    {post : Except Errno Unit → Shared → Prop} :
    Prog.wp allowed (getsetsockoptValidateArgs s level optname optvalNull optlenNull) post σ ↔
      post (Sockets.checkOption level optname (optvalNull || optlenNull)) σ := by
  rw [getsetsockoptValidateArgs, Prog.wp_bind, wp_getSlot hs, used]
  unfold Sockets.checkOption
  simp only [Bool.or_eq_true, Bool.not_true, Bool.false_eq_true, if_false]
  split_ifs
  all_goals rfl

theorem of_checkOption {level optname : ℤ} {null : Bool}
    (h : Sockets.checkOption level optname null = .ok ()) :
    level = solSocket ∧ (optname = soReuseaddr.toInt ∨ optname = soReuseport.toInt) ∧
      null = false := by
  unfold Sockets.checkOption at h
  split_ifs at h with hlevel hopt hnull
  exact ⟨not_not.mp hlevel, by simpa [supportedOptions] using hopt, by simpa using hnull⟩

private theorem soReuseport_ne : soReuseport.toInt ≠ soReuseaddr.toInt := by decide

theorem tracks_getsockopt (level optname : ℤ) (optvalNull optlenNull : Bool) :
    Prog.Tracks Shared.sockets (udpdkGetsockopt fd level optname optvalNull optlenNull)
      (Sockets.getsockopt fd level optname optvalNull optlenNull) σ := by
  apply tracks_onSocket
  · intro hfd
    unfold udpdkGetsockopt getsetsockoptValidateArgs
    rw [Prog.wp_bind, Prog.wp_bind, wp_getSlot_out hfd]
  · rintro s hs rfl hfree
    unfold udpdkGetsockopt getsetsockoptValidateArgs
    rw [Prog.wp_bind, Prog.wp_bind, wp_getSlot hs, hfree]
    exact ⟨rfl, rfl⟩
  · rintro s hs rfl hused
    apply Prog.tracks_iff_wp.mpr
    unfold udpdkGetsockopt
    rw [Prog.wp_bind, wp_getsetsockoptValidateArgs hs hused]
    cases hcheck : Sockets.checkOption level optname (optvalNull || optlenNull) with
    | error e => rfl
    | ok u =>
      obtain ⟨rfl, rfl | rfl, -⟩ := of_checkOption hcheck
      · rw [Prog.wp_bind, wp_getSlot hs, if_pos rfl, if_pos rfl, BitVec.ofInt_toInt]
        rfl
      · rw [Prog.wp_bind, wp_getSlot hs, if_pos rfl, if_neg soReuseport_ne, if_pos rfl,
          BitVec.ofInt_toInt]
        rfl

/-! ### Slots and bindings -/

theorem sockets_of_view {v : SocketView} (hview : τ.view = v)
    (hframe : τ = { σ with desc := τ.desc, mem := τ.mem }) :
    τ.sockets = { σ.sockets with
      sockets := fun t => (v.slot t).socket
      counted := v.desc.nZonesActive
      bindings := v.bindings } := by
  subst hview
  rw [hframe]
  rfl

theorem sockets_withOption (option value : BitVec 32) (used : (σ.desc.slots s).used) :
    Shared.sockets { σ with desc := (σ.view.withOption s option value).desc } =
      σ.sockets.withOption s (σ.desc.slots s).open option value := by
  have hslots := sockets_modifySlot (σ := σ) (s := s) fun slot =>
    { slot with soOptions := updateOption slot.soOptions option value }
  have hsocket : ExchSlotInfo.socket { σ.desc.slots s with
      soOptions := updateOption (σ.desc.slots s).soOptions option value } =
      some { (σ.desc.slots s).open with
        options := updateOption (σ.desc.slots s).open.options option value } := if_pos used
  rw [hsocket] at hslots
  exact congrArg (fun sockets => { σ.sockets with sockets := sockets }) hslots

theorem sockets_boundTo {ip : InAddr} {port : Port} (used : (σ.desc.slots s).used)
    (hview : τ.view = σ.view.boundTo s ip port)
    (hframe : τ = { σ with desc := τ.desc, mem := τ.mem }) :
    τ.sockets = σ.sockets.named s (σ.desc.slots s).open ip port := by
  have hslots := sockets_modifySlot (σ := σ) (s := s) fun slot =>
    { slot with bound := true, udpPort := port, ipAddr := ip }
  have hsocket : ExchSlotInfo.socket { σ.desc.slots s with
      bound := true, udpPort := port, ipAddr := ip } =
      some { (σ.desc.slots s).open with name := some (ip, port) } := if_pos used
  rw [hsocket] at hslots
  rw [sockets_of_view hview hframe]
  exact congrArg (fun sockets => { σ.sockets with
    sockets := sockets
    bindings := (σ.view.boundTo s ip port).bindings }) hslots

theorem sockets_closed (hview : τ.view = σ.view.closed s)
    (hframe : τ = { σ with desc := τ.desc, mem := τ.mem }) :
    τ.sockets = σ.sockets.closed s (σ.desc.slots s).open := by
  have hslots := sockets_modifySlot (σ := σ) (s := s) fun slot =>
    { slot with bound := false, used := false, soOptions := 0 }
  have hbindings : (σ.view.closed s).bindings =
      (σ.sockets.closed s (σ.desc.slots s).open).bindings := by
    unfold SocketView.closed Sockets.closed ExchSlotInfo.open
    rw [Shared.view_slot]
    split_ifs
    · rfl
    · rfl
  rw [sockets_of_view hview hframe, hbindings]
  exact congrArg (fun sockets => { σ.sockets with
    sockets := sockets
    counted := (σ.desc.nZonesActive + 1) % 2 ^ 64
    bindings := (σ.sockets.closed s (σ.desc.slots s).open).bindings }) hslots

theorem tracks_setsockopt (level optname : ℤ) (optval : Option (BitVec 32)) :
    Prog.Tracks Shared.sockets (udpdkSetsockopt fd level optname optval)
      (Sockets.setsockopt fd level optname optval) σ := by
  apply tracks_onSocket
  · intro hfd
    unfold udpdkSetsockopt getsetsockoptValidateArgs
    rw [Prog.wp_bind, Prog.wp_bind, wp_getSlot_out hfd]
  · rintro s hs rfl hfree
    unfold udpdkSetsockopt getsetsockoptValidateArgs
    rw [Prog.wp_bind, Prog.wp_bind, wp_getSlot hs, hfree]
    exact ⟨rfl, rfl⟩
  · rintro s hs rfl hused
    apply Prog.tracks_iff_wp.mpr
    unfold udpdkSetsockopt
    rw [Prog.wp_bind, wp_getsetsockoptValidateArgs hs hused, Bool.or_false]
    cases hcheck : Sockets.checkOption level optname optval.isNone with
    | error e => rfl
    | ok u =>
      obtain ⟨rfl, hopt, hsome⟩ := of_checkOption hcheck
      cases optval with
      | none => cases hsome
      | some value =>
        let reply (S : Sockets) : Except Fault (Except Errno Unit × Sockets) := .ok (.ok (), S)
        obtain rfl | rfl := hopt
        · dsimp only
          rw [if_pos rfl, if_pos rfl, Prog.wp_bind, wp_setSlot hs, BitVec.ofInt_toInt]
          exact congrArg reply (sockets_withOption soReuseaddr value hused).symm
        · dsimp only
          rw [if_pos rfl, if_neg soReuseport_ne, if_pos rfl, Prog.wp_bind, wp_setSlot hs,
            BitVec.ofInt_toInt]
          exact congrArg reply (sockets_withOption soReuseport value hused).symm

theorem isSome_name_open {slot : ExchSlotInfo} : slot.open.name.isSome = slot.bound := by
  unfold ExchSlotInfo.open
  cases slot.bound with
  | false => rfl
  | true => rfl

theorem tracks_bind (ok : σ.Ok) (addr : Option SockaddrIn) (addrlen : ℕ) :
    Prog.Tracks Shared.sockets (udpdkBind fd addr addrlen) (Sockets.bind fd addr addrlen) σ := by
  apply tracks_onSocket
  · intro hfd
    unfold udpdkBind bindValidateArgs
    rw [Prog.wp_bind, Prog.wp_bind, wp_getSlot_out hfd]
  · rintro s hs rfl hfree
    unfold udpdkBind bindValidateArgs
    rw [Prog.wp_bind, Prog.wp_bind, wp_getSlot hs, hfree]
    exact ⟨rfl, rfl⟩
  · rintro s hs rfl hused
    apply Prog.tracks_iff_wp.mpr
    unfold udpdkBind bindValidateArgs
    rw [Prog.wp_bind, Prog.wp_bind, wp_getSlot hs, hused, isSome_name_open]
    cases hbound : (σ.desc.slots s).bound with
    | true => rfl
    | false =>
      rw [Bool.not_true, if_neg Bool.false_ne_true, if_neg Bool.false_ne_true,
        if_neg Bool.false_ne_true]
      cases addr with
      | none => rfl
      | some a =>
        dsimp only
        by_cases hfamily : a.sinFamily ≠ afInet
        · rw [if_pos hfamily, if_pos (.inl hfamily)]
          rfl
        by_cases hlen : addrlen ≠ sizeofSockaddrIn
        · rw [if_neg hfamily, if_pos hlen, if_pos (.inr hlen)]
          rfl
        rw [if_neg hfamily, if_neg hlen, if_neg (not_or.mpr ⟨hfamily, hlen⟩), Prog.wp_pure,
          Prog.wp_bind, wp_getSlot hs, Prog.wp_bind, wp_onMem]
        have room : σ.mem.bindInfoAlloc.mz.all.nFree ≠ 0 := ok.bindInfo_nFree_ne_zero hs hbound
        apply Prog.wp_mono (btableAddBinding_spec ok.mem fun h => absurd h room)
        rintro ret m' ⟨-, hret⟩
        split at hret
        · rename_i hcan
          obtain ⟨rfl, hbindings⟩ := hret
          have hcan' : canBind (σ.sockets.bindings a.sinPort) a.sinAddr
            (σ.desc.slots s).open.options := hcan
          rw [if_pos hcan', if_neg (lt_irrefl _), Prog.wp_bind, wp_setSlot hs]
          let reply (S : Sockets) : Except Fault (Except Errno Unit × Sockets) := .ok (.ok (), S)
          refine congrArg reply (sockets_boundTo hused ?_ rfl).symm
          simp only [Shared.view, SocketView.boundTo, hbindings]
          rfl
        · rename_i hcan
          obtain ⟨rfl, hbindings⟩ := hret
          have hcan' : ¬ canBind (σ.sockets.bindings a.sinPort) a.sinAddr
            (σ.desc.slots s).open.options := hcan
          rw [if_neg hcan', if_pos (by decide)]
          have hsame : Shared.sockets { σ with mem := m' } = σ.sockets := by
            unfold Shared.sockets
            rw [hbindings]
          rw [Prog.wp_pure, hsame]
          rfl

theorem tracks_close (ok : σ.Ok) :
    Prog.Tracks Shared.sockets (udpdkClose fd) (Sockets.close fd) σ := by
  apply tracks_onSocket
  · intro hfd
    unfold udpdkClose
    rw [Prog.wp_bind, wp_getSlot_out hfd]
  · rintro s hs rfl hfree
    unfold udpdkClose
    rw [Prog.wp_bind, wp_getSlot hs, hfree]
    exact ⟨rfl, rfl⟩
  · rintro s hs rfl hused
    obtain ⟨τ, hclose, hframe, hview⟩ : ∃ τ,
        (ApiEvent.close s (.ok ())).step Dpdk.reference .zero σ τ ∧
          τ = { σ with desc := τ.desc, mem := τ.mem } ∧ τ.view = σ.view.closed s :=
      ApiEvent.exists_step_close ok hs hused
    apply Prog.tracks_iff_wp.mpr
    apply Prog.wp_of_eq_ok hclose
    rw [sockets_closed hview hframe]

/-- The validation of `udpdk_sendto` once the socket is known to be open. -/
theorem wp_sendtoValidateArgs {allowed : Fault → Prop} (hs : s < numSocketsMax)
    (used : (σ.desc.slots s).used) {flags : ℤ} {destAddr : Option SockaddrIn} {addrlen : ℕ}
    {post : Except Errno SockaddrIn → Shared → Prop} :
    Prog.wp allowed (sendtoValidateArgs s flags destAddr addrlen) post σ ↔
      post (match destAddr with
        | none => .error .EINVAL
        | some dest => if flags ≠ 0 ∨ addrlen = 0 then .error .EINVAL else .ok dest) σ := by
  have hmax : ¬ (numSocketsMax : ℤ) ≤ s := by omega
  unfold sendtoValidateArgs
  rw [if_neg hmax, Prog.wp_bind, wp_getSlot hs, used]
  by_cases hflags : flags ≠ 0
  · cases destAddr with
    | none => simp [hflags]
    | some dest => simp [hflags]
  · cases destAddr with
    | none => simp [hflags]
    | some dest =>
      by_cases hroom : addrlen = 0
      · simp [hflags, hroom]
      · simp [hflags, hroom]

theorem buildFrame_open {slot : ExchSlotInfo} {dest : SockaddrIn} {buf : List Byte}
    (bound : slot.bound) :
    buildFrame dpdk config slot dest buf = buildFrame dpdk config slot.open.slot dest buf := by
  have hname : slot.open.name = some (slot.ipAddr, slot.udpPort) := if_pos bound
  unfold buildFrame Socket.slot
  rw [hname, bound]
  rfl

/-- The rest of a send, on a socket that is bound by now. -/
theorem wp_submit (hs : s < numSocketsMax) (bound : (σ.desc.slots s).bound) (pkt : Option ℕ)
    (buf : List Byte) (dest : SockaddrIn) {S : Sockets} {sock : Socket}
    (hS : σ.sockets = S) (hsock : (σ.desc.slots s).open = sock) :
    Prog.wp (fun e => Sockets.submit dpdk config pkt buf dest s sock S = .error e)
      (do match pkt with
        | none => return .error .ENOMEM
        | some addr =>
          let slot ← getSlot s
          if mbufDataRoom < sizeofHeaders + buf.length then
            Prog.stop .outOfBounds
          else
            let m := fillMbuf addr (buildFrame dpdk config slot dest buf)
            if ← enqueueTx (s : ℤ).toNat m then
              return .ok (m, buf.length)
            else
              rtePktmbufFree m
              return .error .ENOBUFS)
      (fun ret τ => Sockets.submit dpdk config pkt buf dest s sock S = .ok (ret, τ.sockets)) σ := by
  subst hS hsock
  unfold Sockets.submit
  cases pkt with
  | none => rfl
  | some addr =>
    dsimp only
    rw [Prog.wp_bind, wp_getSlot hs]
    by_cases hover : mbufDataRoom < sizeofHeaders + buf.length
    · rw [if_pos hover, if_pos hover]
      rfl
    rw [if_neg hover, if_neg hover, buildFrame_open bound]
    simp only [enqueueTx, Int.toNat_natCast, Prog.wp_bind, Prog.wp_read]
    have htx : σ.sockets.txQ = σ.txQ := rfl
    rw [htx]
    cases (σ.txQ s).enqueue
        (fillMbuf addr (buildFrame dpdk config (σ.desc.slots s).open.slot dest buf)) with
    | none => rfl
    | some q => rfl

/-- The port that `freePort` finds is the lowest one without bindings. -/
theorem freePort_eq_some {S : Sockets} {p : Port} (free : S.bindings p = [])
    (low : ∀ q : Port, q.toNat < p.toNat → S.bindings q ≠ []) : S.freePort = some p := by
  have hfind : (List.range udpMaxPort).find?
      (fun i => (S.bindings (BitVec.ofNat 16 i)).isEmpty) = some p.toNat := by
    rw [List.find?_range_eq_some]
    refine ⟨by rw [BitVec.ofNat_toNat, BitVec.setWidth_eq, free]; rfl,
      List.mem_range.mpr p.isLt, fun i hi => ?_⟩
    have hraw : (BitVec.ofNat 16 i).toNat = i := by
      rw [BitVec.toNat_ofNat]
      exact Nat.mod_eq_of_lt (hi.trans p.isLt)
    have hne := low (BitVec.ofNat 16 i) (by rwa [hraw])
    simpa using hne
  rw [Sockets.freePort, hfind, Option.map_some, BitVec.ofNat_toNat, BitVec.setWidth_eq]

theorem tracks_sendto (ok : σ.Ok) (pkt : Option ℕ) (buf : List Byte) (flags : ℤ)
    (destAddr : Option SockaddrIn) (addrlen : ℕ) :
    Prog.Tracks Shared.sockets (udpdkSendto dpdk config pkt fd buf flags destAddr addrlen)
      (Sockets.sendto dpdk config pkt fd buf flags destAddr addrlen) σ := by
  unfold Sockets.sendto
  by_cases hmax : numSocketsMax ≤ fd
  · rw [if_pos hmax]
    apply Prog.tracks_iff_wp.mpr
    unfold udpdkSendto sendtoValidateArgs
    rw [Prog.wp_bind, if_pos hmax]
    rfl
  rw [if_neg hmax]
  apply tracks_onSocket
  · intro hfd
    unfold udpdkSendto sendtoValidateArgs
    rw [Prog.wp_bind, if_neg hmax, Prog.wp_bind, wp_getSlot_out hfd]
  · rintro s hs rfl hfree
    unfold udpdkSendto sendtoValidateArgs
    rw [Prog.wp_bind, if_neg hmax, Prog.wp_bind, wp_getSlot hs, hfree]
    exact ⟨rfl, rfl⟩
  · rintro s hs rfl hused
    apply Prog.tracks_iff_wp.mpr
    unfold udpdkSendto
    rw [Prog.wp_bind, wp_sendtoValidateArgs hs hused]
    cases destAddr with
    | none => rfl
    | some dest =>
      dsimp only
      by_cases hargs : flags ≠ 0 ∨ addrlen = 0
      · rw [if_pos hargs, if_pos hargs]
        rfl
      rw [if_neg hargs, if_neg hargs]
      dsimp only
      rw [Prog.wp_bind]
      cases hbound : (σ.desc.slots s).bound with
      | true =>
        have hname : (σ.desc.slots s).open.name =
            some ((σ.desc.slots s).ipAddr, (σ.desc.slots s).udpPort) := if_pos hbound
        unfold bindIfUnbound
        rw [Prog.wp_bind, wp_getSlot hs, hbound, if_pos rfl, hname]
        exact wp_submit hs hbound pkt buf dest rfl rfl
      | false =>
        obtain ⟨p, τ, hbind, hframe, hview, hnil, hlow⟩ := exists_bindIfUnbound ok hs hused hbound
        have hname : (σ.desc.slots s).open.name = none :=
          if_neg (by rw [hbound]; exact Bool.false_ne_true)
        have hport : σ.sockets.freePort = some p := freePort_eq_some hnil hlow
        have hslot : τ.desc.slots s =
            { σ.desc.slots s with bound := true, udpPort := p, ipAddr := inaddrAny } := by
          rw [← Shared.view_slot, hview, SocketView.slot_boundTo_self, Shared.view_slot]
        rw [hname, hport]
        apply Prog.wp_of_eq_ok hbind
        have hbound' : (τ.desc.slots s).bound := by rw [hslot]
        have hopen : (τ.desc.slots s).open =
            { (σ.desc.slots s).open with name := some (inaddrAny, p) } := by
          rw [hslot]
          rfl
        exact wp_submit hs hbound' pkt buf dest (sockets_boundTo hused hview hframe) hopen

theorem tracks_recvfrom (bufNull : Bool) (len : ℕ) (flags : ℤ) (srcAddr : Bool)
    (addrlen : Option ℕ) :
    Prog.Tracks Shared.sockets (udpdkRecvfrom fd bufNull len flags srcAddr addrlen)
      (Sockets.recvfrom fd bufNull len flags srcAddr addrlen) σ := by
  unfold Sockets.recvfrom
  by_cases hmax : numSocketsMax ≤ fd
  · rw [if_pos hmax]
    apply Prog.tracks_iff_wp.mpr
    unfold udpdkRecvfrom recvfromValidateArgs
    rw [Prog.wp_bind, if_pos hmax]
    rfl
  rw [if_neg hmax]
  apply tracks_onSocket
  · intro hfd
    unfold udpdkRecvfrom recvfromValidateArgs
    rw [Prog.wp_bind, if_neg hmax, Prog.wp_bind, wp_getSlot_out hfd]
  · rintro s hs rfl hfree
    unfold udpdkRecvfrom recvfromValidateArgs
    rw [Prog.wp_bind, if_neg hmax, Prog.wp_bind, wp_getSlot hs, hfree]
    exact ⟨rfl, rfl⟩
  · rintro s hs rfl hused
    apply Prog.tracks_iff_wp.mpr
    unfold udpdkRecvfrom recvfromValidateArgs
    rw [Prog.wp_bind, if_neg hmax, Prog.wp_bind, wp_getSlot hs, hused, Bool.not_true,
      if_neg Bool.false_ne_true]
    by_cases hflags : flags ≠ 0
    · rw [if_pos hflags, if_pos (.inl hflags)]
      rfl
    by_cases hnull : bufNull ∧ !addrlen.isNone
    · rw [if_neg hflags, if_pos hnull, if_pos (.inr (by simpa using hnull))]
      rfl
    have hpass : ¬ (flags ≠ 0 ∨ bufNull ∧ addrlen.isSome) := by
      simpa using ⟨not_not.mp hflags, by simpa using hnull⟩
    rw [if_neg hflags, if_neg hnull, if_neg hpass]
    simp only [Prog.wp_pure, Prog.wp_bind, Prog.wp_read, Int.toNat_natCast]
    have hflag : σ.sockets.interrupted = σ.interrupted := rfl
    have hrx : σ.sockets.rxQ = σ.rxQ := rfl
    rw [hflag, hrx]
    by_cases hinterrupt : σ.interrupted
    · rw [if_pos hinterrupt, if_pos hinterrupt]
      rfl
    rw [if_neg hinterrupt, if_neg hinterrupt]
    rcases (σ.rxQ s).dequeue with - | ⟨- | pkt, q⟩
    · rfl
    · rfl
    dsimp only
    rw [Prog.wp_bind, Prog.wp_update]
    by_cases hroom : srcAddr ∧ addrlen.isNone
    · rw [if_pos hroom, if_pos (.inl hroom)]
      rfl
    by_cases hbytes : bufNull ∧
        (readDatagram pkt len (if srcAddr then addrlen else none)).bytes ≠ []
    · rw [if_neg hroom, if_pos hbytes, if_pos (.inr hbytes)]
      rfl
    rw [if_neg hroom, if_neg hbytes, if_neg (not_or.mpr ⟨hroom, hbytes⟩)]
    rfl

/-- **One call.** In a well-formed state every call does what it is for. -/
theorem SocketCall.tracks (ok : σ.Ok) (call : SocketCall) :
    Prog.Tracks Shared.sockets (call.run dpdk config) (call.spec dpdk config) σ := by
  cases call with
  | socket domain type protocol => exact (tracks_socket domain type protocol).map _
  | getsockopt sockfd level optname optvalNull optlenNull =>
    exact (tracks_getsockopt level optname optvalNull optlenNull).map _
  | setsockopt sockfd level optname optval =>
    exact (tracks_setsockopt level optname optval).map _
  | bind sockfd addr addrlen => exact (tracks_bind ok addr addrlen).map _
  | sendto pkt sockfd buf flags destAddr addrlen =>
    exact (tracks_sendto ok pkt buf flags destAddr addrlen).map _
  | recvfrom sockfd bufNull len flags srcAddr addrlen =>
    exact (tracks_recvfrom bufNull len flags srcAddr addrlen).map _
  | close s => exact (tracks_close ok).map _
  | interrupt => rfl

/-! ## Sequences of calls -/

/-- A call that returns is an event, so it leaves a well-formed state. -/
theorem SocketCall.ok_run (ok : σ.Ok) (call : SocketCall) {reply : SocketReply}
    (h : call.run dpdk config σ = .ok (reply, τ)) : τ.Ok := by
  have event : ∀ {α : Type} {f : α → SocketReply} {x : SharedProg α} {e : α → ApiEvent},
      (f <$> x) σ = .ok (reply, τ) → (∀ a τ, x σ = .ok (a, τ) → (e a).step dpdk config σ τ) →
      τ.Ok := by
    intro α f x e hmap hstep
    obtain ⟨a, υ, hx, hpure⟩ := Prog.bind_eq_ok_iff.mp hmap
    obtain ⟨-, rfl⟩ := Prod.mk.inj (Except.ok.inj hpure)
    exact ok.step (hstep a υ hx)
  cases call with
  | socket domain type protocol =>
    exact event (e := .socket domain type protocol) h fun _ _ => id
  | getsockopt sockfd level optname optvalNull optlenNull =>
    exact event (e := .getsockopt sockfd level optname optvalNull optlenNull) h fun _ _ => id
  | setsockopt sockfd level optname optval =>
    exact event (e := .setsockopt sockfd level optname optval) h fun _ _ => id
  | bind sockfd addr addrlen => exact event (e := .bind sockfd addr addrlen) h fun _ _ => id
  | sendto pkt sockfd buf flags destAddr addrlen =>
    exact event (e := .sendto pkt sockfd buf flags destAddr addrlen) h fun _ _ => id
  | recvfrom sockfd bufNull len flags srcAddr addrlen =>
    exact event (e := .recvfrom sockfd bufNull len flags srcAddr addrlen) h fun _ _ => id
  | close s => exact event (e := .close s) h fun _ _ => id
  | interrupt => exact event (e := fun _ => .interrupt) h fun _ _ => id

/-- Calls in a row do what they are for. -/
theorem Shared.Ok.calls_track (ok : σ.Ok) (calls : List SocketCall) :
    Prog.Tracks Shared.sockets (Prog.each (SocketCall.run dpdk config) calls)
      (Prog.each (SocketCall.spec dpdk config) calls) σ :=
  Prog.Tracks.each (fun call _ ok => call.tracks ok) (fun call _ _ _ ok h => call.ok_run ok h) ok
    calls

/-- **The library refines its purpose.** From every state that application and poller can reach
together, in any interleaving, the calls of an application in a row give the replies that they
give on the sockets this state stands for, stop where they stop there and with the same fault,
and leave a state that stands for the sockets they leave there. -/
theorem calls_refine (dpdk : Dpdk) (config : Configuration) (zones : AllocatorZones)
    {log : List SystemEvent} {S : System}
    (run : Run (SystemEvent.step dpdk config) (systemInit zones) log S) (calls : List SocketCall) :
    (Prog.each (SocketCall.run dpdk config) calls S.shared).map (fun r => (r.1, r.2.sockets)) =
      Prog.each (SocketCall.spec dpdk config) calls S.shared.sockets :=
  (Shared.Ok.systemRun run).calls_track calls

/-- Opening a socket, binding it and closing it, from the start. -/
theorem calls_refine_of_init :
    (Prog.each (SocketCall.run Dpdk.reference .zero) [.socket afInet sockDgram 0,
      .bind 0 (some ⟨afInet, 53, 7⟩) sizeofSockaddrIn, .close 0]
      (sharedInit ⟨0, 0, 0, 0⟩)).map (fun r => (r.1, r.2.sockets)) =
    Prog.each (SocketCall.spec Dpdk.reference .zero) [.socket afInet sockDgram 0,
      .bind 0 (some ⟨afInet, 53, 7⟩) sizeofSockaddrIn, .close 0] .init :=
  calls_refine Dpdk.reference .zero ⟨0, 0, 0, 0⟩ .nil _

/-- **The memory cannot be observed.** Two states that stand for the same sockets, however they
were reached and wherever the allocators lie, give the same replies to the same calls. -/
theorem memory_unobservable (dpdk : Dpdk) (config : Configuration) (zones zones' : AllocatorZones)
    {log log' : List SystemEvent} {S S' : System}
    (run : Run (SystemEvent.step dpdk config) (systemInit zones) log S)
    (run' : Run (SystemEvent.step dpdk config) (systemInit zones') log' S')
    (same : S.shared.sockets = S'.shared.sockets) (calls : List SocketCall) :
    (Prog.each (SocketCall.run dpdk config) calls S.shared).map Prod.fst =
      (Prog.each (SocketCall.run dpdk config) calls S'.shared).map Prod.fst :=
  ((Shared.Ok.systemRun run).calls_track calls).replies_eq
    ((Shared.Ok.systemRun run').calls_track calls) same

/-- Wherever the four allocators were placed, binding a first socket gets the same replies. -/
theorem memory_unobservable_of_zones :
    (Prog.each (SocketCall.run Dpdk.reference .zero) [.socket afInet sockDgram 0,
      .bind 0 (some ⟨afInet, 53, 7⟩) sizeofSockaddrIn]
      (sharedInit ⟨0, 0, 0, 0⟩)).map Prod.fst =
    (Prog.each (SocketCall.run Dpdk.reference .zero) [.socket afInet sockDgram 0,
      .bind 0 (some ⟨afInet, 53, 7⟩) sizeofSockaddrIn]
      (sharedInit ⟨4096, 8192, 65536, 1048576⟩)).map Prod.fst :=
  memory_unobservable Dpdk.reference .zero ⟨0, 0, 0, 0⟩ ⟨4096, 8192, 65536, 1048576⟩ .nil .nil rfl
    _

end Udpdk
