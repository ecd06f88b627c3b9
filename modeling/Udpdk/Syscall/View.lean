import Udpdk.BindTable.Refinement
import Udpdk.Syscall.Transfer

/-!
# What a socket call changes

The sockets as the calls leave them: the descriptors of the slots, and for every port the
list of its bindings. On a well-formed bind table every call that returns has one of five
effects on this view, and moves at most one packet in or out of a ring.

## Main definitions

* `SocketView` — slots and bindings, with the five updates
* `ApiEvent` — a call of the application with what it returned
* `Shared.AcceptsSend` — what the validation of a send lets pass
* `ApiChange`, `ApiEvent.Rings`, `ApiEvent.Effect` — the effect of a call on the view and on the
  rings

## Main results

* `ApiEvent.step_spec` — every call that returns has such an effect
-/

namespace Udpdk

open Foundation

/-- The slots and the bindings of every port. -/
structure SocketView where
  desc : ExchZoneInfo
  bindings : Port → List BindInfo

def Shared.view (σ : Shared) : SocketView where
  desc := σ.desc
  bindings := σ.mem.bindings

namespace SocketView

variable (v : SocketView) (s : ℕ)

def slot : ExchSlotInfo := v.desc.slots s

/-- A free slot becomes a socket. -/
def opened : SocketView where
  desc := { (v.desc.modifySlot s fun slot =>
      { slot with used := true, bound := false, sockfd := s, soOptions := 0 }) with
    nZonesActive := (v.desc.nZonesActive + 1) % 2 ^ 64 }
  bindings := v.bindings

/-- One option of a socket is set or reset. -/
def withOption (option value : BitVec 32) : SocketView where
  desc := v.desc.modifySlot s fun slot =>
    { slot with soOptions := updateOption slot.soOptions option value }
  bindings := v.bindings

/-- A socket is bound to an address and a port. -/
def boundTo (ip : InAddr) (port : Port) : SocketView where
  desc := v.desc.modifySlot s fun slot =>
    { slot with bound := true, udpPort := port, ipAddr := ip }
  bindings := Function.update v.bindings port
    (insertBinding (newBinding s ip (v.slot s).soOptions) (v.bindings port))

/-- A socket is closed, and its binding removed. -/
def closed : SocketView where
  desc := { (v.desc.modifySlot s fun slot =>
      { slot with bound := false, used := false, soOptions := 0 }) with
    nZonesActive := (v.desc.nZonesActive + 1) % 2 ^ 64 }
  bindings :=
    if (v.slot s).bound then
      Function.update v.bindings (v.slot s).udpPort
        (removeBinding s (v.bindings (v.slot s).udpPort))
    else v.bindings

/-- What the two option calls accept. -/
structure TakesOption (sockfd level optname : ℤ) (s : ℕ) : Prop where
  inRange : s < numSocketsMax
  fd : sockfd = (s : ℕ)
  used : (v.slot s).used
  level : level = solSocket
  supported : optname ∈ supportedOptions

/-- What `udpdk_bind` accepts. -/
structure AcceptsBind (sockfd : ℤ) (addr : Option SockaddrIn) (addrlen : ℕ) (s : ℕ)
    (a : SockaddrIn) : Prop where
  inRange : s < numSocketsMax
  fd : sockfd = (s : ℕ)
  addr : addr = some a
  family : a.sinFamily = afInet
  len : addrlen = sizeofSockaddrIn
  used : (v.slot s).used
  unbound : (v.slot s).bound = false
  accepted : canBind (v.bindings a.sinPort) a.sinAddr (v.slot s).soOptions

end SocketView

/-- What the validation of `udpdk_sendto` lets pass: a call on the open socket `s`, to
`dest`. -/
structure Shared.AcceptsSend (σ : Shared) (sockfd flags : ℤ) (destAddr : Option SockaddrIn)
    (addrlen : ℕ) (s : ℕ) (dest : SockaddrIn) : Prop where
  inRange : s < numSocketsMax
  fd : sockfd = (s : ℕ)
  used : (σ.desc.slots s).used
  flags : flags = 0
  dest : destAddr = some dest
  room : addrlen ≠ 0

@[simp] theorem Shared.view_slot (σ : Shared) (s : ℕ) : σ.view.slot s = σ.desc.slots s := rfl

/-- A call of the application with its arguments and what it returned. -/
inductive ApiEvent
  | socket (domain type protocol : ℤ) (ret : Except Errno ℕ)
  | getsockopt (sockfd level optname : ℤ) (optvalNull optlenNull : Bool)
      (ret : Except Errno (BitVec 32))
  | setsockopt (sockfd level optname : ℤ) (optval : Option (BitVec 32)) (ret : Except Errno Unit)
  | bind (sockfd : ℤ) (addr : Option SockaddrIn) (addrlen : ℕ) (ret : Except Errno Unit)
  | sendto (pkt : Option ℕ) (sockfd : ℤ) (buf : List Byte) (flags : ℤ)
      (destAddr : Option SockaddrIn) (addrlen : ℕ) (ret : Except Errno (Mbuf × ℕ))
  | recvfrom (sockfd : ℤ) (bufNull : Bool) (len : ℕ) (flags : ℤ) (srcAddr : Bool)
      (addrlen : Option ℕ) (ret : Except Errno (Mbuf × Received))
  | close (s : ℤ) (ret : Except Errno Unit)
  | interrupt

section Step

variable (dpdk : Dpdk) (config : Configuration)

/-- The call takes the shared state `σ` to `σ'`. -/
def ApiEvent.step : ApiEvent → Shared → Shared → Prop
  | .socket domain type protocol ret, σ, σ' =>
    udpdkSocket domain type protocol σ = .ok (ret, σ')
  | .getsockopt sockfd level optname optvalNull optlenNull ret, σ, σ' =>
    udpdkGetsockopt sockfd level optname optvalNull optlenNull σ = .ok (ret, σ')
  | .setsockopt sockfd level optname optval ret, σ, σ' =>
    udpdkSetsockopt sockfd level optname optval σ = .ok (ret, σ')
  | .bind sockfd addr addrlen ret, σ, σ' => udpdkBind sockfd addr addrlen σ = .ok (ret, σ')
  | .sendto pkt sockfd buf flags destAddr addrlen ret, σ, σ' =>
    udpdkSendto dpdk config pkt sockfd buf flags destAddr addrlen σ = .ok (ret, σ')
  | .recvfrom sockfd bufNull len flags srcAddr addrlen ret, σ, σ' =>
    udpdkRecvfrom sockfd bufNull len flags srcAddr addrlen σ = .ok (ret, σ')
  | .close s ret, σ, σ' => udpdkClose s σ = .ok (ret, σ')
  | .interrupt, σ, σ' => udpdkInterrupt σ = .ok ((), σ')

end Step

/-- The call has no way to change the view: it failed before, or never does. -/
def ApiEvent.passive : ApiEvent → Bool
  | .socket _ _ _ (.error _) => true
  | .getsockopt .. => true
  | .setsockopt _ _ _ _ (.error _) => true
  | .bind _ _ _ (.error _) => true
  | .sendto .. => true
  | .recvfrom .. => true
  | .close _ (.error _) => true
  | .interrupt => true
  | _ => false

/-- The option that a value of `optname` names. -/
def optionOf (optname : ℤ) : BitVec 32 := BitVec.ofInt 32 optname

@[simp] theorem optionOf_toInt (option : BitVec 32) : optionOf option.toInt = option :=
  BitVec.ofInt_toInt

/-- The effect of a call on the view. -/
inductive ApiChange : ApiEvent → SocketView → SocketView → Prop
  | opened {v : SocketView} {s : ℕ} {domain type protocol : ℤ} (hs : s < numSocketsMax)
      (free : (v.slot s).used = false) (room : v.desc.nZonesActive ≤ numSocketsMax) :
      ApiChange (.socket domain type protocol (.ok s)) v (v.opened s)
  | option {v : SocketView} {s : ℕ} {optname : ℤ} {value : BitVec 32} (hs : s < numSocketsMax)
      (used : (v.slot s).used) (supported : optname ∈ supportedOptions) :
      ApiChange (.setsockopt s solSocket optname (some value) (.ok ())) v
        (v.withOption s (optionOf optname) value)
  | bound {v : SocketView} {s : ℕ} {addr : SockaddrIn} {addrlen : ℕ} (hs : s < numSocketsMax)
      (used : (v.slot s).used) (unbound : (v.slot s).bound = false)
      (accepted : canBind (v.bindings addr.sinPort) addr.sinAddr (v.slot s).soOptions) :
      ApiChange (.bind s (some addr) addrlen (.ok ())) v (v.boundTo s addr.sinAddr addr.sinPort)
  | implicitlyBound {v : SocketView} {s : ℕ} {port : Port} {pkt : Option ℕ} {buf : List Byte}
      {flags : ℤ} {destAddr : Option SockaddrIn} {addrlen : ℕ} {ret : Except Errno (Mbuf × ℕ)}
      (hs : s < numSocketsMax) (used : (v.slot s).used) (unbound : (v.slot s).bound = false)
      (accepted : canBind (v.bindings port) inaddrAny (v.slot s).soOptions) :
      ApiChange (.sendto pkt s buf flags destAddr addrlen ret) v (v.boundTo s inaddrAny port)
  | closed {v : SocketView} {s : ℕ} (hs : s < numSocketsMax) (used : (v.slot s).used) :
      ApiChange (.close s (.ok ())) v (v.closed s)
  | kept {v : SocketView} {e : ApiEvent} (passive : e.passive) : ApiChange e v v

namespace ApiChange

variable {v v' : SocketView}

/-! What a call that succeeded has done. -/

theorem of_socket {domain type protocol : ℤ} {t : ℕ}
    (h : ApiChange (.socket domain type protocol (.ok t)) v v') :
    (v.slot t).used = false ∧ v' = v.opened t := by
  cases h with
  | opened hs free room => exact ⟨free, rfl⟩
  | kept passive => cases passive

theorem of_setsockopt {sockfd level optname : ℤ} {optval : Option (BitVec 32)} {u : Unit}
    (h : ApiChange (.setsockopt sockfd level optname optval (.ok u)) v v') :
    ∃ (t : ℕ) (value : BitVec 32), sockfd = t ∧ optval = some value ∧
      v' = v.withOption t (optionOf optname) value := by
  cases h with
  | option hs used supported => exact ⟨_, _, rfl, rfl, rfl⟩
  | kept passive => cases passive

theorem of_bind {sockfd : ℤ} {addr : Option SockaddrIn} {addrlen : ℕ} {u : Unit}
    (h : ApiChange (.bind sockfd addr addrlen (.ok u)) v v') :
    ∃ t < numSocketsMax, ∃ a : SockaddrIn, sockfd = (t : ℕ) ∧ addr = some a ∧ (v.slot t).used ∧
      (v.slot t).bound = false ∧ v' = v.boundTo t a.sinAddr a.sinPort := by
  cases h with
  | bound hs used unbound accepted => exact ⟨_, hs, _, rfl, rfl, used, unbound, rfl⟩
  | kept passive => cases passive

theorem of_close {fd : ℤ} {u : Unit} (h : ApiChange (.close fd (.ok u)) v v') :
    ∃ t : ℕ, fd = t ∧ v' = v.closed t := by
  cases h with
  | closed hs used => exact ⟨_, rfl, rfl⟩
  | kept passive => cases passive

end ApiChange

/-- The effect of a call on the rings. -/
def ApiEvent.Rings : ApiEvent → Shared → Shared → Prop
  | .sendto _ sockfd _ _ _ _ (.ok (m, _)), σ, σ' => σ'.rxQ = σ.rxQ ∧
    ∃ s < numSocketsMax, sockfd = (s : ℕ) ∧ (σ.desc.slots s).used ∧ ∃ q,
      (σ.txQ s).enqueue m = some q ∧ σ'.txQ = Function.update σ.txQ s q
  | .recvfrom sockfd _ _ _ _ _ (.ok (m, _)), σ, σ' => σ'.txQ = σ.txQ ∧
    ∃ s < numSocketsMax, sockfd = (s : ℕ) ∧ (σ.desc.slots s).used ∧ ∃ q,
      (σ.rxQ s).dequeue = some (some m, q) ∧ σ'.rxQ = Function.update σ.rxQ s q
  | _, σ, σ' => σ'.rxQ = σ.rxQ ∧ σ'.txQ = σ.txQ

/-! ## Specifications of the accesses -/

section Access

variable {allowed : Fault → Prop} {σ : Shared} {s : ℕ} {fd : ℤ}

theorem wp_getSlot (hs : s < numSocketsMax) (post : ExchSlotInfo → Shared → Prop) :
    Prog.wp allowed (getSlot s) post σ ↔ post (σ.desc.slots s) σ := by
  have hrange : (0 : ℤ) ≤ s ∧ (s : ℤ).toNat < numSocketsMax := by omega
  rw [getSlot, if_pos hrange]
  rfl

theorem wp_setSlot (hs : s < numSocketsMax) (f : ExchSlotInfo → ExchSlotInfo)
    (post : Unit → Shared → Prop) :
    Prog.wp allowed (setSlot s f) post σ ↔
      post () { σ with desc := σ.desc.modifySlot s f } := by
  have hrange : (0 : ℤ) ≤ s ∧ (s : ℤ).toNat < numSocketsMax := by omega
  rw [setSlot, if_pos hrange]
  rfl

theorem wp_getSlot_out (hfd : ¬ ∃ s < numSocketsMax, fd = (s : ℕ))
    (post : ExchSlotInfo → Shared → Prop) :
    Prog.wp allowed (getSlot fd) post σ ↔ allowed .outOfBounds := by
  have hrange : ¬ (0 ≤ fd ∧ fd.toNat < numSocketsMax) := fun h =>
    hfd ⟨fd.toNat, h.2, by omega⟩
  rw [getSlot, if_neg hrange]
  rfl

theorem wp_onMem {α : Type} (x : MemProg α) (post : α → Shared → Prop) :
    Prog.wp allowed (onMem x) post σ ↔
      Prog.wp allowed x (fun a m => post a { σ with mem := m }) σ.mem :=
  Prog.wp_zoom _ _ x post σ

end Access

/-! ## Specifications of the calls -/

section Calls

variable {allowed : Fault → Prop} {σ : Shared}

/-- `udpdk_socket` always returns: it opens the lowest free slot, unless the arguments are
invalid or the counter is beyond the number of slots. -/
theorem udpdkSocket_spec (domain type protocol : ℤ) :
    Prog.wp allowed (udpdkSocket domain type protocol) (fun ret σ' =>
      (ret, σ') = match socketValidateArgs domain type protocol with
        | .error e => (.error e, σ)
        | .ok () =>
          if numSocketsMax < σ.desc.nZonesActive then (.error .ENOBUFS, σ)
          else match (List.range numSocketsMax).find? fun i => !(σ.desc.slots i).used with
            | none => (.error .ENOBUFS, σ)
            | some s => (.ok s, { σ with desc := (σ.view.opened s).desc })) σ := by
  unfold udpdkSocket
  cases socketValidateArgs domain type protocol with
  | error e => rfl
  | ok u =>
    simp only [Prog.wp_bind, Prog.wp_read]
    split_ifs
    · rfl
    · cases hfind : (List.range numSocketsMax).find? fun i => !(σ.desc.slots i).used with
      | none => rfl
      | some s =>
        have hs : s < numSocketsMax := List.mem_range.mp (List.mem_of_find?_eq_some hfind)
        simp only [Prog.wp_bind, wp_setSlot hs, incrementZonesActive, Prog.wp_update, Prog.wp_pure]
        rfl

/-- The validation of the two option calls changes nothing. -/
theorem getsetsockoptValidateArgs_spec (sockfd level optname : ℤ) (optvalNull optlenNull : Bool)
    (hrange : (¬ ∃ s < numSocketsMax, sockfd = (s : ℕ)) → allowed .outOfBounds) :
    Prog.wp allowed (getsetsockoptValidateArgs sockfd level optname optvalNull optlenNull)
      (fun ret σ' => σ' = σ ∧ (ret = .ok () ↔
        (∃ s, σ.view.TakesOption sockfd level optname s) ∧
          optvalNull = false ∧ optlenNull = false)) σ := by
  by_cases hfd : ∃ s < numSocketsMax, sockfd = (s : ℕ)
  · obtain ⟨s, hs, rfl⟩ := hfd
    simp only [getsetsockoptValidateArgs, Prog.wp_bind, wp_getSlot hs]
    split
    · rename_i hused
      refine ⟨rfl, (fun h => by cases h), ?_⟩
      rintro ⟨⟨t, htakes⟩, -⟩
      obtain rfl : s = t := Nat.cast_inj.mp htakes.fd
      have : (σ.desc.slots s).used := htakes.used
      simp [this] at hused
    rename_i hused
    split
    · rename_i hlevel
      exact ⟨rfl, (fun h => by cases h), fun h => absurd h.1.choose_spec.level hlevel⟩
    rename_i hlevel
    split
    · rename_i hopt
      exact ⟨rfl, (fun h => by cases h), fun h => absurd h.1.choose_spec.supported hopt⟩
    rename_i hopt
    split
    · rename_i hnull
      refine ⟨rfl, (fun h => by cases h), fun h => ?_⟩
      simp [h.2.1, h.2.2] at hnull
    rename_i hnull
    simp only [not_or, Bool.not_eq_true] at hnull
    exact ⟨rfl, fun _ => ⟨⟨s, hs, rfl, by simpa using hused, not_not.mp hlevel,
      not_not.mp hopt⟩, hnull⟩, fun _ => rfl⟩
  · rw [getsetsockoptValidateArgs, Prog.wp_bind, wp_getSlot_out hfd]
    exact hrange hfd

/-- `udpdk_getsockopt` tells whether the word shares a bit with the option. -/
theorem udpdkGetsockopt_spec (sockfd level optname : ℤ) (optvalNull optlenNull : Bool)
    (hrange : (¬ ∃ s < numSocketsMax, sockfd = (s : ℕ)) → allowed .outOfBounds) :
    Prog.wp allowed (udpdkGetsockopt sockfd level optname optvalNull optlenNull)
      (fun ret σ' => σ' = σ ∧ match ret with
        | .error _ => optvalNull = false → optlenNull = false →
          ∀ s, ¬ σ.view.TakesOption sockfd level optname s
        | .ok value => ∃ s, σ.view.TakesOption sockfd level optname s ∧
          value = if hasOpt (σ.desc.slots s).soOptions (optionOf optname) then 1 else 0) σ := by
  rw [udpdkGetsockopt, Prog.wp_bind]
  apply Prog.wp_mono
    (getsetsockoptValidateArgs_spec sockfd level optname optvalNull optlenNull hrange)
  rintro (e | ⟨⟩) σ' ⟨rfl, hok⟩
  · exact ⟨rfl, fun hval hlen s h => nomatch hok.mpr ⟨⟨s, h⟩, hval, hlen⟩⟩
  obtain ⟨s, htakes⟩ := (hok.mp rfl).1
  obtain ⟨hs, rfl, hused, rfl, hopt⟩ := id htakes
  simp only [Prog.wp_bind, wp_getSlot hs, if_true]
  split
  · rename_i h
    refine ⟨rfl, s, htakes, ?_⟩
    rw [h, optionOf_toInt]
  split
  · rename_i h
    refine ⟨rfl, s, htakes, ?_⟩
    rw [h, optionOf_toInt]
  · rename_i haddr hport
    simp [supportedOptions, haddr, hport] at hopt

/-- `udpdk_setsockopt` updates the word of the socket. -/
theorem udpdkSetsockopt_spec (sockfd level optname : ℤ) (optval : Option (BitVec 32))
    (hrange : (¬ ∃ s < numSocketsMax, sockfd = (s : ℕ)) → allowed .outOfBounds) :
    Prog.wp allowed (udpdkSetsockopt sockfd level optname optval)
      (fun ret σ' => match ret with
        | .error _ => σ' = σ ∧
          ∀ s value, optval = some value → ¬ σ.view.TakesOption sockfd level optname s
        | .ok () => ∃ s value, σ.view.TakesOption sockfd level optname s ∧ optval = some value ∧
          σ' = { σ with desc := (σ.view.withOption s (optionOf optname) value).desc }) σ := by
  unfold udpdkSetsockopt
  rw [Prog.wp_bind]
  apply Prog.wp_mono
    (getsetsockoptValidateArgs_spec sockfd level optname optval.isNone false hrange)
  rintro (e | ⟨⟩) σ' ⟨rfl, hok⟩
  · exact ⟨rfl, fun s value hsome h => nomatch hok.mpr ⟨⟨s, h⟩, by rw [hsome]; rfl, rfl⟩⟩
  obtain ⟨⟨s, htakes⟩, hsome, -⟩ := hok.mp rfl
  obtain ⟨hs, rfl, hused, rfl, hopt⟩ := id htakes
  cases optval with
  | none => cases hsome
  | some value =>
    simp only [if_true]
    split
    · rename_i h
      simp only [Prog.wp_bind, wp_setSlot hs, Prog.wp_pure]
      refine ⟨s, value, htakes, rfl, ?_⟩
      rw [h, optionOf_toInt]
      rfl
    split
    · rename_i h
      simp only [Prog.wp_bind, wp_setSlot hs, Prog.wp_pure]
      refine ⟨s, value, htakes, rfl, ?_⟩
      rw [h, optionOf_toInt]
      rfl
    · rename_i haddr hport
      simp [supportedOptions, haddr, hport] at hopt

/-- `udpdk_bind` binds an open, unbound socket to an address that the bind table accepts. -/
theorem udpdkBind_spec (ok : σ.mem.Ok) (sockfd : ℤ) (addr : Option SockaddrIn) (addrlen : ℕ)
    (hrange : (¬ ∃ s < numSocketsMax, sockfd = (s : ℕ)) → allowed .outOfBounds)
    (hnull : addr = none → allowed .nullDeref)
    (hfull : σ.mem.bindInfoAlloc.mz.all.nFree = 0 → allowed .nullDeref) :
    Prog.wp allowed (udpdkBind sockfd addr addrlen) (fun ret σ' => σ'.mem.Ok ∧
      σ' = { σ with desc := σ'.desc, mem := σ'.mem } ∧ match ret with
        | .error _ => σ'.view = σ.view ∧ ∀ s a, ¬ σ.view.AcceptsBind sockfd addr addrlen s a
        | .ok () => ∃ s a, σ.view.AcceptsBind sockfd addr addrlen s a ∧
          σ'.view = σ.view.boundTo s a.sinAddr a.sinPort) σ := by
  by_cases hfd : ∃ s < numSocketsMax, sockfd = (s : ℕ)
  · obtain ⟨s, hs, rfl⟩ := hfd
    unfold udpdkBind bindValidateArgs
    simp only [Prog.wp_bind, wp_getSlot hs]
    split
    · rename_i hused
      refine ⟨ok, rfl, rfl, fun t a h => ?_⟩
      obtain rfl : s = t := Nat.cast_inj.mp h.fd
      have : (σ.desc.slots s).used := h.used
      simp [this] at hused
    rename_i hused
    split
    · rename_i hbound
      refine ⟨ok, rfl, rfl, fun t a h => ?_⟩
      obtain rfl : s = t := Nat.cast_inj.mp h.fd
      have : (σ.desc.slots s).bound = false := h.unbound
      simp [this] at hbound
    rename_i hbound
    cases addr with
    | none => exact hnull rfl
    | some a =>
      dsimp only
      split
      · rename_i hfamily
        refine ⟨ok, rfl, rfl, fun t b h => hfamily ?_⟩
        rw [Option.some.inj h.addr, h.family]
      rename_i hfamily
      split
      · rename_i hlen
        exact ⟨ok, rfl, rfl, fun t b h => hlen h.len⟩
      rename_i hlen
      simp only [Prog.wp_pure, Prog.wp_bind, wp_getSlot hs, wp_onMem]
      apply Prog.wp_mono (btableAddBinding_spec ok hfull)
      rintro ret m' ⟨ok', hret⟩
      split at hret
      · rename_i hcan
        obtain ⟨rfl, hbindings⟩ := hret
        simp only [lt_self_iff_false, if_false, Prog.wp_bind, wp_setSlot hs, Prog.wp_pure]
        refine ⟨ok', trivial, s, a, ?_, ?_⟩
        · exact ⟨hs, rfl, rfl, not_not.mp hfamily, not_not.mp hlen, by simpa using hused,
            by simpa using hbound, hcan⟩
        · simp only [Shared.view, SocketView.boundTo, hbindings]
          rfl
      · rename_i hcan
        obtain ⟨rfl, hbindings⟩ := hret
        refine ⟨ok', rfl, ?_, fun t b h => hcan ?_⟩
        · simp only [Shared.view, hbindings]
        · obtain rfl : s = t := Nat.cast_inj.mp h.fd
          rw [Option.some.inj h.addr]
          exact h.accepted
  · unfold udpdkBind bindValidateArgs
    simp only [Prog.wp_bind]
    rw [wp_getSlot_out hfd]
    exact hrange hfd

/-- `udpdk_close` closes an open socket and removes its binding. -/
theorem udpdkClose_spec (ok : σ.mem.Ok) (fd : ℤ)
    (hrange : (¬ ∃ s < numSocketsMax, fd = (s : ℕ)) → allowed .outOfBounds)
    (hnull : ∀ s < numSocketsMax, fd = (s : ℕ) → (σ.desc.slots s).bound →
      σ.mem.bindings (σ.desc.slots s).udpPort = [] → allowed .nullDeref) :
    Prog.wp allowed (udpdkClose fd) (fun ret σ' => σ'.mem.Ok ∧
      σ' = { σ with desc := σ'.desc, mem := σ'.mem } ∧ match ret with
        | .error _ => σ'.view = σ.view ∧
          ∀ s < numSocketsMax, fd = (s : ℕ) → (σ.desc.slots s).used = false
        | .ok () => ∃ s < numSocketsMax, fd = (s : ℕ) ∧ (σ.desc.slots s).used ∧
          σ'.view = σ.view.closed s) σ := by
  by_cases hfd : ∃ s < numSocketsMax, fd = (s : ℕ)
  · obtain ⟨s, hs, rfl⟩ := hfd
    unfold udpdkClose
    simp only [Prog.wp_bind, wp_getSlot hs]
    split
    · rename_i hused
      refine ⟨ok, rfl, rfl, fun t _ ht => ?_⟩
      obtain rfl : s = t := Nat.cast_inj.mp ht
      simpa using hused
    rename_i hused
    split
    · -- a bound socket leaves the list of its port
      rename_i hbound
      simp only [Prog.wp_bind, wp_onMem]
      apply Prog.wp_mono (btableDelBinding_spec ok (hnull s hs rfl hbound))
      rintro _ m' ⟨ok', hbindings⟩
      simp only [wp_setSlot hs, incrementZonesActive, Prog.wp_update, Prog.wp_pure]
      refine ⟨ok', trivial, s, hs, rfl, by simpa using hused, ?_⟩
      simp only [Shared.view, SocketView.closed, SocketView.slot, hbound, if_true, hbindings]
      rfl
    · rename_i hbound
      simp only [Prog.wp_bind, wp_setSlot hs, incrementZonesActive, Prog.wp_update, Prog.wp_pure]
      refine ⟨ok, trivial, s, hs, rfl, by simpa using hused, ?_⟩
      simp only [Shared.view, SocketView.closed, SocketView.slot, hbound]
      rfl
  · unfold udpdkClose
    rw [Prog.wp_bind, wp_getSlot_out hfd]
    exact hrange hfd

/-- The validation of a descriptor that is not negative. -/
theorem sendtoValidateArgs_outcome {sockfd flags : ℤ} {destAddr : Option SockaddrIn} {addrlen : ℕ}
    (hneg : sockfd < 0 → allowed .outOfBounds) :
    Prog.wp allowed (sendtoValidateArgs sockfd flags destAddr addrlen)
      (fun ret σ' => σ' = σ ∧ 0 ≤ sockfd ∧ match ret with
        | .error _ => ¬ ∃ s dest, σ.AcceptsSend sockfd flags destAddr addrlen s dest
        | .ok dest => ∃ s, σ.AcceptsSend sockfd flags destAddr addrlen s dest) σ := by
  unfold sendtoValidateArgs
  split
  · rename_i hmax
    refine ⟨rfl, by omega, ?_⟩
    rintro ⟨s, dest, h⟩
    have := h.fd
    have := h.inRange
    omega
  rename_i hmax
  by_cases hnonneg : 0 ≤ sockfd
  · obtain ⟨s, rfl⟩ := Int.eq_ofNat_of_zero_le hnonneg
    have hs : s < numSocketsMax := by omega
    have hself : ∀ {t dest}, σ.AcceptsSend s flags destAddr addrlen t dest →
        (σ.desc.slots s).used := by
      intro t dest h
      obtain rfl : s = t := Nat.cast_inj.mp h.fd
      exact h.used
    simp only [Prog.wp_bind, wp_getSlot hs]
    split
    · rename_i hused
      refine ⟨rfl, hnonneg, ?_⟩
      rintro ⟨t, dest, h⟩
      simp [hself h] at hused
    rename_i hused
    split
    · rename_i hflags
      refine ⟨rfl, hnonneg, ?_⟩
      rintro ⟨t, dest, h⟩
      exact hflags h.flags
    rename_i hflags
    cases destAddr with
    | none =>
      refine ⟨rfl, hnonneg, ?_⟩
      rintro ⟨t, dest, h⟩
      exact Option.some_ne_none dest h.dest.symm
    | some dest =>
      dsimp only
      split
      · rename_i hroom
        refine ⟨rfl, hnonneg, ?_⟩
        rintro ⟨t, dest', h⟩
        exact h.room hroom
      · rename_i hroom
        exact ⟨rfl, hnonneg, s, hs, rfl, by simpa using hused, not_not.mp hflags, rfl, hroom⟩
  · have hout : ¬ ∃ s < numSocketsMax, sockfd = (s : ℕ) := by
      rintro ⟨s, -, h⟩
      exact hnonneg (h ▸ Int.natCast_nonneg s)
    rw [Prog.wp_bind, wp_getSlot_out hout]
    exact hneg (not_le.mp hnonneg)

-- Checking a term that runs it must not unroll the scan of all ports.
attribute [local irreducible] btableGetFreePort

/-- An unbound socket may get bound to a free port. -/
theorem bindIfUnbound_spec (any : ∀ f, allowed f) (ok : σ.mem.Ok) {s : ℕ}
    (hs : s < numSocketsMax) :
    Prog.wp allowed (bindIfUnbound s) (fun _ σ' => σ'.mem.Ok ∧
      σ' = { σ with desc := σ'.desc, mem := σ'.mem } ∧
        (σ'.view = σ.view ∨ ∃ port, (σ.desc.slots s).used ∧ (σ.desc.slots s).bound = false ∧
          canBind (σ.mem.bindings port) inaddrAny (σ.desc.slots s).soOptions ∧
          σ'.view = σ.view.boundTo s inaddrAny port)) σ := by
  unfold bindIfUnbound
  rw [Prog.wp_bind, wp_getSlot hs]
  split
  · exact ⟨ok, rfl, .inl rfl⟩
  rw [Prog.wp_bind, wp_onMem]
  apply Prog.wp_mono btableGetFreePort_spec
  rintro port m' ⟨rfl, -⟩
  apply Prog.wp_mono (udpdkBind_spec ok s _ _ (fun _ => any _) (fun _ => any _) fun _ => any _)
  rintro ret σ' ⟨ok', hframe, hret⟩
  refine ⟨ok', hframe, ?_⟩
  cases ret with
  | error e => exact .inl hret.1
  | ok u =>
    obtain ⟨t, a, haccepts, hview⟩ := hret
    obtain rfl : s = t := Nat.cast_inj.mp haccepts.fd
    obtain rfl := Option.some.inj haccepts.addr
    exact .inr ⟨_, haccepts.used, haccepts.unbound, haccepts.accepted, hview⟩

/-- `udpdk_sendto` may bind the socket to a free port, and puts one packet into its ring if
it succeeds. -/
theorem udpdkSendto_spec (any : ∀ f, allowed f) (ok : σ.mem.Ok) (dpdk : Dpdk)
    (config : Configuration) (pkt : Option ℕ) (sockfd : ℤ) (buf : List Byte) (flags : ℤ)
    (destAddr : Option SockaddrIn) (addrlen : ℕ) :
    Prog.wp allowed (udpdkSendto dpdk config pkt sockfd buf flags destAddr addrlen)
      (fun ret σ' => σ'.mem.Ok ∧ σ'.rxQ = σ.rxQ ∧
        (σ'.view = σ.view ∨ ∃ s < numSocketsMax, ∃ port, sockfd = (s : ℕ) ∧
          (σ.desc.slots s).used ∧ (σ.desc.slots s).bound = false ∧
          canBind (σ.mem.bindings port) inaddrAny (σ.desc.slots s).soOptions ∧
          σ'.view = σ.view.boundTo s inaddrAny port) ∧
        match ret with
          | .error _ => σ'.txQ = σ.txQ
          | .ok (m, _) => ∃ s < numSocketsMax, sockfd = (s : ℕ) ∧ (σ.desc.slots s).used ∧
            ∃ q, (σ.txQ s).enqueue m = some q ∧
              σ'.txQ = Function.update σ.txQ s q) σ := by
  unfold udpdkSendto
  rw [Prog.wp_bind]
  apply Prog.wp_mono (sendtoValidateArgs_outcome fun _ => any _)
  rintro (e | dest) σ₁ ⟨rfl, -, hvalid⟩
  · exact ⟨ok, rfl, .inl rfl, rfl⟩
  obtain ⟨s, hs, rfl, hused, -, -, -⟩ := hvalid
  rw [Prog.wp_bind]
  apply Prog.wp_mono (bindIfUnbound_spec any ok hs)
  rintro ret σ₂ ⟨ok₂, hframe, hview⟩
  have hrx : σ₂.rxQ = σ₁.rxQ := by rw [hframe]
  have htx : σ₂.txQ = σ₁.txQ := by rw [hframe]
  have hview' : σ₂.view = σ₁.view ∨ ∃ t < numSocketsMax, ∃ port, (s : ℤ) = (t : ℕ) ∧
      (σ₁.desc.slots t).used ∧ (σ₁.desc.slots t).bound = false ∧
      canBind (σ₁.mem.bindings port) inaddrAny (σ₁.desc.slots t).soOptions ∧
      σ₂.view = σ₁.view.boundTo t inaddrAny port := by
    obtain hsame | ⟨port, h⟩ := hview
    · exact .inl hsame
    · exact .inr ⟨s, hs, port, rfl, h⟩
  cases ret with
  | error e => exact ⟨ok₂, hrx, hview', htx⟩
  | ok u =>
    -- from here on only the tx ring changes, and only where the send succeeds
    cases pkt with
    | none => exact ⟨ok₂, hrx, hview', htx⟩
    | some addr =>
      dsimp only
      rw [Prog.wp_bind, wp_getSlot hs]
      split
      · exact any _
      simp only [enqueueTx, Int.toNat_natCast, Prog.wp_bind, Prog.wp_read]
      cases hq : (σ₂.txQ s).enqueue
          (fillMbuf addr (buildFrame dpdk config (σ₂.desc.slots s) dest buf)) with
      | none =>
        exact ⟨ok₂, hrx, hview', htx⟩
      | some q =>
        refine ⟨ok₂, hrx, hview', s, hs, rfl, hused, q, htx ▸ hq, ?_⟩
        exact congrArg (Function.update · s q) htx

/-- The validation lets a call on an open socket pass; none fails for an interrupt. -/
theorem recvfromValidateArgs_spec (sockfd flags : ℤ) (bufNull addrlenNull : Bool)
    (hneg : sockfd < 0 → allowed .outOfBounds) :
    Prog.wp allowed (recvfromValidateArgs sockfd flags bufNull addrlenNull)
      (fun ret σ' => σ' = σ ∧ ret ≠ .error .EINTR ∧ (ret = .ok () →
        ∃ s < numSocketsMax, sockfd = (s : ℕ) ∧ (σ.desc.slots s).used)) σ := by
  unfold recvfromValidateArgs
  split
  · exact ⟨rfl, by simp, fun h => by cases h⟩
  rename_i hmax
  by_cases hfd : ∃ s < numSocketsMax, sockfd = (s : ℕ)
  · obtain ⟨s, hs, rfl⟩ := hfd
    simp only [Prog.wp_bind, wp_getSlot hs]
    split
    · exact ⟨rfl, by simp, fun h => by cases h⟩
    rename_i hused
    split
    · exact ⟨rfl, by simp, fun h => by cases h⟩
    split
    · exact ⟨rfl, by simp, fun h => by cases h⟩
    · exact ⟨rfl, by simp, fun _ => ⟨s, hs, rfl, by simpa using hused⟩⟩
  · rw [Prog.wp_bind, wp_getSlot_out hfd]
    apply hneg
    by_contra hnonneg
    exact hfd ⟨sockfd.toNat, by omega, by omega⟩

/-- `udpdk_recvfrom` takes one packet out of the ring of the socket if it succeeds. -/
theorem udpdkRecvfrom_spec (sockfd : ℤ) (bufNull : Bool) (len : ℕ) (flags : ℤ) (srcAddr : Bool)
    (addrlen : Option ℕ) (hneg : sockfd < 0 → allowed .outOfBounds) (hnull : allowed .nullDeref)
    (hwait : allowed .noReturn) :
    Prog.wp allowed (udpdkRecvfrom sockfd bufNull len flags srcAddr addrlen)
      (fun ret σ' => match ret with
        | .error _ => σ' = σ
        | .ok (pkt, received) => ∃ s < numSocketsMax, sockfd = (s : ℕ) ∧
          (σ.desc.slots s).used ∧ ∃ q, (σ.rxQ s).dequeue = some (some pkt, q) ∧
          received = readDatagram pkt len (if srcAddr then addrlen else none) ∧
          σ' = { σ with rxQ := Function.update σ.rxQ s q, freed := σ.freed ++ [pkt.addr] }) σ := by
  unfold udpdkRecvfrom
  rw [Prog.wp_bind]
  apply Prog.wp_mono (recvfromValidateArgs_spec sockfd flags bufNull addrlen.isNone hneg)
  rintro (e | ⟨⟩) σ₁ ⟨rfl, -, hok⟩
  · rfl
  obtain ⟨s, hs, rfl, hused⟩ := hok rfl
  simp only [Prog.wp_bind, Prog.wp_read]
  split
  · rfl
  cases hq : (σ₁.rxQ s).dequeue with
  | none =>
    -- nothing to receive and no interrupt: the call polls the ring forever
    simp only [Int.toNat_natCast, hq]
    exact hwait
  | some pq =>
    obtain ⟨pkt, q⟩ := pq
    simp only [Int.toNat_natCast, hq, Prog.wp_bind, Prog.wp_update]
    cases pkt with
    | none => exact hnull
    | some pkt =>
      dsimp only
      split
      · exact hnull
      generalize (if srcAddr = true then addrlen else none) = room
      split
      · exact hnull
      exact ⟨s, hs, rfl, hused, q, hq, rfl, rfl⟩

end Calls

/-! ## One call -/

/-- The effect of a call: the bind table stays well formed, and view and rings change as they
may. -/
structure ApiEvent.Effect (e : ApiEvent) (σ σ' : Shared) : Prop where
  table : σ'.mem.Ok
  change : ApiChange e σ.view σ'.view
  rings : e.Rings σ σ'

section Effects

variable {dpdk : Dpdk} {config : Configuration} {σ σ' : Shared} {sockfd level optname flags : ℤ}
  {addrlen : ℕ}

/-- `udpdk_socket` opens the first free slot, or fails. -/
theorem udpdkSocket_effect {domain type protocol : ℤ} {ret : Except Errno ℕ} (ok : σ.mem.Ok)
    (h : udpdkSocket domain type protocol σ = .ok (ret, σ')) :
    (ApiEvent.socket domain type protocol ret).Effect σ σ' := by
  have spec : Prog.wp (fun _ => True) (udpdkSocket domain type protocol) _ σ :=
    udpdkSocket_spec domain type protocol
  have hret := Prog.wp_of_ok spec h
  cases hargs : socketValidateArgs domain type protocol with
  | error e =>
    rw [hargs] at hret
    obtain ⟨rfl, rfl⟩ := Prod.mk.inj hret
    exact ⟨ok, .kept rfl, rfl, rfl⟩
  | ok u =>
    rw [hargs] at hret
    dsimp only at hret
    split at hret
    · -- the counter says that no slot is left
      obtain ⟨rfl, rfl⟩ := Prod.mk.inj hret
      exact ⟨ok, .kept rfl, rfl, rfl⟩
    rename_i hroom
    cases hfind : (List.range numSocketsMax).find? fun i => !(σ.desc.slots i).used with
    | none =>
      rw [hfind] at hret
      obtain ⟨rfl, rfl⟩ := Prod.mk.inj hret
      exact ⟨ok, .kept rfl, rfl, rfl⟩
    | some s =>
      rw [hfind] at hret
      obtain ⟨rfl, rfl⟩ := Prod.mk.inj hret
      have hs : s < numSocketsMax := List.mem_range.mp (List.mem_of_find?_eq_some hfind)
      have hfree : (σ.desc.slots s).used = false := by simpa using List.find?_some hfind
      exact ⟨ok, .opened hs hfree (Nat.le_of_not_lt hroom), rfl, rfl⟩

theorem udpdkGetsockopt_effect {optvalNull optlenNull : Bool} {ret : Except Errno (BitVec 32)}
    (ok : σ.mem.Ok)
    (h : udpdkGetsockopt sockfd level optname optvalNull optlenNull σ = .ok (ret, σ')) :
    (ApiEvent.getsockopt sockfd level optname optvalNull optlenNull ret).Effect σ σ' := by
  have spec : Prog.wp (fun _ => True)
      (udpdkGetsockopt sockfd level optname optvalNull optlenNull) _ σ :=
    udpdkGetsockopt_spec sockfd level optname optvalNull optlenNull fun _ => trivial
  obtain ⟨rfl, -⟩ := Prog.wp_of_ok spec h
  exact ⟨ok, .kept rfl, rfl, rfl⟩

/-- `udpdk_setsockopt` changes the word of an open socket, or fails. -/
theorem udpdkSetsockopt_effect {optval : Option (BitVec 32)} {ret : Except Errno Unit}
    (ok : σ.mem.Ok) (h : udpdkSetsockopt sockfd level optname optval σ = .ok (ret, σ')) :
    (ApiEvent.setsockopt sockfd level optname optval ret).Effect σ σ' := by
  have spec : Prog.wp (fun _ => True) (udpdkSetsockopt sockfd level optname optval) _ σ :=
    udpdkSetsockopt_spec sockfd level optname optval fun _ => trivial
  have hret := Prog.wp_of_ok spec h
  cases ret with
  | error e =>
    obtain rfl : σ' = σ := hret.1
    exact ⟨ok, .kept rfl, rfl, rfl⟩
  | ok u =>
    obtain ⟨s, value, ⟨hs, rfl, hused, rfl, hopt⟩, rfl, rfl⟩ := hret
    exact ⟨ok, .option hs hused hopt, rfl, rfl⟩

/-- `udpdk_bind` binds an unbound socket, or fails. -/
theorem udpdkBind_effect {addr : Option SockaddrIn} {ret : Except Errno Unit} (ok : σ.mem.Ok)
    (h : udpdkBind sockfd addr addrlen σ = .ok (ret, σ')) :
    (ApiEvent.bind sockfd addr addrlen ret).Effect σ σ' := by
  have spec : Prog.wp (fun _ => True) (udpdkBind sockfd addr addrlen) _ σ :=
    udpdkBind_spec ok sockfd addr addrlen (fun _ => trivial) (fun _ => trivial) fun _ => trivial
  obtain ⟨ok', hframe, hret⟩ := Prog.wp_of_ok spec h
  have hrings : σ'.rxQ = σ.rxQ ∧ σ'.txQ = σ.txQ := by
    rw [hframe]
    exact ⟨rfl, rfl⟩
  refine ⟨ok', ?_, hrings⟩
  cases ret with
  | error e =>
    rw [hret.1]
    exact .kept rfl
  | ok u =>
    obtain ⟨s, a, ⟨hs, rfl, rfl, -, -, hused, hbound, hcan⟩, hview⟩ := hret
    rw [hview]
    exact .bound hs hused hbound hcan

/-- `udpdk_sendto` may bind its socket, also when it fails later, and puts a packet into the tx
ring if it succeeds. -/
theorem udpdkSendto_effect {pkt : Option ℕ} {buf : List Byte} {destAddr : Option SockaddrIn}
    {ret : Except Errno (Mbuf × ℕ)} (ok : σ.mem.Ok)
    (h : udpdkSendto dpdk config pkt sockfd buf flags destAddr addrlen σ = .ok (ret, σ')) :
    (ApiEvent.sendto pkt sockfd buf flags destAddr addrlen ret).Effect σ σ' := by
  have spec : Prog.wp (fun _ => True)
      (udpdkSendto dpdk config pkt sockfd buf flags destAddr addrlen) _ σ :=
    udpdkSendto_spec (fun _ => trivial) ok dpdk config pkt sockfd buf flags destAddr addrlen
  obtain ⟨ok', hrx, hview, hret⟩ := Prog.wp_of_ok spec h
  refine ⟨ok', ?_, ?_⟩
  · obtain hsame | ⟨s, hs, port, rfl, hused, hbound, hcan, hview⟩ := hview
    · rw [hsame]
      exact .kept rfl
    · rw [hview]
      exact .implicitlyBound hs hused hbound hcan
  · cases ret with
    | error e => exact ⟨hrx, hret⟩
    | ok r => exact ⟨hrx, hret⟩

/-- `udpdk_recvfrom` takes a packet out of the rx ring, or fails. -/
theorem udpdkRecvfrom_effect {bufNull srcAddr : Bool} {len : ℕ} {room : Option ℕ}
    {ret : Except Errno (Mbuf × Received)} (ok : σ.mem.Ok)
    (h : udpdkRecvfrom sockfd bufNull len flags srcAddr room σ = .ok (ret, σ')) :
    (ApiEvent.recvfrom sockfd bufNull len flags srcAddr room ret).Effect σ σ' := by
  have spec : Prog.wp (fun _ => True) (udpdkRecvfrom sockfd bufNull len flags srcAddr room) _ σ :=
    udpdkRecvfrom_spec sockfd bufNull len flags srcAddr room (fun _ => trivial) trivial trivial
  have hret := Prog.wp_of_ok spec h
  cases ret with
  | error e =>
    obtain rfl : σ' = σ := hret
    exact ⟨ok, .kept rfl, rfl, rfl⟩
  | ok r =>
    obtain ⟨s, hs, rfl, hused, q, hq, -, rfl⟩ := hret
    exact ⟨ok, .kept rfl, rfl, s, hs, rfl, hused, q, hq, rfl⟩

/-- `udpdk_close` closes an open socket, or fails. -/
theorem udpdkClose_effect {ret : Except Errno Unit} (ok : σ.mem.Ok)
    (h : udpdkClose sockfd σ = .ok (ret, σ')) : (ApiEvent.close sockfd ret).Effect σ σ' := by
  have spec : Prog.wp (fun _ => True) (udpdkClose sockfd) _ σ :=
    udpdkClose_spec ok sockfd (fun _ => trivial) fun _ _ _ _ _ => trivial
  obtain ⟨ok', hframe, hret⟩ := Prog.wp_of_ok spec h
  have hrings : σ'.rxQ = σ.rxQ ∧ σ'.txQ = σ.txQ := by
    rw [hframe]
    exact ⟨rfl, rfl⟩
  refine ⟨ok', ?_, hrings⟩
  cases ret with
  | error e =>
    rw [hret.1]
    exact .kept rfl
  | ok u =>
    obtain ⟨s, hs, rfl, hused, hview⟩ := hret
    rw [hview]
    exact .closed hs hused

/-- **One call.** On a well-formed bind table a call that returns keeps the table well
formed, has one of the five effects on the view and moves at most one packet. -/
theorem ApiEvent.step_spec {e : ApiEvent} (ok : σ.mem.Ok) (h : e.step dpdk config σ σ') :
    e.Effect σ σ' := by
  cases e with
  | socket => exact udpdkSocket_effect ok h
  | getsockopt => exact udpdkGetsockopt_effect ok h
  | setsockopt => exact udpdkSetsockopt_effect ok h
  | bind => exact udpdkBind_effect ok h
  | sendto => exact udpdkSendto_effect ok h
  | recvfrom => exact udpdkRecvfrom_effect ok h
  | close => exact udpdkClose_effect ok h
  | interrupt =>
    obtain rfl := congrArg Prod.snd (Except.ok.inj h)
    exact ⟨ok, .kept rfl, rfl, rfl⟩

end Effects

end Udpdk
