import Udpdk.Poller.System
import Udpdk.Syscall.Send

/-!
# Descriptors that are not sockets

Every call looks its descriptor up in the array of slots before it does anything else.
`udpdk_sendto` and `udpdk_recvfrom` compare it with the number of slots first, but not with
zero; the other calls do not compare it at all.

## Main definitions

* `FdCall` — the calls that take a descriptor
* `FdCall.DescriptorSafe` — no access out of range, and no effect without an open socket
* `FdCall.Covers` — the descriptors that a call can be given

## Main results

* `FdCall.rejected` — a covered descriptor without a socket is refused
* `descriptor_safe_iff` — a call is safe on exactly the descriptors that it covers
-/

namespace Udpdk

open Foundation

/-- The calls that take a descriptor, with their other arguments. -/
inductive FdCall
  | bind (addr : Option SockaddrIn) (addrlen : ℕ)
  | getsockopt (level optname : ℤ) (optvalNull optlenNull : Bool)
  | setsockopt (level optname : ℤ) (optval : Option (BitVec 32))
  | sendto (pkt : Option ℕ) (buf : List Byte) (flags : ℤ) (destAddr : Option SockaddrIn)
      (addrlen : ℕ)
  | recvfrom (bufNull : Bool) (len : ℕ) (flags : ℤ) (srcAddr : Bool) (addrlen : Option ℕ)
  | close

/-- The descriptor is one of an open socket. -/
def Shared.IsOpen (σ : Shared) (fd : ℤ) : Prop :=
  ∃ s < numSocketsMax, fd = (s : ℕ) ∧ (σ.desc.slots s).used

/-- Forget the value of a call that succeeds. -/
def dropValue {α : Type} (x : SharedProg (Except Errno α)) : SharedProg (Except Errno Unit) := do
  match ← x with
  | .error e => return .error e
  | .ok _ => return .ok ()

namespace FdCall

section Run

variable (dpdk : Dpdk) (config : Configuration) (fd : ℤ)

/-- The call on a descriptor: whether it fails, and with what. -/
def run : FdCall → SharedProg (Except Errno Unit)
  | bind addr addrlen => udpdkBind fd addr addrlen
  | getsockopt level optname optvalNull optlenNull =>
    dropValue (udpdkGetsockopt fd level optname optvalNull optlenNull)
  | setsockopt level optname optval => udpdkSetsockopt fd level optname optval
  | sendto pkt buf flags destAddr addrlen =>
    dropValue (udpdkSendto dpdk config pkt fd buf flags destAddr addrlen)
  | recvfrom bufNull len flags srcAddr addrlen =>
    dropValue (udpdkRecvfrom fd bufNull len flags srcAddr addrlen)
  | close => udpdkClose fd

/-- The call copies more into a buffer than there is room for. -/
def Overlong : FdCall → Prop
  | sendto _ buf _ _ _ => mbufDataRoom < sizeofHeaders + buf.length
  | _ => False

/-- The call never leaves the arrays of slots: it does not stop at an access out of range (the
copy of an overlong payload apart), and where the descriptor is beyond the arrays it fails
without a look at the state. Without an open socket it fails and leaves the state as it was. -/
structure DescriptorSafe (call : FdCall) (σ : Shared) : Prop where
  inRange : call.run dpdk config fd σ = .error .outOfBounds → call.Overlong
  beyond : ¬ (0 ≤ fd ∧ fd < numSocketsMax) →
    ∃ e, ∀ σ', call.run dpdk config fd σ' = .ok (.error e, σ')
  rejected : ¬ σ.IsOpen fd → ∃ e, call.run dpdk config fd σ = .ok (.error e, σ)

end Run

/-- The descriptors that the validation of a call is made for. -/
def Covers : FdCall → ℤ → Prop
  | sendto .., fd => 0 ≤ fd
  | recvfrom .., fd => 0 ≤ fd
  | _, fd => 0 ≤ fd ∧ fd < numSocketsMax

instance (call : FdCall) (fd : ℤ) : Decidable (call.Covers fd) :=
  match call with
  | sendto .. => inferInstanceAs (Decidable (0 ≤ fd))
  | recvfrom .. => inferInstanceAs (Decidable (0 ≤ fd))
  | bind .. | getsockopt .. | setsockopt .. | close =>
    inferInstanceAs (Decidable (0 ≤ fd ∧ fd < numSocketsMax))

variable {allowed : Fault → Prop} {dpdk : Dpdk} {config : Configuration} {call : FdCall} {fd : ℤ}
  {σ : Shared}

/-! ## Descriptors in range -/

theorem covers_of_inRange (h : 0 ≤ fd ∧ fd < numSocketsMax) : call.Covers fd := by
  cases call with
  | sendto pkt buf flags destAddr addrlen => exact h.1
  | recvfrom bufNull len flags srcAddr addrlen => exact h.1
  | bind addr addrlen => exact h
  | getsockopt level optname optvalNull optlenNull => exact h
  | setsockopt level optname optval => exact h
  | close => exact h

theorem wp_dropValue {α : Type} {x : SharedProg (Except Errno α)}
    {post : Except Errno Unit → Shared → Prop} : Prog.wp allowed (dropValue x) post σ ↔
      Prog.wp allowed x (fun ret σ' => post (ret.map fun _ => ()) σ') σ := by
  rw [dropValue, Prog.wp_bind]
  constructor
  · intro h
    apply Prog.wp_mono h
    rintro (e | a) σ' hpost
    · exact hpost
    · exact hpost
  · intro h
    apply Prog.wp_mono h
    rintro (e | a) σ' hpost
    · exact hpost
    · exact hpost

/-- A call on a covered descriptor in a well-formed state stops at no access out of range. -/
theorem inRange (ok : σ.Ok) (hcover : call.Covers fd) : Prog.wp
    (fun fault => fault = .outOfBounds → call.Overlong) (call.run dpdk config fd)
    (fun _ _ => True) σ := by
  have hnull : Fault.nullDeref = .outOfBounds → call.Overlong := by
    intro h
    cases h
  have hwait : Fault.noReturn = .outOfBounds → call.Overlong := by
    intro h
    cases h
  have hrange : 0 ≤ fd ∧ fd < numSocketsMax → (¬ ∃ s < numSocketsMax, fd = (s : ℕ)) →
      Fault.outOfBounds = .outOfBounds → call.Overlong := by
    intro hfd hout
    exact absurd ⟨fd.toNat, by omega, by omega⟩ hout
  cases call with
  | bind addr addrlen =>
    exact Prog.wp_mono (udpdkBind_spec ok.mem fd addr addrlen (hrange hcover) (fun _ => hnull)
      fun _ => hnull) fun _ _ _ => trivial
  | getsockopt level optname optvalNull optlenNull =>
    rw [run, wp_dropValue]
    exact Prog.wp_mono (udpdkGetsockopt_spec fd level optname optvalNull optlenNull
      (hrange hcover)) fun _ _ _ => trivial
  | setsockopt level optname optval =>
    exact Prog.wp_mono (udpdkSetsockopt_spec fd level optname optval (hrange hcover))
      fun _ _ _ => trivial
  | sendto pkt buf flags destAddr addrlen =>
    rw [run, wp_dropValue]
    refine Prog.wp_mono (Prog.wp_allow (udpdkSendto_outcome ok) ?_) fun _ _ _ => trivial
    rintro fault hfits -
    by_contra hover
    exact hfits ⟨hcover, fun _ _ => not_lt.mp hover⟩
  | recvfrom bufNull len flags srcAddr addrlen =>
    rw [run, wp_dropValue]
    exact Prog.wp_mono (udpdkRecvfrom_spec fd bufNull len flags srcAddr addrlen
      (fun hneg => absurd hcover (not_le.mpr hneg)) hnull hwait) fun _ _ _ => trivial
  | close =>
    exact Prog.wp_mono (udpdkClose_spec ok.mem fd (hrange hcover) fun _ _ _ _ _ => hnull)
      fun _ _ _ => trivial

/-! ## Descriptors without a socket -/

/-- A call on a covered descriptor fails and changes nothing where no socket is open. -/
theorem rejected (hcover : call.Covers fd) (hclosed : ¬ σ.IsOpen fd) :
    ∃ e, call.run dpdk config fd σ = .ok (.error e, σ) := by
  have hfree : 0 ≤ fd ∧ fd < numSocketsMax → ∃ s < numSocketsMax, fd = (s : ℕ) ∧
      (σ.desc.slots s).used = false := by
    intro hfd
    refine ⟨fd.toNat, by omega, by omega, ?_⟩
    by_contra hused
    exact hclosed ⟨fd.toNat, by omega, by omega, by simpa using hused⟩
  have spec : Prog.wp (fun _ => False) (call.run dpdk config fd)
      (fun ret σ' => (∃ e, ret = .error e) ∧ σ' = σ) σ := by
    cases call with
    | bind addr addrlen =>
      obtain ⟨s, hs, rfl, hunused⟩ := hfree hcover
      rw [run]
      unfold udpdkBind bindValidateArgs
      rw [Prog.wp_bind, Prog.wp_bind, wp_getSlot hs, hunused]
      exact ⟨⟨_, rfl⟩, rfl⟩
    | getsockopt level optname optvalNull optlenNull =>
      obtain ⟨s, hs, rfl, hunused⟩ := hfree hcover
      rw [run, wp_dropValue]
      unfold udpdkGetsockopt getsetsockoptValidateArgs
      rw [Prog.wp_bind, Prog.wp_bind, wp_getSlot hs, hunused]
      exact ⟨⟨_, rfl⟩, rfl⟩
    | setsockopt level optname optval =>
      obtain ⟨s, hs, rfl, hunused⟩ := hfree hcover
      rw [run]
      unfold udpdkSetsockopt getsetsockoptValidateArgs
      rw [Prog.wp_bind, Prog.wp_bind, wp_getSlot hs, hunused]
      exact ⟨⟨_, rfl⟩, rfl⟩
    | sendto pkt buf flags destAddr addrlen =>
      rw [run, wp_dropValue, udpdkSendto, Prog.wp_bind]
      apply Prog.wp_mono (sendtoValidateArgs_outcome fun hneg =>
        absurd hcover (not_le.mpr hneg))
      rintro (e | dest) σ' ⟨rfl, -, hvalid⟩
      · exact ⟨⟨e, rfl⟩, rfl⟩
      · obtain ⟨s, haccepts⟩ := hvalid
        exact absurd ⟨s, haccepts.inRange, haccepts.fd, haccepts.used⟩ hclosed
    | recvfrom bufNull len flags srcAddr addrlen =>
      rw [run, wp_dropValue, udpdkRecvfrom, Prog.wp_bind]
      apply Prog.wp_mono (recvfromValidateArgs_spec fd flags bufNull addrlen.isNone fun hneg =>
        absurd hcover (not_le.mpr hneg))
      rintro (e | ⟨⟩) σ' ⟨rfl, -, hok⟩
      · exact ⟨⟨e, rfl⟩, rfl⟩
      · obtain ⟨s, hs, hfd, hused⟩ := hok rfl
        exact absurd ⟨s, hs, hfd, hused⟩ hclosed
    | close =>
      obtain ⟨s, hs, rfl, hunused⟩ := hfree hcover
      rw [run, udpdkClose, Prog.wp_bind, wp_getSlot hs, hunused]
      exact ⟨⟨_, rfl⟩, rfl⟩
  obtain ⟨_, _, hrun, ⟨e, rfl⟩, rfl⟩ := Prog.exists_ok_of_wp spec
  exact ⟨e, hrun⟩

/-- Beyond the arrays, only a descriptor that is too large is covered, and only by the two calls
that compare it with the number of slots. -/
theorem beyond (hcover : call.Covers fd) (hout : ¬ (0 ≤ fd ∧ fd < numSocketsMax)) :
    ∃ e, ∀ σ', call.run dpdk config fd σ' = .ok (.error e, σ') := by
  have hmax : 0 ≤ fd → (numSocketsMax : ℤ) ≤ fd := fun hnonneg =>
    not_lt.mp fun hlt => hout ⟨hnonneg, hlt⟩
  cases call with
  | bind addr addrlen => exact absurd hcover hout
  | getsockopt level optname optvalNull optlenNull => exact absurd hcover hout
  | setsockopt level optname optval => exact absurd hcover hout
  | close => exact absurd hcover hout
  | sendto pkt buf flags destAddr addrlen =>
    refine ⟨.ENOTSOCK, fun σ' => ?_⟩
    rw [run]
    unfold udpdkSendto sendtoValidateArgs
    rw [if_pos (hmax hcover)]
    rfl
  | recvfrom bufNull len flags srcAddr addrlen =>
    refine ⟨.ENOTSOCK, fun σ' => ?_⟩
    rw [run]
    unfold udpdkRecvfrom recvfromValidateArgs
    rw [if_pos (hmax hcover)]
    rfl

/-! ## Descriptors that are not covered -/

/-- A call on a descriptor that it does not cover reads beyond the array of slots. -/
theorem outOfBounds_of_not_covers (hcover : ¬ call.Covers fd) :
    call.run dpdk config fd σ = .error .outOfBounds := by
  have hslot : ¬ (0 ≤ fd ∧ fd < numSocketsMax) → getSlot fd = Prog.stop .outOfBounds := by
    intro hout
    rw [getSlot, if_neg]
    omega
  have hneg : ¬ 0 ≤ fd → ¬ (numSocketsMax : ℤ) ≤ fd ∧
      getSlot fd = Prog.stop .outOfBounds := fun h => ⟨by omega, hslot (by omega)⟩
  cases call with
  | bind addr addrlen =>
    rw [run]
    unfold udpdkBind bindValidateArgs
    rw [hslot hcover]
    rfl
  | getsockopt level optname optvalNull optlenNull =>
    rw [run]
    unfold udpdkGetsockopt getsetsockoptValidateArgs
    rw [hslot hcover]
    rfl
  | setsockopt level optname optval =>
    rw [run]
    unfold udpdkSetsockopt getsetsockoptValidateArgs
    rw [hslot hcover]
    rfl
  | sendto pkt buf flags destAddr addrlen =>
    obtain ⟨hmax, hstop⟩ := hneg hcover
    rw [run]
    unfold udpdkSendto sendtoValidateArgs
    rw [if_neg hmax, hstop]
    rfl
  | recvfrom bufNull len flags srcAddr addrlen =>
    obtain ⟨hmax, hstop⟩ := hneg hcover
    rw [run]
    unfold udpdkRecvfrom recvfromValidateArgs
    rw [if_neg hmax, hstop]
    rfl
  | close =>
    rw [run]
    unfold udpdkClose
    rw [hslot hcover]
    rfl

theorem not_descriptorSafe (hcover : ¬ call.Covers fd) :
    ¬ call.DescriptorSafe dpdk config fd σ := by
  intro h
  have hclosed : ¬ σ.IsOpen fd := by
    rintro ⟨s, hs, rfl, -⟩
    exact hcover (covers_of_inRange ⟨by omega, by omega⟩)
  obtain ⟨e, hrun⟩ := h.rejected hclosed
  rw [outOfBounds_of_not_covers hcover] at hrun
  cases hrun

end FdCall

/-- **Descriptor safety.** In every reachable state a call is safe on exactly the descriptors
that its validation is made for. -/
theorem descriptor_safe_iff (dpdk : Dpdk) (config : Configuration) (zones : AllocatorZones)
    {log : List SystemEvent} {S : System}
    (run : Run (SystemEvent.step dpdk config) (systemInit zones) log S) (call : FdCall) (fd : ℤ) :
    call.DescriptorSafe dpdk config fd S.shared ↔ call.Covers fd := by
  constructor
  · intro safe
    by_contra hcover
    exact FdCall.not_descriptorSafe hcover safe
  · intro hcover
    have ok := Shared.Ok.systemRun run
    exact ⟨fun hstop => Prog.allowed_of_wp (FdCall.inRange ok hcover) hstop rfl,
      FdCall.beyond hcover, FdCall.rejected hcover⟩

/-- Socket 0 is open, and socket 1 is bound: a descriptor of an open socket, one of none, and one
behind the array. -/
theorem descriptor_safe_of_bound : ∃ S : System, S.shared.IsOpen 0 ∧
    (S.shared.desc.slots 1).bound ∧
    FdCall.close.DescriptorSafe Dpdk.reference Configuration.zero 1 S.shared ∧
    FdCall.close.DescriptorSafe Dpdk.reference Configuration.zero 7 S.shared ∧
    (FdCall.sendto (some 0) [1, 2, 3] 0 (some ⟨afInet, 53, 7⟩)
      sizeofSockaddrIn).DescriptorSafe Dpdk.reference Configuration.zero 5000 S.shared := by
  have first := run_sharedOpen Dpdk.reference Configuration.zero ⟨0, 0, 0, 0⟩ 2 (by decide)
  obtain ⟨σ, hbind, -, hview⟩ := ApiEvent.exists_step_bind (p := 53) (s := 1) (i := 7)
    (Shared.Ok.run first) (by decide) rfl rfl rfl
  have run := run_api (S := systemInit ⟨0, 0, 0, 0⟩) (first.snoc hbind)
  have hopen : (σ.desc.slots 0).used := by
    rw [← Shared.view_slot, hview, SocketView.slot_boundTo_of_ne (by decide)]
    rfl
  have hbound : (σ.desc.slots 1).bound := by
    rw [← Shared.view_slot, hview, SocketView.slot_boundTo_self]
  exact ⟨_, ⟨0, by decide, rfl, hopen⟩, hbound,
    (descriptor_safe_iff _ _ ⟨0, 0, 0, 0⟩ run _ _).mpr (by decide),
    (descriptor_safe_iff _ _ ⟨0, 0, 0, 0⟩ run _ _).mpr (by decide),
    (descriptor_safe_iff _ _ ⟨0, 0, 0, 0⟩ run _ _).mpr (by decide)⟩

/-- Closing descriptor 1024, or sending on descriptor -1, reads beyond the array of slots. -/
theorem not_descriptor_safe : ¬ ∀ (dpdk : Dpdk) (config : Configuration) (zones : AllocatorZones)
    (log : List SystemEvent) (S : System),
    Run (SystemEvent.step dpdk config) (systemInit zones) log S →
      ∀ (call : FdCall) (fd : ℤ), call.DescriptorSafe dpdk config fd S.shared := by
  intro h
  have hcover : ¬ FdCall.close.Covers 1024 := by decide
  exact FdCall.not_descriptorSafe hcover
    (h Dpdk.reference Configuration.zero ⟨0, 0, 0, 0⟩ [] _ .nil FdCall.close 1024)

end Udpdk
