import Udpdk.Foundation.Run
import Udpdk.Syscall.Receive
import Udpdk.Syscall.View

/-!
# A receive that is interrupted

`udpdk_recvfrom` step by step: the test of its loop, each attempt to dequeue a packet, the test
behind the loop, and the reading of the packet. Between any two steps packets may arrive, and
`udpdk_interrupt` may raise the flag that both tests read.

## Main definitions

* `RecvCall.recvStep` — one step of the call
* `RecvEvent.step` — a step of the call, an arrival or an interrupt
* `RecvCall.Lossless` — what the claim of an interrupted or a successful receive is
* `RecvState.Exposed` — the flag is raised while the call holds a packet before the last test

## Main results

* `run_of_recvfrom` — without anything in between, the steps are `udpdk_recvfrom`
* `recvfrom_lossless_iff` — when a receive loses nothing
-/

namespace Udpdk

open Foundation

/-- The arguments of `udpdk_recvfrom`. -/
structure RecvCall where
  sockfd : ℤ
  bufNull : Bool
  len : ℕ
  flags : ℤ
  srcAddr : Bool
  addrlen : Option ℕ

/-- Where the call is. -/
inductive RecvPc
  /-- before the validation of the arguments -/
  | validate
  /-- at the test of the loop -/
  | loopTest
  /-- inside the loop -/
  | attempt
  /-- at the test behind the loop -/
  | afterTest
  /-- with a packet to be read -/
  | deliver
  /-- returned -/
  | done (ret : Except Errno (Mbuf × Received))

/-- The shared state and the local variables: `got` is `pkt` once `ret` is 0. -/
structure RecvState where
  shared : Shared
  pc : RecvPc
  got : Option (Option Mbuf)

namespace RecvCall

variable (call : RecvCall)

/-- The room for the source address, if one is wanted. -/
def room : Option ℕ := if call.srcAddr then call.addrlen else none

def ring (σ : Shared) : List (Option Mbuf) := (σ.rxQ call.sockfd.toNat).items

/-- One step of `udpdk_recvfrom`: where it goes on, and the packet that it has. -/
def recvStep (got : Option (Option Mbuf)) : RecvPc → SharedProg (RecvPc × Option (Option Mbuf))
  | .validate => do
    match ← recvfromValidateArgs call.sockfd call.flags call.bufNull call.addrlen.isNone with
    | .error e => return (.done (.error e), none)
    | .ok () => return (.loopTest, none)
  | .loopTest => do
    -- while (ret < 0 && !interrupted)
    if got.isNone ∧ (← Prog.read).interrupted = false then return (.attempt, got)
    else return (.afterTest, got)
  | .attempt => do
    match ((← Prog.read).rxQ call.sockfd.toNat).dequeue with
    | none => return (.loopTest, none)
    | some (pkt, q) =>
      Prog.update fun σ => { σ with rxQ := Function.update σ.rxQ call.sockfd.toNat q }
      return (.loopTest, some pkt)
  | .afterTest => do
    if (← Prog.read).interrupted then return (.done (.error .EINTR), got)
    else return (.deliver, got)
  | .deliver =>
    match got with
    | some (some pkt) =>
      if call.srcAddr ∧ call.addrlen.isNone then Prog.stop .nullDeref
      else
        let received := readDatagram pkt call.len call.room
        if call.bufNull ∧ received.bytes ≠ [] then Prog.stop .nullDeref
        else do
          rtePktmbufFree pkt
          return (.done (.ok (pkt, received)), got)
    | _ => Prog.stop .nullDeref
  | .done ret => return (.done ret, got)

def start (σ : Shared) : RecvState := ⟨σ, .validate, none⟩

end RecvCall

/-- A step of the call, packets that the poller puts into the ring, or `udpdk_interrupt`. -/
inductive RecvEvent
  | receiver
  | arrive (batch : List (Option Mbuf))
  | interrupt

namespace RecvEvent

/-- The event takes the call from `u` to `v`. -/
def step (call : RecvCall) : RecvEvent → RecvState → RecvState → Prop
  | .receiver, u, v => call.recvStep u.got u.pc u.shared = .ok ((v.pc, v.got), v.shared)
  | .arrive batch, u, v => ∃ q, (u.shared.rxQ call.sockfd.toNat).enqueueBulk batch = some q ∧
    v = { u with
      shared := { u.shared with rxQ := Function.update u.shared.rxQ call.sockfd.toNat q } }
  | .interrupt, u, v => udpdkInterrupt u.shared = .ok ((), v.shared) ∧ v.pc = u.pc ∧ v.got = u.got

def arrived : RecvEvent → List (Option Mbuf)
  | .arrive batch => batch
  | _ => []

end RecvEvent

def arrivals (log : List RecvEvent) : List (Option Mbuf) := log.flatMap RecvEvent.arrived

/-- What the ring held and what arrived is still there if the call was interrupted. A packet
that is gone is the first of them, the call returns its data, and it is freed once. -/
structure RecvCall.Lossless (call : RecvCall) (σ : Shared) (arrived : List (Option Mbuf))
    (ret : Except Errno (Mbuf × Received)) (σ' : Shared) : Prop where
  interrupted : ret = .error .EINTR → call.ring σ' = call.ring σ ++ arrived
  removed : call.ring σ' ≠ call.ring σ ++ arrived →
    ∃ pkt, call.ring σ ++ arrived = some pkt :: call.ring σ' ∧
      ret = .ok (pkt, readDatagram pkt call.len call.room) ∧ σ'.freed = σ.freed ++ [pkt.addr]

/-- The flag is raised, and the call has a packet but is not past the test behind the loop. -/
structure RecvState.Exposed (u : RecvState) : Prop where
  held : u.got ≠ none
  raised : u.shared.interrupted
  ahead : u.pc = .loopTest ∨ u.pc = .afterTest

/-! ## What a step does -/

/-- The effect of an event. -/
inductive RecvChange (call : RecvCall) (u : RecvState) : RecvEvent → RecvState → Prop
  | refused {e : Errno} (pc : u.pc = .validate) (other : e ≠ .EINTR) :
      RecvChange call u .receiver ⟨u.shared, .done (.error e), none⟩
  | accepted (pc : u.pc = .validate) : RecvChange call u .receiver ⟨u.shared, .loopTest, none⟩
  | enter (pc : u.pc = .loopTest) (empty : u.got = none) :
      RecvChange call u .receiver { u with pc := .attempt }
  | leave (pc : u.pc = .loopTest) : RecvChange call u .receiver { u with pc := .afterTest }
  | nothing (pc : u.pc = .attempt) : RecvChange call u .receiver ⟨u.shared, .loopTest, none⟩
  | taken {pkt : Option Mbuf} {q : BoundedQueue (Option Mbuf)} (pc : u.pc = .attempt)
      (front : (u.shared.rxQ call.sockfd.toNat).dequeue = some (pkt, q)) :
      RecvChange call u .receiver ⟨{ u.shared with
        rxQ := Function.update u.shared.rxQ call.sockfd.toNat q }, .loopTest, some pkt⟩
  | interrupted (pc : u.pc = .afterTest) (raised : u.shared.interrupted) :
      RecvChange call u .receiver { u with pc := .done (.error .EINTR) }
  | passed (pc : u.pc = .afterTest) (calm : u.shared.interrupted = false) :
      RecvChange call u .receiver { u with pc := .deliver }
  | delivered {pkt : Mbuf} (pc : u.pc = .deliver) (got : u.got = some (some pkt)) :
      RecvChange call u .receiver ⟨{ u.shared with freed := u.shared.freed ++ [pkt.addr] },
        .done (.ok (pkt, readDatagram pkt call.len call.room)), u.got⟩
  | finished {ret : Except Errno (Mbuf × Received)} (pc : u.pc = .done ret) :
      RecvChange call u .receiver u
  | arrive {batch : List (Option Mbuf)} {q : BoundedQueue (Option Mbuf)}
      (room : (u.shared.rxQ call.sockfd.toNat).enqueueBulk batch = some q) :
      RecvChange call u (.arrive batch) { u with shared := { u.shared with
        rxQ := Function.update u.shared.rxQ call.sockfd.toNat q } }
  | raise : RecvChange call u .interrupt { u with shared := { u.shared with interrupted := true } }

section Step

variable {call : RecvCall} {u v : RecvState} {a : RecvEvent} {σ : Shared}

theorem recvfromValidateArgs_ne_eintr {sockfd flags : ℤ} {bufNull addrlenNull : Bool} {σ' : Shared}
    {ret : Except Errno Unit}
    (h : recvfromValidateArgs sockfd flags bufNull addrlenNull σ = .ok (ret, σ')) :
    σ' = σ ∧ ret ≠ .error .EINTR := by
  have spec : Prog.wp (fun _ => True) (recvfromValidateArgs sockfd flags bufNull addrlenNull) _ σ :=
    recvfromValidateArgs_spec sockfd flags bufNull addrlenNull fun _ => trivial
  obtain ⟨rfl, hother, -⟩ := Prog.wp_of_ok spec h
  exact ⟨rfl, hother⟩

/-- Where a step that returned has left the call. -/
theorem eq_of_returned {pc pc' : RecvPc} {got got' : Option (Option Mbuf)} {σ' : Shared}
    (h : (.ok ((pc, got), σ) : Except Fault ((RecvPc × Option (Option Mbuf)) × Shared)) =
      .ok ((pc', got'), σ')) : pc = pc' ∧ got = got' ∧ σ = σ' := by
  obtain ⟨hpair, hstate⟩ := Prod.mk.inj (Except.ok.inj h)
  obtain ⟨hpc, hgot⟩ := Prod.mk.inj hpair
  exact ⟨hpc, hgot, hstate⟩

/-- Every step of the call has one of the effects. -/
theorem receiver_change (h : RecvEvent.receiver.step call u v) :
    RecvChange call u .receiver v := by
  obtain ⟨σ, pc, got⟩ := u
  obtain ⟨σ', pc', got'⟩ := v
  change call.recvStep got pc σ = .ok ((pc', got'), σ') at h
  cases pc with
  | validate =>
    obtain ⟨ret, τ, hvalid, hrest⟩ := Prog.bind_eq_ok_iff.mp h
    obtain ⟨rfl, hother⟩ := recvfromValidateArgs_ne_eintr hvalid
    cases ret with
    | error e =>
      obtain ⟨rfl, rfl, rfl⟩ := eq_of_returned hrest
      exact .refused rfl fun he => hother (by rw [he])
    | ok valid =>
      obtain ⟨rfl, rfl, rfl⟩ := eq_of_returned hrest
      exact .accepted rfl
  | loopTest =>
    rw [RecvCall.recvStep, Prog.bind_of_ok (Prog.read_apply σ)] at h
    split at h
    · rename_i hstay
      obtain ⟨rfl, rfl, rfl⟩ := eq_of_returned h
      exact .enter rfl (Option.isNone_iff_eq_none.mp hstay.1)
    · obtain ⟨rfl, rfl, rfl⟩ := eq_of_returned h
      exact .leave rfl
  | attempt =>
    rw [RecvCall.recvStep, Prog.bind_of_ok (Prog.read_apply σ)] at h
    cases hq : (σ.rxQ call.sockfd.toNat).dequeue with
    | none =>
      rw [hq] at h
      obtain ⟨rfl, rfl, rfl⟩ := eq_of_returned h
      exact .nothing rfl
    | some r =>
      obtain ⟨pkt, q⟩ := r
      rw [hq] at h
      obtain ⟨rfl, rfl, rfl⟩ := eq_of_returned h
      exact .taken rfl hq
  | afterTest =>
    rw [RecvCall.recvStep, Prog.bind_of_ok (Prog.read_apply σ)] at h
    split at h
    · rename_i hraised
      obtain ⟨rfl, rfl, rfl⟩ := eq_of_returned h
      exact .interrupted rfl hraised
    · rename_i hcalm
      obtain ⟨rfl, rfl, rfl⟩ := eq_of_returned h
      exact .passed rfl (Bool.eq_false_iff.mpr hcalm)
  | deliver =>
    cases got with
    | none => cases h
    | some pkt =>
      cases pkt with
      | none => cases h
      | some pkt =>
        dsimp only [RecvCall.recvStep] at h
        split at h
        · cases h
        split at h
        · cases h
        · obtain ⟨rfl, rfl, rfl⟩ := eq_of_returned h
          exact .delivered rfl rfl
  | done ret =>
    obtain ⟨rfl, rfl, rfl⟩ := eq_of_returned h
    exact .finished rfl

/-- **One step.** -/
theorem RecvEvent.step_change (h : a.step call u v) : RecvChange call u a v := by
  cases a with
  | receiver => exact receiver_change h
  | arrive batch =>
    obtain ⟨q, hq, rfl⟩ := h
    exact .arrive hq
  | interrupt =>
    obtain ⟨σ, pc, got⟩ := v
    obtain ⟨hret, rfl, rfl⟩ := h
    obtain ⟨-, rfl⟩ := Prod.mk.inj (Except.ok.inj hret)
    exact .raise

/-! ## What the call holds -/

/-- The state after `arrived` arrived: what the ring held and what arrived is what the call has
and what is in the ring, in this order. -/
structure RecvState.Ok (u : RecvState) (call : RecvCall) (σ : Shared)
    (arrived : List (Option Mbuf)) : Prop where
  ledger : call.ring σ ++ arrived = u.got.toList ++ call.ring u.shared
  early : u.pc = .validate ∨ u.pc = .attempt → u.got = none
  refused : ∀ e, u.pc = .done (.error e) → e ≠ .EINTR → u.got = none
  returned : ∀ m received, u.pc = .done (.ok (m, received)) → u.got = some (some m) ∧
    received = readDatagram m call.len call.room ∧ u.shared.freed = σ.freed ++ [m.addr]
  freed : (∀ r, u.pc ≠ .done (.ok r)) → u.shared.freed = σ.freed

theorem RecvCall.ok_start (call : RecvCall) (σ : Shared) : (RecvCall.start σ).Ok call σ [] where
  ledger := List.append_nil _
  early _ := rfl
  refused _ h := by cases h
  returned _ _ h := by cases h
  freed _ := rfl

theorem RecvCall.ring_update (call : RecvCall) (σ : Shared) (q : BoundedQueue (Option Mbuf)) :
    call.ring { σ with rxQ := Function.update σ.rxQ call.sockfd.toNat q } = q.items :=
  congrArg BoundedQueue.items (Function.update_self ..)

theorem RecvState.Ok.step {arrived : List (Option Mbuf)} (ok : u.Ok call σ arrived)
    (h : a.step call u v) : v.Ok call σ (arrived ++ a.arrived) := by
  have hchange := RecvEvent.step_change h
  have hledger : call.ring σ ++ (arrived ++ []) = u.got.toList ++ call.ring u.shared := by
    rw [List.append_nil, ok.ledger]
  have hfreed : ∀ {pc}, u.pc = pc → (∀ r, pc ≠ .done (.ok r)) → u.shared.freed = σ.freed := by
    intro pc hpc hne
    exact ok.freed (hpc ▸ hne)
  cases hchange with
  | refused pc other =>
    rw [ok.early (.inl pc)] at hledger
    exact ⟨hledger, fun _ => rfl, fun _ _ _ => rfl, fun _ _ h => (by cases h),
      fun _ => hfreed pc fun _ h => by cases h⟩
  | accepted pc =>
    rw [ok.early (.inl pc)] at hledger
    exact ⟨hledger, fun _ => rfl, fun _ _ _ => rfl, fun _ _ h => (by cases h),
      fun _ => hfreed pc fun _ h => by cases h⟩
  | enter pc empty =>
    exact ⟨hledger, fun _ => empty, fun _ h => (by cases h), fun _ _ h => (by cases h),
      fun _ => hfreed pc fun _ h => by cases h⟩
  | leave pc =>
    exact ⟨hledger, fun h => (by simp at h), fun _ h => (by cases h), fun _ _ h => (by cases h),
      fun _ => hfreed pc fun _ h => by cases h⟩
  | nothing pc =>
    rw [ok.early (.inr pc)] at hledger
    exact ⟨hledger, fun _ => rfl, fun _ _ _ => rfl, fun _ _ h => (by cases h),
      fun _ => hfreed pc fun _ h => by cases h⟩
  | @taken pkt q pc front =>
    obtain ⟨-, hitems⟩ := BoundedQueue.dequeue_eq_some_iff.mp front
    rw [ok.early (.inr pc)] at hledger
    refine ⟨?_, fun h => (by simp at h), fun _ h => (by cases h), fun _ _ h => (by cases h),
      fun _ => hfreed pc fun _ h => by cases h⟩
    have hring : call.ring u.shared = pkt :: q.items := hitems
    dsimp only [RecvEvent.arrived]
    rw [hledger, call.ring_update, hring]
    rfl
  | interrupted pc raised =>
    exact ⟨hledger, fun h => (by simp at h), fun e h he => by cases h; exact absurd rfl he,
      fun _ _ h => (by cases h), fun _ => hfreed pc fun _ h => by cases h⟩
  | passed pc calm =>
    exact ⟨hledger, fun h => (by simp at h), fun _ h => (by cases h), fun _ _ h => (by cases h),
      fun _ => hfreed pc fun _ h => by cases h⟩
  | @delivered pkt pc got =>
    refine ⟨hledger, fun h => (by simp at h), fun _ h => (by cases h), fun m received h => ?_,
      fun h => absurd rfl (h _)⟩
    cases h
    exact ⟨got, rfl, congrArg (· ++ [pkt.addr]) (hfreed pc fun _ h => by cases h)⟩
  | finished pc => exact ⟨hledger, ok.early, ok.refused, ok.returned, ok.freed⟩
  | @arrive batch q room =>
    obtain ⟨-, -, hitems⟩ := BoundedQueue.enqueueBulk_eq_some_iff.mp room
    refine ⟨?_, ok.early, ok.refused, ok.returned, ok.freed⟩
    have hring : q.items = call.ring u.shared ++ batch := hitems
    dsimp only [RecvEvent.arrived]
    rw [call.ring_update, hring, ← List.append_assoc, ok.ledger, List.append_assoc]
  | raise => exact ⟨hledger, ok.early, ok.refused, ok.returned, ok.freed⟩

/-- **A run of the call** keeps account of every packet. -/
theorem RecvCall.ok_of_run {log : List RecvEvent}
    (run : Run (RecvEvent.step call) (RecvCall.start σ) log u) : u.Ok call σ (arrivals log) := by
  refine run.invariant (fun log u => u.Ok call σ (arrivals log)) (call.ok_start σ) ?_
  intro log u a v _ ok hstep
  have hlog : arrivals (log ++ [a]) = arrivals log ++ a.arrived := by simp [arrivals]
  rw [hlog]
  exact ok.step hstep

/-! ## The window -/

/-- An exposed call stays so until it returns `EINTR` with a packet in its hands. -/
theorem RecvState.exposed_step (h : a.step call u v)
    (lost : u.Exposed ∨ u.got ≠ none ∧ u.pc = .done (.error .EINTR)) :
    v.Exposed ∨ v.got ≠ none ∧ v.pc = .done (.error .EINTR) := by
  have hchange := RecvEvent.step_change h
  have hgot : u.got ≠ none := lost.elim Exposed.held And.left
  -- three places are left, and in none of them does the call get rid of the packet
  have hpc : u.pc = .loopTest ∨ u.pc = .afterTest ∨ u.pc = .done (.error .EINTR) := by
    obtain exposed | ⟨-, ended⟩ := lost
    · exact exposed.ahead.imp_right .inl
    · exact .inr (.inr ended)
  cases hchange with
  | refused pc other => simp [pc] at hpc
  | accepted pc => simp [pc] at hpc
  | enter pc empty => exact absurd empty hgot
  | leave pc =>
    have exposed := lost.resolve_right fun ended => by simp [pc] at ended
    exact .inl ⟨hgot, exposed.raised, .inr rfl⟩
  | nothing pc => simp [pc] at hpc
  | taken pc front => simp [pc] at hpc
  | interrupted pc raised => exact .inr ⟨hgot, rfl⟩
  | passed pc calm =>
    have exposed := lost.resolve_right fun ended => by simp [pc] at ended
    have hraised := exposed.raised
    rw [calm] at hraised
    cases hraised
  | delivered pc got => simp [pc] at hpc
  | finished pc => exact lost
  | arrive room => exact lost.imp_left fun exposed => ⟨hgot, exposed.raised, exposed.ahead⟩
  | raise => exact lost.imp_left fun exposed => ⟨hgot, rfl, exposed.ahead⟩

theorem RecvState.Exposed.run {log : List RecvEvent} (exposed : u.Exposed)
    (h : Run (RecvEvent.step call) u log v) :
    v.Exposed ∨ v.got ≠ none ∧ v.pc = .done (.error .EINTR) := by
  induction h with
  | nil => exact .inl exposed
  | snoc _ hstep ih => exact RecvState.exposed_step hstep ih

/-- A call that is not exposed returns `EINTR` with empty hands only. -/
theorem RecvState.interrupted_step (h : a.step call u v) (safe : ¬ u.Exposed)
    (empty : u.pc = .done (.error .EINTR) → u.got = none) :
    v.pc = .done (.error .EINTR) → v.got = none := by
  intro hv
  have hchange := RecvEvent.step_change h
  cases hchange with
  | refused pc other => rfl
  | accepted pc => rfl
  | enter pc empty => exact empty
  | leave pc => cases hv
  | nothing pc => rfl
  | taken pc front => cases hv
  -- with a packet it would have been exposed
  | interrupted pc raised =>
    by_contra held
    exact safe ⟨held, raised, .inr pc⟩
  | passed pc calm => cases hv
  | delivered pc got => cases hv
  | finished pc => exact empty hv
  | arrive room => exact empty hv
  | raise => exact empty hv

theorem RecvEvent.step_calm (h : a.step call u v) (ha : a ≠ .interrupt)
    (calm : u.shared.interrupted = false) : v.shared.interrupted = false := by
  have hchange := RecvEvent.step_change h
  cases hchange with
  | refused | accepted | enter | leave | nothing | taken | interrupted | passed | delivered
  | finished | arrive => exact calm
  | raise => exact absurd rfl ha

/-- Without `udpdk_interrupt` the call is never exposed. -/
theorem RecvCall.always_not_exposed {log : List RecvEvent} (calm : σ.interrupted = false)
    (hlog : ∀ a ∈ log, a ≠ .interrupt) :
    Run.Always (RecvEvent.step call) (fun u => ¬ u.Exposed) (RecvCall.start σ) log u := by
  rintro before after t rfl run -
  have hrun := run.invariant (fun log t => (∀ a ∈ log, a ≠ RecvEvent.interrupt) →
    t.shared.interrupted = false) (fun _ => calm) ?_
  · intro exposed
    have hcalm := hrun fun a ha => hlog a (List.mem_append_left _ ha)
    exact absurd exposed.raised (by simp [hcalm])
  · intro log u a v _ ih hstep hall
    exact RecvEvent.step_calm hstep (hall a (by simp)) (ih fun b hb => hall b (by simp [hb]))

end Step

/-! ## The steps and the call -/

section Steps

variable {call : RecvCall} {σ : Shared} {got : Option (Option Mbuf)} {pkt : Option Mbuf}
  {q : BoundedQueue (Option Mbuf)}

theorem step_loopTest_of_calm (calm : σ.interrupted = false) :
    RecvEvent.receiver.step call ⟨σ, .loopTest, none⟩ ⟨σ, .attempt, none⟩ := by
  change call.recvStep none .loopTest σ = _
  rw [RecvCall.recvStep, Prog.bind_of_ok (Prog.read_apply σ), if_pos ⟨rfl, calm⟩]
  rfl

theorem step_loopTest_of_raised (raised : σ.interrupted) :
    RecvEvent.receiver.step call ⟨σ, .loopTest, got⟩ ⟨σ, .afterTest, got⟩ := by
  change call.recvStep got .loopTest σ = _
  rw [RecvCall.recvStep, Prog.bind_of_ok (Prog.read_apply σ), if_neg (by simp [raised])]
  rfl

theorem step_loopTest_of_held :
    RecvEvent.receiver.step call ⟨σ, .loopTest, some pkt⟩ ⟨σ, .afterTest, some pkt⟩ := rfl

theorem step_attempt (front : (σ.rxQ call.sockfd.toNat).dequeue = some (pkt, q)) :
    RecvEvent.receiver.step call ⟨σ, .attempt, none⟩
      ⟨{ σ with rxQ := Function.update σ.rxQ call.sockfd.toNat q }, .loopTest, some pkt⟩ := by
  change call.recvStep none .attempt σ = _
  rw [RecvCall.recvStep, Prog.bind_of_ok (Prog.read_apply σ), front]
  rfl

theorem step_afterTest_of_raised (raised : σ.interrupted) :
    RecvEvent.receiver.step call ⟨σ, .afterTest, got⟩ ⟨σ, .done (.error .EINTR), got⟩ := by
  change call.recvStep got .afterTest σ = _
  rw [RecvCall.recvStep, Prog.bind_of_ok (Prog.read_apply σ), if_pos raised]
  rfl

theorem step_afterTest_of_calm (calm : σ.interrupted = false) :
    RecvEvent.receiver.step call ⟨σ, .afterTest, got⟩ ⟨σ, .deliver, got⟩ := by
  change call.recvStep got .afterTest σ = _
  rw [RecvCall.recvStep, Prog.bind_of_ok (Prog.read_apply σ), if_neg (by simp [calm])]
  rfl

/-- **The steps of a receive** with nothing in between are `udpdk_recvfrom`. -/
theorem run_of_recvfrom {σ' : Shared} {ret : Except Errno (Mbuf × Received)}
    (h : udpdkRecvfrom call.sockfd call.bufNull call.len call.flags call.srcAddr call.addrlen σ =
      .ok (ret, σ')) :
    ∃ n t, Run (RecvEvent.step call) (RecvCall.start σ) (List.replicate n .receiver) t ∧
      t.pc = .done ret ∧ t.shared = σ' := by
  obtain ⟨valid, τ, hvalid, hrest⟩ := Prog.bind_eq_ok_iff.mp h
  obtain ⟨rfl, -⟩ := recvfromValidateArgs_ne_eintr hvalid
  cases valid with
  | error e =>
    obtain ⟨rfl, rfl⟩ := Prod.mk.inj (Except.ok.inj hrest)
    have hrefuse : RecvEvent.receiver.step call (RecvCall.start τ) ⟨τ, .done (.error e), none⟩ :=
      Prog.bind_of_ok hvalid
    exact ⟨1, _, Run.single hrefuse, rfl, rfl⟩
  | ok valid =>
    have haccept : RecvEvent.receiver.step call (RecvCall.start τ) ⟨τ, .loopTest, none⟩ :=
      Prog.bind_of_ok hvalid
    dsimp only at hrest
    rw [Prog.bind_of_ok (Prog.read_apply τ)] at hrest
    by_cases hraised : τ.interrupted
    · rw [if_pos hraised] at hrest
      obtain ⟨rfl, rfl⟩ := Prod.mk.inj (Except.ok.inj hrest)
      exact ⟨3, _, .cons haccept (.cons (step_loopTest_of_raised hraised)
        (.single (step_afterTest_of_raised hraised))), rfl, rfl⟩
    · rw [if_neg hraised] at hrest
      have hcalm : τ.interrupted = false := Bool.eq_false_iff.mpr hraised
      cases hq : (τ.rxQ call.sockfd.toNat).dequeue with
      | none =>
        rw [hq] at hrest
        cases hrest
      | some r =>
        obtain ⟨pkt, q⟩ := r
        rw [hq] at hrest
        have hdeliver : RecvEvent.receiver.step call
            ⟨{ τ with rxQ := Function.update τ.rxQ call.sockfd.toNat q }, .deliver, some pkt⟩
            ⟨σ', .done ret, some pkt⟩ := by
          cases pkt with
          | none => cases hrest
          | some pkt =>
            dsimp only at hrest
            rw [Prog.bind_of_ok (Prog.update_apply _ τ)] at hrest
            change call.recvStep (some (some pkt)) .deliver _ = _
            dsimp only [RecvCall.recvStep, RecvCall.room]
            by_cases hnull : call.srcAddr ∧ call.addrlen.isNone
            · rw [if_pos hnull] at hrest
              cases hrest
            rw [if_neg hnull] at hrest ⊢
            by_cases hbuf : call.bufNull ∧ (readDatagram pkt call.len
                (if call.srcAddr then call.addrlen else none)).bytes ≠ []
            · rw [if_pos hbuf] at hrest
              cases hrest
            rw [if_neg hbuf] at hrest ⊢
            obtain ⟨rfl, rfl⟩ := Prod.mk.inj (Except.ok.inj hrest)
            rfl
        exact ⟨6, _, .cons haccept (.cons (step_loopTest_of_calm hcalm) (.cons (step_attempt hq)
          (.cons step_loopTest_of_held (.cons (step_afterTest_of_calm hcalm)
            (.single hdeliver))))), rfl, rfl⟩

end Steps

/-! ## What a receive loses -/

section Lossless

variable {call : RecvCall} {σ : Shared} {log : List RecvEvent} {t : RecvState}
  {ret : Except Errno (Mbuf × Received)}

/-- A receive that returned loses nothing just when it did not return `EINTR` with a packet in
its hands. -/
theorem RecvState.Ok.lossless_iff (ok : t.Ok call σ (arrivals log)) (done : t.pc = .done ret) :
    call.Lossless σ (arrivals log) ret t.shared ↔
      (t.pc = .done (.error .EINTR) → t.got = none) := by
  have hledger := ok.ledger
  constructor
  · intro lossless hpc
    obtain rfl : ret = .error .EINTR := by simpa using done.symm.trans hpc
    rw [lossless.interrupted rfl] at hledger
    simpa using hledger
  · intro empty
    refine ⟨fun hret => ?_, fun hgone => ?_⟩
    · rw [hledger, empty (by rw [done, hret])]
      rfl
    · cases ret with
      | error e =>
        have hgot : t.got = none := by
          by_cases he : e = .EINTR
          · exact empty (by rw [done, he])
          · exact ok.refused e done he
        rw [hgot] at hledger
        exact absurd hledger.symm hgone
      | ok r =>
        obtain ⟨m, received⟩ := r
        obtain ⟨hgot, rfl, hfreed⟩ := ok.returned m received done
        rw [hgot] at hledger
        exact ⟨m, hledger, rfl, hfreed⟩

/-- **An interrupted receive.** However packets and the interrupt come in between its steps,
a receive loses nothing just when the flag is never up while the call holds a packet and is
not past the test behind its loop. -/
theorem recvfrom_lossless_iff (run : Run (RecvEvent.step call) (RecvCall.start σ) log t)
    (done : t.pc = .done ret) : call.Lossless σ (arrivals log) ret t.shared ↔
      Run.Always (RecvEvent.step call) (fun u => ¬ u.Exposed) (RecvCall.start σ) log t := by
  have ok := RecvCall.ok_of_run run
  rw [ok.lossless_iff done]
  constructor
  · -- an exposed call cannot but end in `EINTR`, with the packet in its hands
    rintro empty before after u - - hrest exposed
    obtain exposed | ⟨held, ended⟩ := exposed.run hrest
    · obtain ahead | ahead := exposed.ahead
      · rw [done] at ahead
        cases ahead
      · rw [done] at ahead
        cases ahead
    · exact held (empty ended)
  · intro always
    refine always.invariant (fun u => u.pc = .done (.error .EINTR) → u.got = none) run
      (fun h => by cases h) ?_
    intro a u v safe empty hstep
    exact RecvState.interrupted_step hstep safe empty

def plainCall : RecvCall := ⟨0, false, 2, 0, false, none⟩

def sharedTaken (m : Mbuf) : Shared := { sharedHolding m with
  rxQ := Function.update (sharedHolding m).rxQ 0 ⟨exchRingSize - 1, [], Nat.zero_le _⟩ }

/-- Between the test of the loop and the attempt that succeeds the flag goes up: the packet is
not in the ring any more, and the call returns `EINTR`. -/
theorem not_recvfrom_lossless : ¬ ∀ (call : RecvCall) (σ : Shared) (log : List RecvEvent)
    (t : RecvState) (ret : Except Errno (Mbuf × Received)),
    Run (RecvEvent.step call) (RecvCall.start σ) log t → t.pc = .done ret →
      call.Lossless σ (arrivals log) ret t.shared := by
  intro h
  have haccept : RecvEvent.receiver.step plainCall (RecvCall.start (sharedHolding paddedBehind))
      ⟨sharedHolding paddedBehind, .loopTest, none⟩ := rfl
  have hraise : RecvEvent.interrupt.step plainCall ⟨sharedHolding paddedBehind, .attempt, none⟩
      ⟨{ sharedHolding paddedBehind with interrupted := true }, .attempt, none⟩ := ⟨rfl, rfl, rfl⟩
  have htake : RecvEvent.receiver.step plainCall
      ⟨{ sharedHolding paddedBehind with interrupted := true }, .attempt, none⟩
      ⟨{ sharedTaken paddedBehind with interrupted := true }, .loopTest,
        some (some paddedBehind)⟩ := step_attempt rfl
  have hlossless := h plainCall (sharedHolding paddedBehind) _ _ _
    (.cons haccept (.cons (step_loopTest_of_calm rfl) (.cons hraise (.cons htake
      (.cons step_loopTest_of_held (.single (step_afterTest_of_raised rfl))))))) rfl
  have hring : plainCall.ring { sharedTaken paddedBehind with interrupted := true } = [] := rfl
  have hkept := hlossless.interrupted rfl
  rw [hring] at hkept
  exact absurd hkept (List.cons_ne_nil _ _).symm

/-- Another packet arrives while the first one is received. -/
theorem recvfrom_lossless_of_calm : plainCall.Lossless (sharedHolding paddedBehind)
    [some paddedBehind] (.ok (paddedBehind, readDatagram paddedBehind 2 none))
    { sharedHolding paddedBehind with freed := [paddedBehind.addr] } := by
  have haccept : RecvEvent.receiver.step plainCall (RecvCall.start (sharedHolding paddedBehind))
      ⟨sharedHolding paddedBehind, .loopTest, none⟩ := rfl
  have htake : RecvEvent.receiver.step plainCall ⟨sharedHolding paddedBehind, .attempt, none⟩
      ⟨sharedTaken paddedBehind, .loopTest, some (some paddedBehind)⟩ := step_attempt rfl
  have harrive : (RecvEvent.arrive [some paddedBehind]).step plainCall
      ⟨sharedTaken paddedBehind, .loopTest, some (some paddedBehind)⟩
      ⟨sharedHolding paddedBehind, .loopTest, some (some paddedBehind)⟩ := by
    have hback : Function.update (sharedTaken paddedBehind).rxQ 0
        ((sharedHolding paddedBehind).rxQ 0) = (sharedHolding paddedBehind).rxQ := by
      rw [sharedTaken, Function.update_idem, Function.update_eq_self]
    refine ⟨(sharedHolding paddedBehind).rxQ 0, rfl, ?_⟩
    exact congrArg (fun rxQ => RecvState.mk { sharedHolding paddedBehind with rxQ := rxQ }
      .loopTest (some (some paddedBehind))) hback.symm
  have hdeliver : RecvEvent.receiver.step plainCall
      ⟨sharedHolding paddedBehind, .deliver, some (some paddedBehind)⟩
      ⟨{ sharedHolding paddedBehind with freed := [paddedBehind.addr] },
        .done (.ok (paddedBehind, readDatagram paddedBehind 2 none)),
        some (some paddedBehind)⟩ := rfl
  refine (recvfrom_lossless_iff (.cons haccept (.cons (step_loopTest_of_calm rfl)
    (.cons htake (.cons harrive (.cons step_loopTest_of_held
      (.cons (step_afterTest_of_calm rfl) (.single hdeliver))))))) rfl).mpr ?_
  exact RecvCall.always_not_exposed rfl (by simp)

end Lossless

end Udpdk
