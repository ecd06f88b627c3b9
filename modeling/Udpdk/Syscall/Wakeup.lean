import Udpdk.Syscall.Interrupt

/-!
# A receive that waits

`udpdk_recvfrom` polls the ring of its socket until a packet is there or it is interrupted. The
call is awake when it has a packet, when there is one in its ring, or when the flag is up. What is
shown here is that it returns after a few of its own steps once it is awake, whatever comes in
between, and that it does not return before.

## Main definitions

* `RecvState.Awake` — there is a reason to return
* `RecvState.stepsLeft` — how many steps of its own the call has still to make
* `RecvState.Readable` — the arguments and the packets can be read

## Main results

* `RecvState.stepsLeft_of_run` — the steps that a call makes while it is awake
* `receive_wakes` — when the call returns
-/

namespace Udpdk

open Foundation

/-- The step is one of the call. -/
def RecvEvent.own : RecvEvent → Bool
  | .receiver => true
  | _ => false

/-- The call has a packet, or there is one in its ring, or it is interrupted. -/
def RecvState.Awake (u : RecvState) (call : RecvCall) : Prop :=
  u.got ≠ none ∨ call.ring u.shared ≠ [] ∨ u.shared.interrupted

def RecvState.Done (u : RecvState) : Prop := ∃ ret, u.pc = .done ret

/-- How many steps are left to a call that is awake. -/
def RecvState.stepsLeft (u : RecvState) : ℕ :=
  match u.pc with
  | .validate => 6
  | .loopTest => if u.got.isNone ∧ u.shared.interrupted = false then 5 else 3
  | .attempt => 4
  | .afterTest => 2
  | .deliver => 1
  | .done _ => 0

/-- The descriptor is not negative, there are a buffer and a length for an address that is wanted,
and no null pointer was put into the ring. -/
structure RecvState.Readable (u : RecvState) (call : RecvCall) : Prop where
  sockfd : 0 ≤ call.sockfd
  buffer : call.bufNull = false
  address : call.srcAddr → call.addrlen.isSome
  packets : none ∉ u.got.toList ++ call.ring u.shared

/-- What holds at the places of the call. -/
structure RecvState.Placed (u : RecvState) (call : RecvCall) : Prop where
  early : u.pc = .validate ∨ u.pc = .attempt → u.got = none
  late : u.pc = .afterTest → u.got ≠ none ∨ u.shared.interrupted
  reading : u.pc = .deliver → u.got ≠ none
  returned : ∀ ret, u.pc = .done ret → u.Awake call ∨ ∃ e, e ≠ .EINTR ∧ ret = .error e

variable {call : RecvCall} {u v : RecvState} {a : RecvEvent} {σ : Shared} {log : List RecvEvent}

theorem RecvCall.placed_start (call : RecvCall) (σ : Shared) :
    (RecvCall.start σ).Placed call where
  early _ := rfl
  late h := by cases h
  reading h := by cases h
  returned _ h := by cases h

/-! ## The two tests -/

/-- Where the test of the loop leads. -/
theorem loopTest_step (h : RecvEvent.receiver.step call u v) (pc : u.pc = .loopTest) :
    v = { u with
      pc := if u.got.isNone ∧ u.shared.interrupted = false then .attempt else .afterTest } := by
  obtain ⟨τ, pc', got⟩ := u
  obtain ⟨τ', pc'', got'⟩ := v
  obtain rfl : pc' = .loopTest := pc
  change call.recvStep got .loopTest τ = .ok ((pc'', got'), τ') at h
  rw [RecvCall.recvStep, Prog.bind_of_ok (Prog.read_apply τ)] at h
  split at h
  · rename_i hstay
    obtain ⟨rfl, rfl, rfl⟩ := eq_of_returned h
    rw [if_pos hstay]
  · rename_i hleave
    obtain ⟨rfl, rfl, rfl⟩ := eq_of_returned h
    rw [if_neg hleave]

theorem attempt_step (h : RecvEvent.receiver.step call u v) (pc : u.pc = .attempt)
    (ring : call.ring u.shared ≠ []) : v.got ≠ none := by
  obtain ⟨τ, pc', got⟩ := u
  obtain ⟨τ', pc'', got'⟩ := v
  obtain rfl : pc' = .attempt := pc
  change call.recvStep got .attempt τ = .ok ((pc'', got'), τ') at h
  rw [RecvCall.recvStep, Prog.bind_of_ok (Prog.read_apply τ)] at h
  cases hq : (τ.rxQ call.sockfd.toNat).dequeue with
  | none => exact absurd (BoundedQueue.dequeue_eq_none_iff.mp hq) ring
  | some r =>
    rw [hq] at h
    obtain ⟨rfl, rfl, rfl⟩ := eq_of_returned h
    simp

/-! ## Staying awake -/

/-- A call that is awake stays so. -/
theorem RecvState.Awake.step (awake : u.Awake call) (placed : u.Placed call)
    (h : a.step call u v) : v.Awake call := by
  have hchange := RecvEvent.step_change h
  cases hchange with
  | refused pc other =>
    rw [Awake, placed.early (.inl pc)] at awake
    exact awake
  | accepted pc =>
    rw [Awake, placed.early (.inl pc)] at awake
    exact awake
  | nothing pc =>
    rw [Awake, placed.early (.inr pc)] at awake
    exact awake
  | taken pc front => exact .inl (by simp)
  | enter pc empty => exact awake
  | leave pc => exact awake
  | interrupted pc raised => exact awake
  | passed pc calm => exact awake
  | delivered pc got => exact awake
  | finished pc => exact awake
  | @arrive batch q room =>
    refine awake.imp_right (Or.imp_left fun hring hnil => hring ?_)
    obtain ⟨-, -, hitems⟩ := BoundedQueue.enqueueBulk_eq_some_iff.mp room
    rw [call.ring_update, hitems] at hnil
    exact (List.append_eq_nil_iff.mp hnil).1
  | raise => exact .inr (.inr rfl)

theorem RecvState.Placed.step (placed : u.Placed call) (h : a.step call u v) :
    v.Placed call := by
  have hchange := RecvEvent.step_change h
  have hawake : u.Awake call → v.Awake call := fun awake => awake.step placed h
  cases hchange with
  | refused pc other =>
    exact ⟨fun _ => rfl, fun h => (by cases h), fun h => (by cases h),
      fun ret hret => .inr ⟨_, other, by cases hret; rfl⟩⟩
  | accepted pc =>
    exact ⟨fun _ => rfl, fun h => (by cases h), fun h => (by cases h), fun _ h => (by cases h)⟩
  | enter pc empty =>
    exact ⟨fun _ => empty, fun h => (by cases h), fun h => (by cases h), fun _ h => (by cases h)⟩
  | leave pc =>
    refine ⟨fun h => (by simp at h), fun _ => ?_, fun h => (by cases h), fun _ h => (by cases h)⟩
    have hpc := congrArg RecvState.pc (loopTest_step h pc)
    by_contra hcalm
    rw [not_or, not_not, Bool.not_eq_true] at hcalm
    rw [if_pos ⟨Option.isNone_iff_eq_none.mpr hcalm.1, hcalm.2⟩] at hpc
    cases hpc
  | nothing pc =>
    exact ⟨fun _ => rfl, fun h => (by cases h), fun h => (by cases h), fun _ h => (by cases h)⟩
  | taken pc front =>
    exact ⟨fun h => (by simp at h), fun h => (by cases h), fun h => (by cases h),
      fun _ h => (by cases h)⟩
  | interrupted pc raised =>
    exact ⟨fun h => (by simp at h), fun h => (by cases h), fun h => (by cases h),
      fun _ _ => .inl (.inr (.inr raised))⟩
  | passed pc calm =>
    refine ⟨fun h => (by simp at h), fun h => (by cases h), fun _ => ?_, fun _ h => (by cases h)⟩
    exact (placed.late pc).resolve_right (by simp [calm])
  | delivered pc got =>
    exact ⟨fun h => (by simp at h), fun h => (by cases h), fun h => (by cases h),
      fun _ _ => .inl (.inl (by simp [got]))⟩
  | finished pc => exact placed
  | arrive room =>
    exact ⟨placed.early, placed.late, placed.reading,
      fun ret hret => (placed.returned ret hret).imp_left hawake⟩
  | raise =>
    exact ⟨placed.early, fun _ => .inr rfl, placed.reading, fun _ _ => .inl (.inr (.inr rfl))⟩

theorem RecvCall.placed_of_run (run : Run (RecvEvent.step call) (RecvCall.start σ) log u) :
    u.Placed call := by
  refine run.invariant (fun _ u => u.Placed call) (call.placed_start σ) ?_
  intro log u a v _ placed hstep
  exact placed.step hstep

/-! ## How long it takes -/

/-- A step of its own brings a call that is awake nearer to its end; no other step takes it
further away. -/
theorem RecvState.stepsLeft_step (awake : u.Awake call) (placed : u.Placed call)
    (h : a.step call u v) : v.Done ∨ (if a.own then 1 else 0) + v.stepsLeft ≤ u.stepsLeft := by
  have hchange := RecvEvent.step_change h
  cases hchange with
  | refused pc other => exact .inl ⟨_, rfl⟩
  | accepted pc =>
    right
    simp only [stepsLeft, pc, RecvEvent.own, if_true]
    split
    · decide
    · decide
  | enter pc empty =>
    right
    have hpc := congrArg RecvState.pc (loopTest_step h pc)
    by_cases hcalm : u.got.isNone ∧ u.shared.interrupted = false
    · simp [stepsLeft, pc, RecvEvent.own, hcalm]
    · rw [if_neg hcalm] at hpc
      cases hpc
  | leave pc =>
    right
    simp only [stepsLeft, pc, RecvEvent.own, if_true]
    split
    · decide
    · decide
  | nothing pc =>
    -- the ring is empty, so that the call is interrupted
    right
    have hring : call.ring u.shared = [] := by
      by_contra hring
      exact attempt_step h pc hring rfl
    have hraised : u.shared.interrupted := by
      rw [Awake, placed.early (.inr pc), hring] at awake
      simpa using awake
    simp [stepsLeft, pc, RecvEvent.own, hraised]
  | taken pc front =>
    right
    simp [stepsLeft, pc, RecvEvent.own]
  | interrupted pc raised => exact .inl ⟨_, rfl⟩
  | passed pc calm =>
    right
    simp [stepsLeft, pc, RecvEvent.own]
  | delivered pc got => exact .inl ⟨_, rfl⟩
  | finished pc => exact .inl ⟨_, pc⟩
  | arrive room =>
    right
    simp [RecvEvent.own, stepsLeft]
  | raise =>
    right
    cases hpc : u.pc with
    | loopTest =>
      simp only [stepsLeft, hpc, RecvEvent.own, Bool.false_eq_true, if_false, Bool.true_eq_false,
        and_false]
      split
      · decide
      · decide
    | validate | attempt | afterTest | deliver => simp [stepsLeft, hpc, RecvEvent.own]
    | done ret => simp [stepsLeft, hpc, RecvEvent.own]

theorem RecvState.stepsLeft_le (u : RecvState) : u.stepsLeft ≤ 6 := by
  unfold stepsLeft
  split
  · decide
  · split
    · decide
    · decide
  · decide
  · decide
  · decide
  · decide

theorem RecvState.done_of_stepsLeft (h : u.stepsLeft = 0) : u.Done := by
  unfold stepsLeft at h
  split at h
  · cases h
  · split at h
    · cases h
    · cases h
  · cases h
  · cases h
  · cases h
  · exact ⟨_, ‹_›⟩

theorem RecvState.Done.step (done : u.Done) (h : a.step call u v) : v.Done := by
  obtain ⟨ret, hret⟩ := done
  have hchange := RecvEvent.step_change h
  cases hchange with
  | finished pc => exact ⟨_, pc⟩
  | arrive room => exact ⟨ret, hret⟩
  | raise => exact ⟨ret, hret⟩
  | refused pc | accepted pc | enter pc | leave pc | nothing pc | taken pc | interrupted pc
  | passed pc | delivered pc =>
    rw [hret] at pc
    cases pc

/-- **While a call is awake** its steps are counted, whatever comes in between. -/
theorem RecvState.stepsLeft_of_run (awake : u.Awake call) (placed : u.Placed call)
    (run : Run (RecvEvent.step call) u log v) :
    v.Done ∨ log.countP RecvEvent.own + v.stepsLeft ≤ u.stepsLeft := by
  have h : v.Awake call ∧ v.Placed call ∧
      (v.Done ∨ log.countP RecvEvent.own + v.stepsLeft ≤ u.stepsLeft) := by
    refine run.invariant (fun log v => v.Awake call ∧ v.Placed call ∧
      (v.Done ∨ log.countP RecvEvent.own + v.stepsLeft ≤ u.stepsLeft))
      ⟨awake, placed, .inr (by simp)⟩ ?_
    rintro log t a v - ⟨awake, placed, ih⟩ hstep
    refine ⟨awake.step placed hstep, placed.step hstep, ?_⟩
    obtain done | ih := ih
    · exact .inl (done.step hstep)
    · refine (stepsLeft_step awake placed hstep).imp_right fun hless => ?_
      rw [List.countP_append, List.countP_singleton]
      omega
  exact h.2.2

/-! ## The next step -/

/-- The call can always go on if its arguments and the packets can be read. -/
theorem RecvState.Readable.exists_step (readable : u.Readable call) (placed : u.Placed call) :
    ∃ v, RecvEvent.receiver.step call u v := by
  obtain ⟨σ, pc, got⟩ := u
  have exists_of_ok : ∀ r, call.recvStep got pc σ = .ok r →
      ∃ v, RecvEvent.receiver.step call ⟨σ, pc, got⟩ v := by
    rintro ⟨⟨pc', got'⟩, σ'⟩ hr
    exact ⟨⟨σ', pc', got'⟩, hr⟩
  cases pc with
  | validate =>
    have spec : Prog.wp (fun _ => False) (recvfromValidateArgs call.sockfd call.flags call.bufNull
        call.addrlen.isNone) _ σ := recvfromValidateArgs_spec call.sockfd call.flags call.bufNull
          call.addrlen.isNone fun hneg => absurd readable.sockfd (Int.not_le.mpr hneg)
    obtain ⟨ret, σ', hret, -⟩ := Prog.exists_ok_of_wp spec
    cases ret with
    | error e => exact exists_of_ok _ (Prog.bind_of_ok hret)
    | ok valid => exact exists_of_ok _ (Prog.bind_of_ok hret)
  | loopTest =>
    cases got with
    | some pkt => exact ⟨_, step_loopTest_of_held⟩
    | none =>
      by_cases hraised : σ.interrupted
      · exact ⟨_, step_loopTest_of_raised hraised⟩
      · exact ⟨_, step_loopTest_of_calm (Bool.eq_false_iff.mpr hraised)⟩
  | attempt =>
    obtain rfl : got = none := placed.early (.inr rfl)
    cases hq : (σ.rxQ call.sockfd.toNat).dequeue with
    | none =>
      apply exists_of_ok ((.loopTest, none), σ)
      rw [RecvCall.recvStep, Prog.bind_of_ok (Prog.read_apply σ), hq]
      rfl
    | some r => exact ⟨_, step_attempt hq⟩
  | afterTest =>
    by_cases hraised : σ.interrupted
    · exact ⟨_, step_afterTest_of_raised hraised⟩
    · exact ⟨_, step_afterTest_of_calm (Bool.eq_false_iff.mpr hraised)⟩
  | deliver =>
    cases got with
    | none => exact absurd rfl (placed.reading rfl)
    | some pkt =>
      cases pkt with
      | none => exact absurd (List.mem_cons_self ..) readable.packets
      | some pkt =>
        have hnull : ¬ (call.srcAddr ∧ call.addrlen.isNone) := by
          rintro ⟨hsrc, hnone⟩
          have hsome := readable.address hsrc
          rw [Option.isNone_iff_eq_none.mp hnone] at hsome
          cases hsome
        have hbuf : ¬ (call.bufNull ∧ (readDatagram pkt call.len call.room).bytes ≠ []) := by
          simp [readable.buffer]
        apply exists_of_ok ((.done (.ok (pkt, readDatagram pkt call.len call.room)),
          some (some pkt)), { σ with freed := σ.freed ++ [pkt.addr] })
        dsimp only [RecvCall.recvStep]
        rw [if_neg hnull, if_neg hbuf]
        rfl
  | done ret => exact exists_of_ok ((.done ret, got), σ) rfl

/-! ## When the call returns -/

/-- **A blocking receive wakes up.** In every state that a call reaches, however packets and the
interrupt came in between its steps: it has returned only if it was awake or its arguments were
refused; if it is awake, it has returned after six more of its own steps, whatever else happens
meanwhile; and it can always make its next step, if its arguments and the packets can be read. -/
theorem receive_wakes (run : Run (RecvEvent.step call) (RecvCall.start σ) log u) :
    (∀ ret, u.pc = .done ret → u.Awake call ∨ ∃ e, e ≠ .EINTR ∧ ret = .error e) ∧
    (u.Awake call → ∀ log' v, Run (RecvEvent.step call) u log' v →
      6 ≤ log'.countP RecvEvent.own → v.Done) ∧
    (u.Readable call → ∃ v, RecvEvent.receiver.step call u v) := by
  have placed := RecvCall.placed_of_run run
  refine ⟨placed.returned, fun awake log' v rest hown => ?_, fun readable =>
    readable.exists_step placed⟩
  obtain done | hless := RecvState.stepsLeft_of_run awake placed rest
  · exact done
  · have hstart : u.stepsLeft ≤ 6 := u.stepsLeft_le
    exact RecvState.done_of_stepsLeft (by omega)

/-- With a packet in its ring a plain receive can begin, and it has returned after six steps. -/
theorem receive_wakes_of_held :
    (∃ v, RecvEvent.receiver.step plainCall (RecvCall.start (sharedHolding paddedBehind)) v) ∧
    RecvState.Done ⟨{ sharedTaken paddedBehind with freed := [paddedBehind.addr] },
      .done (.ok (paddedBehind, readDatagram paddedBehind 2 none)), some (some paddedBehind)⟩ := by
  have start : Run (RecvEvent.step plainCall) (RecvCall.start (sharedHolding paddedBehind)) []
      (RecvCall.start (sharedHolding paddedBehind)) := .nil
  have wakes := receive_wakes start
  have haccept : RecvEvent.receiver.step plainCall (RecvCall.start (sharedHolding paddedBehind))
      ⟨sharedHolding paddedBehind, .loopTest, none⟩ := rfl
  have htake : RecvEvent.receiver.step plainCall ⟨sharedHolding paddedBehind, .attempt, none⟩
      ⟨sharedTaken paddedBehind, .loopTest, some (some paddedBehind)⟩ := step_attempt rfl
  have hdeliver : RecvEvent.receiver.step plainCall
      ⟨sharedTaken paddedBehind, .deliver, some (some paddedBehind)⟩
      ⟨{ sharedTaken paddedBehind with freed := [paddedBehind.addr] },
        .done (.ok (paddedBehind, readDatagram paddedBehind 2 none)),
        some (some paddedBehind)⟩ := rfl
  have hring : plainCall.ring (sharedHolding paddedBehind) = [some paddedBehind] := rfl
  constructor
  · apply wakes.2.2
    exact ⟨by decide, rfl, fun h => (by cases h), by simp [RecvCall.start, hring]⟩
  · refine wakes.2.1 (.inr (.inl (by simp [RecvCall.start, hring]))) _ _
      (.cons haccept (.cons (step_loopTest_of_calm rfl) (.cons htake (.cons step_loopTest_of_held
        (.cons (step_afterTest_of_calm rfl) (.single hdeliver)))))) (by decide)

end Udpdk
