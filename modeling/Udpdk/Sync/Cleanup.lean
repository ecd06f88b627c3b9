import Udpdk.Poller.DeathRow
import Udpdk.Poller.Progress
import Udpdk.Syscall.Shutdown

/-!
# The end of the two processes

`udpdk_cleanup` sends a signal to the poller and waits for its process to end. Only then it closes
the sockets and releases what the bind table was built from. The poller looks at `poller_alive`
once in an iteration of its loop, and not while it scans a list or fills a table.

A signal may reach the poller at any time: `kill` is not the only one to send it. `waitpid` may
fail, with the poller still alive. That is logged, and the cleanup goes on.

## Main definitions

* `udpdkDestroyAllocator`, `udpdkCleanup` — the functions of the source
* `Processes` — the system with the loop of the poller and the place of the application
* `ProcEvent.step` — one step of either process, or a signal

## Main results

* `Processes.Inv.step` — what every step keeps
* `cleanup_sound` — nobody reads what is being closed, and nothing is left in use
* `not_cleanup_sound` — unless `waitpid` fails
* `cleanup_terminates` — once the signal has arrived, the cleanup comes to its end
-/

namespace Udpdk

open Foundation

/-! ## The functions of the source -/

/-- `udpdk_destroy_allocator`: whether it warns that some element was not freed. -/
def udpdkDestroyAllocator (mz : Memzone) : Bool := mz.all.nFree != mz.all.size

/-- `btable_destroy`, with the number of its warnings. -/
def btableDestroy (m : Mem) : ℕ := (udpdkDestroyAllocator m.bindInfoAlloc.mz).toNat

/-- `udpdk_list_deinit`, with the number of its warnings. -/
def udpdkListDeinit (m : Mem) : ℕ :=
  (udpdkDestroyAllocator m.listAlloc.mz).toNat + (udpdkDestroyAllocator m.nodeAlloc.mz).toNat +
    (udpdkDestroyAllocator m.iteratorAlloc.mz).toNat

/-- Where the process of the poller is. -/
inductive PollerLife
  /-- at the test of `while (poller_alive)` -/
  | testing
  /-- in an iteration of the loop -/
  | looping
  /-- behind `exit(0)` -/
  | exited
  deriving DecidableEq, Repr

/-- Where the application is. -/
inductive CleanupPc
  /-- it makes calls -/
  | running
  /-- in `udpdk_cleanup`, behind `kill` -/
  | waitpid
  /-- at slot `s` of the loop of `udpdk_close_all_sockets` -/
  | closeSockets (s : ℕ)
  | destroyUdpBindTable
  | listDeinit
  | returned
  deriving DecidableEq, Repr

/-- The two processes. -/
structure Processes where
  system : System
  pollerAlive : Bool
  poller : PollerLife
  app : CleanupPc
  /-- the warnings of `udpdk_destroy_allocator` so far -/
  warnings : ℕ

/-- Both processes are initialised. -/
def processesInit (zones : AllocatorZones) : Processes where
  system := systemInit zones
  pollerAlive := true
  poller := .testing
  app := .running
  warnings := 0

/-- One step of `udpdk_cleanup`; `none` when it has none to make. `waitpid` returns once the process
has ended, or with a `pid` below zero. The ports are stopped on the way from there to the sockets,
and the memzones are freed behind what is in them, which changes nothing that is modelled. -/
def udpdkCleanup (waitpidFails : Bool) (P : Processes) : Option Processes :=
  match P.app with
  | .running => some { P with app := .waitpid }
  | .waitpid =>
    if waitpidFails ∨ P.poller = .exited then some { P with app := .closeSockets 0 } else none
  | .closeSockets s =>
    if s < numSocketsMax then
      match closeIfBound s P.system.shared with
      | .ok (_, σ) =>
        some { P with system := { P.system with shared := σ }, app := .closeSockets (s + 1) }
      | .error _ => none
    else some { P with app := .destroyUdpBindTable }
  | .destroyUdpBindTable =>
    some { P with
      warnings := P.warnings + btableDestroy P.system.shared.mem
      app := .listDeinit }
  | .listDeinit =>
    some { P with
      warnings := P.warnings + udpdkListDeinit P.system.shared.mem
      app := .returned }
  | .returned => none

/-- What may happen. -/
inductive ProcEvent
  /-- a call of the application -/
  | api (e : ApiEvent)
  /-- a step of `udpdk_cleanup`, and whether its `waitpid` fails -/
  | cleanup (waitpidFails : Bool)
  /-- SIGINT or SIGTERM reaches the poller: `poller_sighandler` -/
  | signal
  /-- the test of `poller_alive` -/
  | test
  /-- a step of the poller inside of an iteration -/
  | poll (choices : DpdkChoices) (happened : PollerEvent)

/-- The memory of the bind table or of its lists has been freed. -/
def CleanupPc.released : CleanupPc → Bool
  | .listDeinit | .returned => true
  | _ => false

/-- The event takes the processes from `P` to `Q`. A poller that is left does not go on behind the
release of what it reads. -/
def ProcEvent.step (dpdk : Dpdk) (config : Configuration) :
    ProcEvent → Processes → Processes → Prop
  | .api e, P, Q => P.app = .running ∧ ∃ S,
    (SystemEvent.api e).step dpdk config P.system S ∧ Q = { P with system := S }
  | .cleanup waitpidFails, P, Q => udpdkCleanup waitpidFails P = some Q
  | .signal, P, Q => Q = { P with pollerAlive := false }
  | .test, P, Q => P.poller = .testing ∧
    Q = { P with poller := if P.pollerAlive then .looping else .exited }
  | .poll choices happened, P, Q => P.poller = .looping ∧ P.app.released = false ∧ ∃ S,
    (SystemEvent.poller choices happened).step dpdk config P.system S ∧
      Q = { P with system := S, poller := if happened.endsIteration then .testing else .looping }

/-! ## What every step keeps -/

/-- The application is past `waitpid`. -/
def CleanupPc.waited : CleanupPc → Bool
  | .running | .waitpid => false
  | _ => true

/-- The slots below this one have been visited by `udpdk_close_all_sockets`. -/
def CleanupPc.visited : CleanupPc → ℕ
  | .running | .waitpid => 0
  | .closeSockets s => min s numSocketsMax
  | _ => numSocketsMax

/-- The processes are in order. -/
structure Processes.Inv (P : Processes) : Prop where
  ok : P.system.shared.Ok
  tx : P.system.TxOk
  row : P.system.pc.transmitting → P.system.deathRow = []
  idle : P.poller ≠ .looping → P.system.pc = .txSlot 0 ∧ P.system.staged = []
  waited : P.app.waited → P.poller = .exited
  closed : ∀ s < P.app.visited, (P.system.shared.desc.slots s).bound = false
  warnings : P.warnings = 0

section Poller

variable {dpdk : Dpdk} {config : Configuration} {choices : DpdkChoices} {S S' : System}
  {happened : PollerEvent}

theorem row_of_pollerStep (ok : S.shared.mem.Ok) (row : S.pc.transmitting → S.deathRow = [])
    (h : pollerStep dpdk choices S = .ok (happened, S')) (transmitting : S'.pc.transmitting) :
    S'.deathRow = [] := by
  have hrow := deathRow_pollerStep h
  cases move_of_pollerStep ok h with
  | skip _ pc | enter _ pc | take pc | leave pc | next pc | receive _ pc =>
    rw [pc] at hrow row
    exact hrow.trans (row rfl)
  | packet _ pc' | received _ pc' | visit _ _ pc' =>
    rw [pc'] at transmitting
    cases transmitting
  | done hi pc =>
    rw [pc] at hrow
    exact hrow.trans (if_neg hi)

/-- At the end of an iteration the poller is at the start of its loop, with an empty table. -/
theorem idle_of_endsIteration (ok : S.shared.mem.Ok) (tx : S.TxOk) (adm : choices.Admissible S)
    (h : pollerStep dpdk choices S = .ok (happened, S')) (ends : happened.endsIteration) :
    S'.pc = .txSlot 0 ∧ S'.staged = [] := by
  have htable := (Prog.wp_of_ok (pollerStep_tx ok tx adm) h).1.table
  have hcount := tx.count
  cases move_of_pollerStep ok h with
  | @receive i hi pc pc' =>
    have hburst : choices.burst = [] := by
      cases hlist : choices.burst with
      | nil => rfl
      | cons m pending =>
        rw [hlist] at ends
        cases ends
    refine ⟨by rw [pc', hburst]; rfl, ?_⟩
    have haction : txAction S (.poller choices (.rxBurst choices.burst)) =
        flushAction S choices 1 := by
      simp [txAction, pc, hi]
    rw [haction, flushAction] at htable
    split at htable
    · simp only [TxAction.staged, TxAction.offered, List.map_nil, List.append_nil,
        tx.table] at htable
      exact (List.self_eq_append_right.mp htable)
    · rename_i hzero
      simp only [TxAction.staged, TxAction.offered, List.map_nil, List.append_nil,
        List.nil_append] at htable
      rw [← htable, ← List.length_eq_zero_iff, length_staged]
      omega
  | @done i hi pc pc' =>
    refine ⟨pc', ?_⟩
    rw [pc] at hcount
    have haction : txAction S (.poller choices .rxDone) = .idle := by simp [txAction, pc]
    rw [haction] at htable
    simp only [TxAction.staged, TxAction.offered, List.map_nil, List.append_nil,
      List.nil_append] at htable
    rw [← htable, ← List.length_eq_zero_iff, length_staged]
    exact Nat.le_zero.mp hcount
  | _ => cases ends

end Poller

section Step

variable {dpdk : Dpdk} {config : Configuration} {zones : AllocatorZones} {P Q : Processes}
  {a : ProcEvent} {log : List ProcEvent}

theorem inv_processesInit (zones : AllocatorZones) : (processesInit zones).Inv where
  ok := ok_sharedInit zones
  tx := by
    have run : Run (SystemEvent.step Dpdk.reference .zero) (systemInit zones) []
      (systemInit zones) := .nil
    exact (ok_of_run run).2
  row _ := rfl
  idle _ := ⟨rfl, rfl⟩
  waited h := by cases h
  closed _ h := absurd h (Nat.not_lt_zero _)
  warnings := rfl

/-- Before `waitpid` has returned no slot has been visited. -/
theorem CleanupPc.visited_of_not_waited {pc : CleanupPc} (h : ¬ pc.waited) : pc.visited = 0 := by
  cases pc with
  | running | waitpid => rfl
  | _ => exact absurd rfl h

/-- A socket is closed, and the slots before it stay closed. -/
theorem Processes.Inv.closeSocket (inv : P.Inv) {s : ℕ} (hpc : P.app = .closeSockets s)
    (hs : s < numSocketsMax) {σ : Shared} {u : Unit}
    (h : closeIfBound s P.system.shared = .ok (u, σ)) :
    ({ P with system := { P.system with shared := σ }, app := .closeSockets (s + 1) } :
      Processes).Inv := by
  have spec : Prog.wp (fun _ => True) (closeIfBound s)
      (fun _ σ' => P.system.shared.ClosedBound [s] σ') P.system.shared :=
    closeIfBound_spec inv.ok hs
  have hclosed := Prog.wp_of_ok spec h
  have hvisited := inv.closed
  rw [hpc] at hvisited
  refine ⟨hclosed.ok, ⟨inv.tx.count, inv.tx.place, inv.tx.table⟩, inv.row, inv.idle,
    fun _ => inv.waited (by rw [hpc]; rfl), fun t ht => ?_, inv.warnings⟩
  have ht' : t < s + 1 := ht.trans_le (min_le_left _ _)
  dsimp only
  cases hbound : (P.system.shared.desc.slots t).bound with
  | false => rw [hclosed.kept t fun _ => hbound, hbound]
  | true =>
    -- a slot that is still bound has not been visited before
    have hts : t = s := by
      by_contra hne
      have hold := hvisited t (lt_min (by omega) (by omega))
      rw [hbound] at hold
      cases hold
    exact (hclosed.closed t (hts ▸ List.mem_singleton_self s) hbound).1

/-- Once every slot has been visited no pool is in use, and no allocator warns. -/
theorem Processes.Inv.unused (inv : P.Inv) (h : P.app.visited = numSocketsMax) :
    btableDestroy P.system.shared.mem = 0 ∧ udpdkListDeinit P.system.shared.mem = 0 := by
  obtain ⟨-, hbind, hlist, hnode, hit⟩ := inv.ok.table_unused (h ▸ inv.closed)
  have hquiet : ∀ {mz : Memzone}, mz.Unused → udpdkDestroyAllocator mz = false := fun hmz =>
    bne_eq_false_iff_eq.mpr hmz
  constructor
  · rw [btableDestroy, hquiet hbind, Bool.toNat_false]
  · rw [udpdkListDeinit, hquiet hlist, hquiet hnode, hquiet hit, Bool.toNat_false]

/-- The cleanup closes one slot after the other, and finds every pool unused. -/
theorem Processes.Inv.cleanup (inv : P.Inv) (h : udpdkCleanup false P = some Q) : Q.Inv := by
  have htx := inv.tx
  unfold udpdkCleanup at h
  cases hpc : P.app with
  | running =>
    rw [hpc] at h
    obtain rfl := Option.some.inj h
    exact ⟨inv.ok, htx, inv.row, inv.idle, nofun, fun _ hs => absurd hs (Nat.not_lt_zero _),
      inv.warnings⟩
  | waitpid =>
    rw [hpc] at h
    dsimp only at h
    split at h
    · rename_i hexited
      obtain rfl := Option.some.inj h
      exact ⟨inv.ok, htx, inv.row, inv.idle, fun _ => hexited.resolve_left Bool.false_ne_true,
        fun _ hs => absurd hs (Nat.not_lt_zero _), inv.warnings⟩
    · cases h
  | closeSockets s =>
    rw [hpc] at h
    dsimp only at h
    split at h
    · rename_i hs
      cases hret : closeIfBound s P.system.shared with
      | error e => rw [hret] at h; cases h
      | ok r =>
        rw [hret] at h
        obtain rfl := Option.some.inj h
        exact inv.closeSocket hpc hs hret
    · rename_i hs
      obtain rfl := Option.some.inj h
      have hall : P.app.visited = numSocketsMax := by
        rw [hpc]
        exact min_eq_right (not_lt.mp hs)
      exact ⟨inv.ok, htx, inv.row, inv.idle, fun _ => inv.waited (by rw [hpc]; rfl),
        fun t ht => inv.closed t (hall ▸ ht), inv.warnings⟩
  | destroyUdpBindTable =>
    rw [hpc] at h
    obtain rfl := Option.some.inj h
    have hall : P.app.visited = numSocketsMax := by rw [hpc]; rfl
    refine ⟨inv.ok, htx, inv.row, inv.idle, fun _ => inv.waited (by rw [hpc]; rfl),
      fun t ht => inv.closed t (hall ▸ ht), ?_⟩
    dsimp only
    rw [inv.warnings, (inv.unused hall).1]
  | listDeinit =>
    rw [hpc] at h
    obtain rfl := Option.some.inj h
    have hall : P.app.visited = numSocketsMax := by rw [hpc]; rfl
    refine ⟨inv.ok, htx, inv.row, inv.idle, fun _ => inv.waited (by rw [hpc]; rfl),
      fun t ht => inv.closed t (hall ▸ ht), ?_⟩
    dsimp only
    rw [inv.warnings, (inv.unused hall).2]
  | returned =>
    rw [hpc] at h
    cases h

/-- **Every step keeps the processes in order**, unless `waitpid` fails. -/
theorem Processes.Inv.step (inv : P.Inv) (h : a.step dpdk config P Q) (waits : a ≠ .cleanup true) :
    Q.Inv := by
  cases a with
  | api e =>
    obtain ⟨hrunning, S, hstep, rfl⟩ := h
    obtain ⟨σ, -, hS⟩ := id hstep
    refine ⟨inv.ok.systemStep hstep, inv.tx.step inv.ok hstep, ?_, ?_, inv.waited, ?_, inv.warnings⟩
    · rw [hS]
      exact inv.row
    · rw [hS]
      exact inv.idle
    · dsimp only
      rw [hrunning]
      exact fun _ hs => absurd hs (Nat.not_lt_zero _)
  | cleanup waitpidFails =>
    cases waitpidFails with
    | true => exact absurd rfl waits
    | false => exact inv.cleanup h
  | signal =>
    obtain rfl := h
    exact ⟨inv.ok, inv.tx, inv.row, inv.idle, inv.waited, inv.closed, inv.warnings⟩
  | test =>
    obtain ⟨htesting, rfl⟩ := h
    refine ⟨inv.ok, inv.tx, inv.row, fun _ => inv.idle ?_, fun hwaited => ?_, inv.closed,
      inv.warnings⟩
    · rw [htesting]
      nofun
    · -- the poller has not ended yet, so nobody has waited for it
      have hexited := inv.waited hwaited
      rw [htesting] at hexited
      cases hexited
  | poll choices happened =>
    obtain ⟨hlooping, -, S, hstep, rfl⟩ := h
    have hwaiting : ¬ P.app.waited := fun hwaited => by
      have hexited := inv.waited hwaited
      rw [hlooping] at hexited
      cases hexited
    refine ⟨inv.ok.systemStep hstep, inv.tx.step inv.ok hstep,
      row_of_pollerStep inv.ok.mem inv.row hstep.2, fun hne => ?_, fun h => absurd h hwaiting, ?_,
      inv.warnings⟩
    · refine idle_of_endsIteration inv.ok.mem inv.tx hstep.1 hstep.2 ?_
      by_contra hends
      exact hne (if_neg hends)
    · dsimp only
      rw [CleanupPc.visited_of_not_waited hwaiting]
      exact fun _ hs => absurd hs (Nat.not_lt_zero _)

/-! ## Safety -/

/-- What the two processes may rely on in the end. -/
structure Processes.Sound (P : Processes) : Prop where
  /-- While the application closes and releases, the poller is not there any more. -/
  exclusive : P.app.waited → P.poller = .exited
  /-- What the poller took out of the rings it has sent, and it has freed what it received. -/
  drained : P.poller = .exited → P.system.staged = [] ∧ P.system.deathRow = []
  /-- No allocator was destroyed with an element in use. -/
  quiet : P.warnings = 0
  /-- No slot is bound, and the bind table is empty. -/
  released : P.app = .returned →
    (∀ s < numSocketsMax, (P.system.shared.desc.slots s).bound = false) ∧
      ∀ p, P.system.shared.mem.sockBindTable p = none

theorem Processes.Inv.sound (inv : P.Inv) : P.Sound where
  exclusive := inv.waited
  drained hexited := by
    obtain ⟨hpc, hstaged⟩ := inv.idle (by rw [hexited]; nofun)
    exact ⟨hstaged, inv.row (by rw [hpc]; rfl)⟩
  quiet := inv.warnings
  released hreturned := by
    have hclosed : ∀ s < numSocketsMax, (P.system.shared.desc.slots s).bound = false := by
      have h := inv.closed
      rw [hreturned] at h
      exact h
    exact ⟨hclosed, (inv.ok.table_unused hclosed).1⟩

theorem run_of_waits (run : Run (ProcEvent.step dpdk config) P log Q)
    (waits : .cleanup true ∉ log) :
    Run (fun a P Q => ProcEvent.step dpdk config a P Q ∧ a ≠ .cleanup true) P log Q := by
  apply run.guard
  rintro a ha - rfl
  exact waits ha

theorem inv_of_run (run : Run (ProcEvent.step dpdk config) (processesInit zones) log P)
    (waits : .cleanup true ∉ log) : P.Inv :=
  (run_of_waits run waits).state_invariant (inv_processesInit zones)
    fun _ _ _ inv h => inv.step h.1 h.2

/-- **A sound end.** However the calls of the application, the steps of the cleanup, the steps of
the poller and the signals to it interleave, the two processes get in nobody's way, and nothing
is released while it is in use, as long as `waitpid` does not fail. -/
theorem cleanup_sound (run : Run (ProcEvent.step dpdk config) (processesInit zones) log P)
    (waits : .cleanup true ∉ log) : P.Sound :=
  (inv_of_run run waits).sound

/-- A `waitpid` that fails leaves the poller in its loop while the sockets are closed. -/
theorem not_cleanup_sound : ¬ ∀ (dpdk : Dpdk) (config : Configuration) (zones : AllocatorZones)
    (log : List ProcEvent) (P : Processes),
    Run (ProcEvent.step dpdk config) (processesInit zones) log P → P.Sound := by
  intro h
  have hcall : (ProcEvent.cleanup false).step Dpdk.reference Configuration.zero
      (processesInit ⟨0, 0, 0, 0⟩) { processesInit ⟨0, 0, 0, 0⟩ with app := .waitpid } := rfl
  have hfail : (ProcEvent.cleanup true).step Dpdk.reference Configuration.zero
      { processesInit ⟨0, 0, 0, 0⟩ with app := .waitpid }
      { processesInit ⟨0, 0, 0, 0⟩ with app := .closeSockets 0 } := rfl
  have hexited : PollerLife.testing = .exited :=
    (h _ _ _ _ _ ((Run.single hcall).snoc hfail)).exclusive rfl
  cases hexited

/-! ## Termination -/

/-- A signal, which anybody may send at any time. -/
def ProcEvent.isSignal : ProcEvent → Bool
  | .signal => true
  | _ => false

/-- The event is one of those in which DPDK decides as `choices` says. -/
def ProcEvent.Allows (choices : DpdkChoices) : ProcEvent → Prop
  | .poll choices' _ => choices' = choices
  | _ => True

/-- The steps of `udpdk_cleanup` that are left. -/
def CleanupPc.stepsLeft : CleanupPc → ℕ
  | .running => numSocketsMax + 5
  | .waitpid => numSocketsMax + 4
  | .closeSockets s => numSocketsMax - s + 3
  | .destroyUdpBindTable => 2
  | .listDeinit => 1
  | .returned => 0

/-- The steps that are left once the signal has arrived. -/
def Processes.stepsLeft (P : Processes) : ℕ :=
  P.app.stepsLeft +
    match P.poller with
    | .exited => 0
    | .testing => 1
    | .looping => P.system.stepsLeft + 1

/-- The application is in `udpdk_cleanup`, and the signal has arrived. -/
structure Processes.Stopping (P : Processes) : Prop where
  inv : P.Inv
  called : P.app ≠ .running
  signalled : P.pollerAlive = false

/-- A step of the cleanup is the next one. -/
theorem Processes.Inv.stepsLeft_of_cleanup (inv : P.Inv) (h : udpdkCleanup false P = some Q) :
    Q.app ≠ .running ∧ Q.pollerAlive = P.pollerAlive ∧ Q.stepsLeft + 1 = P.stepsLeft := by
  unfold udpdkCleanup at h
  unfold Processes.stepsLeft
  cases hpc : P.app with
  | running | destroyUdpBindTable | listDeinit =>
    rw [hpc] at h
    obtain rfl := Option.some.inj h
    exact ⟨nofun, rfl, by simp only [CleanupPc.stepsLeft]; omega⟩
  | waitpid =>
    rw [hpc] at h
    dsimp only at h
    split at h
    · obtain rfl := Option.some.inj h
      exact ⟨nofun, rfl, by simp only [CleanupPc.stepsLeft]; omega⟩
    · cases h
  | closeSockets s =>
    rw [hpc] at h
    dsimp only at h
    split at h
    · rename_i hs
      cases hret : closeIfBound s P.system.shared with
      | error e => rw [hret] at h; cases h
      | ok r =>
        rw [hret] at h
        obtain rfl := Option.some.inj h
        have hexited := inv.waited (by rw [hpc]; rfl)
        exact ⟨nofun, rfl, by simp only [CleanupPc.stepsLeft, hexited]; omega⟩
    · rename_i hs
      obtain rfl := Option.some.inj h
      exact ⟨nofun, rfl, by simp only [CleanupPc.stepsLeft]; omega⟩
  | returned =>
    rw [hpc] at h
    cases h

/-- Every step but a signal brings the end nearer. -/
theorem Processes.Stopping.step (stopping : P.Stopping) (h : a.step dpdk config P Q)
    (waits : a ≠ .cleanup true) :
    Q.Stopping ∧ Q.stepsLeft + (!a.isSignal).toNat ≤ P.stepsLeft := by
  have inv := stopping.inv.step h waits
  cases a with
  | api e => exact absurd h.1 stopping.called
  | cleanup waitpidFails =>
    cases waitpidFails with
    | true => exact absurd rfl waits
    | false =>
      obtain ⟨hcalled, halive, hsteps⟩ := stopping.inv.stepsLeft_of_cleanup h
      exact ⟨⟨inv, hcalled, halive.trans stopping.signalled⟩, hsteps.le⟩
  | signal =>
    obtain rfl := h
    exact ⟨⟨inv, stopping.called, rfl⟩, le_rfl⟩
  | test =>
    obtain ⟨htesting, rfl⟩ := h
    refine ⟨⟨inv, stopping.called, stopping.signalled⟩, ?_⟩
    simp only [Processes.stepsLeft, stopping.signalled, htesting]
    exact le_rfl
  | poll choices happened =>
    obtain ⟨hlooping, -, S, hstep, rfl⟩ := h
    refine ⟨⟨inv, stopping.called, stopping.signalled⟩, ?_⟩
    have hcost := stepsLeft_of_step stopping.inv.ok stopping.inv.tx hstep
    have hone : (SystemEvent.poller choices happened).isPoller.toNat = 1 := rfl
    have hnone : (SystemEvent.poller choices happened).sends.toNat = 0 := rfl
    have hsignal : (!(ProcEvent.poll choices happened).isSignal).toNat = 1 := rfl
    have hpos := P.system.one_le_stepsLeft
    simp only [Processes.stepsLeft, hlooping]
    cases hends : happened.endsIteration with
    | true =>
      simp only [if_true]
      omega
    | false =>
      have hzero : (SystemEvent.poller choices happened).endsIteration = false := hends
      rw [hzero, Bool.toNat_false] at hcost
      simp only [Bool.false_eq_true, if_false]
      omega

/-- Somebody can go on as long as the cleanup has not returned, unless the poller is at a packet
for a staging buffer that is full. -/
theorem Processes.Stopping.exists_step (stopping : P.Stopping) {choices : DpdkChoices}
    (admissible : choices.Admissible P.system) (clones : ∀ n, choices.clone n ≠ none)
    (room : P.poller = .looping → ¬ P.system.Overflows dpdk choices)
    (hreturned : P.app ≠ .returned) :
    ∃ (a : ProcEvent) (Q : Processes), a.isSignal = false ∧ a ≠ .cleanup true ∧ a.Allows choices ∧
      a.step dpdk config P Q := by
  have inv := stopping.inv
  have hcleanup : ∀ Q, udpdkCleanup false P = some Q → ∃ (a : ProcEvent) (Q : Processes),
      a.isSignal = false ∧ a ≠ .cleanup true ∧ a.Allows choices ∧ a.step dpdk config P Q :=
    fun Q hQ => ⟨.cleanup false, Q, rfl, nofun, trivial, hQ⟩
  cases hpc : P.app with
  | running => exact absurd hpc stopping.called
  | returned => exact absurd hpc hreturned
  | destroyUdpBindTable | listDeinit => exact hcleanup _ (by unfold udpdkCleanup; rw [hpc])
  | waitpid =>
    cases hpoller : P.poller with
    | exited => exact hcleanup _ (by unfold udpdkCleanup; rw [hpc]; exact if_pos (.inr hpoller))
    | testing => exact ⟨.test, _, rfl, nofun, trivial, hpoller, rfl⟩
    | looping =>
      have spec : Prog.wp (fun _ => False) (pollerStep dpdk choices)
          (fun happened S' => PollerMove choices P.system S' happened) P.system :=
        pollerStep_move inv.ok.mem (fun ⟨n, hn⟩ => clones n hn) (room hpoller)
      obtain ⟨happened, S', hret, -⟩ := Prog.exists_ok_of_wp spec
      exact ⟨.poll choices happened, _, rfl, nofun, rfl, hpoller, by rw [hpc]; rfl, S',
        ⟨admissible, hret⟩, rfl⟩
  | closeSockets s =>
    by_cases hs : s < numSocketsMax
    · have spec : Prog.wp (fun _ => False) (closeIfBound s)
          (fun _ σ' => P.system.shared.ClosedBound [s] σ') P.system.shared :=
        closeIfBound_spec inv.ok hs
      obtain ⟨u, σ, hret, -⟩ := Prog.exists_ok_of_wp spec
      refine hcleanup { P with
        system := { P.system with shared := σ }, app := .closeSockets (s + 1) } ?_
      unfold udpdkCleanup
      rw [hpc]
      dsimp only
      rw [if_pos hs, hret]
    · refine hcleanup { P with app := .destroyUdpBindTable } ?_
      unfold udpdkCleanup
      rw [hpc]
      exact if_neg hs

/-- **The cleanup ends.** Once the application is in `udpdk_cleanup` and the signal has reached the
poller, only a bounded number of steps is left for both processes together, however they
interleave, and somebody can go on until the cleanup has returned, unless the poller is at a packet
for a staging buffer that is full. -/
theorem cleanup_terminates (run : Run (ProcEvent.step dpdk config) (processesInit zones) log P)
    (called : P.app ≠ .running) (signalled : P.pollerAlive = false) {log' : List ProcEvent}
    (rest : Run (ProcEvent.step dpdk config) P log' Q) (waits : .cleanup true ∉ log ++ log') :
    log'.countP (fun a => !a.isSignal) ≤ P.stepsLeft ∧
      ∀ choices : DpdkChoices, choices.Admissible Q.system → (∀ n, choices.clone n ≠ none) →
        (Q.poller = .looping → ¬ Q.system.Overflows dpdk choices) →
        Q.app ≠ .returned → ∃ (a : ProcEvent) (Q' : Processes), a.isSignal = false ∧
          a ≠ .cleanup true ∧ a.Allows choices ∧ a.step dpdk config Q Q' := by
  have inv : P.Inv := inv_of_run run fun h => waits (List.mem_append_left _ h)
  have waits' : .cleanup true ∉ log' := fun h => waits (List.mem_append_right _ h)
  obtain ⟨guarded, stopping⟩ := (run_of_waits rest waits').guarded Processes.Stopping
    ⟨inv, called, signalled⟩ fun _ _ _ stopping h => (stopping.step h.1 h.2).1
  refine ⟨?_, fun choices admissible clones room hreturned =>
    stopping.exists_step admissible clones room hreturned⟩
  have hcost := guarded.potential Processes.stepsLeft (fun a => (!a.isSignal).toNat) (fun _ => 0)
    fun _ _ _ h => (h.1.step h.2.1 h.2.2).2
  rw [sum_map_toNat, List.map_const', List.sum_replicate, nsmul_zero, Nat.add_zero] at hcost
  exact (Nat.le_add_left _ _).trans hcost

end Step

/-! ## A socket that was left open -/

section Example

variable {dpdk : Dpdk} {config : Configuration} {P : Processes}

/-- As long as nothing is received, no packet waits. -/
theorem Processes.quiet_of_step {Q : Processes} {a : ProcEvent} (ok : P.system.shared.Ok)
    (quiet : P.system.Quiet) (hallows : a.Allows (.whole [])) (h : a.step dpdk config P Q) :
    Q.system.Quiet := by
  cases a with
  | api e =>
    obtain ⟨-, S, ⟨σ, -, rfl⟩, rfl⟩ := h
    exact quiet
  | cleanup waitpidFails =>
    have hpc : Q.system.pc = P.system.pc := by
      simp only [ProcEvent.step, udpdkCleanup] at h
      split at h
      · obtain rfl := Option.some.inj h
        rfl
      · split at h
        · obtain rfl := Option.some.inj h
          rfl
        · cases h
      · split at h
        · split at h
          · obtain rfl := Option.some.inj h
            rfl
          · cases h
        · obtain rfl := Option.some.inj h
          rfl
      · obtain rfl := Option.some.inj h
        rfl
      · obtain rfl := Option.some.inj h
        rfl
      · cases h
    exact fun m pending hrx => quiet m pending (hpc ▸ hrx)
  | signal =>
    obtain rfl := h
    exact quiet
  | test =>
    obtain ⟨-, rfl⟩ := h
    exact quiet
  | poll choices happened =>
    obtain ⟨-, -, S, hstep, rfl⟩ := h
    exact quiet.step ok hstep hallows

/-- The cleanup gets to its end. -/
theorem Processes.Stopping.exists_run (stopping : P.Stopping) (quiet : P.system.Quiet) :
    ∃ (log : List ProcEvent) (Q : Processes), Run (ProcEvent.step dpdk config) P log Q ∧
      .cleanup true ∉ log ∧ Q.app = .returned := by
  -- every step brings the end nearer
  generalize hn : P.stepsLeft = n
  induction n using Nat.strong_induction_on generalizing P with
  | _ n ih =>
    by_cases hreturned : P.app = .returned
    · exact ⟨[], P, .nil, List.not_mem_nil, hreturned⟩
    · have hnext : ∃ (a : ProcEvent) (Q : Processes), a.isSignal = false ∧ a ≠ .cleanup true ∧
          a.Allows (.whole []) ∧ a.step dpdk config P Q :=
        stopping.exists_step (admissible_whole (Nat.zero_le _)) (fun n => Option.some_ne_none n)
          (fun _ ⟨m, pending, hpc, _⟩ => quiet m pending hpc) hreturned
      obtain ⟨a, Q, hsignal, hwaits, hallows, hstep⟩ := hnext
      obtain ⟨stopping', hcost⟩ := stopping.step hstep hwaits
      rw [hsignal, Bool.not_false, Bool.toNat_true] at hcost
      obtain ⟨log, R, rest, hlog, hR⟩ := ih Q.stepsLeft (by omega) stopping'
        (Processes.quiet_of_step stopping.inv.ok quiet hallows hstep) rfl
      exact ⟨a :: log, R, rest.cons hstep, List.not_mem_cons_of_ne_of_not_mem hwaits.symm hlog, hR⟩

theorem run_procApi {log : List ApiEvent} {σ : Shared} (hrunning : P.app = .running)
    (run : Run (ApiEvent.step dpdk config) P.system.shared log σ) :
    Run (ProcEvent.step dpdk config) P (log.map .api)
      { P with system := { P.system with shared := σ } } := by
  induction run with
  | nil => exact .nil
  | snoc _ hstep ih =>
    rw [List.map_append]
    exact ih.snoc ⟨hrunning, _, ⟨_, hstep, rfl⟩, rfl⟩

/-- The application calls `udpdk_cleanup` while a socket is bound and the poller is in its loop. -/
theorem exists_run_stopping : ∃ (log : List ProcEvent) (P : Processes),
    Run (ProcEvent.step Dpdk.reference Configuration.zero) (processesInit ⟨0, 0, 0, 0⟩) log P ∧
      .cleanup true ∉ log ∧ P.Stopping ∧ P.system.Quiet ∧ P.app = .waitpid ∧ P.poller = .looping ∧
      (P.system.shared.desc.slots 0).bound := by
  obtain ⟨σ, run, hbound⟩ := exists_run_bound ⟨0, 0, 0, 0⟩ (s := 0) (by decide) 7 53
  obtain ⟨P, hP⟩ : ∃ P, P = { processesInit ⟨0, 0, 0, 0⟩ with
      system := { systemInit ⟨0, 0, 0, 0⟩ with shared := σ } } := ⟨_, rfl⟩
  have hcalls : Run (ProcEvent.step Dpdk.reference Configuration.zero) (processesInit ⟨0, 0, 0, 0⟩)
      ((boundLog 0 7 53).map .api) P := by
    rw [hP]
    exact run_procApi rfl run
  have htest : ProcEvent.test.step Dpdk.reference Configuration.zero P
      { P with poller := .looping } := by
    rw [hP]
    exact ⟨rfl, rfl⟩
  have hcall : (ProcEvent.cleanup false).step Dpdk.reference Configuration.zero
      { P with poller := .looping } { P with poller := .looping, app := .waitpid } := by
    rw [hP]
    rfl
  have hsignal : ProcEvent.signal.step Dpdk.reference Configuration.zero
      { P with poller := .looping, app := .waitpid }
      { P with poller := .looping, app := .waitpid, pollerAlive := false } := rfl
  have hall := ((hcalls.snoc htest).snoc hcall).snoc hsignal
  have waits : .cleanup true ∉
      (boundLog 0 7 53).map .api ++ [.test] ++ [.cleanup false] ++ [ProcEvent.signal] := by
    simp
  refine ⟨_, _, hall, waits, ⟨inv_of_run hall waits, nofun, rfl⟩, ?_, rfl, rfl, ?_⟩
  · rw [hP]
    exact fun _ _ => PollerPc.noConfusion
  · rw [hP]
    exact congrArg ExchSlotInfo.bound hbound.slot

/-- A socket that was left open is closed. -/
theorem cleanup_sound_of_bound : ∃ (P Q : Processes) (log : List ProcEvent),
    (P.system.shared.desc.slots 0).bound ∧
    Run (ProcEvent.step Dpdk.reference Configuration.zero) P log Q ∧
    Q.app = .returned ∧ Q.Sound := by
  obtain ⟨_, P, run, waits, stopping, quiet, -, -, hbound⟩ := exists_run_stopping
  obtain ⟨log, Q, rest, hlog, hreturned⟩ := stopping.exists_run quiet
  exact ⟨P, Q, log, hbound, rest, hreturned,
    cleanup_sound (run.append rest) (by simp [waits, hlog])⟩

/-- The cleanup returns within a bounded number of steps. -/
theorem cleanup_terminates_of_bound : ∃ (P Q : Processes) (log : List ProcEvent),
    P.app = .waitpid ∧ P.poller = .looping ∧
    Run (ProcEvent.step Dpdk.reference Configuration.zero) P log Q ∧ Q.app = .returned ∧
    log.countP (fun a => !a.isSignal) ≤ P.stepsLeft := by
  obtain ⟨_, P, run, waits, stopping, quiet, hwaitpid, hlooping, -⟩ := exists_run_stopping
  obtain ⟨log, Q, rest, hlog, hreturned⟩ := stopping.exists_run quiet
  exact ⟨P, Q, log, hwaitpid, hlooping, rest, hreturned, (cleanup_terminates run stopping.called
    stopping.signalled rest (by simp [waits, hlog])).1⟩

end Example

end Udpdk
