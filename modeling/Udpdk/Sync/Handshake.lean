import Udpdk.Sync.Basic

/-!
# The start-up handshake

A ring of DPDK has room for one entry less than it was created with, and the rings of the
handshake are created with one. Every notification fails, no wait ever gets anything, and
both processes go on because they do not look at what their waits return.

## Main definitions

* `Handshake` — what the handshake is for
* `StartupZone.NoRoom` — rings without room
* `Startup.Inv` — what holds in every run

## Main results

* `timed_out` — a wait is over only after all of its attempts failed
* `handshake_iff` — the runs in which the handshake works
-/

namespace Udpdk

open Foundation

variable {Z Z' : StartupZone} {s t : Startup} {p : Party} {a : IpcHappened} {log : List IpcHappened}
  {ok : Bool}

/-! ## What it is for -/

/-- The poller starts after the application has notified it, `udpdk_init` returns 0 after the
poller has notified the application, and a notification into an empty ring is stored and is
what the peer gets when it next tries. -/
structure Handshake (log : List IpcHappened) : Prop where
  started : ∀ before after, log = before ++ .proceeded :: after →
    ∃ msg empty stored, .posted .app msg empty stored ∈ before
  completed : ∀ before after, log = before ++ .initReturned 0 :: after →
    ∃ msg empty stored, .posted .poller msg empty stored ∈ before
  received : ∀ before after p msg stored, log = before ++ .posted p msg true stored :: after →
    stored = true ∧ ∀ between rest got, after = between ++ .attempted p.peer got :: rest →
      (∀ got', .attempted p.peer got' ∉ between) → got = some msg

/-- The application makes its notification, or the poller goes past its wait. -/
def IpcHappened.decisive : IpcHappened → Bool
  | .posted .app _ _ _ => true
  | .proceeded => true
  | _ => false

/-- What happens when the wait of `p` is over. -/
def IpcHappened.waitOver : Party → IpcHappened
  | .app => .initReturned 0
  | .poller => .proceeded

/-! ## Rings without room -/

/-- No ring has room for a message. -/
def StartupZone.NoRoom (Z : StartupZone) : Prop :=
  ∀ p q, Z.ipcRing p = some q → q.capacity = 0

namespace StartupZone.NoRoom

variable {q : BoundedQueue ℕ}

theorem items (h : Z.NoRoom) (hq : Z.ipcRing p = some q) : q.items = [] := by
  have hlen : q.items.length ≤ q.capacity := q.bounded
  rw [h p q hq] at hlen
  exact List.length_eq_zero_iff.mp (Nat.le_zero.mp hlen)

theorem dequeue (h : Z.NoRoom) (hq : Z.ipcRing p = some q) : q.dequeue = none :=
  BoundedQueue.dequeue_eq_none_iff.mpr (h.items hq)

theorem enqueue (h : Z.NoRoom) (hq : Z.ipcRing p = some q) (msg : ℕ) : q.enqueue msg = none := by
  rw [BoundedQueue.enqueue_eq_none_iff, h p q hq]
  exact Nat.zero_le _

theorem of_ipcRing (h : Z.NoRoom) (hring : Z'.ipcRing = Z.ipcRing) : Z'.NoRoom := by
  intro p q hq
  rw [hring] at hq
  exact h p q hq

theorem setRing (h : Z.NoRoom) (p : Party) (hq : q.capacity = 0) : (Z.setRing p q).NoRoom := by
  intro p' q' hq'
  by_cases hp : p' = p
  · subst hp
    rw [ipcRing_setRing, Function.update_self, Option.some_inj] at hq'
    exact hq' ▸ hq
  · rw [ipcRing_setRing, Function.update_of_ne hp] at hq'
    exact h p' q' hq'

end StartupZone.NoRoom

theorem StartupZone.ipcRing_of_mempoolGet {msg : ℕ} (h : Z.mempoolGet = some (msg, Z')) :
    Z'.ipcRing = Z.ipcRing := by
  unfold mempoolGet at h
  split at h
  · obtain ⟨-, rfl⟩ := Prod.mk.inj (Option.some.inj h)
    rfl
  · cases h

theorem StartupZone.ipcRing_of_mempoolPut {msg : ℕ} (h : Z.mempoolPut msg = some Z') :
    Z'.ipcRing = Z.ipcRing := by
  unfold mempoolPut at h
  split at h
  · obtain rfl := Option.some.inj h
    rfl
  · cases h

/-! ## What a step does -/

/-- The failed attempts behind a wait that gets nothing. -/
def WaitPc.attempts : WaitPc → ℕ
  | .dequeue c => c
  | .usleep c => c + 1
  | .put _ => waitMaxCycles + 1

/-- The failed attempts behind the application. -/
def InitPc.attempts : InitPc → ℕ
  | .wait pc => pc.attempts
  | _ => 0

/-- The failed attempts behind the poller. -/
def PollerInitPc.attempts : PollerInitPc → ℕ
  | .wait pc => pc.attempts
  | _ => 0

/-- What a step of `p` that leads from `before` failed attempts to `after` may do, as long as
no ring has room. -/
structure Futile (p : Party) (before after : ℕ) (a : IpcHappened) (Z' : StartupZone) : Prop where
  zone : Z'.NoRoom
  happened : a = .internal ∨ (∃ msg, a = .posted p msg true false) ∨ a = .attempted p none ∨
    a = .waitOver p ∨ a = .initReturned (-1)
  attempts : after ≤ before + [a].count (.attempted p none)
  exhausted : a = .waitOver p → waitMaxCycles < before

theorem Futile.internal (hZ : Z.NoRoom) (before : ℕ) : Futile p before 0 .internal Z where
  zone := hZ
  happened := .inl rfl
  attempts := Nat.zero_le _
  exhausted h := by cases p <;> cases h

theorem Futile.initFailed (hZ : Z.NoRoom) (before : ℕ) :
    Futile p before 0 (.initReturned (-1)) Z where
  zone := hZ
  happened := .inr (.inr (.inr (.inr rfl)))
  attempts := Nat.zero_le _
  exhausted h := by cases p <;> simp [IpcHappened.waitOver] at h

theorem Futile.waitOver (hZ : Z.NoRoom) {before : ℕ} (h : waitMaxCycles < before) :
    Futile p before 0 (.waitOver p) Z where
  zone := hZ
  happened := .inr (.inr (.inr (.inl rfl)))
  attempts := Nat.zero_le _
  exhausted _ := h

/-- What a step of a wait may do, as long as no ring has room: it makes one more attempt, or it
is over and there were enough of them. -/
structure Waited (p : Party) (pc : WaitPc) (r : IpcHappened × StartupZone × Called WaitPc ℤ) :
    Prop where
  zone : r.2.1.NoRoom
  happened : r.1 = .internal ∨ r.1 = .attempted p none
  still : ∀ pc', r.2.2 = .still pc' →
    pc'.attempts ≤ pc.attempts + [r.1].count (.attempted p none)
  returned : ∀ ret, r.2.2 = .returned ret → waitMaxCycles < pc.attempts

theorem Waited.of_died (hZ : Z.NoRoom) (pc : WaitPc) : Waited p pc (.internal, Z, .died) where
  zone := hZ
  happened := .inl rfl
  still _ h := by cases h
  returned _ h := by cases h

theorem Waited.of_returned {pc : WaitPc} (hZ : Z.NoRoom) (h : waitMaxCycles < pc.attempts)
    (ret : ℤ) : Waited p pc (.internal, Z, .returned ret) where
  zone := hZ
  happened := .inl rfl
  still _ h := by cases h
  returned _ _ := h

theorem Waited.of_still {pc pc' : WaitPc} (hZ : Z.NoRoom)
    (ha : a = .internal ∨ a = .attempted p none)
    (h : pc'.attempts ≤ pc.attempts + [a].count (.attempted p none)) :
    Waited p pc (a, Z, .still pc') where
  zone := hZ
  happened := ha
  still _ hpc := by obtain rfl := Called.still.inj hpc; exact h
  returned _ h := by cases h

theorem Waited.ne_waitOver {pc : WaitPc} {r : IpcHappened × StartupZone × Called WaitPc ℤ}
    (h : Waited p pc r) (p' : Party) : r.1 ≠ .waitOver p' := by
  obtain ha | ha := h.happened
  · rw [ha]
    cases p' <;> intro h <;> cases h
  · rw [ha]
    cases p' <;> intro h <;> cases h

theorem Waited.ne_posted {pc : WaitPc} {r : IpcHappened × StartupZone × Called WaitPc ℤ}
    (h : Waited p pc r) (p' : Party) (msg : ℕ) : r.1 ≠ .posted p' msg true false := by
  obtain ha | ha := h.happened
  · rw [ha]
    intro h
    cases h
  · rw [ha]
    intro h
    cases h

theorem Waited.futile {pc : WaitPc} {r : IpcHappened × StartupZone × Called WaitPc ℤ} {after : ℕ}
    (h : Waited p pc r) (hafter : after ≤ pc.attempts + [r.1].count (.attempted p none)) :
    Futile p pc.attempts after r.1 r.2.1 where
  zone := h.zone
  happened := h.happened.imp_right fun ha => .inr (.inl ha)
  attempts := hafter
  exhausted hover := absurd hover (h.ne_waitOver p)

/-- A wait never gets anything. -/
theorem ipcWait_waited (hZ : Z.NoRoom) (pc : WaitPc) : Waited p pc (ipcWait p Z pc) := by
  cases pc with
  | dequeue c =>
    cases hring : Z.ipcRing p.peer with
    | none =>
      have heq : ipcWait p Z (.dequeue c) = (.internal, Z, .died) := by
        simp only [ipcWait, hring]
      exact heq ▸ .of_died hZ _
    | some q =>
      have heq : ipcWait p Z (.dequeue c) = (.attempted p none, Z, .still (.usleep c)) := by
        simp only [ipcWait, hring, hZ.dequeue hring]
      rw [heq]
      refine .of_still hZ (.inr rfl) ?_
      rw [List.count_singleton_self]
      exact Nat.le_refl _
  -- the wait gives up once it has slept `waitMaxCycles` times
  | usleep c =>
    by_cases hc : c + 1 > waitMaxCycles
    · have heq : ipcWait p Z (.usleep c) = (.internal, Z, .returned (-1)) := by
        simp only [ipcWait, if_pos hc]
      -- every sleep follows an attempt that failed
      have hover : waitMaxCycles < (WaitPc.usleep c).attempts := hc
      exact heq ▸ .of_returned hZ hover _
    · have heq : ipcWait p Z (.usleep c) = (.internal, Z, .still (.dequeue (c + 1))) := by
        simp only [ipcWait, if_neg hc]
      rw [heq]
      exact .of_still hZ (.inl rfl) (Nat.le_add_right _ _)
  | put msg =>
    cases hput : Z.mempoolPut msg with
    | none =>
      have heq : ipcWait p Z (.put msg) = (.internal, Z, .died) := by simp only [ipcWait, hput]
      exact heq ▸ .of_died hZ _
    | some Z' =>
      have heq : ipcWait p Z (.put msg) = (.internal, Z', .returned 0) := by
        simp only [ipcWait, hput]
      have hZ' : Z'.NoRoom := hZ.of_ipcRing (StartupZone.ipcRing_of_mempoolPut hput)
      exact heq ▸ .of_returned hZ' (Nat.lt_succ_self _) _

/-- The message of a notification was refused. -/
def NotifyPc.posted : NotifyPc → Bool
  | .put _ => true
  | _ => false

/-- What a step of a notification may do, as long as no ring has room: it goes past its enqueue
only by one that fails. -/
structure Notified (p : Party) (pc : NotifyPc)
    (r : IpcHappened × StartupZone × Called NotifyPc Unit) : Prop where
  zone : r.2.1.NoRoom
  happened : r.1 = .internal ∨ ∃ msg, r.1 = .posted p msg true false
  still : ∀ pc', r.2.2 = .still pc' → pc'.posted →
    pc.posted ∨ ∃ msg, r.1 = .posted p msg true false
  returned : r.2.2 = .returned () → pc.posted

theorem Notified.of_died (hZ : Z.NoRoom) (pc : NotifyPc) : Notified p pc (.internal, Z, .died) where
  zone := hZ
  happened := .inl rfl
  still _ h := by cases h
  returned h := by cases h

theorem Notified.ne_waitOver {pc : NotifyPc} {r : IpcHappened × StartupZone × Called NotifyPc Unit}
    (h : Notified p pc r) (p' : Party) : r.1 ≠ .waitOver p' := by
  obtain hint | ⟨msg, hpost⟩ := h.happened
  · rw [hint]
    cases p' <;> intro h <;> cases h
  · rw [hpost]
    cases p' <;> intro h <;> cases h

theorem Notified.futile {pc : NotifyPc} {r : IpcHappened × StartupZone × Called NotifyPc Unit}
    (h : Notified p pc r) (before : ℕ) : Futile p before 0 r.1 r.2.1 where
  zone := h.zone
  happened := h.happened.imp_right .inl
  attempts := Nat.zero_le _
  exhausted hover := absurd hover (h.ne_waitOver p)

/-- A notification never gets through. -/
theorem ipcNotify_notified (hZ : Z.NoRoom) (pc : NotifyPc) :
    Notified p pc (ipcNotify p Z pc) := by
  cases pc with
  | get =>
    cases hget : Z.mempoolGet with
    | none =>
      have heq : ipcNotify p Z .get = (.internal, Z, .died) := by simp only [ipcNotify, hget]
      exact heq ▸ .of_died hZ _
    | some r =>
      obtain ⟨msg, Z'⟩ := r
      have heq : ipcNotify p Z .get = (.internal, Z', .still (.enqueue msg)) := by
        simp only [ipcNotify, hget]
      rw [heq]
      exact {
        zone := hZ.of_ipcRing (StartupZone.ipcRing_of_mempoolGet hget)
        happened := .inl rfl
        still := fun _ hpc hposted => by
          obtain rfl := Called.still.inj hpc
          cases hposted
        returned := fun h => by cases h }
  | enqueue msg =>
    cases hring : Z.ipcRing p with
    | none =>
      have heq : ipcNotify p Z (.enqueue msg) = (.internal, Z, .died) := by
        simp only [ipcNotify, hring]
      exact heq ▸ .of_died hZ _
    | some q =>
      -- the ring is empty and refuses the message nevertheless
      have hempty : q.items.isEmpty = true := by rw [hZ.items hring, List.isEmpty_nil]
      have heq : ipcNotify p Z (.enqueue msg) =
          (.posted p msg true false, Z, .still (.put msg)) := by
        simp only [ipcNotify, hring, hZ.enqueue hring, hempty]
      rw [heq]
      exact {
        zone := hZ
        happened := .inr ⟨msg, rfl⟩
        still := fun _ _ _ => .inr ⟨msg, rfl⟩
        returned := fun h => by cases h }
  | put msg =>
    cases hput : Z.mempoolPut msg with
    | none =>
      have heq : ipcNotify p Z (.put msg) = (.internal, Z, .died) := by
        simp only [ipcNotify, hput]
      exact heq ▸ .of_died hZ _
    | some Z' =>
      have heq : ipcNotify p Z (.put msg) = (.internal, Z', .returned ()) := by
        simp only [ipcNotify, hput]
      rw [heq]
      exact {
        zone := hZ.of_ipcRing (StartupZone.ipcRing_of_mempoolPut hput)
        happened := .inl rfl
        still := fun _ h => by cases h
        returned := fun _ => rfl }

/-! ## The application -/

/-- The application has made its notification. -/
def InitPc.posted : InitPc → Bool
  | .notify pc => pc.posted
  | .wait _ => true
  | _ => false

theorem InitPc.orFail_cases {Z₁ : StartupZone} {next pc' : InitPc}
    (h : InitPc.orFail ok Z Z₁ next = some (a, Z', pc')) :
    (a = .internal ∧ Z' = Z₁ ∧ pc' = next) ∨
      (a = .initReturned (-1) ∧ Z' = Z ∧ pc' = .returned (-1)) := by
  unfold InitPc.orFail at h
  split at h
  · obtain ⟨rfl, rfl, rfl⟩ : _ ∧ _ ∧ _ := by simpa using h
    exact .inl ⟨rfl, rfl, rfl⟩
  · obtain ⟨rfl, rfl, rfl⟩ : _ ∧ _ ∧ _ := by simpa using h
    exact .inr ⟨rfl, rfl, rfl⟩

/-- A step of the application: what it may do, and that it goes past its notification only by
making it. -/
structure InitStep (pc pc' : InitPc) (a : IpcHappened) (Z' : StartupZone) : Prop where
  futile : Futile .app pc.attempts pc'.attempts a Z'
  posted : pc'.posted → pc.posted ∨ ∃ msg, a = .posted .app msg true false
  completed : a = .initReturned 0 → pc.posted

/-- A call of the initialisation. -/
theorem InitStep.of_orFail {Z₁ : StartupZone} {pc next pc' : InitPc} (hZ : Z.NoRoom)
    (hZ₁ : Z₁.NoRoom) (hattempts : next.attempts = 0) (hposted : next.posted = false)
    (h : InitPc.orFail ok Z Z₁ next = some (a, Z', pc')) : InitStep pc pc' a Z' := by
  obtain ⟨rfl, rfl, rfl⟩ | ⟨rfl, rfl, rfl⟩ := InitPc.orFail_cases h
  · exact {
      futile := hattempts ▸ .internal hZ₁ _
      posted := fun h => by rw [hposted] at h; cases h
      completed := fun h => by cases h }
  · exact {
      futile := .initFailed hZ _
      posted := fun h => by cases h
      completed := fun h => by simp at h }

/-- A step of the notification of the poller. -/
theorem InitStep.of_notify {pc : NotifyPc} {pc' : InitPc} (hZ : Z.NoRoom)
    (h : udpdkInit ok Z (.notify pc) = some (a, Z', pc')) : InitStep (.notify pc) pc' a Z' := by
  have hstep : Notified .app pc (ipcNotifyToPoller Z pc) := ipcNotify_notified hZ pc
  simp only [udpdkInit] at h
  generalize ipcNotifyToPoller Z pc = r at h hstep
  obtain ⟨b, Z₁, c⟩ := r
  cases c with
  | still pc₁ =>
    obtain ⟨rfl, rfl, rfl⟩ : _ ∧ _ ∧ _ := by simpa using h
    exact {
      futile := hstep.futile _
      posted := hstep.still pc₁ rfl
      completed := fun h => absurd h (hstep.ne_waitOver .app) }
  | returned u =>
    obtain ⟨rfl, rfl, rfl⟩ : _ ∧ _ ∧ _ := by simpa using h
    exact {
      futile := hstep.futile _
      posted := fun _ => .inl (hstep.returned rfl)
      completed := fun h => absurd h (hstep.ne_waitOver .app) }
  | died =>
    obtain ⟨rfl, rfl, rfl⟩ : _ ∧ _ ∧ _ := by simpa using h
    exact {
      futile := hstep.futile _
      posted := fun h => by cases h
      completed := fun h => absurd h (hstep.ne_waitOver .app) }

/-- A step of the wait for the poller. Whatever comes of it, the application is past its
notification. -/
theorem InitStep.of_wait {pc : WaitPc} {pc' : InitPc} (hZ : Z.NoRoom)
    (h : udpdkInit ok Z (.wait pc) = some (a, Z', pc')) : InitStep (.wait pc) pc' a Z' := by
  have hstep : Waited .app pc (ipcWaitForPoller Z pc) := ipcWait_waited hZ pc
  simp only [udpdkInit] at h
  generalize ipcWaitForPoller Z pc = r at h hstep
  obtain ⟨b, Z₁, c⟩ := r
  cases c with
  | still pc₁ =>
    obtain ⟨rfl, rfl, rfl⟩ : _ ∧ _ ∧ _ := by simpa using h
    exact {
      futile := hstep.futile (hstep.still pc₁ rfl)
      posted := fun _ => .inl rfl
      completed := fun _ => rfl }
  | returned ret =>
    obtain ⟨rfl, rfl, rfl⟩ : _ ∧ _ ∧ _ := by simpa using h
    exact {
      futile := .waitOver hstep.zone (hstep.returned ret rfl)
      posted := fun _ => .inl rfl
      completed := fun _ => rfl }
  | died =>
    obtain ⟨rfl, rfl, rfl⟩ : _ ∧ _ ∧ _ := by simpa using h
    exact {
      futile := hstep.futile (Nat.zero_le _)
      posted := fun _ => .inl rfl
      completed := fun _ => rfl }

/-- **One step of `udpdk_init`.** -/
theorem udpdkInit_step {pc pc' : InitPc} (hZ : Z.NoRoom)
    (h : udpdkInit ok Z pc = some (a, Z', pc')) : InitStep pc pc' a Z' := by
  -- a DPDK ring of size one keeps its only entry free
  have hcreate : (rteRingCreate 1 : BoundedQueue ℕ).capacity = 0 := rfl
  cases pc with
  | prepare => exact .of_orFail hZ hZ rfl rfl h
  | createRing q =>
    cases q with
    | app => exact .of_orFail hZ (hZ.setRing _ hcreate) rfl rfl h
    | poller => exact .of_orFail hZ (hZ.setRing _ hcreate) rfl rfl h
  | createMsgPool =>
    obtain ⟨rfl, rfl, rfl⟩ : _ ∧ _ ∧ _ := by simpa [udpdkInit] using h
    have hZ' : { Z with
        ipcMsgPool := if ok then some (List.range ipcMsgPoolSize) else none }.NoRoom :=
      hZ.of_ipcRing rfl
    exact {
      futile := .internal hZ' _
      posted := fun h => by cases h
      completed := fun h => by cases h }
  | initExchMemzone =>
    have hZ₁ : { Z with exchMemzone := true }.NoRoom := hZ.of_ipcRing rfl
    exact .of_orFail hZ hZ₁ rfl rfl h
  | initUdpBindTable =>
    have hZ₁ : { Z with udpBindTable := true }.NoRoom := hZ.of_ipcRing rfl
    exact .of_orFail hZ hZ₁ rfl rfl h
  | initExchangeSlots =>
    have hZ₁ : { Z with exchRings := true }.NoRoom := hZ.of_ipcRing rfl
    exact .of_orFail hZ hZ₁ rfl rfl h
  | notify => exact .of_notify hZ h
  | wait => exact .of_wait hZ h
  | returned ret => cases h
  | died => cases h

/-! ## The poller -/

/-- The poller is past its wait. -/
def PollerInitPc.proceeded : PollerInitPc → Bool
  | .setupAllocators | .setupQueues | .setupExchZone | .setupUdpTable | .notify _ => true
  | _ => false

/-- A step of the poller: what it may do, and that it comes to its notification only by going
past its wait. -/
structure PollerStep (pc pc' : PollerInitPc) (a : IpcHappened) (Z' : StartupZone) : Prop where
  futile : Futile .poller pc.attempts pc'.attempts a Z'
  proceeded : pc'.proceeded → pc.proceeded ∨ a = .proceeded
  answered : ∀ msg, a = .posted .poller msg true false → pc.proceeded

theorem PollerStep.of_internal {pc pc' : PollerInitPc} (hZ : Z.NoRoom)
    (hattempts : pc'.attempts = 0)
    (hproceeded : pc'.proceeded → pc.proceeded) : PollerStep pc pc' .internal Z where
  futile := hattempts ▸ .internal hZ _
  proceeded h := .inl (hproceeded h)
  answered _ h := by cases h

/-- A call of the initialisation. -/
theorem PollerStep.of_orFail {pc next pc' : PollerInitPc} (hZ : Z.NoRoom)
    (hattempts : next.attempts = 0) (hproceeded : next.proceeded → pc.proceeded)
    (h : PollerInitPc.orFail ok Z next = some (a, Z', pc')) : PollerStep pc pc' a Z' := by
  obtain ⟨rfl, rfl, rfl⟩ : _ ∧ _ ∧ _ := by simpa [PollerInitPc.orFail] using h
  cases ok with
  | true => exact .of_internal hZ hattempts hproceeded
  | false => exact .of_internal hZ rfl fun h => by cases h

/-- A step of the wait for the application. The return value of the wait is not looked at: when
it is over, the poller proceeds. -/
theorem PollerStep.of_wait {pc : WaitPc} {pc' : PollerInitPc} (hZ : Z.NoRoom)
    (h : pollerInit ok Z (.wait pc) = some (a, Z', pc')) : PollerStep (.wait pc) pc' a Z' := by
  have hstep : Waited .poller pc (ipcWaitForApp Z pc) := ipcWait_waited hZ pc
  simp only [pollerInit] at h
  generalize ipcWaitForApp Z pc = r at h hstep
  obtain ⟨b, Z₁, c⟩ := r
  cases c with
  | still pc₁ =>
    obtain ⟨rfl, rfl, rfl⟩ : _ ∧ _ ∧ _ := by simpa using h
    exact {
      futile := hstep.futile (hstep.still pc₁ rfl)
      proceeded := fun h => by cases h
      answered := fun msg h => absurd h (hstep.ne_posted .poller msg) }
  | returned ret =>
    obtain ⟨rfl, rfl, rfl⟩ : _ ∧ _ ∧ _ := by simpa using h
    exact {
      futile := .waitOver hstep.zone (hstep.returned ret rfl)
      proceeded := fun _ => .inr rfl
      answered := fun _ h => by cases h }
  | died =>
    obtain ⟨rfl, rfl, rfl⟩ : _ ∧ _ ∧ _ := by simpa using h
    exact {
      futile := hstep.futile (Nat.zero_le _)
      proceeded := fun h => by cases h
      answered := fun msg h => absurd h (hstep.ne_posted .poller msg) }

/-- A step of the notification of the application. -/
theorem PollerStep.of_notify {pc : NotifyPc} {pc' : PollerInitPc} (hZ : Z.NoRoom)
    (h : pollerInit ok Z (.notify pc) = some (a, Z', pc')) :
    PollerStep (.notify pc) pc' a Z' := by
  have hstep : Notified .poller pc (ipcNotifyToApp Z pc) := ipcNotify_notified hZ pc
  simp only [pollerInit] at h
  generalize ipcNotifyToApp Z pc = r at h hstep
  obtain ⟨b, Z₁, c⟩ := r
  cases c with
  | still pc₁ =>
    obtain ⟨rfl, rfl, rfl⟩ : _ ∧ _ ∧ _ := by simpa using h
    exact ⟨hstep.futile _, fun _ => .inl rfl, fun _ _ => rfl⟩
  | returned u =>
    obtain ⟨rfl, rfl, rfl⟩ : _ ∧ _ ∧ _ := by simpa using h
    exact ⟨hstep.futile _, fun _ => .inl rfl, fun _ _ => rfl⟩
  | died =>
    obtain ⟨rfl, rfl, rfl⟩ : _ ∧ _ ∧ _ := by simpa using h
    exact ⟨hstep.futile _, fun _ => .inl rfl, fun _ _ => rfl⟩

/-- **One step of `poller_init`.** -/
theorem pollerInit_step {pc pc' : PollerInitPc} (hZ : Z.NoRoom)
    (h : pollerInit ok Z pc = some (a, Z', pc')) : PollerStep pc pc' a Z' := by
  cases pc with
  | ealInit => exact .of_orFail hZ rfl (fun h => by cases h) h
  | retrieveIpcChannel =>
    obtain ⟨rfl, rfl, rfl⟩ : _ ∧ _ ∧ _ := by simpa [pollerInit] using h
    cases Z.retrieveIpcChannel with
    | true => exact .of_internal hZ rfl fun h => by cases h
    | false => exact .of_internal hZ rfl fun h => by cases h
  | checkAlive => exact .of_orFail hZ rfl (fun h => by cases h) h
  | wait => exact .of_wait hZ h
  | setupAllocators => exact .of_orFail hZ rfl (fun _ => rfl) h
  | setupQueues => exact .of_orFail hZ rfl (fun _ => rfl) h
  | setupExchZone => exact .of_orFail hZ rfl (fun _ => rfl) h
  | setupUdpTable => exact .of_orFail hZ rfl (fun _ => rfl) h
  | notify => exact .of_notify hZ h
  | returned ret => cases h
  | died => cases h

/-! ## Runs -/

/-- The failed attempts behind a process. -/
def Startup.attempts (s : Startup) : Party → ℕ
  | .app => s.app.attempts
  | .poller => s.poller.attempts

theorem Futile.refused {before after msg : ℕ} {p' : Party} {empty stored : Bool}
    (h : Futile p before after (.posted p' msg empty stored) Z') :
    p' = p ∧ empty = true ∧ stored = false := by
  obtain h | ⟨msg', h⟩ | h | h | h := h.happened
  · cases h
  · cases h
    exact ⟨rfl, rfl, rfl⟩
  · cases h
  · cases p <;> cases h
  · cases h

/-- A process comes out of its own wait only. -/
theorem Futile.eq_of_waitOver {before after : ℕ} {p' : Party}
    (h : Futile p before after (.waitOver p') Z') : p' = p := by
  obtain h | ⟨msg', h⟩ | h | h | h := h.happened
  · cases p' <;> cases h
  · cases p' <;> cases h
  · cases p' <;> cases h
  · cases p' <;> cases p <;> cases h <;> rfl
  · cases p' <;> simp [IpcHappened.waitOver] at h

/-- No ring has room, whatever was posted was refused, and a wait that is over has all of its
attempts behind it. -/
structure Startup.Stuck (log : List IpcHappened) (s : Startup) : Prop where
  zone : s.zone.NoRoom
  refused : ∀ p msg empty stored, .posted p msg empty stored ∈ log → empty = true ∧ stored = false
  attempts : ∀ p, s.attempts p ≤ log.count (.attempted p none)
  exhausted : ∀ p, .waitOver p ∈ log → waitMaxCycles < log.count (.attempted p none)

theorem Startup.Stuck.step (h : s.Stuck log)
    (hstep : Futile p (s.attempts p) (t.attempts p) a t.zone)
    (hother : ∀ p', p' ≠ p → t.attempts p' = s.attempts p') : t.Stuck (log ++ [a]) where
  zone := hstep.zone
  refused := by
    intro p' msg empty stored hmem
    obtain hmem | hlast := List.mem_append.mp hmem
    · exact h.refused p' msg empty stored hmem
    · obtain rfl := List.mem_singleton.mp hlast
      exact hstep.refused.2
  attempts := by
    intro p'
    rw [List.count_append]
    by_cases hp : p' = p
    · subst hp
      exact hstep.attempts.trans (Nat.add_le_add_right (h.attempts p') _)
    · rw [hother p' hp]
      exact (h.attempts p').trans (Nat.le_add_right _ _)
  exhausted := by
    intro p' hmem
    rw [List.count_append]
    obtain hmem | hlast := List.mem_append.mp hmem
    · exact (h.exhausted p' hmem).trans_le (Nat.le_add_right _ _)
    · obtain rfl := List.mem_singleton.mp hlast
      obtain rfl := hstep.eq_of_waitOver
      exact (hstep.exhausted rfl).trans_le ((h.attempts p').trans (Nat.le_add_right _ _))

/-- What holds in every run: nothing gets through, and each process does things in its order. -/
structure Startup.Inv (log : List IpcHappened) (s : Startup) : Prop extends s.Stuck log where
  posted : s.app.posted → ∃ msg, .posted .app msg true false ∈ log
  completed : .initReturned 0 ∈ log → ∃ msg, .posted .app msg true false ∈ log
  proceeded : s.poller.proceeded → .proceeded ∈ log
  answered : ∀ msg, .posted .poller msg true false ∈ log → .proceeded ∈ log

theorem Startup.inv_init : startupInit.Inv [] where
  zone _ _ h := by cases h
  refused _ _ _ _ h := by cases h
  attempts p := by cases p <;> exact Nat.zero_le _
  exhausted _ h := by cases h
  posted h := by cases h
  completed h := by cases h
  proceeded h := by cases h
  answered _ h := by cases h

/-- The application keeps the invariant. -/
theorem Startup.Inv.app {pc' : InitPc} (h : s.Inv log) (hstep : InitStep s.app pc' a Z') :
    { s with zone := Z', app := pc' }.Inv (log ++ [a]) where
  toStuck := h.toStuck.step hstep.futile fun p' hp' => by
    cases p' with
    | app => exact absurd rfl hp'
    | poller => rfl
  posted := by
    intro hposted
    obtain hbefore | ⟨msg, rfl⟩ := hstep.posted hposted
    · obtain ⟨msg, hmem⟩ := h.posted hbefore
      exact ⟨msg, List.mem_append_left _ hmem⟩
    · exact ⟨msg, List.mem_append_right _ (List.mem_singleton_self _)⟩
  completed := by
    intro hmem
    obtain ⟨msg, hmem⟩ : ∃ msg, .posted .app msg true false ∈ log := by
      obtain hmem | hlast := List.mem_append.mp hmem
      · exact h.completed hmem
      · exact h.posted (hstep.completed (List.mem_singleton.mp hlast).symm)
    exact ⟨msg, List.mem_append_left _ hmem⟩
  proceeded hproceeded := List.mem_append_left _ (h.proceeded hproceeded)
  answered := by
    intro msg hmem
    obtain hmem | hlast := List.mem_append.mp hmem
    · exact List.mem_append_left _ (h.answered msg hmem)
    · obtain rfl := List.mem_singleton.mp hlast
      cases hstep.futile.refused.1

/-- The poller keeps the invariant. -/
theorem Startup.Inv.poller {pc' : PollerInitPc} (h : s.Inv log)
    (hstep : PollerStep s.poller pc' a Z') :
    { s with zone := Z', poller := pc' }.Inv (log ++ [a]) where
  toStuck := h.toStuck.step hstep.futile fun p' hp' => by
    cases p' with
    | app => rfl
    | poller => exact absurd rfl hp'
  posted := by
    intro hposted
    obtain ⟨msg, hmem⟩ := h.posted hposted
    exact ⟨msg, List.mem_append_left _ hmem⟩
  completed := by
    intro hmem
    obtain hmem | hlast := List.mem_append.mp hmem
    · obtain ⟨msg, hmem⟩ := h.completed hmem
      exact ⟨msg, List.mem_append_left _ hmem⟩
    · obtain rfl := List.mem_singleton.mp hlast
      have hparty : Party.app = .poller := Futile.eq_of_waitOver hstep.futile
      cases hparty
  proceeded := by
    intro hproceeded
    obtain hbefore | rfl := hstep.proceeded hproceeded
    · exact List.mem_append_left _ (h.proceeded hbefore)
    · exact List.mem_append_right _ (List.mem_singleton_self _)
  answered := by
    intro msg hmem
    obtain hmem | hlast := List.mem_append.mp hmem
    · exact List.mem_append_left _ (h.answered msg hmem)
    · have hbefore := hstep.answered msg (List.mem_singleton.mp hlast).symm
      exact List.mem_append_left _ (h.proceeded hbefore)

/-- **Step lemma.** -/
theorem Startup.Inv.step (h : s.Inv log) (hstep : s.Step a t) : t.Inv (log ++ [a]) := by
  obtain ⟨p, ok, hstep⟩ := hstep
  cases p with
  | app =>
    obtain ⟨⟨b, Z', pc'⟩, hinit, heq⟩ := Option.map_eq_some_iff.mp hstep
    obtain ⟨rfl, rfl⟩ := Prod.mk.inj heq
    exact h.app (udpdkInit_step h.zone hinit)
  | poller =>
    obtain ⟨⟨b, Z', pc'⟩, hinit, heq⟩ := Option.map_eq_some_iff.mp hstep
    obtain ⟨rfl, rfl⟩ := Prod.mk.inj heq
    exact h.poller (pollerInit_step h.zone hinit)

theorem Startup.inv_of_run (run : Run Startup.Step startupInit log t) : t.Inv log :=
  run.invariant (fun log s => s.Inv log) Startup.inv_init fun _ _ _ _ _ h hstep => h.step hstep

/-- The poller starts, and `udpdk_init` returns 0, only after all attempts of the wait before
it have failed. -/
theorem timed_out (run : Run Startup.Step startupInit log t) (p : Party)
    (hover : .waitOver p ∈ log) : waitMaxCycles < log.count (.attempted p none) :=
  (Startup.inv_of_run run).exhausted p hover

/-- A poller that waits while its ring is empty comes to its last attempt. -/
theorem Startup.exists_run_attempts (s : Startup) {q : BoundedQueue ℕ}
    (hring : s.zone.ipcRing .app = some q) (hq : q.items = []) (n : ℕ) (hn : n ≤ waitMaxCycles) :
    ∃ log, Run Startup.Step { s with poller := .wait (.dequeue 0) } log
        { s with poller := .wait (.dequeue n) } ∧
      ∀ a ∈ log, a = .internal ∨ a = .attempted .poller none := by
  induction n with
  | zero => exact ⟨[], .nil, fun a h => by cases h⟩
  -- one more round: an attempt that fails, and a sleep after which the wait does not give up yet
  | succ n ih =>
    obtain ⟨log, run, hlog⟩ := ih (Nat.le_of_succ_le hn)
    have hdequeue : q.dequeue = none := BoundedQueue.dequeue_eq_none_iff.mpr hq
    have hattempt : Startup.Step (.attempted .poller none) { s with poller := .wait (.dequeue n) }
        { s with poller := .wait (.usleep n) } :=
      ⟨.poller, true, by
        simp [Startup.step, pollerInit, ipcWaitForApp, ipcWait, Party.peer, hring, hdequeue]⟩
    have hsleep : Startup.Step .internal { s with poller := .wait (.usleep n) }
        { s with poller := .wait (.dequeue (n + 1)) } :=
      ⟨.poller, true, by
        simp [Startup.step, pollerInit, ipcWaitForApp, ipcWait, Nat.not_lt_of_le hn]⟩
    refine ⟨log ++ [.attempted .poller none] ++ [.internal],
      (run.snoc hattempt).snoc hsleep, fun a ha => ?_⟩
    simp only [List.mem_append, List.mem_singleton] at ha
    obtain (ha | ha) | ha := ha
    · exact hlog a ha
    · exact .inr ha
    · exact .inl ha

/-- It then goes past its wait. -/
theorem Startup.exists_run_proceeded (s : Startup) {q : BoundedQueue ℕ}
    (hring : s.zone.ipcRing .app = some q) (hq : q.items = []) :
    ∃ log, Run Startup.Step { s with poller := .wait (.dequeue 0) } (log ++ [.proceeded])
        { s with poller := .setupAllocators } ∧
      ∀ a ∈ log, a = .internal ∨ a = .attempted .poller none := by
  obtain ⟨log, run, hlog⟩ := s.exists_run_attempts hring hq waitMaxCycles (Nat.le_refl _)
  have hdequeue : q.dequeue = none := BoundedQueue.dequeue_eq_none_iff.mpr hq
  have hattempt : Startup.Step (.attempted .poller none)
      { s with poller := .wait (.dequeue waitMaxCycles) }
      { s with poller := .wait (.usleep waitMaxCycles) } :=
    ⟨.poller, true, by
      simp [Startup.step, pollerInit, ipcWaitForApp, ipcWait, Party.peer, hring, hdequeue]⟩
  have hover : Startup.Step .proceeded { s with poller := .wait (.usleep waitMaxCycles) }
      { s with poller := .setupAllocators } :=
    ⟨.poller, true, by simp [Startup.step, pollerInit, ipcWaitForApp, ipcWait]⟩
  refine ⟨log ++ [.attempted .poller none], (run.snoc hattempt).snoc hover, fun a ha => ?_⟩
  obtain ha | ha := List.mem_append.mp ha
  · exact hlog a ha
  · exact .inr (List.mem_singleton.mp ha)

/-! ## The handshake -/

/-- **The handshake.** It works in exactly the runs in which the application has not made its
notification and the poller has not gone past its wait. -/
theorem handshake_iff (run : Run Startup.Step startupInit log t) :
    Handshake log ↔ ∀ a ∈ log, a.decisive = false := by
  have inv := Startup.inv_of_run run
  constructor
  · intro works a ha
    -- a notification into an empty ring would be stored, but it is refused
    have hnone : ∀ p msg empty stored, .posted p msg empty stored ∉ log := by
      intro p msg empty stored hmem
      obtain ⟨rfl, rfl⟩ := inv.refused p msg empty stored hmem
      obtain ⟨before, after, hlog⟩ := List.append_of_mem hmem
      cases (works.received before after p msg false hlog).1
    cases a with
    | posted p msg empty stored => exact absurd ha (hnone p msg empty stored)
    | proceeded =>
      obtain ⟨before, after, hlog⟩ := List.append_of_mem ha
      obtain ⟨msg, empty, stored, hmem⟩ := works.started before after hlog
      exact absurd (hlog ▸ List.mem_append_left _ hmem) (hnone .app msg empty stored)
    | internal => rfl
    | attempted p got => rfl
    | initReturned ret => rfl
  · intro quiet
    have hproceeded : .proceeded ∉ log := by
      intro hmem
      cases quiet _ hmem
    have happ : ∀ msg empty stored, .posted .app msg empty stored ∉ log := by
      intro msg empty stored hmem
      cases quiet _ hmem
    exact {
      started := by
        rintro before after rfl
        exact absurd (List.mem_append_right _ List.mem_cons_self) hproceeded
      completed := by
        rintro before after rfl
        obtain ⟨msg, hmem⟩ := inv.completed (List.mem_append_right _ List.mem_cons_self)
        exact absurd hmem (happ msg true false)
      received := by
        rintro before after p msg stored rfl
        have hmem : .posted p msg true stored ∈ before ++ .posted p msg true stored :: after :=
          List.mem_append_right _ List.mem_cons_self
        -- the application posts nothing, and the poller answers only once it has proceeded
        cases p with
        | app => exact absurd hmem (happ msg true stored)
        | poller =>
          obtain ⟨-, rfl⟩ := inv.refused _ _ _ _ hmem
          exact absurd (inv.answered msg hmem) hproceeded }

/-- The application has created the channel, and the poller has found it. -/
def startupWaiting : Startup where
  zone := {
    ipcRing := Function.update (Function.update (fun _ => none) .app (some (rteRingCreate 1)))
      .poller (some (rteRingCreate 1))
    ipcMsgPool := some (List.range ipcMsgPoolSize)
    exchMemzone := false
    udpBindTable := false
    exchRings := false }
  app := .initExchMemzone
  poller := .wait (.dequeue 0)

theorem run_startupWaiting :
    Run Startup.Step startupInit (List.replicate 6 .internal) startupWaiting := by
  refine .cons ⟨.app, true, rfl⟩ (.cons ⟨.app, true, rfl⟩ (.cons ⟨.app, true, rfl⟩ ?_))
  refine .cons ⟨.app, true, rfl⟩ (.cons ⟨.poller, true, rfl⟩ (.cons ⟨.poller, true, rfl⟩ ?_))
  exact .nil

/-- An application that is slow enough is overtaken by the poller. -/
theorem not_handshake_of_slow : ∃ (log : List IpcHappened) (t : Startup),
    Run Startup.Step startupInit log t ∧ .proceeded ∈ log ∧
      (∀ msg empty stored, .posted .app msg empty stored ∉ log) ∧ ¬ Handshake log := by
  obtain ⟨log, run, hlog⟩ := startupWaiting.exists_run_proceeded rfl rfl
  have hrun := run_startupWaiting.append run
  have hproceeded : .proceeded ∈ List.replicate 6 .internal ++ (log ++ [.proceeded]) :=
    List.mem_append_right _ (List.mem_append_right _ (List.mem_singleton_self _))
  refine ⟨_, _, hrun, hproceeded, fun msg empty stored hmem => ?_, fun works => ?_⟩
  · obtain hmem | hmem := List.mem_append.mp hmem
    · cases List.eq_of_mem_replicate hmem
    · obtain hmem | hmem := List.mem_append.mp hmem
      · obtain h | h := hlog _ hmem
        · cases h
        · cases h
      · cases List.mem_singleton.mp hmem
  · cases (handshake_iff hrun).mp works _ hproceeded

/-- The notification of the application is lost, and the poller that waits gets nothing. -/
theorem not_handshake : ¬ ∀ (log : List IpcHappened) (t : Startup),
    Run Startup.Step startupInit log t → Handshake log := by
  intro h
  have hnotify : Run Startup.Step startupWaiting
      [.internal, .internal, .internal, .internal, .posted .app 0 true false,
        .attempted .poller none]
      { startupWaiting with
        zone := { startupWaiting.zone with
          ipcMsgPool := some [1, 2, 3, 4]
          exchMemzone := true
          udpBindTable := true
          exchRings := true }
        app := .notify (.put 0)
        poller := .wait (.usleep 0) } := by
    refine .cons ⟨.app, true, rfl⟩ (.cons ⟨.app, true, rfl⟩ (.cons ⟨.app, true, rfl⟩ ?_))
    refine .cons ⟨.app, true, rfl⟩ (.cons ⟨.app, true, rfl⟩ (.cons ⟨.poller, true, rfl⟩ ?_))
    exact .nil
  have works := h _ _ (run_startupWaiting.append hnotify)
  cases (works.received (List.replicate 10 .internal) [.attempted .poller none] .app 0 false rfl).1

end Udpdk
