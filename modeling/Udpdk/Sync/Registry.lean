import Udpdk.Sync.Basic

/-!
# The names of the start-up

The application creates its objects in shared memory one after the other, under names, and the
poller looks the names up. The stages of the start-up are taken apart into creations and look-ups,
which DPDK makes one at a time.

## Main definitions

* `getExchRingName` — the names of the exchange rings
* `InitPc.actions`, `PollerInitPc.actions` — what the two processes create and look up
* `Attach` — the start-up with the names and the handles of both processes
* `Attach.step` — one creation, one look-up, or a step of the handshake

## Main results

* `getExchRingName_injective` — different rings have different names
* `startup_of_attach` — without the names this is the start-up of the handshake
-/

namespace Udpdk

open Foundation

/-! ## Names -/

/-- `enum exch_ring_func`. -/
inductive ExchRingFunc
  | rx | tx
  deriving DecidableEq, Repr

/-- `snprintf` of one `%u` between two texts, to a buffer of `size` bytes. -/
def snprintfUnsigned (size : ℕ) (before after : List Char) (value : ℕ) : List Char :=
  (before ++ Nat.toDigits 10 value ++ after).take (size - 1)

/-- The text of `EXCH_RX_RING_NAME` and of `EXCH_TX_RING_NAME` before `%u`. -/
def exchRingPrefix : List Char := "UDPDK_exchange_ring_".toList

/-- The text behind `%u`. -/
def ExchRingFunc.suffix : ExchRingFunc → List Char
  | .rx => "_RX".toList
  | .tx => "_TX".toList

/-- `sizeof(EXCH_RX_RING_NAME) + 8`. -/
def exchRingBufferSize : ℕ := 26 + 8

/-- `get_exch_ring_name`, which the two processes have a copy of each. -/
def getExchRingName (id : ℕ) (func : ExchRingFunc) : List Char :=
  snprintfUnsigned exchRingBufferSize exchRingPrefix func.suffix id

theorem ExchRingFunc.length_suffix (func : ExchRingFunc) : func.suffix.length = 3 := by
  cases func <;> decide

theorem getExchRingName_eq {id : ℕ} (hid : id < 2 ^ 32) (func : ExchRingFunc) :
    getExchRingName id func = exchRingPrefix ++ Nat.toDigits 10 id ++ func.suffix := by
  have hdigits : (Nat.toDigits 10 id).length ≤ 10 :=
    (Nat.length_toDigits_le_iff (by decide) (by decide)).mpr (by omega)
  have hprefix : exchRingPrefix.length = 20 := by decide
  refine List.take_of_length_le ?_
  rw [List.length_append, List.length_append, hprefix, func.length_suffix]
  exact Nat.add_le_add_right (Nat.add_le_add_left hdigits 20) 3

/-- Different rings have different names. -/
theorem getExchRingName_injective {id id' : ℕ} {func func' : ExchRingFunc} (hid : id < 2 ^ 32)
    (hid' : id' < 2 ^ 32) (h : getExchRingName id func = getExchRingName id' func') :
    id = id' ∧ func = func' := by
  rw [getExchRingName_eq hid, getExchRingName_eq hid', List.append_assoc, List.append_assoc] at h
  have hsuffix : func.suffix.length = func'.suffix.length :=
    func.length_suffix.trans func'.length_suffix.symm
  obtain ⟨hdigits, hfunc⟩ := List.append_inj' (List.append_cancel_left h) hsuffix
  have hvalue := congrArg (fun ds => Nat.ofDigitChars 10 ds 0) hdigits
  simp only [Nat.ofDigitChars_ten_toDigits] at hvalue
  refine ⟨hvalue, ?_⟩
  cases func <;> cases func' <;> first | rfl | exact absurd hfunc (by decide)

/-- The registries of DPDK. -/
inductive ShmKind
  | memzone | mempool | ring
  deriving DecidableEq, Repr

/-- An object in shared memory is known by its kind and its name. -/
structure ShmName where
  kind : ShmKind
  name : List Char
  deriving DecidableEq, Repr

namespace ShmName

def listAlloc : ShmName := ⟨.memzone, "udpdk_list_t_alloc".toList⟩
def listNodeAlloc : ShmName := ⟨.memzone, "udpdk_list_node_t_alloc".toList⟩
def listIteratorAlloc : ShmName := ⟨.memzone, "udpdk_list_iterator_t_alloc".toList⟩
def bindInfoAlloc : ShmName := ⟨.memzone, "bind_info_alloc".toList⟩

/-- `EXCH_MEMZONE_NAME`. -/
def exchMemzone : ShmName := ⟨.memzone, "UDPDK_exchange_desc".toList⟩

/-- `UDP_BIND_TABLE_NAME`. -/
def udpBindTable : ShmName := ⟨.memzone, "UDPDK_btable".toList⟩

/-- `PKTMBUF_POOL_RX_NAME`. -/
def rxPool : ShmName := ⟨.mempool, "UDPDK_mbuf_pool_RX".toList⟩

/-- `PKTMBUF_POOL_TX_NAME`. -/
def txPool : ShmName := ⟨.mempool, "UDPDK_mbuf_pool_TX".toList⟩

/-- `PKTMBUF_POOL_DIRECT_TX_NAME`. -/
def directPool : ShmName := ⟨.mempool, "UDPDK_mbuf_pool_direct_TX".toList⟩

/-- `PKTMBUF_POOL_INDIRECT_TX_NAME`. -/
def indirectPool : ShmName := ⟨.mempool, "UDPDK_mbuf_pool_indir_TX".toList⟩

/-- A ring of slot `i`. -/
def exchRing (func : ExchRingFunc) (i : ℕ) : ShmName := ⟨.ring, getExchRingName i func⟩

theorem exchRing_inj {i j : ℕ} {func func' : ExchRingFunc} (hi : i < numSocketsMax)
    (hj : j < numSocketsMax) (h : exchRing func i = exchRing func' j) : i = j ∧ func = func' := by
  have hmax : numSocketsMax < 2 ^ 32 := by decide
  exact getExchRingName_injective (hi.trans hmax) (hj.trans hmax) (congrArg ShmName.name h)

end ShmName

/-! ## The two processes -/

/-- What `udpdk_init` does in one step of a stage. -/
inductive InitAction
  /-- something that only this process gets hold of: EAL, memory, ports -/
  | own
  /-- an object is created, and then `udpdk_init` fails if it has no handle of one of `checks` -/
  | create (n : ShmName) (checks : List ShmName)
  deriving DecidableEq

/-- The object is created, and it is looked at whether that has worked. -/
def InitAction.checked (n : ShmName) : InitAction := .create n [n]

/-- The names that `udpdk_init` has looked at after the step. -/
def InitAction.checks : InitAction → List ShmName
  | .own => []
  | .create _ checks => checks

/-- The names that the step creates. -/
def InitAction.names : InitAction → List ShmName
  | .own => []
  | .create n _ => [n]

/-- Both rings of a slot are created before it is looked at whether that has worked. -/
def initExchangeSlot (i : ℕ) : List InitAction :=
  [.create (.exchRing .rx i) [],
    .create (.exchRing .tx i) [.exchRing .rx i, .exchRing .tx i]]

/-- What the stages of `udpdk_init` consist of. The stages of the handshake are not taken apart. -/
def InitPc.actions : InitPc → List InitAction
  -- `rte_eal_init`, `udpdk_list_init`, `init_mbuf_pools`, `init_port`
  | .prepare => [.own, .create .listAlloc [], .create .listNodeAlloc [],
    .create .listIteratorAlloc [], .checked .rxPool, .checked .txPool, .checked .directPool,
    .checked .indirectPool, .own]
  | .initExchMemzone => [.checked .exchMemzone]
  -- the result of `udpdk_init_allocator` is not looked at
  | .initUdpBindTable => [.checked .udpBindTable, .create .bindInfoAlloc []]
  | .initExchangeSlots => .own :: (List.range numSocketsMax).flatMap initExchangeSlot
  | _ => []

/-- What `poller_init` does in one step of a stage. -/
inductive PollerAction
  /-- something that only this process gets hold of -/
  | own
  | lookup (n : ShmName)
  deriving DecidableEq

/-- What the stages of `poller_init` consist of. -/
def PollerInitPc.actions : PollerInitPc → List PollerAction
  | .setupAllocators => [.lookup .bindInfoAlloc, .lookup .listAlloc, .lookup .listNodeAlloc,
    .lookup .listIteratorAlloc]
  | .setupQueues => [.lookup .rxPool, .own, .lookup .directPool, .lookup .indirectPool]
  | .setupExchZone => .lookup .exchMemzone :: .own ::
    (List.range numSocketsMax).flatMap fun i =>
      [.lookup (.exchRing .rx i), .lookup (.exchRing .tx i)]
  | .setupUdpTable => [.lookup .udpBindTable]
  | _ => []

/-- The start-up with the registries of DPDK. Objects are numbered as they are created. -/
structure Attach where
  startup : Startup
  registry : ShmName → Option ℕ
  nextObject : ℕ
  /-- the steps that the application has made in its stage -/
  made : ℕ
  /-- the steps that the poller has made in its stage -/
  found : ℕ
  appHandle : ShmName → Option ℕ
  pollerHandle : ShmName → Option ℕ

def attachInit : Attach where
  startup := startupInit
  registry _ := none
  nextObject := 0
  made := 0
  found := 0
  appHandle _ := none
  pollerHandle _ := none

namespace Attach

/-- An object is created, unless `ok` says otherwise or there is one of its name. -/
def create (s : Attach) (n : ShmName) (ok : Bool) : Attach :=
  if ok && (s.registry n).isNone then
    { s with
      registry := Function.update s.registry n (some s.nextObject)
      nextObject := s.nextObject + 1
      appHandle := Function.update s.appHandle n (some s.nextObject) }
  else { s with appHandle := Function.update s.appHandle n none }

/-- The application does `act`; `false` when it gives up. -/
def initAction (ok : Bool) (s : Attach) : InitAction → Attach × Bool
  | .own => (s, ok)
  | .create n checks =>
    (s.create n ok, checks.all fun m => ((s.create n ok).appHandle m).isSome)

/-- The poller does `act`; `false` when it gives up. -/
def pollerAction (ok : Bool) (s : Attach) : PollerAction → Attach × Bool
  | .own => (s, ok)
  | .lookup n =>
    ({ s with pollerHandle := Function.update s.pollerHandle n (s.registry n) },
      (s.registry n).isSome)

def enter (p : Party) (s : Attach) (z : Startup) : Attach :=
  match p with
  | .app => { s with startup := z, made := 0 }
  | .poller => { s with startup := z, found := 0 }

def stage (p : Party) (ok : Bool) (s : Attach) : Option (Option IpcHappened × Attach) :=
  (s.startup.step p ok).map fun r => (some r.1, s.enter p r.2)

/-- One step of the process `p`. A stage is over with its last action, or with one that fails. -/
def step (p : Party) (ok : Bool) (s : Attach) : Option (Option IpcHappened × Attach) :=
  match p with
  | .app =>
    match s.startup.app.actions[s.made]? with
    | none => s.stage .app ok
    | some act =>
      let (s', done) := s.initAction ok act
      if done && s.made + 1 < s.startup.app.actions.length then
        some (none, { s' with made := s.made + 1 })
      else s'.stage .app done
  | .poller =>
    match s.startup.poller.actions[s.found]? with
    | none => s.stage .poller ok
    | some act =>
      let (s', done) := s.pollerAction ok act
      if done && s.found + 1 < s.startup.poller.actions.length then
        some (none, { s' with found := s.found + 1 })
      else s'.stage .poller done

end Attach

/-- One step of a process: who makes it, what is decided outside, and what it is to the
handshake. -/
structure AttachEvent where
  party : Party
  ok : Bool
  happened : Option IpcHappened

def AttachEvent.Step (a : AttachEvent) (s t : Attach) : Prop :=
  s.step a.party a.ok = some (a.happened, t)

/-! ## The steps -/

section Steps

variable {s s' t : Attach} {ok done : Bool} {a : Option IpcHappened} {p : Party}

theorem Attach.of_stage (h : s.stage p ok = some (a, t)) :
    ∃ b z, s.startup.step p ok = some (b, z) ∧ a = some b ∧ t = s.enter p z := by
  obtain ⟨⟨b, z⟩, hstep, hr⟩ := Option.map_eq_some_iff.mp h
  obtain ⟨rfl, rfl⟩ := Prod.mk.inj hr
  exact ⟨b, z, hstep, rfl, rfl⟩

/-- What a step of the application is. -/
theorem Attach.step_app (h : s.step .app ok = some (a, t)) :
    (s.startup.app.actions[s.made]? = none ∧ s.stage .app ok = some (a, t)) ∨
      ∃ act s' done, s.startup.app.actions[s.made]? = some act ∧ s.initAction ok act = (s', done) ∧
        ((done = true ∧ s.made + 1 < s.startup.app.actions.length ∧ a = none ∧
            t = { s' with made := s.made + 1 }) ∨
          ((done = true → s.startup.app.actions.length ≤ s.made + 1) ∧
            s'.stage .app done = some (a, t))) := by
  unfold Attach.step at h
  dsimp only at h
  cases hact : s.startup.app.actions[s.made]? with
  | none =>
    rw [hact] at h
    exact .inl ⟨rfl, h⟩
  | some act =>
    rw [hact] at h
    obtain ⟨⟨s', done⟩, hs'⟩ : ∃ r, s.initAction ok act = r := ⟨_, rfl⟩
    dsimp only at h
    rw [hs'] at h
    refine .inr ⟨act, s', done, rfl, hs', ?_⟩
    dsimp only at h
    split at h
    · rename_i hmore
      rw [Bool.and_eq_true, decide_eq_true_iff] at hmore
      obtain ⟨rfl, rfl⟩ := Prod.mk.inj (Option.some.inj h)
      exact .inl ⟨hmore.1, hmore.2, rfl, rfl⟩
    · rename_i hlast
      rw [Bool.and_eq_true, decide_eq_true_iff, not_and, not_lt] at hlast
      exact .inr ⟨hlast, h⟩

/-- What a step of the poller is. -/
theorem Attach.step_poller (h : s.step .poller ok = some (a, t)) :
    (s.startup.poller.actions[s.found]? = none ∧ s.stage .poller ok = some (a, t)) ∨
      ∃ act s' done, s.startup.poller.actions[s.found]? = some act ∧
        s.pollerAction ok act = (s', done) ∧
        ((done = true ∧ s.found + 1 < s.startup.poller.actions.length ∧ a = none ∧
            t = { s' with found := s.found + 1 }) ∨
          ((done = true → s.startup.poller.actions.length ≤ s.found + 1) ∧
            s'.stage .poller done = some (a, t))) := by
  unfold Attach.step at h
  dsimp only at h
  cases hact : s.startup.poller.actions[s.found]? with
  | none =>
    rw [hact] at h
    exact .inl ⟨rfl, h⟩
  | some act =>
    rw [hact] at h
    obtain ⟨⟨s', done⟩, hs'⟩ : ∃ r, s.pollerAction ok act = r := ⟨_, rfl⟩
    dsimp only at h
    rw [hs'] at h
    refine .inr ⟨act, s', done, rfl, hs', ?_⟩
    dsimp only at h
    split at h
    · rename_i hmore
      rw [Bool.and_eq_true, decide_eq_true_iff] at hmore
      obtain ⟨rfl, rfl⟩ := Prod.mk.inj (Option.some.inj h)
      exact .inl ⟨hmore.1, hmore.2, rfl, rfl⟩
    · rename_i hlast
      rw [Bool.and_eq_true, decide_eq_true_iff, not_and, not_lt] at hlast
      exact .inr ⟨hlast, h⟩

theorem Attach.startup_initAction {act : InitAction} (h : s.initAction ok act = (s', done)) :
    s'.startup = s.startup := by
  cases act with
  | own =>
    obtain ⟨rfl, -⟩ := Prod.mk.inj h
    rfl
  | create n checks =>
    obtain ⟨rfl, -⟩ := Prod.mk.inj h
    unfold Attach.create
    split
    · rfl
    · rfl

theorem Attach.startup_pollerAction {act : PollerAction}
    (h : s.pollerAction ok act = (s', done)) : s'.startup = s.startup := by
  cases act with
  | own | lookup =>
    obtain ⟨rfl, -⟩ := Prod.mk.inj h
    rfl

/-- A step within a stage leaves the start-up alone, and a stage ends with a step of it. -/
theorem AttachEvent.Step.startup {e : AttachEvent} (h : e.Step s t) :
    (e.happened = none ∧ t.startup = s.startup) ∨
      ∃ b, e.happened = some b ∧ Startup.Step b s.startup t.startup := by
  obtain ⟨p, ok, a⟩ := e
  have hstage : ∀ {s' : Attach} {ok : Bool}, s'.startup = s.startup →
      s'.stage p ok = some (a, t) → ∃ b, a = some b ∧ Startup.Step b s.startup t.startup := by
    intro s' ok hs' h
    obtain ⟨b, z, hstep, rfl, rfl⟩ := Attach.of_stage h
    rw [hs'] at hstep
    refine ⟨b, rfl, p, ok, ?_⟩
    cases p <;> exact hstep
  cases p with
  | app =>
    rcases Attach.step_app h with ⟨-, h⟩ | ⟨act, s', done, -, hs', ⟨-, -, rfl, rfl⟩ | ⟨-, h⟩⟩
    · exact .inr (hstage rfl h)
    · have hsame := Attach.startup_initAction hs'
      exact .inl ⟨rfl, hsame⟩
    · exact .inr (hstage (Attach.startup_initAction hs') h)
  | poller =>
    rcases Attach.step_poller h with ⟨-, h⟩ | ⟨act, s', done, -, hs', ⟨-, -, rfl, rfl⟩ | ⟨-, h⟩⟩
    · exact .inr (hstage rfl h)
    · have hsame := Attach.startup_pollerAction hs'
      exact .inl ⟨rfl, hsame⟩
    · exact .inr (hstage (Attach.startup_pollerAction hs') h)

/-- Without the names this is the start-up of the handshake. -/
theorem startup_of_attach {log : List AttachEvent} (run : Run AttachEvent.Step attachInit log s) :
    Run Startup.Step startupInit (log.filterMap AttachEvent.happened) s.startup := by
  refine run.filterMap (f := Attach.startup) (fun e b s t h hb => ?_) fun e s t h hnone => ?_
  · rcases h.startup with ⟨hnone, -⟩ | ⟨b', hb', hstep⟩
    · rw [hnone] at hb
      cases hb
    · rw [hb] at hb'
      exact Option.some.inj hb' ▸ hstep
  · rcases h.startup with ⟨-, hsame⟩ | ⟨b, hb, -⟩
    · exact hsame
    · rw [hnone] at hb
      cases hb

end Steps

end Udpdk
