import Udpdk.Sync.Attach

/-!
# A poller that starts

A poller that looks for the objects of the application after all of them have been created finds
them. And there is a start in which nothing fails: what `udpdk_init` looks at it has created
before, and the poller gives up its wait for a notification in the end.

## Main definitions

* `Attach.Late` — everything is there when the poller looks
* `Leads` — what the start-up gets to while everything works

## Main results

* `attach_complete` — a poller that looks after all creations does not give up
* `exists_run_late`, `Attach.Late.exists_run_ready` — the start in which nothing fails
-/

namespace Udpdk

open Foundation

/-! ## Look-ups that come late enough -/

/-- What the start-up of the handshake knows to be created: the exchange zone, the bind table and
the exchange rings. -/
def StartupZone.made (Z : StartupZone) : Bool × Bool × Bool :=
  (Z.exchMemzone, Z.udpBindTable, Z.exchRings)

/-- What is created when the application is at `pc`. -/
def StartupZone.MadeAt (Z : StartupZone) (pc : InitPc) : Prop :=
  match pc with
  | .initUdpBindTable => Z.made.1
  | .initExchangeSlots => Z.made.1 ∧ Z.made.2.1
  | pc => pc.created → Z.made = (true, true, true)

section Made

variable {Z Z' : StartupZone} {p : Party} {ok : Bool} {b : IpcHappened}

theorem made_of_mempoolPut {msg : ℕ} (h : Z.mempoolPut msg = some Z') : Z'.made = Z.made := by
  unfold StartupZone.mempoolPut at h
  split at h
  · obtain rfl := Option.some.inj h
    rfl
  · cases h

/-- A wait creates nothing. -/
theorem made_ipcWait {pc : WaitPc} {c : Called WaitPc ℤ} (h : ipcWait p Z pc = (b, Z', c)) :
    Z'.made = Z.made := by
  unfold ipcWait at h
  split at h
  · split at h
    · obtain ⟨-, h⟩ := Prod.mk.inj h
      obtain ⟨rfl, -⟩ := Prod.mk.inj h
      rfl
    · split at h
      all_goals
        obtain ⟨-, h⟩ := Prod.mk.inj h
        obtain ⟨rfl, -⟩ := Prod.mk.inj h
        rfl
  · split at h
    all_goals
      obtain ⟨-, h⟩ := Prod.mk.inj h
      obtain ⟨rfl, -⟩ := Prod.mk.inj h
      rfl
  · split at h
    · obtain ⟨-, h⟩ := Prod.mk.inj h
      obtain ⟨rfl, -⟩ := Prod.mk.inj h
      rfl
    · rename_i Z₁ hput
      obtain ⟨-, h⟩ := Prod.mk.inj h
      obtain ⟨rfl, -⟩ := Prod.mk.inj h
      exact made_of_mempoolPut hput

/-- A notification creates nothing. -/
theorem made_ipcNotify {pc : NotifyPc} {c : Called NotifyPc Unit}
    (h : ipcNotify p Z pc = (b, Z', c)) : Z'.made = Z.made := by
  unfold ipcNotify at h
  split at h
  · split at h
    · obtain ⟨-, h⟩ := Prod.mk.inj h
      obtain ⟨rfl, -⟩ := Prod.mk.inj h
      rfl
    · rename_i msg Z₁ hget
      obtain ⟨-, h⟩ := Prod.mk.inj h
      obtain ⟨rfl, -⟩ := Prod.mk.inj h
      unfold StartupZone.mempoolGet at hget
      split at hget
      · obtain ⟨-, rfl⟩ := Prod.mk.inj (Option.some.inj hget)
        rfl
      · cases hget
  · split at h
    · obtain ⟨-, h⟩ := Prod.mk.inj h
      obtain ⟨rfl, -⟩ := Prod.mk.inj h
      rfl
    · split at h
      all_goals
        obtain ⟨-, h⟩ := Prod.mk.inj h
        obtain ⟨rfl, -⟩ := Prod.mk.inj h
        rfl
  · split at h
    · obtain ⟨-, h⟩ := Prod.mk.inj h
      obtain ⟨rfl, -⟩ := Prod.mk.inj h
      rfl
    · rename_i Z₁ hput
      obtain ⟨-, h⟩ := Prod.mk.inj h
      obtain ⟨rfl, -⟩ := Prod.mk.inj h
      exact made_of_mempoolPut hput

/-- `poller_init` creates nothing of this. -/
theorem made_pollerInit {pc pc' : PollerInitPc} (h : pollerInit ok Z pc = some (b, Z', pc')) :
    Z'.made = Z.made := by
  cases pc with
  | wait pc =>
    unfold pollerInit at h
    dsimp only at h
    split at h
    all_goals
      rename_i hwait
      obtain ⟨-, h⟩ := Prod.mk.inj (Option.some.inj h)
      obtain ⟨rfl, -⟩ := Prod.mk.inj h
      exact made_ipcWait hwait
  | notify pc =>
    unfold pollerInit at h
    dsimp only at h
    split at h
    all_goals
      rename_i hnotify
      obtain ⟨-, h⟩ := Prod.mk.inj (Option.some.inj h)
      obtain ⟨rfl, -⟩ := Prod.mk.inj h
      exact made_ipcNotify hnotify
  | returned | died => cases h
  | _ =>
    obtain ⟨-, h⟩ := Prod.mk.inj (Option.some.inj h)
    obtain ⟨rfl, -⟩ := Prod.mk.inj h
    rfl

/-- `udpdk_init` creates one after the other. -/
theorem madeAt_udpdkInit {pc pc' : InitPc} (made : Z.MadeAt pc)
    (h : udpdkInit ok Z pc = some (b, Z', pc')) : Z'.MadeAt pc' := by
  have hfail : ∀ {next : InitPc} {Z₁ : StartupZone},
      InitPc.orFail ok Z Z₁ next = some (b, Z', pc') → Z₁.MadeAt next → Z'.MadeAt pc' := by
    intro next Z₁ h hnext
    unfold InitPc.orFail at h
    split at h
    · obtain ⟨-, h⟩ := Prod.mk.inj (Option.some.inj h)
      obtain ⟨rfl, rfl⟩ := Prod.mk.inj h
      exact hnext
    · obtain ⟨-, h⟩ := Prod.mk.inj (Option.some.inj h)
      obtain ⟨rfl, rfl⟩ := Prod.mk.inj h
      exact nofun
  cases pc with
  | prepare => exact hfail h nofun
  | createRing p => cases p <;> exact hfail h nofun
  | createMsgPool =>
    obtain ⟨-, h⟩ := Prod.mk.inj (Option.some.inj h)
    obtain ⟨rfl, rfl⟩ := Prod.mk.inj h
    exact nofun
  | initExchMemzone => exact hfail h rfl
  | initUdpBindTable => exact hfail h ⟨made, rfl⟩
  | initExchangeSlots => exact hfail h fun _ => Prod.ext made.1 (Prod.ext made.2 rfl)
  | notify pc =>
    unfold udpdkInit at h
    dsimp only at h
    split at h
    all_goals
      rename_i hnotify
      obtain ⟨-, h⟩ := Prod.mk.inj (Option.some.inj h)
      obtain ⟨rfl, rfl⟩ := Prod.mk.inj h
      exact fun _ => (made_ipcNotify hnotify).trans (made rfl)
  | wait pc =>
    unfold udpdkInit at h
    dsimp only at h
    split at h
    all_goals
      rename_i hwait
      obtain ⟨-, h⟩ := Prod.mk.inj (Option.some.inj h)
      obtain ⟨rfl, rfl⟩ := Prod.mk.inj h
      exact fun _ => (made_ipcWait hwait).trans (made rfl)
  | returned | died => cases h

/-- In every run of the start-up. -/
theorem madeAt_of_run {log : List IpcHappened} {s : Startup}
    (run : Run Startup.Step startupInit log s) : s.zone.MadeAt s.app := by
  refine run.invariant (fun _ s => s.zone.MadeAt s.app) nofun ?_
  rintro - s b t - made ⟨p, ok, h⟩
  cases p with
  | app =>
    obtain ⟨⟨c, Z', pc'⟩, hinit, hr⟩ := Option.map_eq_some_iff.mp h
    obtain ⟨rfl, rfl⟩ := Prod.mk.inj hr
    exact madeAt_udpdkInit made hinit
  | poller =>
    obtain ⟨⟨c, Z', pc'⟩, hinit, hr⟩ := Option.map_eq_some_iff.mp h
    obtain ⟨rfl, rfl⟩ := Prod.mk.inj hr
    have hmade := made_pollerInit hinit
    have hsame : ∀ pc : InitPc, Z'.MadeAt pc = s.zone.MadeAt pc := fun pc => by
      unfold StartupZone.MadeAt
      rw [hmade]
    exact hsame s.app ▸ made

end Made

/-- `poller_init` is behind its wait, and has not given up. -/
def PollerInitPc.settingUp : PollerInitPc → Bool
  | .setupAllocators | .setupQueues | .setupExchZone | .setupUdpTable | .notify _ | .died => true
  | .returned ret => ret != -1
  | _ => false

/-- Every name in a stage of the poller is one of all names. -/
theorem PollerInitPc.lookup_mem {pc : PollerInitPc} {n : ShmName}
    (h : PollerAction.lookup n ∈ pc.actions) : n ∈ sharedNames := by
  have hmem : PollerAction.lookup n ∈ pollerActions := by
    unfold pollerActions
    cases pc with
    | setupAllocators => exact List.mem_append_left _ h
    | setupQueues => exact List.mem_append_right _ (List.mem_append_left _ h)
    | setupExchZone =>
      exact List.mem_append_right _ (List.mem_append_right _ (List.mem_append_left _ h))
    | setupUdpTable =>
      exact List.mem_append_right _ (List.mem_append_right _ (List.mem_append_right _ h))
    | _ => cases h
  exact (mem_pollerActions.mp
    (List.mem_flatMap.mpr ⟨_, hmem, List.mem_singleton_self n⟩)).1

/-- With everything created, a stage that ends well leads to the next one. -/
theorem settingUp_of_stage {Z Z' : StartupZone} {ok : Bool} {pc pc' : PollerInitPc}
    {b : IpcHappened} (made : Z.made = (true, true, true)) (hpc : pc.settingUp)
    (hok : pc.actions ≠ [] → ok = true) (h : pollerInit ok Z pc = some (b, Z', pc')) :
    pc'.settingUp := by
  obtain ⟨hexch, hrest⟩ := Prod.mk.inj made
  obtain ⟨hudp, hrings⟩ := Prod.mk.inj hrest
  cases pc with
  | setupAllocators | setupQueues =>
    obtain rfl := hok (by simp [PollerInitPc.actions])
    obtain ⟨-, h⟩ := Prod.mk.inj (Option.some.inj h)
    obtain ⟨-, rfl⟩ := Prod.mk.inj h
    rfl
  | setupExchZone | setupUdpTable =>
    obtain rfl := hok (by simp [PollerInitPc.actions])
    obtain ⟨-, h⟩ := Prod.mk.inj (Option.some.inj h)
    obtain ⟨-, rfl⟩ := Prod.mk.inj h
    simp [hexch, hudp, hrings, PollerInitPc.settingUp]
  | notify pc =>
    unfold pollerInit at h
    dsimp only at h
    split at h
    all_goals
      obtain ⟨-, h⟩ := Prod.mk.inj (Option.some.inj h)
      obtain ⟨-, rfl⟩ := Prod.mk.inj h
      rfl
  | returned | died => cases h
  | _ => cases hpc

/-- Everything is there, and the poller is looking it up. -/
structure Attach.Late (s : Attach) : Prop where
  inv : s.Inv
  found : s.Found
  shared : ∀ n ∈ sharedNames, s.registry n ≠ none
  made : s.startup.zone.MadeAt s.startup.app
  poller : s.startup.poller.settingUp

/-- A stage of the poller ends, when everything is there. -/
theorem Attach.settingUp_of_stage {s t : Attach} {ok : Bool} {a : Option IpcHappened}
    (hmade : s.startup.zone.made = (true, true, true)) (hpoller : s.startup.poller.settingUp)
    (hok : s.startup.poller.actions ≠ [] → ok = true) (h : s.stage .poller ok = some (a, t)) :
    t.startup.poller.settingUp := by
  obtain ⟨b, z, hstep, -, rfl⟩ := Attach.of_stage h
  obtain ⟨⟨c, Z', pc'⟩, hinit, hr⟩ := Option.map_eq_some_iff.mp hstep
  obtain ⟨-, rfl⟩ := Prod.mk.inj hr
  exact Udpdk.settingUp_of_stage hmade hpoller hok hinit

/-- No step of the poller fails any more, unless it gets hold of too little itself. -/
theorem Attach.Late.step {s t : Attach} {e : AttachEvent} (late : s.Late)
    (hok : e.party = .poller → e.ok = true) (hmade : t.startup.zone.MadeAt t.startup.app)
    (h : e.Step s t) : t.Late := by
  obtain ⟨inv', found'⟩ := late.inv.step late.found h
  obtain ⟨p, ok, a⟩ := e
  cases p with
  | app =>
    obtain ⟨hpoller, -, -, hkept⟩ := late.inv.kept_of_app h
    refine ⟨inv', found', fun n hn => ?_, hmade, hpoller ▸ late.poller⟩
    have hn := late.shared n hn
    rw [hkept n hn]
    exact hn
  | poller =>
    obtain rfl : ok = true := hok rfl
    have hlast : ∀ func, s.registry (lastRing func) ≠ none := fun func =>
      late.shared _ (List.mem_append_right _
        (mem_ringNames.mpr ⟨numSocketsMax - 1, by decide, func, rfl⟩))
    have hcreated := late.inv.created (hlast .rx) (hlast .tx)
    have hall : s.startup.zone.made = (true, true, true) := by
      have hmade := late.made
      cases hpc : s.startup.app with
      | notify | wait | died | returned =>
        rw [hpc] at hmade hcreated
        exact hmade hcreated
      | _ => rw [hpc] at hcreated; cases hcreated
    have hregistry : ∀ {s' : Attach} {ok : Bool}, s'.stage .poller ok = some (a, t) →
        t.registry = s'.registry := by
      intro s' ok h
      obtain ⟨b, z, -, -, rfl⟩ := Attach.of_stage h
      rfl
    rcases Attach.step_poller h with ⟨hnone, h⟩ | ⟨act, s', done, hact, hs', hrest⟩
    · have hnil : s.startup.poller.actions = [] :=
        late.found.found.resolve_right (not_lt.mpr (List.getElem?_eq_none_iff.mp hnone))
      exact ⟨inv', found', hregistry h ▸ late.shared, hmade,
        Attach.settingUp_of_stage hall late.poller (fun hne => absurd hnil hne) h⟩
    · -- whatever is looked up is there
      have hdone : done = true ∧ s'.registry = s.registry := by
        cases act with
        | own =>
          obtain ⟨rfl, rfl⟩ := Prod.mk.inj hs'
          exact ⟨rfl, rfl⟩
        | lookup n =>
          obtain ⟨rfl, rfl⟩ := Prod.mk.inj hs'
          have hmem := PollerInitPc.lookup_mem (List.mem_of_getElem? hact)
          exact ⟨Option.isSome_iff_ne_none.mpr (late.shared n hmem), rfl⟩
      obtain ⟨rfl, hsame⟩ := hdone
      have hstartup := Attach.startup_pollerAction hs'
      rcases hrest with ⟨-, -, -, rfl⟩ | ⟨-, h⟩
      · refine ⟨inv', found', hsame ▸ late.shared, hmade, ?_⟩
        dsimp only
        rw [hstartup]
        exact late.poller
      · refine ⟨inv', found', ?_, hmade,
          Attach.settingUp_of_stage (hstartup ▸ hall) (hstartup ▸ late.poller) (fun _ => rfl) h⟩
        rw [hregistry h, hsame]
        exact late.shared

/-- **A late poller starts.** Once the application has created everything, with the four allocators
that it does not look at, a poller that looks for them does not give up, unless it gets hold of too
little memory itself. -/
theorem attach_complete {s t : Attach} {log log' : List AttachEvent}
    (run : Run AttachEvent.Step attachInit log s) (created : s.startup.app.created)
    (unchecked : ∀ n ∈ uncheckedNames, s.registry n ≠ none)
    (settingUp : s.startup.poller.settingUp) (rest : Run AttachEvent.Step s log' t)
    (own : ∀ e ∈ log', e.party = .poller → e.ok = true) :
    t.startup.poller ≠ .returned (-1) := by
  obtain ⟨inv, found⟩ := Attach.inv_of_run run
  have hshared : ∀ n ∈ sharedNames, s.registry n ≠ none := by
    intro n hn
    rcases mem_checks hn with hchecks | hunchecked
    · exact inv.checked created n hchecks
    · exact unchecked n hunchecked
  have hlate : t.Late := by
    have hguarded : Run (fun e s t => AttachEvent.Step e s t ∧ (e.party = .poller → e.ok = true))
        s log' t := rest.guard fun e he _ => own e he
    refine hguarded.invariant (fun _ t => t.Late) ?_ ?_
    · exact ⟨inv, found, hshared, madeAt_of_run (startup_of_attach run), settingUp⟩
    · intro log t e u before late h
      have hrun := run.append (before.forget.snoc h.1)
      exact late.step h.2 (madeAt_of_run (startup_of_attach hrun)) h.1
  have hpoller := hlate.poller
  intro h
  rw [h] at hpoller
  cases hpoller

/-! ## A start in which nothing fails -/

section Start

variable {s : Attach}

/-- What is looked at has been created before, after `seen`. -/
inductive Supplied : List ShmName → List InitAction → Prop
  | nil (seen : List ShmName) : Supplied seen []
  | cons {seen : List ShmName} {act : InitAction} {rest : List InitAction}
      (checks : ∀ n ∈ act.checks, n ∈ seen ++ act.names)
      (next : Supplied (seen ++ act.names) rest) : Supplied seen (act :: rest)

theorem Supplied.of_append {seen : List ShmName} {xs ys : List InitAction} {act : InitAction}
    (h : Supplied seen (xs ++ act :: ys)) :
    ∀ n ∈ act.checks, n ∈ seen ++ (xs ++ [act]).flatMap InitAction.names := by
  induction xs generalizing seen with
  | nil =>
    rw [List.nil_append, List.flatMap_singleton]
    cases h with
    | cons checks next => exact checks
  | cons x xs ih =>
    rw [List.cons_append, List.flatMap_cons, ← List.append_assoc]
    cases h with
    | cons checks next => exact ih next

theorem Supplied.append {xs ys : List InitAction} {seen : List ShmName} (h : Supplied seen xs)
    (hys : ∀ seen, Supplied seen ys) : Supplied seen (xs ++ ys) := by
  induction h with
  | nil seen => exact hys seen
  | cons checks _ ih => exact .cons checks ih

/-- `udpdk_init` looks at nothing that it has not created. -/
theorem supplied_initActions : Supplied [] initActions := by
  have hself : ∀ {seen rest : List _} (n : ShmName), (∀ seen, Supplied seen rest) →
      Supplied seen (.checked n :: rest) := fun n h =>
    .cons (fun m hm => List.mem_append_right _ hm) (h _)
  have hnone : ∀ {seen rest : List _} (n : ShmName), (∀ seen, Supplied seen rest) →
      Supplied seen (.create n [] :: rest) := fun n h => .cons nofun (h _)
  have hown : ∀ {seen rest : List _}, (∀ seen, Supplied seen rest) →
      Supplied seen (.own :: rest) := fun h => .cons nofun (h _)
  have hslots : ∀ (l : List ℕ) (seen : List ShmName),
      Supplied seen (l.flatMap initExchangeSlot) := by
    intro l
    induction l with
    | nil => exact fun seen => .nil seen
    | cons i l ih =>
      intro seen
      rw [List.flatMap_cons]
      refine .cons nofun (.cons (fun n hn => ?_) (ih _))
      rcases List.mem_pair.mp hn with rfl | rfl
      · exact List.mem_append_left _ (List.mem_append_right _ (List.mem_singleton_self _))
      · exact List.mem_append_right _ (List.mem_singleton_self _)
  unfold initActions
  simp only [InitPc.actions]
  refine Supplied.append ?_ fun _ => Supplied.append ?_ fun _ => Supplied.append ?_ fun _ => ?_
  · exact hown fun _ => hnone _ fun _ => hnone _ fun _ => hnone _ fun _ => hself _ fun _ =>
      hself _ fun _ => hself _ fun _ => hself _ fun _ => hown fun _ => .nil _
  · exact hself _ fun _ => .nil _
  · exact hself _ fun _ => hnone _ fun _ => .nil _
  · exact hown fun _ => hslots _ _

/-- All that the application has done has worked. -/
structure Attach.Smooth (s : Attach) : Prop where
  inv : s.Inv
  found : s.Found
  all : ∀ n ∈ s.done.flatMap InitAction.names, s.registry n ≠ none

/-- The next action works, and what it creates is there. -/
theorem Attach.Smooth.act (smooth : s.Smooth) {act : InitAction} {s' : Attach} {done : Bool}
    (hact : s.startup.app.actions[s.made]? = some act)
    (hs' : s.initAction true act = (s', done)) :
    done = true ∧ ∀ n ∈ (s.done ++ [act]).flatMap InitAction.names, s'.registry n ≠ none := by
  have acted := smooth.inv.named.acted (smooth.inv.new hact) hs'
  have hnew : ∀ n ∈ act.names, s'.registry n ≠ none := by
    intro n hn
    cases act with
    | own => cases hn
    | create m checks =>
      obtain rfl := List.mem_singleton.mp hn
      have hnone := smooth.inv.new hact n hn
      obtain ⟨rfl, -⟩ := Prod.mk.inj hs'
      simp [Attach.create, hnone]
  have hall : ∀ n ∈ (s.done ++ [act]).flatMap InitAction.names, s'.registry n ≠ none := by
    intro n hn
    rw [List.flatMap_append, List.flatMap_singleton, List.mem_append] at hn
    rcases hn with hn | hn
    · exact (acted.kept n (smooth.all n hn)).trans_ne (smooth.all n hn)
    · exact hnew n hn
  refine ⟨?_, hall⟩
  by_contra hfalse
  rcases acted.failed (Bool.not_eq_true _ ▸ hfalse) with rfl | ⟨n, hn, hnone⟩
  · obtain ⟨-, rfl⟩ := Prod.mk.inj hs'
    exact hfalse rfl
  · have hsupplied := supplied_initActions
    rw [Attach.initActions_split hact] at hsupplied
    exact hall n (by simpa using hsupplied.of_append n hn) hnone

/-- The application gets to the end of its stage. -/
theorem Attach.Smooth.exists_run_app (smooth : s.Smooth) (hne : s.startup.app.actions ≠ [])
    {b : IpcHappened} {z : Startup} (hstep : s.startup.step .app true = some (b, z))
    (hbefore : z.app.before = s.startup.app.before ++ s.startup.app.actions) :
    ∃ log t, Run AttachEvent.Step s log t ∧ t.Smooth ∧ t.startup = z ∧ t.found = s.found := by
  -- with every action there is one less to be done
  generalize hk : s.startup.app.actions.length - s.made = k
  induction k generalizing s with
  | zero =>
    have hlt := smooth.inv.made.resolve_left hne
    omega
  | succ k ih =>
    have hlt := smooth.inv.made.resolve_left hne
    obtain ⟨act, hact⟩ : ∃ act, s.startup.app.actions[s.made]? = some act :=
      ⟨_, List.getElem?_eq_getElem hlt⟩
    obtain ⟨⟨s', done⟩, hs'⟩ : ∃ r, s.initAction true act = r := ⟨_, rfl⟩
    have acted := smooth.inv.named.acted (smooth.inv.new hact) hs'
    obtain ⟨rfl, hall⟩ := smooth.act hact hs'
    have happend : s.startup.app.before ++ s.startup.app.actions.take (s.made + 1) =
        s.done ++ [act] := by
      rw [List.take_add_one, hact, Option.toList_some, ← List.append_assoc]
      rfl
    by_cases hmore : s.made + 1 < s.startup.app.actions.length
    · obtain ⟨t, ht⟩ : ∃ t : Attach, t = { s' with made := s.made + 1 } := ⟨_, rfl⟩
      have htstartup : t.startup = s.startup := by rw [ht]; exact acted.startup
      have hone : AttachEvent.Step ⟨.app, true, none⟩ s t := by
        simp [AttachEvent.Step, Attach.step, hact, hs', hmore, ht]
      obtain ⟨inv', found'⟩ := smooth.inv.step smooth.found hone
      have htdone : t.done = s.done ++ [act] := by
        rw [Attach.done, htstartup, ← happend, ht]
      obtain ⟨log, u, run, hu, hz, hfound⟩ := ih (s := t)
        ⟨inv', found', by rw [htdone, ht]; exact hall⟩ (htstartup ▸ hne) (htstartup ▸ hstep)
        (htstartup ▸ hbefore) (by rw [htstartup, ht]; dsimp only; omega)
      refine ⟨_, u, run.cons hone, hu, hz, hfound.trans ?_⟩
      rw [ht]
      exact acted.pollerFound
    · have hone : AttachEvent.Step ⟨.app, true, some b⟩ s (s'.enter .app z) := by
        simp [AttachEvent.Step, Attach.step, Attach.stage, hact, hs', hmore, acted.startup, hstep]
      obtain ⟨inv', found'⟩ := smooth.inv.step smooth.found hone
      refine ⟨_, _, Run.single hone, ⟨inv', found', ?_⟩, rfl, acted.pollerFound⟩
      change ∀ n ∈ (z.app.before ++ z.app.actions.take 0).flatMap InitAction.names,
        s'.registry n ≠ none
      rw [List.take_zero, List.append_nil, hbefore, ← List.take_of_length_le (not_lt.mp hmore),
        happend]
      exact hall

/-- The start-up can get from `z` to `z'` while everything works. -/
def Leads (z z' : Startup) : Prop :=
  ∀ s : Attach, s.Smooth → s.startup = z →
    ∃ log t, Run AttachEvent.Step s log t ∧ t.Smooth ∧ t.startup = z'

variable {z z' z'' : Startup} {b : IpcHappened}

theorem Leads.trans (first : Leads z z') (second : Leads z' z'') : Leads z z'' := by
  intro s smooth hz
  obtain ⟨log, t, run, smooth', hz'⟩ := first s smooth hz
  obtain ⟨log', u, rest, smooth'', hz''⟩ := second t smooth' hz'
  exact ⟨log ++ log', u, run.append rest, smooth'', hz''⟩

/-- The application gets through a stage. -/
theorem leads_app (hstep : z.step .app true = some (b, z'))
    (hbefore : z'.app.before = z.app.before ++ z.app.actions) : Leads z z' := by
  rintro s smooth rfl
  by_cases hnil : s.startup.app.actions = []
  · have hone : AttachEvent.Step ⟨.app, true, some b⟩ s (s.enter .app z') := by
      simp [AttachEvent.Step, Attach.step, Attach.stage, hnil, hstep]
    obtain ⟨inv', found'⟩ := smooth.inv.step smooth.found hone
    refine ⟨_, _, Run.single hone, ⟨inv', found', ?_⟩, rfl⟩
    have hall := smooth.all
    rw [Attach.done, hnil, List.take_nil] at hall
    change ∀ n ∈ (z'.app.before ++ z'.app.actions.take 0).flatMap InitAction.names,
      s.registry n ≠ none
    rwa [List.take_zero, List.append_nil, hbefore, hnil]
  · obtain ⟨log, t, run, smooth', hz, -⟩ := smooth.exists_run_app hnil hstep hbefore
    exact ⟨log, t, run, smooth', hz⟩

/-- The poller makes a step of the handshake. -/
theorem leads_poller (hnil : z.poller.actions = []) (hstep : z.step .poller true = some (b, z'))
    (happ : z'.app = z.app) : Leads z z' := by
  rintro s smooth rfl
  have hone : AttachEvent.Step ⟨.poller, true, some b⟩ s (s.enter .poller z') := by
    simp [AttachEvent.Step, Attach.step, Attach.stage, hnil, hstep]
  obtain ⟨inv', found'⟩ := smooth.inv.step smooth.found hone
  refine ⟨_, _, Run.single hone, ⟨inv', found', ?_⟩, rfl⟩
  have hdone : (s.enter .poller z').done = s.done := by
    rw [Attach.done, Attach.done]
    change z'.app.before ++ z'.app.actions.take s.made = _
    rw [happ]
  rw [hdone]
  exact smooth.all

/-- The poller waits until it gives up. -/
theorem leads_wait {q : BoundedQueue ℕ} (hring : z.zone.ipcRing .app = some q)
    (hq : q.items = []) (n : ℕ) (hn : n ≤ waitMaxCycles) :
    Leads { z with poller := .wait (.dequeue n) } { z with poller := .setupAllocators } := by
  have hdequeue : q.dequeue = none := BoundedQueue.dequeue_eq_none_iff.mpr hq
  have hattempt : ∀ m, Leads { z with poller := .wait (.dequeue m) }
      { z with poller := .wait (.usleep m) } := fun m =>
    leads_poller (b := .attempted .poller none) rfl (by
      simp [Startup.step, pollerInit, ipcWaitForApp, ipcWait, Party.peer, hring, hdequeue]) rfl
  generalize hk : waitMaxCycles - n = k
  induction k generalizing n with
  | zero =>
    have hover : waitMaxCycles < n + 1 := by omega
    exact (hattempt n).trans (leads_poller (b := .proceeded) rfl (by
      simp [Startup.step, pollerInit, ipcWaitForApp, ipcWait, hover]) rfl)
  | succ k ih =>
    have hmore : ¬ waitMaxCycles < n + 1 := by omega
    refine (hattempt n).trans (Leads.trans ?_ (ih (n + 1) (by omega) (by omega)))
    exact leads_poller (b := .internal) rfl (by
      simp [Startup.step, pollerInit, ipcWaitForApp, ipcWait, hmore]) rfl

theorem Attach.Smooth.late (smooth : s.Smooth) (hcreated : s.startup.app.before = initActions)
    (hmade : s.startup.zone.MadeAt s.startup.app) (hpoller : s.startup.poller.settingUp) :
    s.Late := by
  refine ⟨smooth.inv, smooth.found, fun n hn => smooth.all n ?_, hmade, hpoller⟩
  rw [Attach.done, hcreated, List.flatMap_append, names_initActions]
  exact List.mem_append_left _ hn

/-- The poller gets to the end of its stage. -/
theorem Attach.Late.exists_run_poller (late : s.Late) (hne : s.startup.poller.actions ≠ [])
    (hstep : s.startup.step .poller true = some (b, z)) (hmade : z.zone.MadeAt z.app) :
    ∃ log t, Run AttachEvent.Step s log t ∧ t.Late ∧ t.startup = z ∧ ∀ e ∈ log, e.ok = true := by
  -- with every look-up there is one less to be made
  generalize hk : s.startup.poller.actions.length - s.found = k
  induction k generalizing s with
  | zero =>
    have hlt := late.found.found.resolve_left hne
    omega
  | succ k ih =>
    have hlt := late.found.found.resolve_left hne
    obtain ⟨act, hact⟩ : ∃ act, s.startup.poller.actions[s.found]? = some act :=
      ⟨_, List.getElem?_eq_getElem hlt⟩
    obtain ⟨s', hs'⟩ : ∃ s', s.pollerAction true act = (s', true) := by
      cases act with
      | own => exact ⟨s, rfl⟩
      | lookup n =>
        have hmem := PollerInitPc.lookup_mem (List.mem_of_getElem? hact)
        have hsome := Option.isSome_iff_ne_none.mpr (late.shared n hmem)
        exact ⟨_, Prod.ext rfl hsome⟩
    have hstartup := Attach.startup_pollerAction hs'
    by_cases hmore : s.found + 1 < s.startup.poller.actions.length
    · obtain ⟨t, ht⟩ : ∃ t : Attach, t = { s' with found := s.found + 1 } := ⟨_, rfl⟩
      have htstartup : t.startup = s.startup := by rw [ht]; exact hstartup
      have hone : AttachEvent.Step ⟨.poller, true, none⟩ s t := by
        simp [AttachEvent.Step, Attach.step, hact, hs', hmore, ht]
      have late' := late.step (fun _ => rfl) (by rw [htstartup]; exact late.made) hone
      obtain ⟨log, u, run, hu, hz, hok⟩ := ih late' (htstartup ▸ hne) (htstartup ▸ hstep)
        (by rw [htstartup, ht]; dsimp only; omega)
      refine ⟨_, u, run.cons hone, hu, hz, fun e he => ?_⟩
      rcases List.mem_cons.mp he with rfl | he
      · rfl
      · exact hok e he
    · have hone : AttachEvent.Step ⟨.poller, true, some b⟩ s (s'.enter .poller z) := by
        simp [AttachEvent.Step, Attach.step, Attach.stage, hact, hs', hmore, hstartup, hstep]
      refine ⟨_, _, Run.single hone, late.step (fun _ => rfl) hmade hone, rfl, fun e he => ?_⟩
      rw [List.mem_singleton.mp he]

/-- What the application creates for the handshake. -/
def zoneCreated : StartupZone where
  ipcRing := Function.update (Function.update (fun _ => none) .app (some (rteRingCreate 1)))
    .poller (some (rteRingCreate 1))
  ipcMsgPool := some (List.range ipcMsgPoolSize)
  exchMemzone := true
  udpBindTable := true
  exchRings := true

/-- Everything is there, and the poller has given up to wait for a notification. -/
theorem exists_run_late : ∃ log s, Run AttachEvent.Step attachInit log s ∧ s.Late ∧
    s.startup = ⟨zoneCreated, .notify .get, .setupAllocators⟩ := by
  have hinit : attachInit.Smooth :=
    ⟨inv_attachInit, ⟨.inl rfl, nofun⟩, nofun⟩
  have prepare := leads_app (z := startupInit) rfl rfl
  have ringApp := prepare.trans (leads_app rfl rfl)
  have ringPoller := ringApp.trans (leads_app rfl rfl)
  have msgPool := ringPoller.trans (leads_app rfl rfl)
  have exchMemzone := msgPool.trans (leads_app rfl rfl)
  have udpBindTable := exchMemzone.trans (leads_app rfl rfl)
  have created : Leads startupInit ⟨zoneCreated, .notify .get, .ealInit⟩ :=
    udpBindTable.trans (leads_app rfl rfl)
  have eal : Leads startupInit ⟨zoneCreated, .notify .get, .retrieveIpcChannel⟩ :=
    created.trans (leads_poller rfl rfl rfl)
  have ipc : Leads startupInit ⟨zoneCreated, .notify .get, .wait (.dequeue 0)⟩ :=
    eal.trans (leads_poller rfl rfl rfl)
  have setup : Leads startupInit ⟨zoneCreated, .notify .get, .setupAllocators⟩ :=
    ipc.trans (leads_wait (z := ⟨zoneCreated, .notify .get, .ealInit⟩) rfl rfl 0 (Nat.zero_le _))
  obtain ⟨log, s, run, smooth, hs⟩ := setup attachInit hinit rfl
  refine ⟨log, s, run, smooth.late ?_ (madeAt_of_run (startup_of_attach run)) ?_, hs⟩
  · rw [hs]
    rfl
  · rw [hs]
    rfl

/-- The poller then looks everything up. -/
theorem Attach.Late.exists_run_ready (late : s.Late)
    (hs : s.startup = ⟨zoneCreated, .notify .get, .setupAllocators⟩) :
    ∃ log t, Run AttachEvent.Step s log t ∧ t.startup.poller = .notify .get ∧
      ∀ e ∈ log, e.ok = true := by
  have hstage : ∀ {s : Attach} {pc pc' : PollerInitPc}, s.Late →
      s.startup = ⟨zoneCreated, .notify .get, pc⟩ → pc.actions ≠ [] →
      pollerInit true zoneCreated pc = some (.internal, zoneCreated, pc') →
      ∃ log t, Run AttachEvent.Step s log t ∧ t.Late ∧
        t.startup = ⟨zoneCreated, .notify .get, pc'⟩ ∧ ∀ e ∈ log, e.ok = true := by
    intro s pc pc' late hs hne hinit
    refine late.exists_run_poller (b := .internal) (by rw [hs]; exact hne) ?_ fun _ => rfl
    rw [hs, Startup.step, hinit]
    rfl
  obtain ⟨log₁, s₁, run₁, late₁, hs₁, hok₁⟩ := hstage late hs (List.cons_ne_nil _ _) rfl
  obtain ⟨log₂, s₂, run₂, late₂, hs₂, hok₂⟩ := hstage late₁ hs₁ (List.cons_ne_nil _ _) rfl
  obtain ⟨log₃, s₃, run₃, late₃, hs₃, hok₃⟩ := hstage late₂ hs₂ (List.cons_ne_nil _ _) rfl
  obtain ⟨log₄, s₄, run₄, -, hs₄, hok₄⟩ := hstage late₃ hs₃ (List.cons_ne_nil _ _) rfl
  refine ⟨_, s₄, ((run₁.append run₂).append run₃).append run₄, congrArg Startup.poller hs₄,
    fun e he => ?_⟩
  simp only [List.mem_append] at he
  obtain ((he | he) | he) | he := he
  · exact hok₁ e he
  · exact hok₂ e he
  · exact hok₃ e he
  · exact hok₄ e he

/-- A start in which nothing fails. -/
theorem attach_sound_of_smooth : ∃ log s, Run AttachEvent.Step attachInit log s ∧
    s.startup.poller = .notify .get ∧ s.Attached := by
  obtain ⟨log, s, run, late, hs⟩ := exists_run_late
  obtain ⟨log', t, rest, hpoller, -⟩ := late.exists_run_ready hs
  exact ⟨_, t, run.append rest, hpoller, attach_sound (run.append rest) (by rw [hpoller]; rfl)⟩

/-- The poller looks everything up after it has been created. -/
theorem attach_complete_of_smooth : ∃ s log t, s.startup.poller = .setupAllocators ∧
    Run AttachEvent.Step s log t ∧ t.startup.poller = .notify .get ∧
    t.startup.poller ≠ .returned (-1) := by
  obtain ⟨_, s, run, late, hs⟩ := exists_run_late
  obtain ⟨log, t, rest, hpoller, hok⟩ := late.exists_run_ready hs
  have hunchecked : ∀ n ∈ uncheckedNames, n ∈ plainNames := by decide
  exact ⟨s, log, t, by rw [hs], rest, hpoller, attach_complete run (by rw [hs]; rfl)
    (fun n hn => late.shared n (List.mem_append_left _ (hunchecked n hn))) (by rw [hs]; rfl) rest
    fun e he _ => hok e he⟩

end Start

end Udpdk
