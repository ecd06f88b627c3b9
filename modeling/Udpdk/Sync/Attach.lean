import Mathlib.Data.List.Nodup
import Udpdk.Sync.Registry

/-!
# What the poller attaches to

The handshake does not make the poller wait until the application has created everything, so that
its look-ups come at any time between the creations. But it looks for everything, and for the object
that is created last.

## Main definitions

* `initActions` — everything that `udpdk_init` creates, in order
* `Attach.Inv` — what holds in every run

## Main results

* `Attach.Inv.step` — what every step of either process keeps
* `attach_sound` — a poller that starts has found everything, and what it found is what the
  application created
-/

namespace Udpdk

open Foundation

/-! ## The order of creation -/

/-- What `udpdk_init` does to create everything. -/
def initActions : List InitAction :=
  InitPc.actions .prepare ++ (InitPc.actions .initExchMemzone ++
    (InitPc.actions .initUdpBindTable ++ InitPc.actions .initExchangeSlots))

namespace InitPc

/-- The actions of the stages in front. -/
def before : InitPc → List InitAction
  | .prepare => []
  | .createRing _ | .createMsgPool | .initExchMemzone => actions .prepare
  | .initUdpBindTable => actions .prepare ++ actions .initExchMemzone
  | .initExchangeSlots =>
    actions .prepare ++ (actions .initExchMemzone ++ actions .initUdpBindTable)
  | .notify _ | .wait _ | .returned _ | .died => initActions

/-- The actions of the stages behind. -/
def after : InitPc → List InitAction
  | .prepare | .createRing _ | .createMsgPool =>
    actions .initExchMemzone ++ (actions .initUdpBindTable ++ actions .initExchangeSlots)
  | .initExchMemzone => actions .initUdpBindTable ++ actions .initExchangeSlots
  | .initUdpBindTable => actions .initExchangeSlots
  | .initExchangeSlots | .notify _ | .wait _ | .returned _ | .died => []

def created : InitPc → Bool
  | .notify _ | .wait _ | .died => true
  | .returned ret => ret != -1
  | _ => false

theorem before_append (pc : InitPc) : pc.before ++ (pc.actions ++ pc.after) = initActions := by
  cases pc <;>
    simp only [before, after, initActions, actions, List.append_assoc, List.nil_append,
      List.append_nil]

end InitPc

def lastRing (func : ExchRingFunc) : ShmName := .exchRing func (numSocketsMax - 1)

def lastAction : InitAction := .create (lastRing .tx) [lastRing .rx, lastRing .tx]

theorem initActions_eq : ∃ front, initActions = front ++ [lastAction] := by
  have hmax : numSocketsMax = numSocketsMax - 1 + 1 := rfl
  have hslots : InitPc.actions .initExchangeSlots =
      (.own :: (List.range (numSocketsMax - 1)).flatMap initExchangeSlot ++
        [.create (lastRing .rx) []]) ++ [lastAction] := by
    rw [InitPc.actions, hmax, List.range_succ, List.flatMap_append]
    simp [initExchangeSlot, lastAction, lastRing]
  unfold initActions
  rw [hslots, ← List.append_assoc, ← List.append_assoc, ← List.append_assoc]
  exact ⟨_, rfl⟩

def plainNames : List ShmName :=
  [.listAlloc, .listNodeAlloc, .listIteratorAlloc, .rxPool, .txPool, .directPool, .indirectPool,
    .exchMemzone, .udpBindTable, .bindInfoAlloc]

def ringNames : List ShmName :=
  (List.range numSocketsMax).flatMap fun i => [.exchRing .rx i, .exchRing .tx i]

theorem mem_ringNames {n : ShmName} :
    n ∈ ringNames ↔ ∃ i < numSocketsMax, ∃ func, n = .exchRing func i := by
  simp only [ringNames, List.mem_flatMap, List.mem_range, List.mem_cons, List.not_mem_nil,
    or_false]
  constructor
  · rintro ⟨i, hi, rfl | rfl⟩
    · exact ⟨i, hi, .rx, rfl⟩
    · exact ⟨i, hi, .tx, rfl⟩
  · rintro ⟨i, hi, func, rfl⟩
    cases func
    · exact ⟨i, hi, .inl rfl⟩
    · exact ⟨i, hi, .inr rfl⟩

theorem names_initActions : initActions.flatMap InitAction.names = plainNames ++ ringNames := by
  have hslot : ∀ i, (initExchangeSlot i).flatMap InitAction.names =
      [.exchRing .rx i, .exchRing .tx i] := fun i => rfl
  have hslots : (InitPc.actions .initExchangeSlots).flatMap InitAction.names = ringNames := by
    simp only [InitPc.actions]
    rw [List.flatMap_cons, List.flatMap_assoc]
    simp only [hslot]
    exact List.nil_append _
  have hplain : (InitPc.actions .prepare).flatMap InitAction.names ++
      ((InitPc.actions .initExchMemzone).flatMap InitAction.names ++
        (InitPc.actions .initUdpBindTable).flatMap InitAction.names) = plainNames := by
    simp only [InitPc.actions, List.flatMap_cons, List.flatMap_nil, InitAction.names,
      InitAction.checked, List.nil_append, List.cons_append, plainNames]
  unfold initActions
  rw [List.flatMap_append, List.flatMap_append, List.flatMap_append, hslots, ← hplain,
    List.append_assoc, List.append_assoc]

/-- No name is used twice. -/
theorem nodup_names : (initActions.flatMap InitAction.names).Nodup := by
  rw [names_initActions, List.nodup_append']
  refine ⟨by decide, ?_, fun n hplain hring => ?_⟩
  · rw [ringNames, List.nodup_flatMap]
    refine ⟨fun i hi => ?_, ?_⟩
    · have hi' := List.mem_range.mp hi
      refine List.nodup_cons.mpr ⟨fun h => ?_, List.nodup_singleton _⟩
      exact absurd (ShmName.exchRing_inj hi' hi' (List.mem_singleton.mp h)).2 nofun
    · refine List.nodup_range.imp_of_mem fun {i j} hi hj hne n hni hnj => hne ?_
      have hring : ∀ {k : ℕ}, n ∈ [ShmName.exchRing .rx k, ShmName.exchRing .tx k] →
          ∃ func, n = .exchRing func k := by
        intro k hk
        rcases List.mem_pair.mp hk with rfl | rfl
        · exact ⟨.rx, rfl⟩
        · exact ⟨.tx, rfl⟩
      obtain ⟨func, hfunc⟩ := hring hni
      obtain ⟨func', hfunc'⟩ := hring hnj
      exact (ShmName.exchRing_inj (List.mem_range.mp hi) (List.mem_range.mp hj)
        (hfunc.symm.trans hfunc')).1
  · -- only the rings are rings
    obtain ⟨i, -, func, rfl⟩ := mem_ringNames.mp hring
    have hkind : ∀ n ∈ plainNames, n.kind ≠ .ring := by decide
    exact hkind _ hplain rfl

theorem lastRing_not_mem {xs ys : List InitAction} (h : initActions = xs ++ ys) (hys : ys ≠ []) :
    lastRing .tx ∉ xs.flatMap InitAction.names := by
  obtain ⟨front, hfront⟩ := initActions_eq
  have hlast : ys.getLast hys = lastAction := by
    have hall : (xs ++ ys).getLast? = some lastAction := by
      rw [← h, hfront, List.getLast?_append, List.getLast?_singleton, Option.some_or]
    rw [List.getLast?_append, List.getLast?_eq_some_getLast hys, Option.some_or] at hall
    exact Option.some.inj hall
  have hmem : lastRing .tx ∈ ys.flatMap InitAction.names :=
    List.mem_flatMap.mpr ⟨_, List.getLast_mem hys, by rw [hlast]; exact List.mem_singleton_self _⟩
  have hnodup := nodup_names
  rw [h, List.flatMap_append, List.nodup_append'] at hnodup
  exact fun hxs => hnodup.2.2 hxs hmem

/-- A step of `udpdk_init` ends its stage, or fails. -/
theorem udpdkInit_stage {ok : Bool} {Z Z' : StartupZone} {pc pc' : InitPc} {b : IpcHappened}
    (h : udpdkInit ok Z pc = some (b, Z', pc')) :
    (pc' = .returned (-1) ∧ ok = false ∧ pc.actions ++ pc.after ≠ []) ∨
      (pc' ≠ .returned (-1) ∧ pc'.before = pc.before ++ pc.actions ∧
        (pc.actions ≠ [] → ok = true)) := by
  have hfail : ∀ {next : InitPc} {Z₁ Z₂ : StartupZone},
      InitPc.orFail ok Z₁ Z₂ next = some (b, Z', pc') → pc.actions ++ pc.after ≠ [] →
      next ≠ .returned (-1) → next.before = pc.before ++ pc.actions →
      (pc' = .returned (-1) ∧ ok = false ∧ pc.actions ++ pc.after ≠ []) ∨
      (pc' ≠ .returned (-1) ∧ pc'.before = pc.before ++ pc.actions ∧
        (pc.actions ≠ [] → ok = true)) := by
    intro next Z₁ Z₂ h hleft hnext hbefore
    unfold InitPc.orFail at h
    split at h
    · rename_i hok
      obtain ⟨-, h⟩ := Prod.mk.inj (Option.some.inj h)
      obtain ⟨-, rfl⟩ := Prod.mk.inj h
      exact .inr ⟨hnext, hbefore, fun _ => hok⟩
    · rename_i hok
      obtain ⟨-, h⟩ := Prod.mk.inj (Option.some.inj h)
      obtain ⟨-, rfl⟩ := Prod.mk.inj h
      exact .inl ⟨rfl, Bool.not_eq_true _ ▸ hok, hleft⟩
  cases pc with
  | prepare | initExchMemzone | initUdpBindTable =>
    exact hfail h (by simp [InitPc.actions]) nofun (by simp [InitPc.before])
  | initExchangeSlots =>
    exact hfail h (by simp [InitPc.actions]) nofun (by simp [InitPc.before, initActions])
  | createRing p =>
    cases p with
    | app | poller =>
      exact hfail h (by simp [InitPc.actions, InitPc.after]) nofun
        (by simp [InitPc.before, InitPc.actions])
  | createMsgPool =>
    obtain ⟨-, h⟩ := Prod.mk.inj (Option.some.inj h)
    obtain ⟨-, rfl⟩ := Prod.mk.inj h
    exact .inr ⟨nofun, by simp [InitPc.before, InitPc.actions], fun h => absurd rfl h⟩
  | notify pc =>
    refine .inr ?_
    unfold udpdkInit at h
    dsimp only at h
    split at h
    all_goals
      obtain ⟨-, h⟩ := Prod.mk.inj (Option.some.inj h)
      obtain ⟨-, rfl⟩ := Prod.mk.inj h
      exact ⟨nofun, (List.append_nil _).symm, fun h => absurd rfl h⟩
  | wait pc =>
    refine .inr ?_
    unfold udpdkInit at h
    dsimp only at h
    split at h
    all_goals
      obtain ⟨-, h⟩ := Prod.mk.inj (Option.some.inj h)
      obtain ⟨-, rfl⟩ := Prod.mk.inj h
      exact ⟨by simp, (List.append_nil _).symm, fun h => absurd rfl h⟩
  | returned | died => cases h

/-! ## Handles -/

/-- The handles of both processes are what the registries say. -/
structure Attach.Named (s : Attach) : Prop where
  handle : ∀ n, s.appHandle n = s.registry n
  fresh : ∀ n o, s.registry n = some o → o < s.nextObject
  unique : ∀ n m o, s.registry n = some o → s.registry m = some o → n = m
  found : ∀ n o, s.pollerHandle n = some o → s.registry n = some o

/-- The application has done `act`, or has failed to do it. -/
structure Attach.Acted (s : Attach) (act : InitAction) (done : Bool) (s' : Attach) : Prop where
  named : s'.Named
  startup : s'.startup = s.startup
  made : s'.made = s.made
  pollerFound : s'.found = s.found
  pollerHandle : s'.pollerHandle = s.pollerHandle
  kept : ∀ n, s.registry n ≠ none → s'.registry n = s.registry n
  only : ∀ n, s'.registry n ≠ none → s.registry n ≠ none ∨ n ∈ act.names
  checked : done = true → ∀ n ∈ act.checks, s'.registry n ≠ none
  failed : done = false → act = .own ∨ ∃ n ∈ act.checks, s'.registry n = none

section Handles

variable {s s' t : Attach} {ok done : Bool} {act : InitAction}

theorem Attach.Named.create (named : s.Named) {n : ShmName} (hnew : s.registry n = none) :
    (s.create n ok).Named := by
  unfold Attach.create
  split
  · refine ⟨fun m => ?_, fun m o h => ?_, fun m m' o h h' => ?_, fun m o h => ?_⟩
    · dsimp only
      by_cases hm : m = n
      · rw [hm, Function.update_self, Function.update_self]
      · rw [Function.update_of_ne hm, Function.update_of_ne hm, named.handle]
    · dsimp only at h ⊢
      by_cases hm : m = n
      · rw [hm, Function.update_self, Option.some_inj] at h
        exact h ▸ Nat.lt_succ_self _
      · rw [Function.update_of_ne hm] at h
        exact (named.fresh m o h).trans (Nat.lt_succ_self _)
    · -- the new number is no number of an older object
      have hold : ∀ m, m ≠ n → Function.update s.registry n (some s.nextObject) m = some o →
          o < s.nextObject := fun m hm h => named.fresh m o (by rwa [Function.update_of_ne hm] at h)
      have hnew : ∀ m, m = n → Function.update s.registry n (some s.nextObject) m = some o →
          o = s.nextObject := by
        rintro m rfl h
        rw [Function.update_self, Option.some_inj] at h
        exact h.symm
      dsimp only at h h'
      by_cases hm : m = n
      · by_cases hm' : m' = n
        · rw [hm, hm']
        · exact absurd (hnew m hm h) (hold m' hm' h').ne
      · by_cases hm' : m' = n
        · exact absurd (hnew m' hm' h') (hold m hm h).ne
        · rw [Function.update_of_ne hm] at h
          rw [Function.update_of_ne hm'] at h'
          exact named.unique m m' o h h'
    · have hold := named.found m o h
      have hm : m ≠ n := by
        rintro rfl
        rw [hnew] at hold
        cases hold
      dsimp only
      rw [Function.update_of_ne hm]
      exact hold
  · refine ⟨fun m => ?_, named.fresh, named.unique, named.found⟩
    dsimp only
    by_cases hm : m = n
    · rw [hm, Function.update_self, hnew]
    · rw [Function.update_of_ne hm, named.handle]

/-- An action creates its object, or it does not. -/
theorem Attach.Named.acted (named : s.Named) (hnew : ∀ n ∈ act.names, s.registry n = none)
    (h : s.initAction ok act = (s', done)) : s.Acted act done s' := by
  cases act with
  | own =>
    obtain ⟨rfl, -⟩ := Prod.mk.inj h
    exact ⟨named, rfl, rfl, rfl, rfl, fun _ _ => rfl, fun _ => .inl, fun _ _ => nofun,
      fun _ => .inl rfl⟩
  | create n checks =>
    obtain ⟨rfl, rfl⟩ := Prod.mk.inj h
    have hn : s.registry n = none := hnew n (List.mem_singleton_self n)
    have named' : (s.create n ok).Named := named.create hn
    have hregistry : ∀ m, m ≠ n → (s.create n ok).registry m = s.registry m := by
      intro m hm
      unfold Attach.create
      split
      · exact Function.update_of_ne hm _ _
      · rfl
    refine ⟨named', ?_, ?_, ?_, ?_, fun m hm => hregistry m ?_, fun m hm => ?_, fun hall m hm => ?_,
      fun hall => .inr ?_⟩
    · unfold Attach.create; split <;> rfl
    · unfold Attach.create; split <;> rfl
    · unfold Attach.create; split <;> rfl
    · unfold Attach.create; split <;> rfl
    · rintro rfl
      exact hm hn
    · by_cases hmn : m = n
      · exact .inr (hmn ▸ List.mem_singleton_self n)
      · exact .inl (hregistry m hmn ▸ hm)
    · rw [← named'.handle]
      exact Option.isSome_iff_ne_none.mp (List.all_eq_true.mp hall m hm)
    · obtain ⟨m, hm, hnone⟩ := List.all_eq_false.mp hall
      refine ⟨m, hm, ?_⟩
      rw [← named'.handle]
      simpa using hnone

end Handles

/-! ## What every step keeps -/

/-- The actions that the application has behind it. -/
def Attach.done (s : Attach) : List InitAction :=
  s.startup.app.before ++ s.startup.app.actions.take s.made

/-- What holds of the application in every run. -/
structure Attach.Inv (s : Attach) : Prop where
  named : s.Named
  made : s.startup.app.actions = [] ∨ s.made < s.startup.app.actions.length
  /-- Only what the application has behind it is there. -/
  names : s.startup.app ≠ .returned (-1) →
    ∀ n, s.registry n ≠ none → n ∈ s.done.flatMap InitAction.names
  /-- What the application has looked at is there. -/
  checks : s.startup.app ≠ .returned (-1) →
    ∀ n ∈ s.done.flatMap InitAction.checks, s.registry n ≠ none
  /-- If the application has given up, then one of the last rings is missing. -/
  failed : s.startup.app = .returned (-1) →
    s.registry (lastRing .rx) = none ∨ s.registry (lastRing .tx) = none

theorem inv_attachInit : attachInit.Inv where
  named := ⟨fun _ => rfl, nofun, nofun, nofun⟩
  made := .inr (by decide)
  names _ n h := absurd rfl h
  checks _ := nofun
  failed := nofun

section Inv

variable {s s' t : Attach} {ok done : Bool} {act : InitAction} {a : Option IpcHappened}

theorem Attach.initActions_split (h : s.startup.app.actions[s.made]? = some act) :
    initActions = s.done ++ act :: (s.startup.app.actions.drop (s.made + 1) ++
      s.startup.app.after) := by
  obtain ⟨hlt, hact⟩ := List.getElem?_eq_some_iff.mp h
  rw [← s.startup.app.before_append, Attach.done, List.append_assoc, ← List.cons_append, ← hact,
    ← List.drop_eq_getElem_cons hlt, ← List.append_assoc (List.take _ _), List.take_append_drop]

/-- What is to be created is not there yet. -/
theorem Attach.Inv.new (inv : s.Inv) (h : s.startup.app.actions[s.made]? = some act) :
    ∀ n ∈ act.names, s.registry n = none := by
  intro n hn
  by_contra hne
  have hrunning : s.startup.app ≠ .returned (-1) := by
    intro heq
    rw [heq] at h
    cases h
  have hnodup := nodup_names
  rw [Attach.initActions_split h, List.flatMap_append, List.nodup_append'] at hnodup
  refine hnodup.2.2 (inv.names hrunning n hne) ?_
  rw [List.flatMap_cons]
  exact List.mem_append_left _ hn

/-- A stage of `udpdk_init` ends. -/
theorem Attach.Inv.of_stage (named : s.Named)
    (names : ∀ n, s.registry n ≠ none →
      n ∈ (s.startup.app.before ++ s.startup.app.actions).flatMap InitAction.names)
    (checks : (s.startup.app.actions ≠ [] → ok = true) →
      ∀ n ∈ (s.startup.app.before ++ s.startup.app.actions).flatMap InitAction.checks,
        s.registry n ≠ none)
    (failed : ok = false → s.startup.app.actions ++ s.startup.app.after ≠ [] →
      s.registry (lastRing .rx) = none ∨ s.registry (lastRing .tx) = none)
    (h : s.stage .app ok = some (a, t)) : t.Inv := by
  obtain ⟨b, z, hstep, -, rfl⟩ := Attach.of_stage h
  obtain ⟨⟨c, Z', pc'⟩, hinit, hr⟩ := Option.map_eq_some_iff.mp hstep
  obtain ⟨rfl, rfl⟩ := Prod.mk.inj hr
  have named' : (s.enter .app { s.startup with zone := Z', app := pc' }).Named :=
    ⟨named.handle, named.fresh, named.unique, named.found⟩
  have hmade : pc'.actions = [] ∨ 0 < pc'.actions.length := by
    rw [List.length_pos_iff]
    exact Decidable.em _
  rcases udpdkInit_stage hinit with ⟨rfl, hok, hleft⟩ | ⟨hrunning, hbefore, hok⟩
  · exact ⟨named', hmade, fun h => absurd rfl h, fun h => absurd rfl h,
      fun _ => failed hok hleft⟩
  · -- the application has the whole stage behind it
    have hdone : (s.enter .app { s.startup with zone := Z', app := pc' }).done =
        s.startup.app.before ++ s.startup.app.actions :=
      (List.append_nil pc'.before).trans hbefore
    refine ⟨named', hmade, fun _ => ?_, fun _ => ?_, fun h => absurd h hrunning⟩
    · rw [hdone]
      exact names
    · rw [hdone]
      exact checks hok

/-- An action fails, or is the last one of its stage. -/
theorem Attach.Inv.of_act (inv : s.Inv) (hact : s.startup.app.actions[s.made]? = some act)
    (acted : s.Acted act done s')
    (hlast : done = true → s.startup.app.actions.length ≤ s.made + 1)
    (h : s'.stage .app done = some (a, t)) : t.Inv := by
  have hrunning : s.startup.app ≠ .returned (-1) := by
    intro heq
    rw [heq] at hact
    cases hact
  have hsplit := Attach.initActions_split hact
  have hprior : s.startup.app.before ++ s.startup.app.actions =
      s.done ++ act :: s.startup.app.actions.drop (s.made + 1) := by
    rw [← s.startup.app.before_append, ← List.append_assoc, ← List.cons_append,
      ← List.append_assoc] at hsplit
    exact List.append_cancel_right hsplit
  have hnames : ∀ n, s'.registry n ≠ none → n ∈ (s.done ++ [act]).flatMap InitAction.names := by
    intro n hn
    rw [List.flatMap_append, List.flatMap_singleton, List.mem_append]
    exact (acted.only n hn).imp (inv.names hrunning n) id
  refine Attach.Inv.of_stage acted.named ?_ ?_ ?_ h
  · rw [acted.startup, hprior]
    intro n hn
    have hmem := hnames n hn
    rw [List.flatMap_append, List.flatMap_singleton] at hmem
    rw [List.flatMap_append, List.flatMap_cons, ← List.append_assoc]
    exact List.mem_append_left _ hmem
  · rw [acted.startup, hprior]
    intro hdone n hn
    have hne : s.startup.app.actions ≠ [] := by
      intro hnil
      rw [hnil] at hact
      cases hact
    have hdone := hdone hne
    rw [List.drop_of_length_le (hlast hdone), List.flatMap_append, List.flatMap_singleton,
      List.mem_append] at hn
    rcases hn with hn | hn
    · have hold := inv.checks hrunning n hn
      rw [acted.kept n hold]
      exact hold
    · exact acted.checked hdone n hn
  · intro hdone _
    by_cases hrest : s.startup.app.actions.drop (s.made + 1) ++ s.startup.app.after = []
    · -- it is the last one of all that fails
      obtain ⟨front, hfront⟩ := initActions_eq
      rw [hrest, hfront] at hsplit
      have hact : lastAction = act := by
        have h := (List.append_inj' hsplit rfl).2
        exact List.singleton_injective h
      rcases acted.failed hdone with hown | ⟨n, hn, hnone⟩
      · rw [← hact] at hown
        cases hown
      · rw [← hact] at hn
        rcases List.mem_pair.mp hn with rfl | rfl
        · exact .inl hnone
        · exact .inr hnone
    · refine .inr ?_
      by_contra hne
      rw [← List.singleton_append, ← List.append_assoc] at hsplit
      exact lastRing_not_mem hsplit hrest (hnames _ hne)

/-- A step of the application. -/
theorem Attach.Inv.step_app (inv : s.Inv) (h : s.step .app ok = some (a, t)) : t.Inv := by
  rcases Attach.step_app h with ⟨hnone, h⟩ | ⟨act, s', done, hact, hs', hrest⟩
  · -- a step of the handshake, or the next try to create a ring of it
    have hnil : s.startup.app.actions = [] :=
      inv.made.resolve_right (not_lt.mpr (List.getElem?_eq_none_iff.mp hnone))
    have hdone : s.done = s.startup.app.before ++ s.startup.app.actions := by
      rw [Attach.done, hnil, List.take_nil]
    obtain ⟨b, z, hstep, -, -⟩ := Attach.of_stage h
    have hrunning : s.startup.app ≠ .returned (-1) := by
      intro heq
      simp [Startup.step, heq, udpdkInit] at hstep
    refine Attach.Inv.of_stage inv.named ?_ (fun _ => ?_) (fun _ hleft => .inr ?_) h
    · rw [← hdone]
      exact inv.names hrunning
    · rw [← hdone]
      exact inv.checks hrunning
    · by_contra hne
      have hmem := inv.names hrunning _ hne
      rw [hdone, hnil, List.append_nil] at hmem
      exact lastRing_not_mem s.startup.app.before_append.symm hleft hmem
  · have acted := inv.named.acted (inv.new hact) hs'
    rcases hrest with ⟨hdone, hmore, -, rfl⟩ | ⟨hlast, h⟩
    · have hrunning : s.startup.app ≠ .returned (-1) := by
        intro heq
        rw [heq] at hact
        cases hact
      have htake : Attach.done { s' with made := s.made + 1 } = s.done ++ [act] := by
        unfold Attach.done
        dsimp only
        rw [acted.startup, List.take_add_one, hact, Option.toList_some, List.append_assoc]
      refine ⟨⟨acted.named.handle, acted.named.fresh, acted.named.unique, acted.named.found⟩,
        .inr ?_, fun _ n hn => ?_, fun _ n hn => ?_, fun heq => ?_⟩
      · dsimp only
        rw [acted.startup]
        exact hmore
      · rw [htake, List.flatMap_append, List.flatMap_singleton, List.mem_append]
        exact (acted.only n hn).imp (inv.names hrunning n) id
      · rw [htake, List.flatMap_append, List.flatMap_singleton, List.mem_append] at hn
        rcases hn with hn | hn
        · have hold := inv.checks hrunning n hn
          exact (acted.kept n hold).trans_ne hold
        · exact acted.checked hdone n hn
      · exact absurd (acted.startup ▸ heq) hrunning
    · exact inv.of_act hact acted hlast h

/-- A step of the poller does not change what is there. -/
theorem Attach.Inv.of_poller (inv : s.Inv) (happ : t.startup.app = s.startup.app)
    (hmade : t.made = s.made) (hnext : t.nextObject = s.nextObject)
    (hhandle : t.appHandle = s.appHandle) (hregistry : t.registry = s.registry)
    (found : ∀ n o, t.pollerHandle n = some o → s.registry n = some o) : t.Inv := by
  have hdone : t.done = s.done := by rw [Attach.done, Attach.done, happ, hmade]
  refine ⟨⟨?_, ?_, ?_, ?_⟩, ?_, ?_, ?_, ?_⟩
  · rw [hhandle, hregistry]
    exact inv.named.handle
  · rw [hregistry, hnext]
    exact inv.named.fresh
  · rw [hregistry]
    exact inv.named.unique
  · rw [hregistry]
    exact found
  · rw [happ, hmade]
    exact inv.made
  · rw [happ, hregistry, hdone]
    exact inv.names
  · rw [happ, hregistry, hdone]
    exact inv.checks
  · rw [happ, hregistry]
    exact inv.failed

end Inv

/-! ## What the poller has found -/

def pollerActions : List PollerAction :=
  PollerInitPc.actions .setupAllocators ++ (PollerInitPc.actions .setupQueues ++
    (PollerInitPc.actions .setupExchZone ++ PollerInitPc.actions .setupUdpTable))

/-- The names that are looked up. -/
def PollerAction.names : PollerAction → List ShmName
  | .own => []
  | .lookup n => [n]

/-- The actions of the stages in front; none once the poller has given up. -/
def PollerInitPc.before : PollerInitPc → List PollerAction
  | .setupQueues => actions .setupAllocators
  | .setupExchZone => actions .setupAllocators ++ actions .setupQueues
  | .setupUdpTable =>
    actions .setupAllocators ++ (actions .setupQueues ++ actions .setupExchZone)
  | .notify _ => pollerActions
  | .returned ret => if ret = 0 then pollerActions else []
  | _ => []

/-- The actions that the poller has behind it. -/
def Attach.looked (s : Attach) : List PollerAction :=
  s.startup.poller.before ++ s.startup.poller.actions.take s.found

/-- What holds of the poller in every run. -/
structure Attach.Found (s : Attach) : Prop where
  found : s.startup.poller.actions = [] ∨ s.found < s.startup.poller.actions.length
  handles : ∀ n ∈ s.looked.flatMap PollerAction.names, s.pollerHandle n ≠ none

/-- A step of `poller_init` ends its stage, or fails. -/
theorem pollerInit_stage {ok : Bool} {Z Z' : StartupZone} {pc pc' : PollerInitPc}
    {b : IpcHappened} (h : pollerInit ok Z pc = some (b, Z', pc')) :
    pc'.before = [] ∨
      (pc'.before = pc.before ++ pc.actions ∧ (pc.actions ≠ [] → ok = true)) := by
  have hfail : ∀ {ok' : Bool} {next : PollerInitPc},
      PollerInitPc.orFail ok' Z next = some (b, Z', pc') → (ok' = true → ok = true) →
      next.before = pc.before ++ pc.actions →
      pc'.before = [] ∨
        (pc'.before = pc.before ++ pc.actions ∧ (pc.actions ≠ [] → ok = true)) := by
    intro ok' next h hok hbefore
    obtain ⟨-, h⟩ := Prod.mk.inj (Option.some.inj h)
    obtain ⟨-, rfl⟩ := Prod.mk.inj h
    split
    · rename_i hok'
      exact .inr ⟨hbefore, fun _ => hok hok'⟩
    · exact .inl rfl
  cases pc with
  | ealInit | checkAlive => exact hfail h id rfl
  | setupAllocators | setupQueues => exact hfail h id (by simp [PollerInitPc.before])
  | setupExchZone =>
    exact hfail h (fun h => by simp at h; exact h.1.1) (by simp [PollerInitPc.before])
  | setupUdpTable =>
    exact hfail h (fun h => by simp at h; exact h.1)
      (by simp [PollerInitPc.before, pollerActions])
  | retrieveIpcChannel =>
    obtain ⟨-, h⟩ := Prod.mk.inj (Option.some.inj h)
    obtain ⟨-, rfl⟩ := Prod.mk.inj h
    split
    · exact .inl rfl
    · exact .inl rfl
  | wait pc =>
    unfold pollerInit at h
    dsimp only at h
    split at h
    all_goals
      obtain ⟨-, h⟩ := Prod.mk.inj (Option.some.inj h)
      obtain ⟨-, rfl⟩ := Prod.mk.inj h
      exact .inl rfl
  | notify pc =>
    unfold pollerInit at h
    dsimp only at h
    split at h
    · obtain ⟨-, h⟩ := Prod.mk.inj (Option.some.inj h)
      obtain ⟨-, rfl⟩ := Prod.mk.inj h
      exact .inr ⟨(List.append_nil _).symm, fun h => absurd rfl h⟩
    · obtain ⟨-, h⟩ := Prod.mk.inj (Option.some.inj h)
      obtain ⟨-, rfl⟩ := Prod.mk.inj h
      exact .inr ⟨(List.append_nil _).symm, fun h => absurd rfl h⟩
    · obtain ⟨-, h⟩ := Prod.mk.inj (Option.some.inj h)
      obtain ⟨-, rfl⟩ := Prod.mk.inj h
      exact .inl rfl
  | returned | died => cases h

section Poller

variable {s s' t : Attach} {ok done : Bool} {act : PollerAction} {a : Option IpcHappened}

/-- A stage of `poller_init` ends. -/
theorem Attach.Found.of_stage (inv : s.Inv)
    (handles : (s.startup.poller.actions ≠ [] → ok = true) →
      ∀ n ∈ (s.startup.poller.before ++ s.startup.poller.actions).flatMap PollerAction.names,
        s.pollerHandle n ≠ none)
    (h : s.stage .poller ok = some (a, t)) : t.Inv ∧ t.Found := by
  obtain ⟨b, z, hstep, -, rfl⟩ := Attach.of_stage h
  obtain ⟨⟨c, Z', pc'⟩, hinit, hr⟩ := Option.map_eq_some_iff.mp hstep
  obtain ⟨rfl, rfl⟩ := Prod.mk.inj hr
  refine ⟨inv.of_poller rfl rfl rfl rfl rfl inv.named.found, ?_, ?_⟩
  · change pc'.actions = [] ∨ 0 < pc'.actions.length
    rw [List.length_pos_iff]
    exact Decidable.em _
  · change ∀ n ∈ (pc'.before ++ pc'.actions.take 0).flatMap PollerAction.names,
      s.pollerHandle n ≠ none
    rw [List.take_zero, List.append_nil]
    rcases pollerInit_stage hinit with hbefore | ⟨hbefore, hok⟩
    · rw [hbefore]
      exact nofun
    · rw [hbefore]
      exact handles hok

theorem Attach.Inv.pollerAction (inv : s.Inv) (h : s.pollerAction ok act = (s', done)) :
    s'.Inv := by
  cases act with
  | own =>
    obtain ⟨rfl, -⟩ := Prod.mk.inj h
    exact inv
  | lookup n =>
    obtain ⟨rfl, -⟩ := Prod.mk.inj h
    refine inv.of_poller rfl rfl rfl rfl rfl fun m o hm => ?_
    dsimp only at hm
    by_cases hmn : m = n
    · rwa [hmn, Function.update_self, ← hmn] at hm
    · rw [Function.update_of_ne hmn] at hm
      exact inv.named.found m o hm

theorem Attach.Inv.pollerHandle_ne_none (inv : s.Inv) (h : s.pollerAction ok act = (s', done))
    {m : ShmName} (hm : s.pollerHandle m ≠ none) : s'.pollerHandle m ≠ none := by
  cases act with
  | own =>
    obtain ⟨rfl, -⟩ := Prod.mk.inj h
    exact hm
  | lookup n =>
    obtain ⟨rfl, -⟩ := Prod.mk.inj h
    dsimp only
    by_cases hmn : m = n
    · obtain ⟨o, ho⟩ := Option.ne_none_iff_exists'.mp hm
      rw [hmn, Function.update_self, ← hmn, inv.named.found m o ho]
      exact Option.some_ne_none o
    · rwa [Function.update_of_ne hmn]

theorem Attach.pollerHandle_of_done (h : s.pollerAction ok act = (s', done)) (hdone : done = true)
    {m : ShmName} (hm : m ∈ act.names) : s'.pollerHandle m ≠ none := by
  cases act with
  | own => cases hm
  | lookup n =>
    obtain ⟨rfl, rfl⟩ := Prod.mk.inj h
    obtain rfl := List.mem_singleton.mp hm
    dsimp only
    rw [Function.update_self]
    exact Option.isSome_iff_ne_none.mp hdone

/-- A step of the poller. -/
theorem Attach.Found.step_poller (inv : s.Inv) (found : s.Found)
    (h : s.step .poller ok = some (a, t)) : t.Inv ∧ t.Found := by
  rcases Attach.step_poller h with ⟨hnone, h⟩ | ⟨act, s', done, hact, hs', hrest⟩
  · have hnil : s.startup.poller.actions = [] :=
      found.found.resolve_right (not_lt.mpr (List.getElem?_eq_none_iff.mp hnone))
    have hlooked : s.looked = s.startup.poller.before ++ s.startup.poller.actions := by
      rw [Attach.looked, hnil, List.take_nil]
    exact Attach.Found.of_stage inv (fun _ => hlooked ▸ found.handles) h
  · have inv' := inv.pollerAction hs'
    have hstartup := Attach.startup_pollerAction hs'
    have hhandles : done = true → ∀ n ∈ (s.looked ++ [act]).flatMap PollerAction.names,
        s'.pollerHandle n ≠ none := by
      intro hdone n hn
      rw [List.flatMap_append, List.flatMap_singleton, List.mem_append] at hn
      rcases hn with hn | hn
      · exact inv.pollerHandle_ne_none hs' (found.handles n hn)
      · exact Attach.pollerHandle_of_done hs' hdone hn
    rcases hrest with ⟨hdone, hmore, -, rfl⟩ | ⟨hlast, h⟩
    · refine ⟨inv'.of_poller rfl rfl rfl rfl rfl inv'.named.found, .inr ?_, ?_⟩
      · dsimp only
        rw [hstartup]
        exact hmore
      · have htake : Attach.looked { s' with found := s.found + 1 } = s.looked ++ [act] := by
          unfold Attach.looked
          dsimp only
          rw [hstartup, List.take_add_one, hact, Option.toList_some, List.append_assoc]
        rw [htake]
        exact hhandles hdone
    · refine Attach.Found.of_stage inv' (fun hok => ?_) h
      rw [hstartup] at hok ⊢
      have hne : s.startup.poller.actions ≠ [] := by
        intro hnil
        rw [hnil] at hact
        cases hact
      have hdone := hok hne
      have htake : s.startup.poller.before ++ s.startup.poller.actions = s.looked ++ [act] := by
        rw [Attach.looked, List.append_assoc, ← Option.toList_some, ← hact, ← List.take_add_one,
          List.take_of_length_le (hlast hdone)]
      rw [htake]
      exact hhandles hdone

end Poller

/-! ## Runs -/

section Runs

variable {s t : Attach} {ok : Bool} {a : Option IpcHappened} {e : AttachEvent}
  {log log' : List AttachEvent}

/-- The application leaves the poller alone, and nothing is ever removed. -/
theorem Attach.Inv.kept_of_app (inv : s.Inv) (h : s.step .app ok = some (a, t)) :
    t.startup.poller = s.startup.poller ∧ t.found = s.found ∧ t.pollerHandle = s.pollerHandle ∧
      ∀ n, s.registry n ≠ none → t.registry n = s.registry n := by
  have hstage : ∀ {s' : Attach} {ok : Bool}, s'.stage .app ok = some (a, t) →
      t.startup.poller = s'.startup.poller ∧ t.found = s'.found ∧
        t.pollerHandle = s'.pollerHandle ∧ t.registry = s'.registry := by
    intro s' ok h
    obtain ⟨b, z, hstep, -, rfl⟩ := Attach.of_stage h
    obtain ⟨r, -, hr⟩ := Option.map_eq_some_iff.mp hstep
    obtain ⟨-, rfl⟩ := Prod.mk.inj hr
    exact ⟨rfl, rfl, rfl, rfl⟩
  rcases Attach.step_app h with ⟨-, h⟩ | ⟨act, s', done, hact, hs', hrest⟩
  · obtain ⟨hpoller, hfound, hhandle, hregistry⟩ := hstage h
    exact ⟨hpoller, hfound, hhandle, fun n _ => by rw [hregistry]⟩
  · have acted := inv.named.acted (inv.new hact) hs'
    rcases hrest with ⟨-, -, -, rfl⟩ | ⟨-, h⟩
    · exact ⟨congrArg Startup.poller acted.startup, acted.pollerFound, acted.pollerHandle,
        acted.kept⟩
    · obtain ⟨hpoller, hfound, hhandle, hregistry⟩ := hstage h
      exact ⟨hpoller.trans (congrArg Startup.poller acted.startup),
        hfound.trans acted.pollerFound, hhandle.trans acted.pollerHandle,
        fun n hn => (congrFun hregistry n).trans (acted.kept n hn)⟩

/-- **Every step** keeps what holds of both processes. -/
theorem Attach.Inv.step (inv : s.Inv) (found : s.Found) (h : e.Step s t) : t.Inv ∧ t.Found := by
  obtain ⟨p, ok, a⟩ := e
  cases p with
  | app =>
    obtain ⟨hpoller, hfound, hhandle, -⟩ := inv.kept_of_app h
    refine ⟨inv.step_app h, ?_, ?_⟩
    · rw [hpoller, hfound]
      exact found.found
    · rw [Attach.looked, hpoller, hfound, hhandle]
      exact found.handles
  | poller => exact found.step_poller inv h

theorem Attach.inv_of_run (run : Run AttachEvent.Step attachInit log s) : s.Inv ∧ s.Found :=
  run.invariant (fun _ s => s.Inv ∧ s.Found) ⟨inv_attachInit, .inl rfl, nofun⟩
    fun _ _ _ _ _ inv h => inv.1.step inv.2 h

def sharedNames : List ShmName := plainNames ++ ringNames

/-- The names of what `udpdk_init` creates without looking whether that has worked. -/
def uncheckedNames : List ShmName :=
  [.listAlloc, .listNodeAlloc, .listIteratorAlloc, .bindInfoAlloc]

/-- Everything else is looked at. -/
theorem mem_checks {n : ShmName} (hn : n ∈ sharedNames) :
    n ∈ initActions.flatMap InitAction.checks ∨ n ∈ uncheckedNames := by
  rcases List.mem_append.mp hn with hplain | hring
  · have hstages : ∀ n ∈ plainNames, n ∈ (InitPc.actions .prepare ++
        (InitPc.actions .initExchMemzone ++ InitPc.actions .initUdpBindTable)).flatMap
          InitAction.checks ∨ n ∈ uncheckedNames := by decide
    refine (hstages n hplain).imp (fun h => ?_) id
    rw [initActions, ← List.append_assoc (InitPc.actions .initExchMemzone), ← List.append_assoc,
      List.flatMap_append]
    exact List.mem_append_left _ h
  · obtain ⟨i, hi, func, rfl⟩ := mem_ringNames.mp hring
    refine .inl (List.mem_flatMap.mpr
      ⟨.create (.exchRing .tx i) [.exchRing .rx i, .exchRing .tx i], ?_, ?_⟩)
    · have hslot : InitAction.create (.exchRing .tx i) [.exchRing .rx i, .exchRing .tx i] ∈
          InitPc.actions .initExchangeSlots :=
        List.mem_cons_of_mem _ (List.mem_flatMap.mpr
          ⟨i, List.mem_range.mpr hi, List.mem_cons_of_mem _ (List.mem_singleton_self _)⟩)
      unfold initActions
      exact List.mem_append_right _ (List.mem_append_right _ (List.mem_append_right _ hslot))
    · cases func
      · exact List.mem_cons_self
      · exact List.mem_cons_of_mem _ (List.mem_singleton_self _)

/-- The names that the poller looks up before the rings. -/
def lookedUpFirst : List ShmName :=
  [.bindInfoAlloc, .listAlloc, .listNodeAlloc, .listIteratorAlloc, .rxPool, .directPool,
    .indirectPool, .exchMemzone]

theorem names_pollerActions : pollerActions.flatMap PollerAction.names =
    lookedUpFirst ++ (ringNames ++ [.udpBindTable]) := by
  have hslot : ∀ i, ([.lookup (.exchRing .rx i), .lookup (.exchRing .tx i)] :
      List PollerAction).flatMap PollerAction.names = [.exchRing .rx i, .exchRing .tx i] :=
    fun i => rfl
  have hslots : (PollerInitPc.actions .setupExchZone).flatMap PollerAction.names =
      .exchMemzone :: ringNames := by
    simp only [PollerInitPc.actions]
    rw [List.flatMap_cons, List.flatMap_cons, List.flatMap_assoc]
    simp only [hslot]
    unfold ringNames
    rw [PollerAction.names, PollerAction.names, List.nil_append, List.singleton_append]
  simp only [pollerActions, List.flatMap_append, hslots]
  simp only [PollerInitPc.actions, List.flatMap_cons, List.flatMap_nil, PollerAction.names,
    List.nil_append, List.cons_append, lookedUpFirst]

/-- The poller looks everything up but the pool that only the application takes packets from. -/
theorem mem_pollerActions {n : ShmName} :
    n ∈ pollerActions.flatMap PollerAction.names ↔ n ∈ sharedNames ∧ n ≠ .txPool := by
  have hring : ∀ n ∈ ringNames, n ≠ .txPool := by
    rintro n hn rfl
    obtain ⟨i, -, func, h⟩ := mem_ringNames.mp hn
    exact absurd (congrArg ShmName.kind h) nofun
  have hplain : n ∈ plainNames ∧ n ≠ .txPool ↔ n ∈ lookedUpFirst ++ [.udpBindTable] := by
    have hfwd : ∀ n ∈ plainNames, n ≠ .txPool → n ∈ lookedUpFirst ++ [.udpBindTable] := by decide
    have hbwd : ∀ n ∈ lookedUpFirst ++ [.udpBindTable], n ∈ plainNames ∧ n ≠ .txPool := by decide
    exact ⟨fun h => hfwd n h.1 h.2, hbwd n⟩
  rw [names_pollerActions, sharedNames, List.mem_append (s := plainNames), or_and_right,
    and_iff_left_of_imp (hring n), hplain, List.mem_append, List.mem_append, List.mem_append,
    or_assoc, or_comm (b := n ∈ ringNames)]

/-- The poller has everything that the application has, and the application has everything. -/
structure Attach.Attached (s : Attach) : Prop where
  created : s.startup.app.created
  app : ∀ n ∈ sharedNames, ∃ o, s.appHandle n = some o
  poller : ∀ n ∈ sharedNames, n ≠ .txPool → s.pollerHandle n = s.appHandle n
  distinct : ∀ n ∈ sharedNames, ∀ m ∈ sharedNames, s.appHandle n = s.appHandle m → n = m

/-- `poller_init` has got past its look-ups. -/
def PollerInitPc.ready : PollerInitPc → Bool
  | .notify _ => true
  | .returned ret => ret == 0
  | _ => false

/-- As long as something is left to be created, the last ring is not there. -/
theorem Attach.Inv.created (inv : s.Inv) (hrx : s.registry (lastRing .rx) ≠ none)
    (htx : s.registry (lastRing .tx) ≠ none) : s.startup.app.created := by
  have hrunning : s.startup.app ≠ .returned (-1) := fun h =>
    (inv.failed h).elim hrx htx
  by_contra hcreated
  have hleft : s.startup.app.actions.drop s.made ++ s.startup.app.after ≠ [] := by
    cases hpc : s.startup.app with
    | prepare | createRing | createMsgPool | initExchMemzone | initUdpBindTable =>
      simp [InitPc.after, InitPc.actions]
    | initExchangeSlots =>
      have hmade := inv.made
      rw [hpc] at hmade
      rw [InitPc.after, List.append_nil, ne_eq, List.drop_eq_nil_iff, not_le]
      exact hmade.resolve_left (List.cons_ne_nil _ _)
    | notify | wait | died => exact absurd (by rw [hpc]; rfl) hcreated
    | returned ret =>
      rw [hpc] at hcreated hrunning
      exact absurd (bne_iff_ne.mpr fun h => hrunning (congrArg InitPc.returned h)) hcreated
  have hsplit : initActions = s.done ++ (s.startup.app.actions.drop s.made ++
      s.startup.app.after) := by
    rw [Attach.done, List.append_assoc, ← List.append_assoc (List.take _ _),
      List.take_append_drop, InitPc.before_append]
  exact lastRing_not_mem hsplit hleft (inv.names hrunning _ htx)

/-- Once everything has been created, what the application has looked at is there. -/
theorem Attach.Inv.checked (inv : s.Inv) (hcreated : s.startup.app.created) :
    ∀ n ∈ initActions.flatMap InitAction.checks, s.registry n ≠ none := by
  have hrunning : s.startup.app ≠ .returned (-1) := by
    intro h
    rw [h] at hcreated
    cases hcreated
  have hbefore : s.startup.app.before = initActions := by
    cases hpc : s.startup.app with
    | notify | wait | died | returned => rfl
    | _ => rw [hpc] at hcreated; cases hcreated
  intro n hn
  refine inv.checks hrunning n ?_
  rw [Attach.done, hbefore, List.flatMap_append]
  exact List.mem_append_left _ hn

/-- **A sound start.** In every interleaving, a poller that gets past its look-ups has found
everything, although the handshake does not make it wait: the application has created everything
by then, also what it does not look at, and both have the same objects under the same names. -/
theorem attach_sound (run : Run AttachEvent.Step attachInit log s)
    (ready : s.startup.poller.ready) : s.Attached := by
  obtain ⟨inv, found⟩ := Attach.inv_of_run run
  have hbefore : s.startup.poller.before = pollerActions := by
    cases hpc : s.startup.poller with
    | notify => rfl
    | returned ret =>
      rw [hpc] at ready
      exact if_pos (eq_of_beq ready)
    | _ => rw [hpc] at ready; cases ready
  have hhandle : ∀ n ∈ sharedNames, n ≠ .txPool →
      ∃ o, s.pollerHandle n = some o ∧ s.registry n = some o := by
    intro n hn hne
    have hmem : n ∈ s.looked.flatMap PollerAction.names := by
      rw [Attach.looked, hbefore, List.flatMap_append]
      exact List.mem_append_left _ (mem_pollerActions.mpr ⟨hn, hne⟩)
    obtain ⟨o, ho⟩ := Option.ne_none_iff_exists'.mp (found.handles n hmem)
    exact ⟨o, ho, inv.named.found n o ho⟩
  have hlast : ∀ func, s.registry (lastRing func) ≠ none := by
    intro func
    have hmem : lastRing func ∈ ringNames :=
      mem_ringNames.mpr ⟨numSocketsMax - 1, by decide, func, rfl⟩
    obtain ⟨o, -, ho⟩ := hhandle _ (List.mem_append_right _ hmem) fun h =>
      absurd (congrArg ShmName.kind h) nofun
    exact ho ▸ Option.some_ne_none o
  have hcreated := inv.created (hlast .rx) (hlast .tx)
  have hall : ∀ n ∈ sharedNames, ∃ o, s.appHandle n = some o := by
    intro n hn
    rw [← Option.ne_none_iff_exists', inv.named.handle]
    rcases mem_checks hn with hchecks | hunchecked
    · exact inv.checked hcreated n hchecks
    · have hne : n ≠ .txPool := by
        rintro rfl
        exact absurd hunchecked (by decide)
      obtain ⟨o, -, ho⟩ := hhandle n hn hne
      exact ho ▸ Option.some_ne_none o
  refine ⟨hcreated, hall, fun n hn hne => ?_, fun n hn m hm h => ?_⟩
  · obtain ⟨o, hpoller, hregistry⟩ := hhandle n hn hne
    rw [hpoller, inv.named.handle, hregistry]
  · obtain ⟨o, ho⟩ := hall n hn
    rw [ho] at h
    exact inv.named.unique n m o (inv.named.handle n ▸ ho) (inv.named.handle m ▸ h.symm)

end Runs

end Udpdk
