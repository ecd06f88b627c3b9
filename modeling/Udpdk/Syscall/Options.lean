import Mathlib.Data.List.Induction
import Udpdk.Syscall.Sockets

/-!
# The two reuse options

Both options of a socket live in one word that is tested, set and reset with the values of
the option constants as masks. The values are 2 and 15, so the masks overlap. Starting from
0 the word only ever becomes 2, 13 or 15, and which of them it is can be told from the
order of the calls.

## Main definitions

* `OptionCall`, `optionCalls` — the successful `udpdk_setsockopt` calls on an open socket
* `lastSet` — the last value given for one option
* `Stands`, `Pinned`, `PinnedThenReset` — the shapes of a history of calls
* `Shared.Reports` — the two options as the calls of the application see them

## Main results

* `tracks_soOptions` — the word after any history
* `option_independence_iff` — the histories after which the options are reported right
-/

namespace Udpdk

open Foundation

/-- The two options. -/
inductive ReuseOption
  | addr | port
  deriving DecidableEq, Repr

def ReuseOption.mask : ReuseOption → BitVec 32
  | .addr => soReuseaddr
  | .port => soReuseport

/-- A successful `udpdk_setsockopt`. -/
structure OptionCall where
  option : ReuseOption
  value : BitVec 32
  deriving DecidableEq, Repr

/-- The option word after a history of calls. -/
def soOptionsAfter (h : List OptionCall) : BitVec 32 :=
  h.foldl (fun word c => updateOption word c.option.mask c.value) 0

/-- The last value given for the option was not zero. -/
def lastSet (o : ReuseOption) (h : List OptionCall) : Bool :=
  h.foldl (fun last c => if c.option = o then c.value ≠ 0 else last) false

/-- `SO_REUSEADDR` was set, and no option was reset since. -/
def Stands (h : List OptionCall) : Prop :=
  ∃ before v after, h = before ++ ⟨.addr, v⟩ :: after ∧ v ≠ 0 ∧ ∀ c ∈ after, c.value ≠ 0

/-- `SO_REUSEPORT` was set when no `SO_REUSEADDR` stood, and was not reset since. -/
def Pinned (h : List OptionCall) : Prop :=
  ∃ before v after, h = before ++ ⟨.port, v⟩ :: after ∧ v ≠ 0 ∧ ¬ Stands before ∧
    ∀ c ∈ after, c.option = .port → c.value ≠ 0

/-- In addition `SO_REUSEADDR` was reset afterwards. -/
def PinnedThenReset (h : List OptionCall) : Prop :=
  ∃ before v after, h = before ++ ⟨.port, v⟩ :: after ∧ v ≠ 0 ∧ ¬ Stands before ∧
    (∀ c ∈ after, c.option = .port → c.value ≠ 0) ∧ ∃ c ∈ after, c.option = .addr ∧ c.value = 0

/-! ## One more call -/

section Snoc

variable (h : List OptionCall) (c : OptionCall) (o : ReuseOption)

@[simp] theorem soOptionsAfter_nil : soOptionsAfter [] = 0 := rfl

@[simp] theorem soOptionsAfter_snoc : soOptionsAfter (h ++ [c]) =
    updateOption (soOptionsAfter h) c.option.mask c.value := by
  simp [soOptionsAfter]

@[simp] theorem lastSet_nil : lastSet o [] = false := rfl

@[simp] theorem lastSet_snoc :
    lastSet o (h ++ [c]) = if c.option = o then decide (c.value ≠ 0) else lastSet o h := by
  simp [lastSet]

/-- A list that ends in `c` and is cut at an element is cut at `c` or before it. -/
private theorem snoc_eq_append_cons {α : Type} {xs before after : List α} {x y : α} :
    xs ++ [x] = before ++ y :: after ↔
      (before = xs ∧ y = x ∧ after = []) ∨
        ∃ rest, after = rest ++ [x] ∧ xs = before ++ y :: rest := by
  constructor
  · intro hxs
    rcases List.eq_nil_or_concat after with rfl | ⟨rest, z, rfl⟩
    · obtain ⟨rfl, hlast⟩ := List.append_inj' hxs rfl
      exact .inl ⟨rfl, (List.singleton_injective hlast).symm, rfl⟩
    · rw [List.concat_eq_append, ← List.cons_append, ← List.append_assoc] at hxs
      obtain ⟨rfl, hlast⟩ := List.append_inj' hxs rfl
      exact .inr ⟨rest, by rw [List.singleton_injective hlast, List.concat_eq_append], rfl⟩
  · rintro (⟨rfl, rfl, rfl⟩ | ⟨rest, rfl, rfl⟩)
    · rfl
    · simp

theorem not_stands_nil : ¬ Stands [] := by
  rintro ⟨before, v, after, h, -⟩
  simp at h

theorem not_pinned_nil : ¬ Pinned [] := by
  rintro ⟨before, v, after, h, -⟩
  simp at h

theorem not_pinnedThenReset_nil : ¬ PinnedThenReset [] := by
  rintro ⟨before, v, after, h, -⟩
  simp at h

variable {h c} in
/-- Setting `SO_REUSEADDR` lets it stand, and resetting any option ends that. -/
theorem stands_snoc : Stands (h ++ [c]) ↔ c.value ≠ 0 ∧ (c.option = .addr ∨ Stands h) := by
  constructor
  · rintro ⟨before, v, after, hsnoc, hv, hafter⟩
    obtain ⟨rfl, rfl, rfl⟩ | ⟨rest, rfl, rfl⟩ := snoc_eq_append_cons.mp hsnoc
    · exact ⟨hv, .inl rfl⟩
    · simp only [List.mem_append, or_imp, forall_and, List.mem_singleton, forall_eq] at hafter
      exact ⟨hafter.2, .inr ⟨before, v, rest, rfl, hv, hafter.1⟩⟩
  · rintro ⟨hc, haddr | ⟨before, v, after, rfl, hv, hafter⟩⟩
    · exact ⟨h, c.value, [], by rw [← haddr], hc, nofun⟩
    · refine ⟨before, v, after ++ [c], by simp, hv, ?_⟩
      simpa [or_imp, forall_and] using ⟨hafter, hc⟩

variable {h c} in
theorem pinned_snoc : Pinned (h ++ [c]) ↔
    (c.option = .port ∧ c.value ≠ 0 ∧ ¬ Stands h) ∨
      (Pinned h ∧ (c.option = .port → c.value ≠ 0)) := by
  constructor
  · rintro ⟨before, v, after, hsnoc, hv, hstands, hafter⟩
    obtain ⟨rfl, rfl, rfl⟩ | ⟨rest, rfl, rfl⟩ := snoc_eq_append_cons.mp hsnoc
    · exact .inl ⟨rfl, hv, hstands⟩
    · simp only [List.mem_append, or_imp, forall_and, List.mem_singleton, forall_eq] at hafter
      exact .inr ⟨⟨before, v, rest, rfl, hv, hstands, hafter.1⟩, hafter.2⟩
  · rintro (⟨hport, hc, hstands⟩ | ⟨⟨before, v, after, rfl, hv, hstands, hafter⟩, hc⟩)
    · exact ⟨h, c.value, [], by rw [← hport], hc, hstands, nofun⟩
    · refine ⟨before, v, after ++ [c], by simp, hv, hstands, ?_⟩
      simpa [or_imp, forall_and] using ⟨hafter, hc⟩

variable {h c} in
theorem pinnedThenReset_snoc : PinnedThenReset (h ++ [c]) ↔
    (Pinned h ∧ c.option = .addr ∧ c.value = 0) ∨
      (PinnedThenReset h ∧ (c.option = .port → c.value ≠ 0)) := by
  constructor
  · rintro ⟨before, v, after, hsnoc, hv, hstands, hafter, hreset⟩
    obtain ⟨rfl, rfl, rfl⟩ | ⟨rest, rfl, rfl⟩ := snoc_eq_append_cons.mp hsnoc
    · obtain ⟨d, hd, -⟩ := hreset
      cases hd
    · simp only [List.mem_append, or_imp, forall_and, List.mem_singleton, forall_eq] at hafter
      obtain ⟨d, hd, hreset⟩ := hreset
      rcases List.mem_append.mp hd with hd | hd
      · exact .inr ⟨⟨before, v, rest, rfl, hv, hstands, hafter.1, d, hd, hreset⟩, hafter.2⟩
      · obtain rfl := List.mem_singleton.mp hd
        exact .inl ⟨⟨before, v, rest, rfl, hv, hstands, hafter.1⟩, hreset⟩
  · rintro (⟨⟨before, v, after, rfl, hv, hstands, hafter⟩, haddr, hzero⟩ |
      ⟨⟨before, v, after, rfl, hv, hstands, hafter, d, hd, hreset⟩, hc⟩)
    · refine ⟨before, v, after ++ [c], by simp, hv, hstands, ?_, c, by simp, haddr, hzero⟩
      simpa [or_imp, forall_and, haddr] using hafter
    · refine ⟨before, v, after ++ [c], by simp, hv, hstands, ?_, d, by simp [hd], hreset⟩
      simpa [or_imp, forall_and] using ⟨hafter, hc⟩

end Snoc

/-! ## The word -/

theorem updateOption_set {word option value : BitVec 32} (h : value ≠ 0#32) :
    updateOption word option value = if hasOpt word option then word else word ||| option := by
  unfold updateOption
  cases hopt : hasOpt word option <;> simp [h]

theorem updateOption_reset {word option : BitVec 32} :
    updateOption word option 0 = if hasOpt word option then word &&& ~~~option else word := by
  unfold updateOption
  cases hopt : hasOpt word option <;> simp

/-- Which history leads to which word. -/
inductive Tracks (h : List OptionCall) : BitVec 32 → Prop
  | zero (pinned : ¬ Pinned h) (reset : ¬ PinnedThenReset h) (stands : ¬ Stands h)
      (last : ¬ (lastSet .addr h ∧ lastSet .port h)) : Tracks h 0
  | two (pinned : ¬ Pinned h) (reset : ¬ PinnedThenReset h) (stands : Stands h)
      (last : lastSet .addr h) : Tracks h 2
  | thirteen (pinned : Pinned h) (reset : PinnedThenReset h) (addr : lastSet .addr h = false)
      (port : lastSet .port h) : Tracks h 13
  | fifteen (pinned : Pinned h) (port : lastSet .port h)
      (last : PinnedThenReset h → lastSet .addr h) : Tracks h 15

theorem Tracks.set_addr {h : List OptionCall} {word v : BitVec 32} (tracks : Tracks h word)
    (hv : v ≠ 0#32) : Tracks (h ++ [⟨.addr, v⟩]) (updateOption word soReuseaddr v) := by
  rw [updateOption_set hv]
  cases tracks with
  | zero pinned reset stands last =>
    apply Tracks.two <;> simp [pinned_snoc, pinnedThenReset_snoc, stands_snoc, *]
  | two pinned reset stands last =>
    apply Tracks.two <;> simp [pinned_snoc, pinnedThenReset_snoc, stands_snoc, *]
  | thirteen pinned reset addr port =>
    apply Tracks.fifteen <;> simp [pinned_snoc, *]
  | fifteen pinned port last =>
    apply Tracks.fifteen <;> simp [pinned_snoc, *]

theorem Tracks.reset_addr {h : List OptionCall} {word : BitVec 32} (tracks : Tracks h word) :
    Tracks (h ++ [⟨.addr, 0⟩]) (updateOption word soReuseaddr 0) := by
  rw [updateOption_reset]
  cases tracks with
  | zero pinned reset stands last =>
    apply Tracks.zero <;> simp [pinned_snoc, pinnedThenReset_snoc, stands_snoc, *]
  | two pinned reset stands last =>
    apply Tracks.zero <;> simp [pinned_snoc, pinnedThenReset_snoc, stands_snoc, *]
  | thirteen pinned reset addr port =>
    apply Tracks.thirteen <;> simp [pinned_snoc, pinnedThenReset_snoc, *]
  | fifteen pinned port last =>
    apply Tracks.thirteen <;> simp [pinned_snoc, pinnedThenReset_snoc, *]

theorem Tracks.set_port {h : List OptionCall} {word v : BitVec 32} (tracks : Tracks h word)
    (hv : v ≠ 0#32) : Tracks (h ++ [⟨.port, v⟩]) (updateOption word soReuseport v) := by
  rw [updateOption_set hv]
  cases tracks with
  | zero pinned reset stands last =>
    apply Tracks.fifteen <;> simp [pinned_snoc, pinnedThenReset_snoc, *]
  -- the mask 15 has a bit in common with the word, so the option counts as set already
  | two pinned reset stands last =>
    apply Tracks.two <;> simp [pinned_snoc, pinnedThenReset_snoc, stands_snoc, *]
  | thirteen pinned reset addr port =>
    apply Tracks.thirteen <;> simp [pinned_snoc, pinnedThenReset_snoc, *]
  | fifteen pinned port last =>
    apply Tracks.fifteen <;> simp [pinned_snoc, pinnedThenReset_snoc, *]
    exact last

/-- `SO_REUSEPORT` is reset, which clears the whole word. -/
theorem Tracks.reset_port {h : List OptionCall} {word : BitVec 32} (tracks : Tracks h word) :
    Tracks (h ++ [⟨.port, 0⟩]) (updateOption word soReuseport 0) := by
  -- no word has a bit outside of the mask 15
  have hzero : updateOption word soReuseport 0 = 0 := by
    rw [updateOption_reset]
    cases tracks <;> decide
  rw [hzero]
  apply Tracks.zero <;> simp [pinned_snoc, pinnedThenReset_snoc, stands_snoc]

/-- **The word.** Every history determines the word as `Tracks` says. -/
theorem tracks_soOptionsAfter (h : List OptionCall) : Tracks h (soOptionsAfter h) := by
  -- one call after the other, so the last call of the history is the one that is made last
  induction h using List.reverseRecOn with
  | nil => exact .zero not_pinned_nil not_pinnedThenReset_nil not_stands_nil (by simp)
  | append_singleton h c ih =>
    rw [soOptionsAfter_snoc]
    obtain ⟨option, value⟩ := c
    by_cases hv : value = 0
    · subst hv
      cases option with
      | addr => exact ih.reset_addr
      | port => exact ih.reset_port
    · cases option with
      | addr => exact ih.set_addr hv
      | port => exact ih.set_port hv

/-- The histories after which both options are reported right: the last values agree, or
only `SO_REUSEPORT` is set, was set when no `SO_REUSEADDR` stood, and `SO_REUSEADDR` was
reset after that. -/
def OptionsSeparate (h : List OptionCall) : Prop :=
  lastSet .addr h = lastSet .port h ∨
    (lastSet .addr h = false ∧ lastSet .port h = true ∧ PinnedThenReset h)

theorem hasOpt_soOptionsAfter_iff (h : List OptionCall) :
    (hasOpt (soOptionsAfter h) soReuseaddr = lastSet .addr h ∧
      hasOpt (soOptionsAfter h) soReuseport = lastSet .port h) ↔ OptionsSeparate h := by
  unfold OptionsSeparate
  generalize hword : soOptionsAfter h = word
  have tracks : Tracks h word := hword ▸ tracks_soOptionsAfter h
  cases tracks with
  | zero pinned reset stands last =>
    have haddr : hasOpt 0 soReuseaddr = false := by decide
    have hport : hasOpt 0 soReuseport = false := by decide
    rw [haddr, hport]
    grind
  | two pinned reset stands last =>
    have haddr : hasOpt 2 soReuseaddr = true := by decide
    have hport : hasOpt 2 soReuseport = true := by decide
    rw [haddr, hport]
    grind
  | thirteen pinned reset addr port =>
    have haddr : hasOpt 13 soReuseaddr = false := by decide
    have hport : hasOpt 13 soReuseport = true := by decide
    rw [haddr, hport]
    grind
  | fifteen pinned port last =>
    have haddr : hasOpt 15 soReuseaddr = true := by decide
    have hport : hasOpt 15 soReuseport = true := by decide
    rw [haddr, hport]
    grind

/-! ## Histories of runs -/

/-- The option call that a call of the application makes on the socket `s`. -/
def ApiEvent.optionCall (s : ℕ) : ApiEvent → Option OptionCall
  | .setsockopt sockfd _ optname (some value) (.ok _) =>
    if sockfd = s then
      some ⟨if optname = soReuseaddr.toInt then .addr else .port, value⟩
    else none
  | _ => none

/-- The call returns the descriptor `s` as a new socket. -/
def ApiEvent.opens (s : ℕ) : ApiEvent → Bool
  | .socket _ _ _ (.ok t) => t = s
  | _ => false

/-- The option calls on the socket `s` since it was opened. -/
def optionCalls (s : ℕ) (log : List ApiEvent) : List OptionCall :=
  log.foldl (fun calls e =>
    if e.opens s then [] else calls ++ (e.optionCall s).toList) []

section Runs

variable {dpdk : Dpdk} {config : Configuration} {zones : AllocatorZones} {e : ApiEvent}
  {log : List ApiEvent} {v v' : SocketView} {σ σ' : Shared} {s : ℕ}

theorem optionCalls_snoc : optionCalls s (log ++ [e]) =
    if e.opens s then [] else optionCalls s log ++ (e.optionCall s).toList := by
  simp [optionCalls]

theorem ApiEvent.optionCall_of_passive (h : e.passive) : e.optionCall s = none := by
  cases e with
  | setsockopt sockfd level optname optval ret =>
    cases ret with
    | error e => cases optval <;> rfl
    | ok u => cases h
  | _ => rfl

theorem ApiEvent.opens_of_passive (h : e.passive) : e.opens s = false := by
  cases e with
  | socket domain type protocol ret =>
    cases ret with
    | error e => rfl
    | ok t => cases h
  | _ => rfl

theorem optionCalls_snoc_of_none (hopen : e.opens s = false) (hcall : e.optionCall s = none) :
    optionCalls s (log ++ [e]) = optionCalls s log := by
  rw [optionCalls_snoc, hopen, hcall]
  simp

theorem optionOf_supported {optname : ℤ} (h : optname ∈ supportedOptions) :
    optionOf optname =
      (if optname = soReuseaddr.toInt then ReuseOption.addr else ReuseOption.port).mask := by
  have hcases : optname = soReuseaddr.toInt ∨ optname = soReuseport.toInt := by
    simpa [supportedOptions] using h
  rcases hcases with rfl | rfl <;> decide

/-- One call keeps the word in step with the history of the socket. -/
theorem soOptions_of_change (hchange : ApiChange e v v')
    (h : (v.slot s).used → (v.slot s).soOptions = soOptionsAfter (optionCalls s log))
    (used : (v'.slot s).used) :
    (v'.slot s).soOptions = soOptionsAfter (optionCalls s (log ++ [e])) := by
  cases hchange with
  | @opened _ t domain type protocol hs free room =>
    have hopens : (ApiEvent.socket domain type protocol (.ok t)).opens s = decide (t = s) := rfl
    by_cases hts : t = s
    · -- a new socket starts a new history
      rw [optionCalls_snoc, hopens, decide_eq_true hts, ← hts, SocketView.slot_opened_self]
      rfl
    · rw [SocketView.slot_opened_of_ne (Ne.symm hts)] at used ⊢
      rw [optionCalls_snoc_of_none (hopens.trans (decide_eq_false hts)) rfl, h used]
  | @option _ t optname value hs used' supported =>
    by_cases hts : t = s
    · subst hts
      rw [SocketView.slot_withOption_self, optionCalls_snoc]
      simp only [ApiEvent.opens, ApiEvent.optionCall, Bool.false_eq_true, if_false, if_true,
        Option.toList_some, soOptionsAfter_snoc, h used', optionOf_supported supported]
    · rw [SocketView.slot_withOption_of_ne (Ne.symm hts)] at used ⊢
      have hcall : (ApiEvent.setsockopt t solSocket optname (some value) (.ok ())).optionCall s =
          none := if_neg fun heq => hts (Nat.cast_inj.mp heq)
      rw [optionCalls_snoc_of_none rfl hcall, h used]
  | bound =>
    rw [SocketView.used_boundTo] at used
    rw [optionCalls_snoc_of_none rfl rfl, SocketView.soOptions_boundTo]
    exact h used
  | implicitlyBound =>
    rw [SocketView.used_boundTo] at used
    rw [optionCalls_snoc_of_none rfl rfl, SocketView.soOptions_boundTo]
    exact h used
  | @closed _ t hs used' =>
    rw [optionCalls_snoc_of_none rfl rfl]
    by_cases hts : s = t
    · subst hts
      simp at used
    · rw [SocketView.slot_closed_of_ne hts] at used ⊢
      exact h used
  | kept passive =>
    rw [optionCalls_snoc_of_none (ApiEvent.opens_of_passive passive)
      (ApiEvent.optionCall_of_passive passive)]
    exact h used

/-- After any run the word of an open socket is that of its history. -/
theorem soOptions_of_run (run : Run (ApiEvent.step dpdk config) (sharedInit zones) log σ)
    (used : (σ.desc.slots s).used) :
    (σ.desc.slots s).soOptions = soOptionsAfter (optionCalls s log) := by
  revert used
  apply run.invariant fun log σ => (σ.desc.slots s).used →
    (σ.desc.slots s).soOptions = soOptionsAfter (optionCalls s log)
  · exact fun used => by cases used
  · intro log σ e σ' before h hstep used
    have hchange := (ApiEvent.step_spec (Shared.Ok.run before).mem hstep).change
    exact soOptions_of_change hchange h used

end Runs

/-! ## What the application sees -/

/-- `udpdk_getsockopt` reports the two options of the socket with the given values, and a
binding that `udpdk_bind` makes records them. -/
structure Shared.Reports (σ : Shared) (s : ℕ) (addr port : Bool) : Prop where
  getAddr : udpdkGetsockopt s solSocket soReuseaddr.toInt false false σ =
    .ok (.ok (if addr then 1 else 0), σ)
  getPort : udpdkGetsockopt s solSocket soReuseport.toInt false false σ =
    .ok (.ok (if port then 1 else 0), σ)
  bind : ∀ a addrlen σ', udpdkBind s (some a) addrlen σ = .ok (.ok (), σ') →
    ∀ b ∈ σ'.mem.bindings a.sinPort, b.sockfd = s → b.reuseAddr = addr ∧ b.reusePort = port

variable {σ : Shared} {s : ℕ}

theorem udpdkGetsockopt_eq (hs : s < numSocketsMax) (used : (σ.desc.slots s).used)
    (o : ReuseOption) : udpdkGetsockopt s solSocket o.mask.toInt false false σ =
      .ok (.ok (if hasOpt (σ.desc.slots s).soOptions o.mask then 1 else 0), σ) := by
  have spec : Prog.wp (fun _ => False)
      (udpdkGetsockopt s solSocket o.mask.toInt false false) _ σ :=
    udpdkGetsockopt_spec s solSocket o.mask.toInt false false fun h => h ⟨s, hs, rfl⟩
  have hopt : o.mask.toInt ∈ supportedOptions := by cases o <;> decide
  obtain ⟨ret, σ', hret, rfl, hspec⟩ := Prog.exists_ok_of_wp spec
  cases ret with
  | error e => exact absurd ⟨hs, rfl, used, rfl, hopt⟩ (hspec rfl rfl s)
  | ok value =>
    obtain ⟨t, htakes, rfl⟩ := hspec
    obtain rfl : s = t := Nat.cast_inj.mp htakes.fd
    rw [hret, optionOf_toInt]

/-- The binding that `udpdk_bind` makes records the masks of the word. -/
theorem reuse_of_udpdkBind (ok : σ.Ok) {a : SockaddrIn} {addrlen : ℕ} {σ' : Shared}
    (hbind : udpdkBind s (some a) addrlen σ = .ok (.ok (), σ')) {b : BindInfo}
    (hb : b ∈ σ'.mem.bindings a.sinPort) (hfd : b.sockfd = s) :
    b.reuseAddr = hasOpt (σ.desc.slots s).soOptions soReuseaddr ∧
      b.reusePort = hasOpt (σ.desc.slots s).soOptions soReuseport := by
  have spec : Prog.wp (fun _ => True) (udpdkBind s (some a) addrlen) _ σ :=
    udpdkBind_spec ok.mem s (some a) addrlen (fun _ => trivial) (fun _ => trivial)
      fun _ => trivial
  obtain ⟨-, -, t, a', haccepts, hview⟩ := Prog.wp_of_ok spec hbind
  obtain rfl : s = t := Nat.cast_inj.mp haccepts.fd
  obtain rfl := Option.some.inj haccepts.addr
  rw [bindings_of_boundTo hview] at hb
  rcases mem_insertBinding.mp hb with rfl | hold
  · exact ⟨rfl, rfl⟩
  · have hnone := ok.sockets.unbound s haccepts.unbound a.sinPort
    exact absurd hfd (ownedBy_eq_nil_iff.mp hnone b hold)

/-- What an open socket reports is what the masks of its word say. -/
theorem reports_iff (ok : σ.Ok) (hs : s < numSocketsMax) (used : (σ.desc.slots s).used)
    (addr port : Bool) : σ.Reports s addr port ↔
      hasOpt (σ.desc.slots s).soOptions soReuseaddr = addr ∧
        hasOpt (σ.desc.slots s).soOptions soReuseport = port := by
  have hvalue : ∀ x y : Bool, (if x then 1 else 0 : BitVec 32) = (if y then 1 else 0) → x = y := by
    decide
  have hret : ∀ x y : BitVec 32,
      (.ok (.ok x, σ) : Except Fault (Except Errno (BitVec 32) × Shared)) = .ok (.ok y, σ) →
        x = y := by
    intro x y h
    exact Except.ok.inj (Prod.mk.inj (Except.ok.inj h)).1
  constructor
  · rintro ⟨hgetAddr, hgetPort, -⟩
    exact ⟨hvalue _ _ (hret _ _ ((udpdkGetsockopt_eq hs used .addr).symm.trans hgetAddr)),
      hvalue _ _ (hret _ _ ((udpdkGetsockopt_eq hs used .port).symm.trans hgetPort))⟩
  · rintro ⟨rfl, rfl⟩
    exact ⟨udpdkGetsockopt_eq hs used .addr, udpdkGetsockopt_eq hs used .port,
      fun a addrlen σ' hbind b hb hfd => reuse_of_udpdkBind ok hbind hb hfd⟩

/-- **Option independence.** After any run, an open socket reports for each option whether
its last value was not zero, and records the same when bound, exactly when the history of
its option calls keeps the two options separate. -/
theorem option_independence_iff (dpdk : Dpdk) (config : Configuration) (zones : AllocatorZones)
    {log : List ApiEvent} {σ : Shared}
    (run : Run (ApiEvent.step dpdk config) (sharedInit zones) log σ) {s : ℕ}
    (hs : s < numSocketsMax) (used : (σ.desc.slots s).used) :
    σ.Reports s (lastSet .addr (optionCalls s log)) (lastSet .port (optionCalls s log)) ↔
      OptionsSeparate (optionCalls s log) := by
  rw [reports_iff (Shared.Ok.run run) hs used, soOptions_of_run run used]
  exact hasOpt_soOptionsAfter_iff _

/-- `udpdk_setsockopt` succeeds on every open socket. -/
theorem ApiEvent.exists_step_setsockopt (dpdk : Dpdk) (config : Configuration)
    (hs : s < numSocketsMax) (used : (σ.desc.slots s).used) (o : ReuseOption) (value : BitVec 32) :
    ∃ σ', (ApiEvent.setsockopt s solSocket o.mask.toInt (some value) (.ok ())).step dpdk config
      σ σ' ∧ σ' = { σ with desc := (σ.view.withOption s o.mask value).desc } := by
  have spec : Prog.wp (fun _ => False)
      (udpdkSetsockopt s solSocket o.mask.toInt (some value)) _ σ :=
    udpdkSetsockopt_spec s solSocket o.mask.toInt (some value) fun h => h ⟨s, hs, rfl⟩
  have hopt : o.mask.toInt ∈ supportedOptions := by cases o <;> decide
  obtain ⟨ret, σ', hret, hspec⟩ := Prog.exists_ok_of_wp spec
  cases ret with
  | error e => exact absurd ⟨hs, rfl, used, rfl, hopt⟩ (hspec.2 s value rfl)
  | ok u =>
    obtain ⟨t, w, htakes, hvalue, hσ'⟩ := hspec
    obtain rfl : s = t := Nat.cast_inj.mp htakes.fd
    obtain rfl := Option.some.inj hvalue
    rw [optionOf_toInt] at hσ'
    exact ⟨σ', hret, hσ'⟩

/-- After `SO_REUSEADDR` alone was set, `SO_REUSEPORT` reads as set too. -/
theorem not_option_independence : ¬ ∀ (dpdk : Dpdk) (config : Configuration)
    (zones : AllocatorZones) (log : List ApiEvent) (σ : Shared),
    Run (ApiEvent.step dpdk config) (sharedInit zones) log σ → ∀ s < numSocketsMax,
      (σ.desc.slots s).used → σ.Reports s (lastSet .addr (optionCalls s log))
        (lastSet .port (optionCalls s log)) := by
  intro h
  have first := run_sharedOpen Dpdk.reference Configuration.zero ⟨0, 0, 0, 0⟩ 1 (by decide)
  obtain ⟨σ, hset, rfl⟩ := ApiEvent.exists_step_setsockopt Dpdk.reference Configuration.zero
    (s := 0) (σ := sharedOpen ⟨0, 0, 0, 0⟩ 1) (by decide) rfl .addr 1
  have run := first.snoc hset
  have hs : 0 < numSocketsMax := by decide
  have reports := h _ _ _ _ _ run 0 hs rfl
  rw [reports_iff (Shared.Ok.run run) hs rfl] at reports
  exact absurd reports (by decide)

def OptionCall.event (s : ℕ) (c : OptionCall) : ApiEvent :=
  .setsockopt s solSocket c.option.mask.toInt (some c.value) (.ok ())

theorem exists_run_setsockopt (dpdk : Dpdk) (config : Configuration) (hs : s < numSocketsMax)
    (used : (σ.desc.slots s).used) (calls : List OptionCall) : ∃ σ',
      Run (ApiEvent.step dpdk config) σ (calls.map (OptionCall.event s)) σ' ∧
        (σ'.desc.slots s).used := by
  induction calls generalizing σ with
  | nil => exact ⟨σ, .nil, used⟩
  | cons c calls ih =>
    obtain ⟨σ₁, hset, hσ₁⟩ :=
      ApiEvent.exists_step_setsockopt dpdk config hs used c.option c.value
    have used₁ : (σ₁.desc.slots s).used := by
      rw [hσ₁]
      exact SocketView.used_withOption.trans used
    obtain ⟨σ₂, run, used₂⟩ := ih used₁
    exact ⟨σ₂, run.cons hset, used₂⟩

/-- Both options are set and reset, and then `SO_REUSEPORT` is set again. -/
def setAndReset : List OptionCall :=
  [⟨.addr, 1⟩, ⟨.addr, 0⟩, ⟨.port, 1⟩, ⟨.port, 0⟩, ⟨.port, 1⟩, ⟨.addr, 0⟩]

theorem option_independence_of_reset : ∃ σ,
    Run (ApiEvent.step Dpdk.reference Configuration.zero) (sharedInit ⟨0, 0, 0, 0⟩)
      ([.socket afInet sockDgram 0 (.ok 0)] ++ setAndReset.map (OptionCall.event 0)) σ ∧
    σ.Reports 0 false true := by
  have hopen := run_sharedOpen Dpdk.reference Configuration.zero ⟨0, 0, 0, 0⟩ 1 (by decide)
  have hs : 0 < numSocketsMax := by decide
  obtain ⟨σ, hset, used⟩ := exists_run_setsockopt Dpdk.reference Configuration.zero
    (σ := sharedOpen ⟨0, 0, 0, 0⟩ 1) hs rfl setAndReset
  have hiff := option_independence_iff Dpdk.reference Configuration.zero ⟨0, 0, 0, 0⟩
    (hopen.append hset) hs used
  have hseparate : OptionsSeparate setAndReset :=
    (hasOpt_soOptionsAfter_iff setAndReset).mp (by decide)
  exact ⟨σ, hopen.append hset, hiff.mpr hseparate⟩

end Udpdk
