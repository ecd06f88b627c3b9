import Mathlib.Data.Finset.Card
import Udpdk.Syscall.Sockets

/-!
# The counter of open sockets

`udpdk_socket` refuses a new socket when `n_zones_active` exceeds the number of slots, so
the counter has to follow the number of open slots. Both `udpdk_socket` and `udpdk_close`
increment it.

## Main definitions

* `ExchZoneInfo.openSlots` — the slots in use
* `Shared.Accounted` — the counter is right, and `udpdk_socket` succeeds as it should

## Main results

* `SocketView.nZonesActive_of_run` — by how much the counter is off after any run
* `accounting_iff` — the runs on which it never is
-/

namespace Udpdk

open Foundation

/-- The slots that are in use. -/
def ExchZoneInfo.openSlots (desc : ExchZoneInfo) : Finset ℕ :=
  (Finset.range numSocketsMax).filter fun s => (desc.slots s).used

/-- The counter counts the open slots; a call of `udpdk_socket` with valid arguments
succeeds exactly when a slot is free, and returns a free one. -/
structure Shared.Accounted (σ : Shared) : Prop where
  count : σ.desc.nZonesActive = σ.desc.openSlots.card
  opens : ∀ domain type protocol, socketValidateArgs domain type protocol = .ok () →
    ∃ ret σ', udpdkSocket domain type protocol σ = .ok (ret, σ') ∧
      ((∃ s, ret = .ok s) ↔ ∃ s < numSocketsMax, (σ.desc.slots s).used = false) ∧
      ∀ s, ret = .ok s → s < numSocketsMax ∧ s ∉ σ.desc.openSlots

/-- A successful `udpdk_close`. -/
def ApiEvent.closes : ApiEvent → Bool
  | .close _ (.ok _) => true
  | _ => false

variable {dpdk : Dpdk} {config : Configuration} {zones : AllocatorZones} {e : ApiEvent}
  {log : List ApiEvent} {v v' : SocketView} {σ σ' : Shared} {s : ℕ}

theorem mem_openSlots {desc : ExchZoneInfo} :
    s ∈ desc.openSlots ↔ s < numSocketsMax ∧ (desc.slots s).used := by
  simp [ExchZoneInfo.openSlots]

theorem card_openSlots_le (desc : ExchZoneInfo) : desc.openSlots.card ≤ numSocketsMax :=
  (Finset.card_filter_le _ _).trans_eq (Finset.card_range _)

theorem openSlots_congr {desc desc' : ExchZoneInfo}
    (h : ∀ t, (desc'.slots t).used = (desc.slots t).used) : desc'.openSlots = desc.openSlots := by
  ext t
  rw [mem_openSlots, mem_openSlots, h]

theorem openSlots_opened (hs : s < numSocketsMax) :
    (v.opened s).desc.openSlots = insert s v.desc.openSlots := by
  ext t
  have hslot : ((v.opened s).desc.slots t).used = ((v.opened s).slot t).used := rfl
  rw [Finset.mem_insert, mem_openSlots, mem_openSlots, hslot]
  by_cases hts : t = s
  · simp [hts, hs]
  · rw [SocketView.slot_opened_of_ne hts]
    simp [hts, SocketView.slot]

theorem openSlots_closed : (v.closed s).desc.openSlots = v.desc.openSlots.erase s := by
  ext t
  have hslot : ((v.closed s).desc.slots t).used = ((v.closed s).slot t).used := rfl
  rw [Finset.mem_erase, mem_openSlots, mem_openSlots, hslot]
  by_cases hts : t = s
  · simp [hts]
  · rw [SocketView.slot_closed_of_ne hts]
    simp [hts, SocketView.slot]

theorem openSlots_modifySlot {desc desc' : ExchZoneInfo} {f : ExchSlotInfo → ExchSlotInfo}
    (h : desc' = desc.modifySlot s f) (hf : ∀ slot, (f slot).used = slot.used) :
    desc'.openSlots = desc.openSlots := by
  apply openSlots_congr
  intro t
  rw [h]
  by_cases hts : t = s
  · subst hts
    simp [ExchZoneInfo.modifySlot, hf]
  · simp [ExchZoneInfo.modifySlot, hts]

theorem openSlots_withOption (option value : BitVec 32) :
    (v.withOption s option value).desc.openSlots = v.desc.openSlots := by
  have hdesc : (v.withOption s option value).desc = v.desc.modifySlot s fun slot =>
    { slot with soOptions := updateOption slot.soOptions option value } := rfl
  exact openSlots_modifySlot hdesc fun _ => rfl

theorem openSlots_boundTo (ip : InAddr) (port : Port) :
    (v.boundTo s ip port).desc.openSlots = v.desc.openSlots := by
  have hdesc : (v.boundTo s ip port).desc = v.desc.modifySlot s fun slot =>
    { slot with bound := true, udpPort := port, ipAddr := ip } := rfl
  exact openSlots_modifySlot hdesc fun _ => rfl

/-! ## The error of the counter -/

/-- The counter runs ahead by two for every socket closed. -/
def SocketView.Ahead (closed : ℕ) (v : SocketView) : Prop :=
  v.desc.nZonesActive = (v.desc.openSlots.card + 2 * closed) % 2 ^ 64

theorem SocketView.Ahead.congr {n : ℕ} (h : v.Ahead n) (hclose : e.closes = false)
    (hcount : v'.desc.nZonesActive = v.desc.nZonesActive)
    (hopen : v'.desc.openSlots = v.desc.openSlots) :
    v'.Ahead (n + if e.closes then 1 else 0) := by
  rw [hclose, SocketView.Ahead, hcount, hopen]
  exact h

theorem ApiEvent.closes_of_passive (h : e.passive) : e.closes = false := by
  cases e with
  | close s ret =>
    cases ret with
    | error e => rfl
    | ok u => cases h
  | _ => rfl

theorem SocketView.Ahead.change {n : ℕ} (h : v.Ahead n) (hchange : ApiChange e v v') :
    v'.Ahead (n + if e.closes then 1 else 0) := by
  cases hchange with
  | @opened _ s _ _ _ hs free room =>
    have hnew : s ∉ v.desc.openSlots := by
      rw [mem_openSlots]
      intro hused
      have : (v.slot s).used := hused.2
      rw [free] at this
      cases this
    have hcount : (v.opened s).desc.nZonesActive = (v.desc.nZonesActive + 1) % 2 ^ 64 := rfl
    unfold SocketView.Ahead at h ⊢
    rw [hcount, openSlots_opened hs, Finset.card_insert_of_notMem hnew, h]
    simp only [ApiEvent.closes, Bool.false_eq_true, if_false]
    omega
  | option hs used supported => exact h.congr rfl rfl (openSlots_withOption _ _)
  | bound hs used unbound accepted => exact h.congr rfl rfl (openSlots_boundTo _ _)
  | implicitlyBound hs used unbound accepted => exact h.congr rfl rfl (openSlots_boundTo _ _)
  | @closed _ s hs used =>
    have hmem : s ∈ v.desc.openSlots := mem_openSlots.mpr ⟨hs, used⟩
    -- one slot less is open, but `udpdk_close` increments the counter too
    have hpos := Finset.card_pos.mpr ⟨s, hmem⟩
    have hcount : (v.closed s).desc.nZonesActive = (v.desc.nZonesActive + 1) % 2 ^ 64 := rfl
    unfold SocketView.Ahead at h ⊢
    rw [hcount, openSlots_closed, Finset.card_erase_of_mem hmem, h]
    simp only [ApiEvent.closes, if_true]
    omega
  | kept passive => exact h.congr (ApiEvent.closes_of_passive passive) rfl rfl

/-- After any run the counter is ahead by two for every successful `udpdk_close` in it. -/
theorem ahead_of_run (run : Run (ApiEvent.step dpdk config) (sharedInit zones) log σ) :
    σ.view.Ahead (log.countP ApiEvent.closes) := by
  apply run.invariant fun log σ => σ.view.Ahead (log.countP ApiEvent.closes)
  · have hnone : (sharedInit zones).desc.openSlots = ∅ :=
      Finset.filter_false_of_mem fun _ _ => Bool.false_ne_true
    have hzero : 0 = ((sharedInit zones).desc.openSlots.card + 2 * 0) % 2 ^ 64 := by
      rw [hnone]
      rfl
    exact hzero
  · intro log σ e σ' before h hstep
    have hchange := (ApiEvent.step_spec (Shared.Ok.run before).mem hstep).change
    rw [List.countP_append, List.countP_singleton]
    exact h.change hchange

/-! ## The runs without error -/

/-- While nothing was closed the counter is right. -/
theorem Shared.accounted (h : σ.view.Ahead 0) : σ.Accounted where
  count := by
    have hle := card_openSlots_le σ.desc
    have hcount : σ.desc.nZonesActive = (σ.desc.openSlots.card + 2 * 0) % 2 ^ 64 := h
    unfold numSocketsMax at hle
    omega
  opens := by
    intro domain type protocol hargs
    have hle := card_openSlots_le σ.desc
    have hcount : σ.desc.nZonesActive = (σ.desc.openSlots.card + 2 * 0) % 2 ^ 64 := h
    have hroom : ¬ numSocketsMax < σ.desc.nZonesActive := by
      unfold numSocketsMax at hle ⊢
      omega
    have spec : Prog.wp (fun _ => False) (udpdkSocket domain type protocol) _ σ :=
      udpdkSocket_spec domain type protocol
    obtain ⟨ret, σ', hret, hspec⟩ := Prog.exists_ok_of_wp spec
    refine ⟨ret, σ', hret, ?_⟩
    rw [hargs] at hspec
    dsimp only at hspec
    rw [if_neg hroom] at hspec
    cases hfind : (List.range numSocketsMax).find? fun i => !(σ.desc.slots i).used with
    | none =>
      rw [hfind] at hspec
      obtain ⟨rfl, rfl⟩ := Prod.mk.inj hspec
      refine ⟨⟨nofun, ?_⟩, nofun⟩
      rintro ⟨s, hs, hfree⟩
      have hused := List.find?_eq_none.mp hfind s (List.mem_range.mpr hs)
      simp [hfree] at hused
    | some s =>
      rw [hfind] at hspec
      obtain ⟨rfl, rfl⟩ := Prod.mk.inj hspec
      have hs : s < numSocketsMax := List.mem_range.mp (List.mem_of_find?_eq_some hfind)
      have hfree : (σ.desc.slots s).used = false := by simpa using List.find?_some hfind
      refine ⟨⟨fun _ => ⟨s, hs, hfree⟩, fun _ => ⟨s, rfl⟩⟩, fun t ht => ?_⟩
      obtain rfl := Except.ok.inj ht
      refine ⟨hs, fun hmem => ?_⟩
      rw [(mem_openSlots.mp hmem).2] at hfree
      cases hfree

/-- The first successful `udpdk_close` puts the counter wrong. -/
theorem Shared.not_accounted (h : σ.view.Ahead 1) : ¬ σ.Accounted := by
  intro accounted
  have hle := card_openSlots_le σ.desc
  have hcount : σ.desc.nZonesActive = (σ.desc.openSlots.card + 2 * 1) % 2 ^ 64 := h
  rw [accounted.count] at hcount
  unfold numSocketsMax at hle
  omega

/-- **Accounting.** Along a run of calls the counter follows the open slots, and
`udpdk_socket` succeeds as it should, exactly when no `udpdk_close` of the run succeeds. -/
theorem accounting_iff (dpdk : Dpdk) (config : Configuration) (zones : AllocatorZones)
    {log : List ApiEvent} {σ : Shared}
    (run : Run (ApiEvent.step dpdk config) (sharedInit zones) log σ) :
    Run.Always (ApiEvent.step dpdk config) Shared.Accounted (sharedInit zones) log σ ↔
      ∀ e ∈ log, e.closes = false := by
  apply run.always_iff
  · intro log σ run hgood
    have hzero : log.countP ApiEvent.closes = 0 := List.countP_eq_zero.mpr (by simpa using hgood)
    exact Shared.accounted (hzero ▸ ahead_of_run run)
  · intro log σ e σ' run hgood hbad hstep
    have hzero : log.countP ApiEvent.closes = 0 := List.countP_eq_zero.mpr (by simpa using hgood)
    have hahead := ahead_of_run (run.snoc hstep)
    rw [List.countP_append, hzero, List.countP_singleton, if_pos hbad] at hahead
    exact Shared.not_accounted hahead

/-- Opening one socket and closing it. -/
theorem not_accounted_of_close : ¬ ∀ (dpdk : Dpdk) (config : Configuration)
    (zones : AllocatorZones) (log : List ApiEvent) (σ : Shared),
    Run (ApiEvent.step dpdk config) (sharedInit zones) log σ → σ.Accounted := by
  intro h
  have first := run_sharedOpen Dpdk.reference Configuration.zero ⟨0, 0, 0, 0⟩ 1 (by decide)
  obtain ⟨σ, hclose, -⟩ := ApiEvent.exists_step_close (s := 0) (Shared.Ok.run first) (by decide) rfl
  have hahead := ahead_of_run (first.snoc hclose)
  have hone : List.countP ApiEvent.closes ((List.range 1).map (fun i =>
      ApiEvent.socket afInet sockDgram 0 (.ok i)) ++ [.close (0 : ℕ) (.ok ())]) = 1 := rfl
  rw [hone] at hahead
  exact Shared.not_accounted hahead (h _ _ _ _ _ (first.snoc hclose))

/-- Opening three sockets keeps the counter right. -/
theorem accounting_of_opens : Run.Always (ApiEvent.step Dpdk.reference Configuration.zero)
    Shared.Accounted (sharedInit ⟨0, 0, 0, 0⟩)
    ((List.range 3).map fun i => .socket afInet sockDgram 0 (.ok i))
    (sharedOpen ⟨0, 0, 0, 0⟩ 3) :=
  (accounting_iff _ _ _ (run_sharedOpen _ _ _ 3 (by decide))).mpr (by simp [ApiEvent.closes])

end Udpdk
