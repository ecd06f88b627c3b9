import Udpdk.BindTable.Refinement
import Udpdk.Foundation.Run
import Udpdk.Packed.BindTable

/-!
# Address exclusivity

Any sequence of calls into the bind table, in any order and with any arguments, leaves on
every port a list of bindings that coexist, as long as allocated blocks are distinct objects.
In memory where they share bytes a binding can be overwritten, and another one is then accepted
in its place.

## Main definitions

* `BtableCall.standing` — the bindings that were accepted and not removed since
* `BtableCall.OneAtATime` — each socket holds at most one binding at a time

## Main results

* `BtableCall.run_bindings`, `BtableCall.run_coexist` — the invariants of a run
* `btable_address_exclusivity` — what two bindings on one port have in common
* `not_btable_address_exclusivity` — where blocks share bytes, they may have nothing in common
-/

namespace Udpdk

open Foundation

/-- A call into the bind table with what it returned. -/
inductive BtableCall
  | add (s : ℤ) (ip : InAddr) (port : Port) (opts : BitVec 32) (ret : ℤ)
  | del (s : ℤ) (port : Port)

def BtableCall.step : BtableCall → Mem → Mem → Prop
  | .add s ip port opts ret, m, m' => btableAddBinding s ip port opts m = .ok (ret, m')
  | .del s port, m, m' => btableDelBinding s port m = .ok ((), m')

variable {zones : AllocatorZones} {log : List BtableCall} {m m' : Mem} {call : BtableCall}
  {port : Port} {s : ℤ} {ip : InAddr} {opts : BitVec 32} {x y : BindInfo}

namespace BtableCall

/-- The bindings that stand on every port after one more call. -/
def standingAfter (bs : Port → List BindInfo) : BtableCall → Port → List BindInfo
  | .add s ip port opts ret =>
    if ret = 0 then Function.update bs port (insertBinding (newBinding s ip opts) (bs port)) else bs
  | .del s port => Function.update bs port (removeBinding s (bs port))

/-- The bindings that stand on every port after the calls: accepted, and not removed since. -/
def standing (log : List BtableCall) : Port → List BindInfo := log.foldl standingAfter fun _ => []

/-- One call adds an accepted binding, which every other one on the port admits, or removes
one. -/
theorem step_cases (ok : m.Ok) (h : call.step m m') :
    m'.Ok ∧ m'.bindings = standingAfter m.bindings call ∧
      ∀ s ip port opts, call = .add s ip port opts 0 → canBind (m.bindings port) ip opts := by
  cases call with
  | add s ip port opts ret =>
    have spec : Prog.wp (fun _ => True) (btableAddBinding s ip port opts) _ m :=
      btableAddBinding_spec ok fun _ => trivial
    obtain ⟨ok', h'⟩ := Prog.wp_of_ok spec h
    refine ⟨ok', ?_⟩
    split at h'
    · rename_i hcan
      obtain ⟨rfl, hbs⟩ := h'
      refine ⟨hbs, fun _ _ _ _ hcall => ?_⟩
      cases hcall
      exact hcan
    · obtain ⟨rfl, hbs⟩ := h'
      refine ⟨hbs, fun _ _ _ _ hcall => ?_⟩
      cases hcall
  | del s port =>
    have spec : Prog.wp (fun _ => True) (btableDelBinding s port) _ m :=
      btableDelBinding_spec ok fun _ => trivial
    obtain ⟨ok', h'⟩ := Prog.wp_of_ok spec h
    exact ⟨ok', h', fun _ _ _ _ hcall => by cases hcall⟩

/-- One call keeps the bindings of every port coexisting. -/
theorem step_coexist (ok : m.Ok) (h : call.step m m') (hco : ∀ p, Coexist (m.bindings p))
    (p : Port) :
    Coexist (m'.bindings p) := by
  obtain ⟨-, hbs, hcan⟩ := step_cases ok h
  rw [hbs]
  cases call with
  | add s ip port opts ret =>
    rw [standingAfter]
    split
    · rename_i hret
      subst hret
      by_cases hp : p = port
      · subst hp
        rw [Function.update_self]
        exact coexist_insertBinding (hco p) (hcan _ _ _ _ rfl)
      · rw [Function.update_of_ne hp]
        exact hco p
    · exact hco p
  | del s port =>
    rw [standingAfter]
    by_cases hp : p = port
    · subst hp
      rw [Function.update_self]
      exact coexist_removeBinding (hco p)
    · rw [Function.update_of_ne hp]
      exact hco p

/-- Every run leaves a well-formed table whose bindings coexist on every port. -/
theorem run_coexist (run : Run step (btableInit zones) log m) :
    m.Ok ∧ ∀ p, Coexist (m.bindings p) := by
  apply run.state_invariant ⟨ok_btableInit zones, fun p => List.Pairwise.nil⟩
  rintro call m m' ⟨ok, hco⟩ h
  exact ⟨(step_cases ok h).1, step_coexist ok h hco⟩

/-- The table lists the bindings that stand. -/
theorem run_bindings (run : Run step (btableInit zones) log m) : m.bindings = standing log := by
  have both : m.Ok ∧ m.bindings = standing log := by
    apply run.invariant fun log m => m.Ok ∧ m.bindings = standing log
    · exact ⟨ok_btableInit zones, rfl⟩
    · rintro log m call m' - ⟨ok, hbs⟩ hstep
      obtain ⟨ok', hbs', -⟩ := step_cases ok hstep
      refine ⟨ok', ?_⟩
      rw [hbs', hbs, standing, standing, List.foldl_append]
      rfl
  exact both.2

end BtableCall

/-- Two bindings at different places of one port's list, after any calls into the bind
table: they are not both wildcards; on the same specific address both allow the port to be
reused; of a wildcard and a specific binding one allows reuse; and a binding without flags
on a specific address has it alone. -/
theorem btable_address_exclusivity (zones : AllocatorZones) {log : List BtableCall} {m : Mem}
    (run : Run BtableCall.step (btableInit zones) log m) (port : Port) {i j : ℕ} (hne : i ≠ j)
    {x y : BindInfo} (hi : (m.bindings port)[i]? = some x) (hj : (m.bindings port)[j]? = some y) :
    ¬ (x.ipAddr = inaddrAny ∧ y.ipAddr = inaddrAny) ∧
      (x.ipAddr ≠ inaddrAny → x.ipAddr = y.ipAddr → x.reusePort ∧ y.reusePort) ∧
      ((x.ipAddr = inaddrAny ↔ y.ipAddr ≠ inaddrAny) →
        x.reuseAddr ∨ x.reusePort ∨ y.reuseAddr ∨ y.reusePort) ∧
      (x.ipAddr ≠ inaddrAny → x.reuseAddr = false → x.reusePort = false → y.ipAddr ≠ x.ipAddr) := by
  have exclusive := ((BtableCall.run_coexist run).2 port).exclusive hne hi hj
  refine ⟨exclusive.one_wildcard, fun _ => exclusive.same_ip, exclusive.wildcard_and_specific, ?_⟩
  intro _ _ hport heq
  have := (exclusive.same_ip heq.symm).1
  rw [hport] at this
  cases this

/-- Two sockets that share a specific address and port with `SO_REUSEPORT`. -/
theorem btable_address_exclusivity_of_two : ∃ log m,
    Run BtableCall.step (btableInit ⟨0, 0, 0, 0⟩) log m ∧
      m.bindings 53 = [newBinding 0 1 soReuseport, newBinding 1 1 soReuseport] ∧
      (newBinding 0 1 soReuseport).reusePort ∧ (newBinding 1 1 soReuseport).reusePort := by
  have can₀ : canBind ((btableInit ⟨0, 0, 0, 0⟩).bindings 53) 1 soReuseport := rfl
  obtain ⟨m₁, hadd₁, ok₁, hbs₁⟩ := exists_btableAddBinding 0 53 (ok_btableInit _) (by decide) can₀
  change m₁.bindings = Function.update (fun _ => []) 53 [newBinding 0 1 soReuseport] at hbs₁
  have hfree : m₁.bindInfoAlloc.mz.all.nFree ≠ 0 := by
    apply ok₁.bindInfo_nFree_ne_zero (hbs₁ ▸ oneEach_singleton _ _) (t := 1)
    · intro p b hb
      rw [hbs₁] at hb
      rw [(mem_update_singleton hb).2]
      exact ⟨0, by decide, rfl⟩
    · decide
    · intro p
      rw [ownedBy_eq_nil_iff]
      intro b hb
      rw [hbs₁] at hb
      rw [(mem_update_singleton hb).2]
      decide
  have can₁ : canBind (m₁.bindings 53) 1 soReuseport := by rw [hbs₁]; rfl
  obtain ⟨m₂, hadd₂, -, hbs₂⟩ := exists_btableAddBinding 1 53 ok₁ hfree can₁
  have hbs : m₂.bindings 53 = [newBinding 0 1 soReuseport, newBinding 1 1 soReuseport] := by
    rw [hbs₂, hbs₁]
    rfl
  have run : Run BtableCall.step (btableInit ⟨0, 0, 0, 0⟩)
      [.add 0 1 53 soReuseport 0, .add 1 1 53 soReuseport 0] m₂ :=
    (Run.single (a := BtableCall.add 0 1 53 soReuseport 0) hadd₁).snoc
      (a := BtableCall.add 1 1 53 soReuseport 0) hadd₂
  refine ⟨_, m₂, run, hbs, ?_⟩
  exact (btable_address_exclusivity _ run 53 Nat.zero_ne_one (by rw [hbs]; rfl)
    (by rw [hbs]; rfl)).2.1 (by decide) rfl

/-! ## In memory whose blocks share bytes -/

namespace BtableCall

/-- The state after the call, where it returns what is logged. -/
def packed : BtableCall → PackedMem → Option PackedMem
  | .add s ip port opts ret => (Packed.btableAddBinding s ip port opts).outcome ret
  | .del s port => (Packed.btableDelBinding s port).outcome ()

def packedStep (call : BtableCall) (m m' : PackedMem) : Prop := call.packed m = some m'

/-- The sockets that hold a binding after one more call, each with its port. -/
def heldAfter (held : List (ℤ × Port)) : BtableCall → List (ℤ × Port)
  | .add s _ port _ ret => if ret = 0 then (s, port) :: held else held
  | .del s port => held.erase (s, port)

/-- Each socket holds at most one binding at a time. -/
def OneAtATime (log : List BtableCall) : Prop :=
  ∀ before ∈ log.inits, ((before.foldl heldAfter []).map Prod.fst).Nodup

instance (log : List BtableCall) : Decidable (OneAtATime log) :=
  inferInstanceAs (Decidable (∀ before ∈ log.inits, _))

end BtableCall

/-- Socket 0 binds 43 times before it keeps its binding, so that the node's address ends in a
zero byte. The list of another port then overwrites all other bytes of the head of its list. -/
def overlappingCalls : List BtableCall :=
  (List.replicate 43 [BtableCall.add 0 7 53 0 0, .del 0 53]).flatten ++
    [.add 0 7 53 0 0, .add 1 9 54 0 0, .del 1 54, .add 2 7 53 0 0]

/-- Where blocks share bytes, two sockets without flags can have the same address and port. -/
theorem not_btable_address_exclusivity : ¬ ∀ (zones : AllocatorZones) (memory : ByteMemory)
    (log : List BtableCall) (m : PackedMem), (packedInit zones memory).Reserved →
      Run BtableCall.packedStep (packedInit zones memory) log m → BtableCall.OneAtATime log →
      ∀ (port : Port) (i j : ℕ) (x y : BindInfo), i ≠ j →
        (BtableCall.standing log port)[i]? = some x → (BtableCall.standing log port)[j]? = some y →
        Exclusive x y := by
  intro exclusive
  have returns : (overlappingCalls.foldlM (fun m call => BtableCall.packed call m)
      (packedInit hugepageZones hugepage)).isSome := by decide +kernel
  obtain ⟨m, hm⟩ := Option.isSome_iff_exists.mp returns
  have standing : BtableCall.standing overlappingCalls 53 =
      [newBinding 0 7 0, newBinding 2 7 0] := by decide +kernel
  have once : BtableCall.OneAtATime overlappingCalls := by decide +kernel
  have shared := exclusive _ _ _ m reserved_hugepage (Run.of_foldlM hm) once 53 0 1 _ _
    Nat.zero_ne_one (by rw [standing]; rfl) (by rw [standing]; rfl)
  exact absurd (shared.same_ip rfl).1 (by decide)

end Udpdk
