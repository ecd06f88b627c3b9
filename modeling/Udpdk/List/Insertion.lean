import Udpdk.BindTable.Basic
import Udpdk.Foundation.Run
import Udpdk.List.Representation

/-!
# Insertion behind the first node

`list_spush` is the one operation that the list code did not have from the start. It links
the node in on both sides, but it does not look at the tail: in a list of one node the new
one is the last, and the header still names the old one.

## Main definitions

* `Mem.Represents` — a header and its nodes, read in both directions
* `ListOp` — the operations that insert or remove a node
* `ListCall.harmless` — the list does not outgrow what the operation looks at

## Main results

* `listSpush_spec`, `listSpush_single` — what `list_spush` leaves
* `list_represented_iff` — when a sequence of operations keeps the list
-/

namespace Udpdk

open Foundation

variable {allowed : Fault → Prop} {m m' : Mem} {l n a : ℕ} {xs : List ℕ}

/-! ## list_spush -/

/-- The sequence with `n` behind the first element. -/
def insertSecond (n : ℕ) : List ℕ → List ℕ
  | [] => [n]
  | a :: xs => a :: n :: xs

/-- `list_spush` inserts behind the first node, unless it is the only one. -/
theorem listSpush_spec (h : m.ListAt l xs) (hn : n ∉ xs) (hlen : xs.length + 1 < 2 ^ 32)
    (hone : xs.length ≠ 1) :
    Prog.wp allowed (listSpush (some l) (some n)) (fun _ m' =>
      m'.ListAt l (insertSecond n xs)) m := by
  have hlength := h.len
  have htail := h.tail
  have hhead := h.head
  cases xs with
  | nil =>
    simp [listSpush, hlength]
    exact Prog.wp_mono (listLpush_spec h hn hlen) fun _ _ h => h.1
  | cons a rest =>
    have han : n ≠ a := fun han => hn (by simp [han])
    cases rest with
    -- behind the only node, which the source takes for a node in the middle
    | nil => exact absurd rfl hone
    | cons b rest =>
      have hbn : n ≠ b := fun hbn => hn (by simp [hbn])
      have hab : a ≠ b := by
        have hnodup := h.nodup
        grind
      have hnext : (m.nodeAlloc.cells a).next = some b := h.linked.2.1
      simp [listSpush, hlength, hhead, hnext, Pool.modify_cells, han]
      refine (h.insert [a] (b :: rest) rfl rfl hn ?_ ?_ ?_ ?_ ?_).1
      · constructor <;> rfl
      · exact fun k hk => by simp [Pool.modify_cells, hk]
      · simpa [hlength, htail, hhead] using u32_of_lt hlen
      · simp [Pool.modify_cells, han, hbn, Mem.val]
      · intro c hc
        by_cases hca : c = a
        · simp [Pool.modify_cells, hca, hab, hab.symm, Mem.prev, Mem.val, han.symm]
        · by_cases hcb : c = b
          · simp [Pool.modify_cells, hcb, hab, hab.symm, Mem.next, Mem.val, hbn.symm]
          · simp [Pool.modify_cells, hc, hca, hcb, Ne.symm hca, Ne.symm hcb, Mem.prev, Mem.next,
              Mem.val]

/-- In a list of one node the tail stays where it was. -/
theorem listSpush_single (h : m.ListAt l [a]) (hn : n ≠ a) :
    Prog.wp allowed (listSpush (some l) (some n)) (fun _ m' =>
      (m'.listAlloc.cells l).tail = some a) m := by
  have hlength := h.len
  have htail := h.tail
  have hhead := h.head
  have hnext : (m.nodeAlloc.cells a).next = none := h.linked.2.1
  simp [listSpush, hlength, hhead, hnext, Pool.modify_cells, hn, htail]

/-! ## A list in both directions -/

/-- The header at `l` represents the sequence `xs`: its 32-bit length counts them, they are
what is visited by following `next` from the head, and in reverse what is visited by
following `prev` from the tail. -/
structure Mem.Represents (m : Mem) (l : ℕ) (xs : List ℕ) : Prop extends m.ListAt l xs where
  len_lt : xs.length < 2 ^ 32
  forward : walk m.next (m.listAlloc.cells l).len (m.listAlloc.cells l).head = xs
  backward : walk m.prev (m.listAlloc.cells l).len (m.listAlloc.cells l).tail = xs.reverse

theorem Mem.ListAt.represents (h : m.ListAt l xs) (hlen : xs.length < 2 ^ 32) :
    m.Represents l xs where
  toListAt := h
  len_lt := hlen
  forward := by
    rw [h.len, h.head]
    exact h.linked.walk_eq (Nat.le_refl _)
  backward := by
    rw [h.len, h.tail]
    exact h.linked.walk_reverse_eq (Nat.le_refl _)

/-! ## Sequences of operations -/

/-- The operations that insert or remove a node. -/
inductive ListOp
  | lpush (n : ℕ)
  | rpush (n : ℕ)
  | spush (n : ℕ)
  | remove (n : ℕ)

namespace ListOp

/-- The operation on the list at `l`. -/
def run (l : ℕ) : ListOp → MemProg Unit
  | .lpush n => do let _ ← listLpush (some l) (some n)
  | .rpush n => do let _ ← listRpush (some l) (some n)
  | .spush n => do let _ ← listSpush (some l) (some n)
  | .remove n => listRemove (some l) (some n)

/-- The operation on the sequence of nodes. -/
def onNodes : ListOp → List ℕ → List ℕ
  | .lpush n, xs => n :: xs
  | .rpush n, xs => xs ++ [n]
  | .spush n, xs => insertSecond n xs
  | .remove n, xs => xs.erase n

/-- A node that is inserted is new, one that is removed is in the list. -/
def Applies : ListOp → List ℕ → Prop
  | .lpush n, xs | .rpush n, xs | .spush n, xs => n ∉ xs
  | .remove n, xs => n ∈ xs

end ListOp

/-- A list in memory, and the nodes it is to hold. -/
structure ListState where
  mem : Mem
  nodes : List ℕ

/-- An operation, and the number of nodes that it finds. -/
structure ListCall where
  op : ListOp
  len : ℕ

namespace ListCall

def Step (l : ℕ) (c : ListCall) (s t : ListState) : Prop :=
  c.len = s.nodes.length ∧ c.op.Applies s.nodes ∧ c.op.run l s.mem = .ok ((), t.mem) ∧
    t.nodes = c.op.onNodes s.nodes

/-- The operation does not insert behind the only node of a list, and the length of the list
does not run out of its 32 bits. -/
def harmless : ListCall → Bool
  | ⟨.spush _, len⟩ => len ≠ 1 ∧ len + 1 < 2 ^ 32
  | ⟨.lpush _, len⟩ | ⟨.rpush _, len⟩ => len + 1 < 2 ^ 32
  | ⟨.remove _, _⟩ => true

end ListCall

theorem length_insertSecond : (insertSecond n xs).length = xs.length + 1 := by
  cases xs with
  | nil => rfl
  | cons a xs => rfl

/-- **One operation.** A harmless one returns and keeps the list. -/
theorem ListOp.run_spec {c : ListCall} (h : m.Represents l xs) (hlen : c.len = xs.length)
    (happlies : c.op.Applies xs) (hharmless : c.harmless) :
    Prog.wp allowed (c.op.run l) (fun _ m' => m'.Represents l (c.op.onNodes xs)) m := by
  obtain ⟨op, len⟩ := c
  obtain rfl : len = xs.length := hlen
  cases op with
  | lpush n =>
    have hroom : xs.length + 1 < 2 ^ 32 := of_decide_eq_true hharmless
    simp only [ListOp.run, Prog.wp_bind, Prog.wp_pure]
    refine Prog.wp_mono (listLpush_spec h.toListAt happlies hroom) ?_
    rintro _ m' ⟨h', -⟩
    exact h'.represents hroom
  | rpush n =>
    have hroom : xs.length + 1 < 2 ^ 32 := of_decide_eq_true hharmless
    simp only [ListOp.run, Prog.wp_bind, Prog.wp_pure]
    refine Prog.wp_mono (listRpush_spec h.toListAt happlies hroom) ?_
    rintro _ m' ⟨h', -⟩
    refine h'.represents ?_
    rw [List.length_append]
    exact hroom
  | spush n =>
    obtain ⟨hone, hroom⟩ : xs.length ≠ 1 ∧ xs.length + 1 < 2 ^ 32 := of_decide_eq_true hharmless
    simp only [ListOp.run, Prog.wp_bind, Prog.wp_pure]
    refine Prog.wp_mono (listSpush_spec h.toListAt happlies hroom hone) ?_
    rintro _ m' h'
    refine h'.represents ?_
    rw [length_insertSecond]
    exact hroom
  | remove n =>
    -- no node is twice in the list, so the first one found is the one that is unlinked
    obtain ⟨front, back, rfl⟩ := List.append_of_mem happlies
    have hfront : n ∉ front := fun hn =>
      (List.nodup_append.mp h.nodup).2.2 n hn n List.mem_cons_self rfl
    have herase : (front ++ n :: back).erase n = front ++ back := by
      rw [List.erase_append_right _ hfront, List.erase_cons_head]
    have hless : (front ++ back).length < 2 ^ 32 := by
      have hlt := h.len_lt
      simp only [List.length_append, List.length_cons] at hlt ⊢
      omega
    refine Prog.wp_mono (listRemove_spec h.toListAt h.len_lt) ?_
    rintro _ m' ⟨h', -⟩
    rw [ListOp.onNodes, herase]
    exact h'.represents hless

/-- An operation that is not harmless leaves a list that is not the one it should be. -/
theorem ListCall.not_represents {c : ListCall} {s t : ListState} (h : s.mem.Represents l s.nodes)
    (hstep : c.Step l s t) (hharmful : c.harmless = false) : ¬ t.mem.Represents l t.nodes := by
  obtain ⟨op, len⟩ := c
  obtain ⟨hlen, happlies, hrun, hnodes⟩ := hstep
  obtain rfl : len = s.nodes.length := hlen
  intro h'
  have hlt := h'.len_lt
  rw [hnodes] at hlt
  cases op with
  | lpush n => exact of_decide_eq_false hharmful hlt
  | rpush n =>
    have hroom : s.nodes.length + 1 < 2 ^ 32 := by
      rw [ListOp.onNodes, List.length_append] at hlt
      exact hlt
    exact of_decide_eq_false hharmful hroom
  | spush n =>
    rw [ListOp.onNodes, length_insertSecond] at hlt
    have hone : s.nodes.length = 1 := by
      by_contra hne
      exact of_decide_eq_false hharmful ⟨hne, hlt⟩
    obtain ⟨a, ha⟩ := List.length_eq_one_iff.mp hone
    have hat : s.mem.ListAt l [a] := ha ▸ h.toListAt
    have hne : n ≠ a := by
      intro hna
      apply happlies
      rw [ha, hna]
      exact List.mem_singleton_self a
    have spec : Prog.wp (fun _ => True) (ListOp.run l (.spush n))
        (fun _ m' => (m'.listAlloc.cells l).tail = some a) s.mem := by
      simp only [ListOp.run, Prog.wp_bind, Prog.wp_pure]
      exact listSpush_single hat hne
    have htail := Prog.wp_of_ok spec hrun
    rw [h'.tail, hnodes, ha] at htail
    exact hne (Option.some.inj htail)
  | remove n => cases hharmful

/-- **Sequences of operations.** From a list on, a sequence of operations keeps the list, in
both directions, as long as it makes no harmful one, and an operation that is not harmful
returns. -/
theorem list_represented_iff {s t : ListState} {log : List ListCall}
    (h : s.mem.Represents l s.nodes) (run : Run (ListCall.Step l) s log t) :
    (Run.Always (ListCall.Step l) (fun u => u.mem.Represents l u.nodes) s log t ↔
      ∀ c ∈ log, c.harmless) ∧
    ((∀ c ∈ log, c.harmless) → ∀ c : ListCall, c.len = t.nodes.length → c.op.Applies t.nodes →
      c.harmless → ∃ u, c.Step l t u) := by
  have keeps : ∀ log t, Run (ListCall.Step l) s log t → (∀ c ∈ log, (!c.harmless) = false) →
      t.mem.Represents l t.nodes := by
    intro log t run hgood
    induction run with
    | nil => exact h
    | @snoc u v before c _ hstep ih =>
      have hrep := ih fun c hc => hgood c (List.mem_append_left _ hc)
      have hc : c.harmless := by
        simpa using hgood c (List.mem_append_right _ (List.mem_singleton_self c))
      obtain ⟨hlen, happlies, hrun, hnodes⟩ := hstep
      have spec : Prog.wp (fun _ => True) (c.op.run l) _ u.mem :=
        ListOp.run_spec hrep hlen happlies hc
      have hrep' := Prog.wp_of_ok spec hrun
      exact hnodes ▸ hrep'
  constructor
  · rw [Run.always_iff keeps ?_ run]
    · simp
    · intro log u c v hrun hgood hbad hstep
      exact ListCall.not_represents (keeps log u hrun hgood) hstep (by simpa using hbad)
  · intro hgood c hlen happlies hharmless
    have hrep := keeps log t run (by simpa using hgood)
    have spec : Prog.wp (fun _ => False) (c.op.run l) _ t.mem :=
      ListOp.run_spec hrep hlen happlies hharmless
    obtain ⟨⟨⟩, m', hrun, -⟩ := Prog.exists_ok_of_wp spec
    exact ⟨⟨m', c.op.onNodes t.nodes⟩, hlen, happlies, hrun, rfl⟩

def emptyList : ListState where
  mem := btableInit ⟨0, 0, 0, 0⟩
  nodes := []

theorem represents_emptyList (l : ℕ) : emptyList.mem.Represents l emptyList.nodes :=
  Mem.ListAt.represents ⟨rfl, rfl, rfl, trivial, .nil⟩ (by decide)

/-- Three nodes, the last one inserted between the others. -/
theorem list_represented_of_three : ∃ m : Mem,
    Run (ListCall.Step 5) emptyList [⟨.lpush 1, 0⟩, ⟨.rpush 3, 1⟩, ⟨.spush 2, 2⟩] ⟨m, [1, 2, 3]⟩ ∧
      m.Represents 5 [1, 2, 3] := by
  obtain ⟨m, run⟩ : ∃ m, Run (ListCall.Step 5) emptyList
      [⟨.lpush 1, 0⟩, ⟨.rpush 3, 1⟩, ⟨.spush 2, 2⟩] ⟨m, [1, 2, 3]⟩ := by
    apply Exists.intro
    apply Run.cons (t := ⟨_, [1]⟩) ⟨rfl, (by decide : 1 ∉ []), rfl, rfl⟩
    apply Run.cons (t := ⟨_, [1, 3]⟩) ⟨rfl, (by decide : 3 ∉ [1]), rfl, rfl⟩
    exact .cons ⟨rfl, (by decide : 2 ∉ [1, 3]), rfl, rfl⟩ .nil
  have always := (list_represented_iff (represents_emptyList 5) run).1.mpr (by decide)
  exact ⟨m, run, always _ _ _ (List.append_nil _).symm run .nil⟩

/-- Inserting behind the only node of a list leaves the header with the old tail. -/
theorem not_list_represented : ¬ ∀ (l : ℕ) (s t : ListState) (log : List ListCall),
    s.mem.Represents l s.nodes → Run (ListCall.Step l) s log t → t.mem.Represents l t.nodes := by
  intro h
  obtain ⟨m, run, htail⟩ : ∃ m : Mem, Run (ListCall.Step 5) emptyList
      [⟨.lpush 1, 0⟩, ⟨.spush 2, 1⟩] ⟨m, [1, 2]⟩ ∧ (m.listAlloc.cells 5).tail = some 1 := by
    apply Exists.intro
    apply And.intro
    · apply Run.cons (t := ⟨_, [1]⟩) ⟨rfl, (by decide : 1 ∉ []), rfl, rfl⟩
      exact .cons ⟨rfl, (by decide : 2 ∉ [1]), rfl, rfl⟩ .nil
    · rfl
  have hlast := (h 5 _ _ _ (represents_emptyList 5) run).tail
  rw [htail] at hlast
  cases hlast

end Udpdk
