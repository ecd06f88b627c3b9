import Mathlib.Data.List.TakeWhile

/-!
# C strings and arrays of characters

A C string is what stands in an array of characters before the first zero. The array may be
larger, and it may hold no zero at all, in which case no string can be read from it.

## Main definitions

* `CString` — a string that is handed from function to function
* `CharArray` — an array of characters; `CharArray.string?` reads a string from it
* `strncpy`, `snprintf`, `CharArray.sprintf` — writing one

## Main results

* `CharArray.string?_eq_some_iff` — which string is in an array
* `string?_strncpy` — a copy can be read back if it leaves room for the zero
* `CString.length_ofInt_lt_eight_iff` — how long a number is
-/

namespace Foundation

def nul : Char := '\x00'

/-- The characters of a C string, without the zero. -/
structure CString where
  chars : List Char
  noNul : nul ∉ chars
  deriving DecidableEq, Repr

namespace CString

instance : Inhabited CString := ⟨⟨[], by decide⟩⟩

variable {s t : CString}

theorem ext_chars (h : s.chars = t.chars) : s = t := by
  cases s
  cases t
  cases h
  rfl

def length (s : CString) : ℕ := s.chars.length

/-- The first characters, as many as a buffer of this size has room for. -/
def truncate (size : ℕ) (s : CString) : CString where
  chars := s.chars.take (size - 1)
  noNul h := s.noNul (List.mem_of_mem_take h)

def drop (n : ℕ) (s : CString) : CString where
  chars := s.chars.drop n
  noNul h := s.noNul (List.mem_of_mem_drop h)

theorem truncate_of_lt {size : ℕ} (h : s.length < size) : s.truncate size = s :=
  ext_chars (List.take_of_length_le (Nat.le_sub_one_of_lt h))

theorem length_truncate_le (size : ℕ) (s : CString) : (s.truncate size).length ≤ s.length :=
  List.length_take_le' (size - 1) s.chars

theorem length_truncate_lt_iff {n k : ℕ} (h : k < n) :
    (s.truncate n).length < k ↔ s.length < k := by
  simp only [length, truncate, List.length_take]
  omega

/-- What stands before the first zero. -/
def before (cs : List Char) : CString where
  chars := cs.takeWhile (· ≠ nul)
  noNul h := by simpa using List.mem_takeWhile_imp h

theorem before_append (s : CString) (rest : List Char) : before (s.chars ++ nul :: rest) = s := by
  apply ext_chars
  change (s.chars ++ nul :: rest).takeWhile (· ≠ nul) = s.chars
  rw [List.takeWhile_append_of_pos, List.takeWhile_cons_of_neg, List.append_nil]
  · simp
  · intro c hc
    have hne : c ≠ nul := fun h => s.noNul (h ▸ hc)
    simpa using hne

theorem nul_not_mem_toDigits (n : ℕ) : nul ∉ Nat.toDigits 10 n := by
  intro h
  have := Nat.isDigit_of_mem_toDigits (by decide) (by decide) h
  cases this

/-- `%d`. -/
def ofInt (n : ℤ) : CString where
  chars := if n < 0 then '-' :: Nat.toDigits 10 n.natAbs else Nat.toDigits 10 n.natAbs
  noNul := by
    split
    · rw [List.mem_cons, not_or]
      exact ⟨by decide, nul_not_mem_toDigits n.natAbs⟩
    · exact nul_not_mem_toDigits n.natAbs

theorem length_ofInt_lt_eight_iff (n : ℤ) :
    (ofInt n).length < 8 ↔ -1000000 < n ∧ n < 10000000 := by
  have six := Nat.length_toDigits_le_iff (b := 10) (n := n.natAbs) (k := 6) (by decide) (by decide)
  have seven := Nat.length_toDigits_le_iff (b := 10) (n := n.natAbs) (k := 7)
    (by decide) (by decide)
  unfold length ofInt
  split
  · simp only [List.length_cons]
    omega
  · simp only
    omega

end CString

/-- `char name[size]`. -/
structure CharArray (size : ℕ) where
  chars : List Char
  length_chars : chars.length = size

namespace CharArray

variable {size : ℕ} {a : CharArray size} {s : CString}

/-- The string in an array, if it ends there. -/
def string? (a : CharArray size) : Option CString :=
  if nul ∈ a.chars then some (.before a.chars) else none

theorem string?_eq_some_iff : a.string? = some s ↔ ∃ rest, a.chars = s.chars ++ nul :: rest := by
  rw [string?]
  constructor
  · intro h
    split at h
    · rename_i hmem
      obtain ⟨before, rest, hchars, hout⟩ := List.eq_append_cons_of_mem hmem
      refine ⟨rest, ?_⟩
      rw [hchars, CString.before_append ⟨before, hout⟩, Option.some.injEq] at h
      rw [hchars, ← h]
    · cases h
  · rintro ⟨rest, hchars⟩
    rw [hchars, CString.before_append, if_pos (by simp)]

theorem string?_eq_none_iff : a.string? = none ↔ nul ∉ a.chars := by
  simp [string?]

def filled (c : Char) : CharArray size where
  chars := List.replicate size c
  length_chars := List.length_replicate

/-- The array begins with these characters and a zero behind them. -/
def Holds (a : CharArray size) (cs : List Char) : Prop := ∃ rest, a.chars = cs ++ nul :: rest

theorem Holds.string? {cs : List Char} (h : a.Holds cs) (noNul : nul ∉ cs) :
    a.string? = some ⟨cs, noNul⟩ :=
  string?_eq_some_iff.mpr h

/-- `sprintf(name + offset, ...)`, given what is written, if there is room for it. -/
def sprintf (a : CharArray size) (offset : ℕ) (text : CString) : Option (CharArray size) :=
  if h : offset + text.length < size then
    some {
      chars := a.chars.take offset ++ text.chars ++ nul :: a.chars.drop (offset + text.length + 1)
      length_chars := by
        have := a.length_chars
        simp only [CString.length, List.length_append, List.length_take, List.length_cons,
          List.length_drop] at h ⊢
        omega }
  else none

theorem Holds.sprintf {cs : List Char} {text : CString} (h : a.Holds cs)
    (room : cs.length + text.length < size) :
    ∃ a', a.sprintf cs.length text = some a' ∧ a'.Holds (cs ++ text.chars) := by
  obtain ⟨rest, hchars⟩ := h
  refine ⟨_, dif_pos room, ?_⟩
  refine ⟨a.chars.drop (cs.length + text.length + 1), ?_⟩
  change a.chars.take cs.length ++ text.chars ++ nul :: _ = _
  rw [hchars, List.take_left]

theorem Holds.sprintf_behind {cs : List Char} {text : CString} {offset : ℕ} (h : a.Holds cs)
    (behind : cs.length < offset) (room : offset + text.length < size) :
    ∃ a', a.sprintf offset text = some a' ∧ a'.Holds cs := by
  obtain ⟨rest, hchars⟩ := h
  obtain ⟨n, rfl⟩ : ∃ n, offset = cs.length + (n + 1) := ⟨offset - cs.length - 1, by omega⟩
  refine ⟨_, dif_pos room, ?_⟩
  refine ⟨rest.take n ++ text.chars ++
    nul :: a.chars.drop (cs.length + (n + 1) + text.length + 1), ?_⟩
  change a.chars.take (cs.length + (n + 1)) ++ text.chars ++ nul :: _ = _
  rw [hchars, List.take_length_add_append, List.take_succ_cons]
  simp

theorem exists_sprintf_zero {text : CString} (a : CharArray size) (room : text.length < size) :
    ∃ a', a.sprintf 0 text = some a' ∧ a'.Holds text.chars := by
  refine ⟨_, dif_pos (by omega), ?_⟩
  exact ⟨a.chars.drop (0 + text.length + 1), rfl⟩

end CharArray

/-! ## Writing strings -/

variable {size : ℕ} {s : CString}

/-- `strncpy(name, s, sizeof(name))`: there are zeros behind a short string, and there is none
behind a long one. -/
def strncpy (size : ℕ) (s : CString) : CharArray size where
  chars := (s.chars ++ List.replicate size nul).take size
  length_chars := by simp

/-- A copy can be read back if it leaves room for the zero. -/
theorem string?_strncpy : (strncpy size s).string? = if s.length < size then some s else none := by
  rw [CString.length]
  split
  · rename_i hlt
    obtain ⟨n, hn⟩ : ∃ n, size = s.chars.length + (n + 1) :=
      ⟨size - s.chars.length - 1, by omega⟩
    rw [CharArray.string?_eq_some_iff]
    refine ⟨List.replicate n nul, ?_⟩
    change (s.chars ++ List.replicate size nul).take size = _
    rw [hn, List.take_length_add_append, List.take_replicate, ← List.replicate_succ]
    congr 2
    omega
  · rename_i hge
    rw [CharArray.string?_eq_none_iff]
    change nul ∉ (s.chars ++ List.replicate size nul).take size
    rw [List.take_append_of_le_length (Nat.le_of_not_lt hge)]
    exact fun h => s.noNul (List.mem_of_mem_take h)

/-- `snprintf(p, limit, "%s", s)` into a block of so many bytes, unless it would write behind the
block. -/
def snprintf (block limit : ℕ) (s : CString) : Option CString :=
  if (s.truncate limit).length < block then some (s.truncate limit) else none

end Foundation
