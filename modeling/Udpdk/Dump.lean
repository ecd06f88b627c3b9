import Udpdk.Foundation.CString
import Udpdk.Foundation.Program
import Udpdk.Syscall.Frame

/-!
# Dumps of packets

`udpdk_dump_payload` prints sixteen bytes a line: their place, the bytes in hexadecimal, and the
bytes as characters. A line is put together in one buffer by a `sprintf` for every byte, each of
which ends the string behind what it writes. The characters have their column, so that a line with
fewer bytes ends in front of them.

## Main definitions

* `dumpLine`, `udpdkDumpPayload`, `udpdkDumpMbuf` — the code
* `dumpText` — the text of a line
* `readDump` — the bytes back from the lines

## Main results

* `dumpLine_spec` — the text of a line
* `dump_round_trip` — a dump is always printed, and the bytes can be read back from it
-/

namespace Udpdk

open Foundation

/-- `sizeof(buf)`. -/
def dumpBufSize : ℕ := 128

abbrev LineProg := Prog Fault (CharArray dumpBufSize)

/-- `sprintf(buf + offset, ...)`, given what is written. -/
def sprintfAt (offset : ℕ) (text : CString) : LineProg Unit := do
  let buf ← Prog.read
  match buf.sprintf offset text with
  | some buf => Prog.update fun _ => buf
  | none => Prog.stop .outOfBounds

/-- `%5d: `. -/
def placeText (i : ℕ) : CString where
  chars := (Nat.toDigits 10 i).leftpad 5 ' ' ++ [':', ' ']
  noNul := by
    have hdigits := CString.nul_not_mem_toDigits i
    have hpad : nul ∉ List.replicate (5 - (Nat.toDigits 10 i).length) ' ' := fun h =>
      absurd (List.eq_of_mem_replicate h) (by decide)
    rw [List.leftpad, List.mem_append, List.mem_append]
    rintro ((h | h) | h)
    · exact hpad h
    · exact hdigits h
    · revert h
      decide

/-- `%02x `. -/
def hexText (b : Byte) : CString where
  chars := [Nat.digitChar (b.toNat / 16), Nat.digitChar (b.toNat % 16), ' ']
  noNul := by
    revert b
    decide

/-- `isprint(c) ? c : '.'`. -/
def dumpChar (b : Byte) : Char :=
  if 0x20 ≤ b.toNat ∧ b.toNat ≤ 0x7e then Char.ofNat b.toNat else '.'

/-- `%c`. -/
def charText (b : Byte) : CString where
  chars := [dumpChar b]
  noNul := by
    revert b
    decide

/-- The loop over the bytes in hexadecimal. -/
def dumpHex : ℕ → List Byte → LineProg Unit
  | _, [] => return ()
  | j, b :: bytes => do
    sprintfAt (7 + j * 3) (hexText b)
    dumpHex (j + 1) bytes

/-- The loop over the bytes as characters. -/
def dumpAscii : ℕ → List Byte → LineProg Unit
  | _, [] => return ()
  | j, b :: bytes => do
    sprintfAt (7 + j + 48) (charText b)
    dumpAscii (j + 1) bytes

/-- The line for the bytes at place `i`, as it is printed. -/
def dumpLine (i : ℕ) (bytes : List Byte) : LineProg CString := do
  Prog.update fun _ => .filled ' '
  sprintfAt 0 (placeText i)
  dumpHex 0 bytes
  dumpAscii 0 bytes
  match (← Prog.read).string? with
  | some line => return line
  | none => Prog.stop .outOfBounds

/-- The loop of `udpdk_dump_payload`, from place `i` on. -/
def dumpFrom (i : ℕ) (payload : List Byte) : LineProg (List CString) :=
  if payload = [] then return []
  else do
    let line ← dumpLine i (payload.take 16)
    let lines ← dumpFrom (i + (payload.take 16).length) (payload.drop 16)
    return line :: lines
termination_by payload.length
decreasing_by
  rw [List.length_drop]
  have := List.length_pos_of_ne_nil ‹_›
  omega

/-- `udpdk_dump_payload`, the line with the length apart. -/
def udpdkDumpPayload (payload : List Byte) : LineProg (List CString) := dumpFrom 0 payload

/-- `udpdk_dump_mbuf`: the first segment. -/
def udpdkDumpMbuf (m : Mbuf) : LineProg (List CString) := udpdkDumpPayload m.head.bytes

/-! ## The text of a line -/

def hexChars (bytes : List Byte) : List Char := bytes.flatMap fun b => (hexText b).chars

/-- The text of the line for the bytes at place `i`. The characters are only there if there are
sixteen bytes. -/
def dumpText (i : ℕ) (bytes : List Byte) : List Char :=
  (placeText i).chars ++ hexChars bytes ++ if bytes.length = 16 then bytes.map dumpChar else []

variable {buf : CharArray dumpBufSize} {cs : List Char} {i j : ℕ} {bytes : List Byte}
  {text : CString}

theorem length_placeText (hi : i < 100000) : (placeText i).chars.length = 7 := by
  have hdigits : (Nat.toDigits 10 i).length ≤ 5 :=
    (Nat.length_toDigits_le_iff (by decide) (by decide)).mpr hi
  rw [placeText, List.length_append, List.length_leftpad, max_eq_left hdigits]
  rfl

theorem length_hexChars (bytes : List Byte) : (hexChars bytes).length = 3 * bytes.length := by
  induction bytes with
  | nil => rfl
  | cons b bytes ih =>
    have hcons : hexChars (b :: bytes) = (hexText b).chars ++ hexChars bytes := rfl
    have hthree : (hexText b).chars.length = 3 := rfl
    rw [hcons, List.length_append, ih, List.length_cons, hthree]
    omega

theorem wp_sprintfAt {allowed : Fault → Prop} {offset : ℕ}
    (h : ∃ buf', buf.sprintf offset text = some buf' ∧ buf'.Holds cs) :
    Prog.wp allowed (sprintfAt offset text) (fun _ buf' => buf'.Holds cs) buf := by
  obtain ⟨buf', hbuf, holds⟩ := h
  unfold sprintfAt
  simp only [Prog.wp_bind, Prog.wp_read, hbuf, Prog.wp_update]
  exact holds

/-- The bytes in hexadecimal are written one behind the other. -/
theorem dumpHex_spec (holds : buf.Holds cs) (hcs : cs.length = 7 + j * 3)
    (hj : j + bytes.length ≤ 16) : Prog.wp (fun _ => False) (dumpHex j bytes)
      (fun _ buf' => buf'.Holds (cs ++ hexChars bytes)) buf := by
  induction bytes generalizing buf cs j with
  | nil =>
    rw [dumpHex, Prog.wp_pure, hexChars, List.flatMap_nil, List.append_nil]
    exact holds
  | cons b bytes ih =>
    rw [List.length_cons] at hj
    have hthree : (hexText b).length = 3 := rfl
    have hroom : cs.length + (hexText b).length < dumpBufSize := by
      rw [hthree, hcs, dumpBufSize]
      omega
    have hexChars_cons : cs ++ hexChars (b :: bytes) =
        cs ++ (hexText b).chars ++ hexChars bytes := (List.append_assoc ..).symm
    rw [dumpHex, Prog.wp_bind, ← hcs, hexChars_cons]
    refine Prog.wp_mono (wp_sprintfAt (holds.sprintf hroom)) fun _ buf' holds' => ?_
    apply ih holds'
    · rw [List.length_append, hcs]
      change 7 + j * 3 + 3 = 7 + (j + 1) * 3
      omega
    · omega

/-- Behind sixteen bytes the characters are written one behind the other. -/
theorem dumpAscii_spec (holds : buf.Holds cs) (hcs : cs.length = 7 + j + 48)
    (hj : j + bytes.length ≤ 16) : Prog.wp (fun _ => False) (dumpAscii j bytes)
      (fun _ buf' => buf'.Holds (cs ++ bytes.map dumpChar)) buf := by
  induction bytes generalizing buf cs j with
  | nil =>
    rw [dumpAscii, Prog.wp_pure, List.map_nil, List.append_nil]
    exact holds
  | cons b bytes ih =>
    rw [List.length_cons] at hj
    have hone : (charText b).length = 1 := rfl
    have hroom : cs.length + (charText b).length < dumpBufSize := by
      rw [hone, hcs, dumpBufSize]
      omega
    have hmap : cs ++ (b :: bytes).map dumpChar =
        cs ++ (charText b).chars ++ bytes.map dumpChar := (List.append_assoc cs [dumpChar b] _).symm
    rw [dumpAscii, Prog.wp_bind, ← hcs, hmap]
    refine Prog.wp_mono (wp_sprintfAt (holds.sprintf hroom)) fun _ buf' holds' => ?_
    apply ih holds'
    · rw [List.length_append, hcs]
      change 7 + j + 48 + 1 = 7 + (j + 1) + 48
      omega
    · omega

theorem dumpAscii_behind (holds : buf.Holds cs) (hcs : cs.length < 7 + j + 48)
    (hj : j + bytes.length ≤ 16) : Prog.wp (fun _ => False) (dumpAscii j bytes)
      (fun _ buf' => buf'.Holds cs) buf := by
  induction bytes generalizing buf j with
  | nil => exact holds
  | cons b bytes ih =>
    rw [List.length_cons] at hj
    have hone : (charText b).length = 1 := rfl
    have hroom : 7 + j + 48 + (charText b).length < dumpBufSize := by
      rw [hone, dumpBufSize]
      omega
    rw [dumpAscii, Prog.wp_bind]
    refine Prog.wp_mono (wp_sprintfAt (holds.sprintf_behind hcs hroom)) fun _ buf' holds' => ?_
    exact ih holds' (by omega) (by omega)

theorem nul_not_mem_dumpText (i : ℕ) (bytes : List Byte) : nul ∉ dumpText i bytes := by
  have hhex : nul ∉ hexChars bytes := by
    intro h
    obtain ⟨b, -, hb⟩ := List.mem_flatMap.mp h
    exact (hexText b).noNul hb
  have hascii : nul ∉ bytes.map dumpChar := by
    intro h
    obtain ⟨b, -, hb⟩ := List.mem_map.mp h
    exact (charText b).noNul (List.mem_singleton.mpr hb.symm)
  unfold dumpText
  split
  · simp [(placeText i).noNul, hhex, hascii]
  · simp [(placeText i).noNul, hhex]

/-- **The text of a line.** -/
theorem dumpLine_spec (hi : i < 100000) (hlength : bytes.length ≤ 16) :
    Prog.wp (fun _ => False) (dumpLine i bytes) (fun line _ => line.chars = dumpText i bytes)
      buf := by
  have hplace := length_placeText hi
  have hroom : (placeText i).length < dumpBufSize := by
    rw [CString.length, hplace]
    decide
  unfold dumpLine
  simp only [Prog.wp_bind, Prog.wp_update]
  refine Prog.wp_mono (wp_sprintfAt (CharArray.exists_sprintf_zero _ hroom)) fun _ b₁ h₁ => ?_
  refine Prog.wp_mono (dumpHex_spec h₁ hplace (by omega)) fun _ b₂ h₂ => ?_
  have hhex : ((placeText i).chars ++ hexChars bytes).length = 7 + 3 * bytes.length := by
    rw [List.length_append, hplace, length_hexChars]
  have hascii : Prog.wp (fun _ => False) (dumpAscii 0 bytes)
      (fun _ b => b.Holds (dumpText i bytes)) b₂ := by
    by_cases hfull : bytes.length = 16
    · rw [dumpText, if_pos hfull]
      exact dumpAscii_spec h₂ (by rw [hhex, hfull]) (by omega)
    · rw [dumpText, if_neg hfull, List.append_nil]
      exact dumpAscii_behind h₂ (by omega) (by omega)
  refine Prog.wp_mono hascii fun _ b₃ h₃ => ?_
  simp only [Prog.wp_read, h₃.string? (nul_not_mem_dumpText i bytes), Prog.wp_pure]

/-- The lines of a dump from place `i` on. -/
def dumpTexts (i : ℕ) (payload : List Byte) : List (List Char) :=
  if payload = [] then []
  else dumpText i (payload.take 16) ::
    dumpTexts (i + (payload.take 16).length) (payload.drop 16)
termination_by payload.length
decreasing_by
  rw [List.length_drop]
  have := List.length_pos_of_ne_nil ‹_›
  omega

/-- **The lines of a dump.** -/
theorem dumpFrom_spec {payload : List Byte} (hi : i + payload.length ≤ 100000) :
    Prog.wp (fun _ => False) (dumpFrom i payload)
      (fun lines _ => lines.map CString.chars = dumpTexts i payload) buf := by
  induction i, payload using dumpTexts.induct generalizing buf with
  | case1 i =>
    rw [dumpFrom, if_pos rfl, Prog.wp_pure, dumpTexts, if_pos rfl]
    rfl
  | case2 i payload hne ih =>
    have hpos := List.length_pos_of_ne_nil hne
    have htake : (payload.take 16).length + (payload.drop 16).length = payload.length := by
      rw [← List.length_append, List.take_append_drop]
    rw [dumpFrom, if_neg hne, dumpTexts, if_neg hne, Prog.wp_bind]
    refine Prog.wp_mono (dumpLine_spec (by omega) (List.length_take_le ..)) fun line b hline => ?_
    rw [Prog.wp_bind]
    refine Prog.wp_mono (ih (by omega)) fun lines b' hlines => ?_
    rw [Prog.wp_pure, List.map_cons, hline, hlines]

/-! ## Reading a dump -/

def hexValue (c : Char) : Option ℕ := (List.range 16).find? fun d => d.digitChar = c

/-- The bytes that are written in hexadecimal, each with a blank behind it. -/
def readHex : List Char → Option (List Byte)
  | [] => some []
  | hi :: lo :: _ :: rest => do
    let hi ← hexValue hi
    let lo ← hexValue lo
    return BitVec.ofNat 8 (16 * hi + lo) :: (← readHex rest)
  | _ => none

/-- The bytes of the lines. -/
def readDump : List (List Char) → Option (List Byte)
  | [] => some []
  | line :: lines => do
    let bytes ← readHex ((line.drop 7).take 48)
    return bytes ++ (← readDump lines)

theorem hexValue_digitChar {d : ℕ} (hd : d < 16) : hexValue d.digitChar = some d := by
  revert d
  decide

theorem readHex_hexChars (bytes : List Byte) : readHex (hexChars bytes) = some bytes := by
  induction bytes with
  | nil => rfl
  | cons b bytes ih =>
    have hhi : b.toNat / 16 < 16 := by omega
    have hlo : b.toNat % 16 < 16 := Nat.mod_lt _ (by decide)
    have hbyte : BitVec.ofNat 8 (16 * (b.toNat / 16) + b.toNat % 16) = b := by
      rw [Nat.div_add_mod, BitVec.ofNat_toNat, BitVec.setWidth_eq]
    change readHex ((b.toNat / 16).digitChar :: (b.toNat % 16).digitChar :: ' ' ::
      hexChars bytes) = _
    simp only [readHex, hexValue_digitChar hhi, hexValue_digitChar hlo, ih]
    exact congrArg (fun b => some (b :: bytes)) hbyte

theorem readHex_dumpText (hi : i < 100000) (hlength : bytes.length ≤ 16) :
    readHex (((dumpText i bytes).drop 7).take 48) = some bytes := by
  have hhex := length_hexChars bytes
  rw [dumpText, List.append_assoc, List.drop_left' (length_placeText hi)]
  split
  · rename_i hfull
    rw [List.take_left' (by omega), readHex_hexChars]
  · rw [List.append_nil, List.take_of_length_le (by omega), readHex_hexChars]

theorem readDump_dumpTexts {payload : List Byte} (hi : i + payload.length ≤ 100000) :
    readDump (dumpTexts i payload) = some payload := by
  induction i, payload using dumpTexts.induct with
  | case1 i =>
    rw [dumpTexts, if_pos rfl]
    rfl
  | case2 i payload hne ih =>
    have hpos := List.length_pos_of_ne_nil hne
    have htake : (payload.take 16).length + (payload.drop 16).length = payload.length := by
      rw [← List.length_append, List.take_append_drop]
    have hline : readHex (((dumpText i (payload.take 16)).drop 7).take 48) =
        some (payload.take 16) := readHex_dumpText (by omega) (List.length_take_le ..)
    rw [dumpTexts, if_neg hne, readDump, hline, ih (by omega)]
    exact congrArg some (List.take_append_drop 16 payload)

/-- **A dump is always printed, and it can be read back.** No `sprintf` writes past the buffer of
the line, every line has the text that it should have, and the lines determine the bytes. -/
theorem dump_round_trip (m : Mbuf) (buf : CharArray dumpBufSize) :
    ∃ lines buf', udpdkDumpMbuf m buf = .ok (lines, buf') ∧
      lines.map CString.chars = dumpTexts 0 m.head.bytes ∧
      readDump (lines.map CString.chars) = some m.head.bytes := by
  have hlength : 0 + m.head.bytes.length ≤ 100000 := by
    have := m.head.dataLen.isLt
    rw [Segment.bytes, List.length_map, List.length_range]
    omega
  obtain ⟨lines, buf', hrun, hlines⟩ := Prog.exists_ok_of_wp (dumpFrom_spec hlength)
  exact ⟨lines, buf', hrun, hlines, hlines ▸ readDump_dumpTexts hlength⟩

end Udpdk
