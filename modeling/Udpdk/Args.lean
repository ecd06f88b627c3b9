import Udpdk.Foundation.CString
import Udpdk.Syscall.Basic

/-!
# The command line and the configuration file

Application and poller are started from one command line: its first option names the
configuration file, whose settings become the command lines of the two processes, with what
remains of the original one behind `--`.

## Main definitions

* `parseHandler` — one setting of the file
* `setupPrimarySecondaryArgs` — the two command lines
* `udpdkParseArgs` — all of it
* `configFile`, `GlobalConfiguration.updated`, `argsOutcome` — what it is to come to

## Main results

* `parse_args_outcome` — what it comes to
* `parse_args_overflow_iff` — when it writes or reads past a block
-/

namespace Udpdk

open Foundation

/-- `MAX_ARGC`. -/
def maxArgc : ℕ := 64

/-- `MAX_ARG_LEN`. -/
def maxArgLen : ℕ := 256

/-- `configuration`, with what DPDK is started with. -/
@[ext]
structure GlobalConfiguration extends Configuration where
  lcoresPrimary : CharArray maxArgLen
  lcoresSecondary : CharArray maxArgLen
  nMemChannels : BitVec 32

/-- The globals `config`, `primary_argv` and `secondary_argv`, the last two up to their argument
counts. -/
structure ArgsGlobals where
  config : GlobalConfiguration
  primaryArgv : List CString
  secondaryArgv : List CString

/-- A setting, as the ini library hands it to `parse_handler`. -/
structure IniEntry where
  sectionName : CString
  name : CString
  value : CString

/-- What comes from other libraries. `ini_parse` gives the settings of a file in order, unless its
result is negative: a setting that the handler refuses makes it positive. -/
structure ArgsLibraries where
  iniParse : CString → Option (List IniEntry)
  rteEtherUnformatAddr : CString → (Fin 6 → Byte) → ℤ × (Fin 6 → Byte)
  inetAddr : CString → InAddr
  atoi : CString → BitVec 32

abbrev ArgsProg := Prog Fault ArgsGlobals

variable (libs : ArgsLibraries)

/-! ## The configuration file -/

/-- `MATCH(s, n)`. -/
abbrev IniEntry.Matches (e : IniEntry) (s n : String) : Prop :=
  e.sectionName.chars = s.toList ∧ e.name.chars = n.toList

/-- `parse_handler`. -/
def parseHandler (config : GlobalConfiguration) (e : IniEntry) : ℤ × GlobalConfiguration :=
  if e.Matches "port0" "mac_addr" then
    let (ret, addr) := libs.rteEtherUnformatAddr e.value config.srcMacAddr
    (if ret < 0 then 0 else 1, { config with srcMacAddr := addr })
  else if e.Matches "port0" "ip_addr" then
    -- an address that cannot be parsed is reported, and kept
    (1, { config with srcIpAddr := libs.inetAddr e.value })
  else if e.Matches "port0_dst" "mac_addr" then
    let (ret, addr) := libs.rteEtherUnformatAddr e.value config.dstMacAddr
    (if ret < 0 then 0 else 1, { config with dstMacAddr := addr })
  else if e.Matches "dpdk" "lcores_primary" then
    (1, { config with lcoresPrimary := strncpy maxArgLen e.value })
  else if e.Matches "dpdk" "lcores_secondary" then
    (1, { config with lcoresSecondary := strncpy maxArgLen e.value })
  else if e.Matches "dpdk" "n_mem_channels" then
    (1, { config with nMemChannels := libs.atoi e.value })
  else
    (0, config)

/-- The calls of `parse_handler`; `ini_parse` goes on behind a setting that it refuses. -/
def parseEntries (config : GlobalConfiguration) (entries : List IniEntry) : GlobalConfiguration :=
  entries.foldl (fun config e => (parseHandler libs config e).2) config

/-! ## The two command lines -/

/-- `argv[argc] = malloc(block); snprintf(argv[argc], limit, "%s", text); argc++`. -/
def appendArg (block limit : ℕ) (text : CString) : Prog Fault (List CString) Unit := do
  let argv ← Prog.read
  if argv.length < maxArgc then
    match snprintf block limit text with
    | some arg => Prog.update fun argv => argv ++ [arg]
    | none => Prog.stop .outOfBounds
  else
    Prog.stop .outOfBounds

def appendOption (option : CString) : Prog Fault (List CString) Unit :=
  appendArg (option.length + 1) maxArgLen option

/-- The loop over the arguments of the application. -/
def appendArgs : List CString → Prog Fault (List CString) Unit
  | [] => return ()
  | arg :: args => do
    appendArg (arg.length + 1) maxArgLen arg
    appendArgs args

def optionL : CString := ⟨"-l".toList, by decide⟩

def optionN : CString := ⟨"-n".toList, by decide⟩

def optionEnd : CString := ⟨"--".toList, by decide⟩

def procTypePrimary : CString := ⟨"--proc-type=primary".toList, by decide⟩

def procTypeSecondary : CString := ⟨"--proc-type=secondary".toList, by decide⟩

/-- The arguments for DPDK, the same for both processes but for the cores and the type. -/
def buildArgs (progname : CString) (lcores : CharArray maxArgLen) (nMemChannels : BitVec 32)
    (procType : CString) : Prog Fault (List CString) Unit := do
  Prog.update fun _ => []
  appendArg (progname.length + 1) maxArgLen progname
  appendArg 3 3 optionL
  match lcores.string? with
  | none => Prog.stop .outOfBounds -- `strlen` runs out of the array
  | some text => appendArg (text.length + 1) maxArgLen text
  appendArg 3 3 optionN
  appendArg 8 maxArgLen (.ofInt nMemChannels.toInt)
  appendOption procType

def onPrimary {α : Type} (x : Prog Fault (List CString) α) : ArgsProg α :=
  x.zoom ArgsGlobals.primaryArgv fun argv g => { g with primaryArgv := argv }

def onSecondary {α : Type} (x : Prog Fault (List CString) α) : ArgsProg α :=
  x.zoom ArgsGlobals.secondaryArgv fun argv g => { g with secondaryArgv := argv }

/-- `setup_primary_secondary_args`. -/
def setupPrimarySecondaryArgs (progname : CString) (argv : List CString) : ArgsProg ℤ := do
  let g ← Prog.read
  onPrimary (buildArgs progname g.config.lcoresPrimary g.config.nMemChannels procTypePrimary)
  onSecondary
    (buildArgs progname g.config.lcoresSecondary g.config.nMemChannels procTypeSecondary)
  let g ← Prog.read
  if g.primaryArgv.length + argv.length ≥ maxArgc then
    return -1
  else
    onPrimary (appendArg 3 3 optionEnd)
    onPrimary (appendArgs argv)
    return 0

/-! ## The command line -/

/-- What the first call of `getopt` finds. -/
inductive Getopt
  /-- no option: -1 -/
  | finished
  /-- an option that is not known, or without its argument -/
  | unknown (optopt : Char)
  /-- the option `c` -/
  | c (optarg : CString)

/-- The first call of `getopt(argc, argv, "c:")`, from `argv[1]` on: what is no option is passed
over, and the argument of `c` is in the same element or in the next. -/
def getopt : List CString → Getopt
  | [] => .finished
  | arg :: args =>
    match arg.chars with
    | ['-', '-'] => .finished
    | ['-', 'c'] =>
      match args with
      | [] => .unknown 'c'
      | optarg :: _ => .c optarg
    | '-' :: 'c' :: _ => .c (arg.drop 2)
    | '-' :: optopt :: _ => .unknown optopt
    | _ => getopt args

/-- `udpdk_parse_args`. The program name, the option and its argument are taken off the front,
wherever the option was. -/
def udpdkParseArgs : List CString → ArgsProg ℤ
  | progname :: arg :: arg' :: argv => do
    match getopt (arg :: arg' :: argv) with
    | .c cfgFilename =>
      if cfgFilename.length ≤ 4 ∨
          cfgFilename.chars.drop (cfgFilename.length - 4) ≠ ".ini".toList then
        return -1
      else
        match libs.iniParse cfgFilename with
        | none => return -1
        | some entries =>
          Prog.update fun g => { g with config := parseEntries libs g.config entries }
          if (← setupPrimarySecondaryArgs progname argv) < 0 then
            return -1
          else
            return 0
    | _ => return -1
  | _ => return -1

/-! ## What it comes to -/

/-- The values of a key, in the order of the file. -/
def valuesOf (entries : List IniEntry) (s n : String) : List CString :=
  (entries.filter fun e => e.Matches s n).map IniEntry.value

/-- The configuration with the settings of a file: the last value of a key counts, but for an
Ethernet address, whose parser may leave the address before in part. -/
def GlobalConfiguration.updated (config : GlobalConfiguration) (entries : List IniEntry) :
    GlobalConfiguration where
  srcMacAddr := (valuesOf entries "port0" "mac_addr").foldl
    (fun addr value => (libs.rteEtherUnformatAddr value addr).2) config.srcMacAddr
  dstMacAddr := (valuesOf entries "port0_dst" "mac_addr").foldl
    (fun addr value => (libs.rteEtherUnformatAddr value addr).2) config.dstMacAddr
  srcIpAddr := ((valuesOf entries "port0" "ip_addr").getLast?.map libs.inetAddr).getD
    config.srcIpAddr
  lcoresPrimary := ((valuesOf entries "dpdk" "lcores_primary").getLast?.map
    (strncpy maxArgLen)).getD config.lcoresPrimary
  lcoresSecondary := ((valuesOf entries "dpdk" "lcores_secondary").getLast?.map
    (strncpy maxArgLen)).getD config.lcoresSecondary
  nMemChannels := ((valuesOf entries "dpdk" "n_mem_channels").getLast?.map libs.atoi).getD
    config.nMemChannels

/-- The file that the command line names, if it is used. -/
def configFile (argv : List CString) : Option CString :=
  match getopt argv.tail with
  | .c file =>
    if 3 ≤ argv.length ∧ 4 < file.length ∧ ".ini".toList <:+ file.chars then some file else none
  | _ => none

/-- The arguments for DPDK. -/
def ealArgs (progname lcores : CString) (nMemChannels : ℤ) (procType : CString) : List CString :=
  [progname.truncate maxArgLen, optionL, lcores.truncate maxArgLen, optionN, .ofInt nMemChannels,
    procType]

/-- What the command line and the file come to. -/
def argsOutcome (argv : List CString) (entries : List IniEntry) (g : ArgsGlobals) :
    Except Fault (ℤ × ArgsGlobals) :=
  let progname := argv.headD default
  let config := g.config.updated libs entries
  let n := config.nMemChannels.toInt
  match config.lcoresPrimary.string?, config.lcoresSecondary.string? with
  | some primary, some secondary =>
    let primaryArgv := ealArgs progname primary n procTypePrimary
    let secondaryArgv := ealArgs progname secondary n procTypeSecondary
    let appArgv := optionEnd :: (argv.drop 3).map (CString.truncate maxArgLen)
    if n ≤ -1000000 ∨ 10000000 ≤ n then .error .outOfBounds
    else if argv.length ≤ 60 then .ok (0, ⟨config, primaryArgv ++ appArgv, secondaryArgv⟩)
    else .ok (-1, ⟨config, primaryArgv, secondaryArgv⟩)
  | _, _ => .error .outOfBounds

/-! ## The settings -/

variable {libs} {e : IniEntry} {entries : List IniEntry} {config : GlobalConfiguration}

theorem IniEntry.Matches.not_matches {s n s' n' : String} (h : e.Matches s n)
    (hne : ¬ (s = s' ∧ n = n')) : ¬ e.Matches s' n' := by
  intro h'
  exact hne ⟨String.toList_inj.mp (h.1.symm.trans h'.1), String.toList_inj.mp (h.2.symm.trans h'.2)⟩

/-- `parse_handler`, field by field. -/
theorem parseHandler_eq : (parseHandler libs config e).2 =
    { srcMacAddr := if e.Matches "port0" "mac_addr" then
        (libs.rteEtherUnformatAddr e.value config.srcMacAddr).2 else config.srcMacAddr
      dstMacAddr := if e.Matches "port0_dst" "mac_addr" then
        (libs.rteEtherUnformatAddr e.value config.dstMacAddr).2 else config.dstMacAddr
      srcIpAddr := if e.Matches "port0" "ip_addr" then libs.inetAddr e.value else config.srcIpAddr
      lcoresPrimary := if e.Matches "dpdk" "lcores_primary" then strncpy maxArgLen e.value
        else config.lcoresPrimary
      lcoresSecondary := if e.Matches "dpdk" "lcores_secondary" then strncpy maxArgLen e.value
        else config.lcoresSecondary
      nMemChannels := if e.Matches "dpdk" "n_mem_channels" then libs.atoi e.value
        else config.nMemChannels } := by
  unfold parseHandler
  split
  · rename_i h
    simp [h.not_matches]
  split
  · rename_i h
    simp [h.not_matches, *]
  split
  · rename_i h
    simp [h.not_matches, *]
  split
  · rename_i h
    simp [h.not_matches, *]
  split
  · rename_i h
    simp [h.not_matches, *]
  split
  · rename_i h
    simp [*]
  · simp [*]

variable (libs config entries) in
/-- A field that the settings of one key change, and no others. -/
theorem project_parseEntries {β : Type} (project : GlobalConfiguration → β)
    (f : CString → β → β) (s n : String)
    (step : ∀ config e, project (parseHandler libs config e).2 =
      if e.Matches s n then f e.value (project config) else project config) :
    project (parseEntries libs config entries) =
      (valuesOf entries s n).foldl (fun b value => f value b) (project config) := by
  induction entries generalizing config with
  | nil => rfl
  | cons e entries ih =>
    have ih : project (parseEntries libs (parseHandler libs config e).2 entries) = _ := ih _
    rw [step] at ih
    by_cases h : e.Matches s n
    · rw [if_pos h] at ih
      have hvalues : valuesOf (e :: entries) s n = e.value :: valuesOf entries s n := by
        simp only [valuesOf, List.filter_cons, decide_eq_true h, if_true, List.map_cons]
      rw [hvalues]
      exact ih
    · rw [if_neg h] at ih
      have hvalues : valuesOf (e :: entries) s n = valuesOf entries s n := by
        simp only [valuesOf, List.filter_cons, decide_eq_false h, Bool.false_eq_true, if_false]
      rw [hvalues]
      exact ih

theorem foldl_replace {α β : Type} (f : α → β) (xs : List α) (b : β) :
    xs.foldl (fun _ x => f x) b = (xs.getLast?.map f).getD b := by
  induction xs generalizing b with
  | nil => rfl
  | cons x xs ih =>
    rw [List.foldl_cons, ih, List.getLast?_cons]
    cases xs.getLast? with
    | none => rfl
    | some y => rfl

theorem project_parseEntries_last {β : Type} (project : GlobalConfiguration → β)
    (f : CString → β) (s n : String)
    (step : ∀ config e, project (parseHandler libs config e).2 =
      if e.Matches s n then f e.value else project config) :
    project (parseEntries libs config entries) =
      ((valuesOf entries s n).getLast?.map f).getD (project config) := by
  rw [project_parseEntries libs entries config project (fun value _ => f value) s n step,
    foldl_replace]

/-- What the settings of a file come to. -/
theorem parseEntries_eq : parseEntries libs config entries = config.updated libs entries := by
  apply GlobalConfiguration.ext
  · exact project_parseEntries libs entries config (fun config => config.srcMacAddr)
      (fun value addr => (libs.rteEtherUnformatAddr value addr).2) "port0" "mac_addr"
      fun config e => by rw [parseHandler_eq]
  · exact project_parseEntries libs entries config (fun config => config.dstMacAddr)
      (fun value addr => (libs.rteEtherUnformatAddr value addr).2) "port0_dst" "mac_addr"
      fun config e => by rw [parseHandler_eq]
  · exact project_parseEntries_last (fun config => config.srcIpAddr) libs.inetAddr
      "port0" "ip_addr" fun config e => by rw [parseHandler_eq]
  · exact project_parseEntries_last GlobalConfiguration.lcoresPrimary (strncpy maxArgLen)
      "dpdk" "lcores_primary" fun config e => by rw [parseHandler_eq]
  · exact project_parseEntries_last GlobalConfiguration.lcoresSecondary (strncpy maxArgLen)
      "dpdk" "lcores_secondary" fun config e => by rw [parseHandler_eq]
  · exact project_parseEntries_last GlobalConfiguration.nMemChannels libs.atoi
      "dpdk" "n_mem_channels" fun config e => by rw [parseHandler_eq]

/-! ## The arguments -/

variable {argv args : List CString} {progname text procType : CString} {block limit : ℕ}

theorem appendArg_of_lt (hargv : argv.length < maxArgc)
    (htext : (text.truncate limit).length < block) :
    appendArg block limit text argv = .ok ((), argv ++ [text.truncate limit]) := by
  simp only [appendArg, Prog.bind_apply, Prog.read_apply, if_pos hargv, snprintf, if_pos htext,
    Prog.update_apply]

theorem appendArg_of_long (hargv : argv.length < maxArgc)
    (htext : ¬ (text.truncate limit).length < block) :
    appendArg block limit text argv = .error .outOfBounds := by
  simp only [appendArg, Prog.bind_apply, Prog.read_apply, if_pos hargv, snprintf, if_neg htext,
    Prog.stop_apply]

theorem appendArg_self (hargv : argv.length < maxArgc) :
    appendArg (text.length + 1) limit text argv = .ok ((), argv ++ [text.truncate limit]) :=
  appendArg_of_lt hargv (Nat.lt_succ_of_le (text.length_truncate_le limit))

theorem appendArgs_of_le (hargv : argv.length + args.length ≤ maxArgc) :
    appendArgs args argv = .ok ((), argv ++ args.map (CString.truncate maxArgLen)) := by
  induction args generalizing argv with
  | nil => simp [appendArgs]
  | cons arg args ih =>
    rw [List.length_cons] at hargv
    rw [appendArgs, Prog.bind_of_ok (appendArg_self (by omega)), ih (by simp; omega)]
    simp

/-- The arguments for DPDK, if the cores are a string and the number of channels is short. -/
theorem buildArgs_apply (progname : CString) (argv : List CString) (lcores : CharArray maxArgLen)
    (n : BitVec 32) (hproc : procType.length < maxArgLen) :
    buildArgs progname lcores n procType argv = match lcores.string? with
      | none => .error .outOfBounds
      | some text =>
        if n.toInt ≤ -1000000 ∨ 10000000 ≤ n.toInt then .error .outOfBounds
        else .ok ((), ealArgs progname text n.toInt procType) := by
  have hcount : ∀ args : List CString, args.length ≤ 5 → args.length < maxArgc :=
    fun args h => Nat.lt_of_le_of_lt h (by decide)
  have hl : appendArg 3 3 optionL [progname.truncate maxArgLen] =
      .ok ((), [progname.truncate maxArgLen, optionL]) :=
    appendArg_of_lt (hcount _ (by simp)) (by decide)
  rw [buildArgs, Prog.bind_of_ok (Prog.update_apply ..),
    Prog.bind_of_ok (appendArg_self (hcount _ (by simp))), List.nil_append, Prog.bind_of_ok hl]
  cases lcores.string? with
  | none => rfl
  | some text =>
    have hn : appendArg 3 3 optionN
        [progname.truncate maxArgLen, optionL, text.truncate maxArgLen] =
        .ok ((), [progname.truncate maxArgLen, optionL, text.truncate maxArgLen, optionN]) :=
      appendArg_of_lt (hcount _ (by simp)) (by decide)
    simp only
    rw [Prog.bind_of_ok (appendArg_self (hcount _ (by simp)))]
    rw [List.cons_append, List.cons_append, List.nil_append, Prog.bind_of_ok hn]
    have hlength := CString.length_ofInt_lt_eight_iff n.toInt
    split
    · -- the block of eight bytes is too short
      rename_i hlong
      have hfull : ¬ ((CString.ofInt n.toInt).truncate maxArgLen).length < 8 := by
        rw [CString.length_truncate_lt_iff (by decide)]
        omega
      rw [Prog.bind_apply, appendArg_of_long (hcount _ (by simp)) hfull]
    · rename_i hshort
      have hlt : (CString.ofInt n.toInt).length < 8 := by omega
      have hfit := (CString.length_truncate_lt_iff (n := maxArgLen) (by decide)).mpr hlt
      have hsame : (CString.ofInt n.toInt).truncate maxArgLen = .ofInt n.toInt :=
        CString.truncate_of_lt (Nat.lt_trans hlt (by decide))
      rw [Prog.bind_of_ok (appendArg_of_lt (hcount _ (by simp)) hfit), appendOption,
        appendArg_self (hcount _ (by simp)), hsame, CString.truncate_of_lt hproc]
      rfl

section On

variable {α : Type} {x : Prog Fault (List CString) α} {a : α} {f : Fault}
  {primaryArgv secondaryArgv : List CString}

theorem onPrimary_of_ok (h : x primaryArgv = .ok (a, argv)) :
    onPrimary x ⟨config, primaryArgv, secondaryArgv⟩ = .ok (a, ⟨config, argv, secondaryArgv⟩) := by
  simp only [onPrimary, Prog.zoom, h]

theorem onSecondary_of_ok (h : x secondaryArgv = .ok (a, argv)) :
    onSecondary x ⟨config, primaryArgv, secondaryArgv⟩ = .ok (a, ⟨config, primaryArgv, argv⟩) := by
  simp only [onSecondary, Prog.zoom, h]

theorem onPrimary_of_error (h : x primaryArgv = .error f) :
    onPrimary x ⟨config, primaryArgv, secondaryArgv⟩ = .error f := by
  simp only [onPrimary, Prog.zoom, h]

theorem onSecondary_of_error (h : x secondaryArgv = .error f) :
    onSecondary x ⟨config, primaryArgv, secondaryArgv⟩ = .error f := by
  simp only [onSecondary, Prog.zoom, h]

end On

/-- The end of `setup_primary_secondary_args`: the arguments of the application are appended if
there is room for all of them. -/
theorem appendApp_apply (config : GlobalConfiguration) (primaryArgv secondaryArgv : List CString)
    (hlength : primaryArgv.length = 6) :
    (if primaryArgv.length + args.length ≥ maxArgc then pure (-1)
      else do
        onPrimary (appendArg 3 3 optionEnd)
        onPrimary (appendArgs args)
        return 0 : ArgsProg ℤ) ⟨config, primaryArgv, secondaryArgv⟩ =
      if args.length + 3 ≤ 60 then
        .ok (0, ⟨config, primaryArgv ++ optionEnd :: args.map (CString.truncate maxArgLen),
          secondaryArgv⟩)
      else .ok (-1, ⟨config, primaryArgv, secondaryArgv⟩) := by
  by_cases hroom : args.length + 3 ≤ 60
  · have hless : ¬ primaryArgv.length + args.length ≥ maxArgc := by
      unfold maxArgc
      omega
    have hend : appendArg 3 3 optionEnd primaryArgv = .ok ((), primaryArgv ++ [optionEnd]) :=
      appendArg_of_lt (by rw [hlength]; decide) (by decide)
    have hfits : (primaryArgv ++ [optionEnd]).length + args.length ≤ maxArgc := by
      rw [List.length_append, hlength]
      change 7 + args.length ≤ 64
      omega
    rw [if_neg hless, if_pos hroom, Prog.bind_of_ok (onPrimary_of_ok hend),
      Prog.bind_of_ok (onPrimary_of_ok (appendArgs_of_le hfits)), List.append_assoc]
    rfl
  · have hfull : primaryArgv.length + args.length ≥ maxArgc := by
      unfold maxArgc
      omega
    rw [if_pos hfull, if_neg hroom, Prog.pure_apply]

/-- `setup_primary_secondary_args`, whatever the configuration. -/
theorem setupPrimarySecondaryArgs_apply (g : ArgsGlobals) :
    setupPrimarySecondaryArgs progname args g =
      match g.config.lcoresPrimary.string?, g.config.lcoresSecondary.string? with
      | some primary, some secondary =>
        let n := g.config.nMemChannels.toInt
        let primaryArgv := ealArgs progname primary n procTypePrimary
        let secondaryArgv := ealArgs progname secondary n procTypeSecondary
        let appArgv := optionEnd :: args.map (CString.truncate maxArgLen)
        if n ≤ -1000000 ∨ 10000000 ≤ n then .error .outOfBounds
        else if args.length + 3 ≤ 60 then
          .ok (0, ⟨g.config, primaryArgv ++ appArgv, secondaryArgv⟩)
        else .ok (-1, ⟨g.config, primaryArgv, secondaryArgv⟩)
      | _, _ => .error .outOfBounds := by
  obtain ⟨config, primaryArgv, secondaryArgv⟩ := g
  have hprimary := buildArgs_apply progname primaryArgv config.lcoresPrimary
    config.nMemChannels (show procTypePrimary.length < maxArgLen by decide)
  have hsecondary := buildArgs_apply progname secondaryArgv config.lcoresSecondary
    config.nMemChannels (show procTypeSecondary.length < maxArgLen by decide)
  rw [setupPrimarySecondaryArgs, Prog.bind_of_ok (Prog.read_apply _)]
  simp only
  cases hp : config.lcoresPrimary.string? with
  | none =>
    rw [hp] at hprimary
    rw [Prog.bind_apply, onPrimary_of_error hprimary]
  | some primary =>
    rw [hp] at hprimary
    by_cases hn : config.nMemChannels.toInt ≤ -1000000 ∨ 10000000 ≤ config.nMemChannels.toInt
    · simp only [if_pos hn] at hprimary ⊢
      rw [Prog.bind_apply, onPrimary_of_error hprimary]
      cases config.lcoresSecondary.string? with
      | none => rfl
      | some secondary => rfl
    simp only [if_neg hn] at hprimary hsecondary ⊢
    rw [Prog.bind_of_ok (onPrimary_of_ok hprimary)]
    cases hs : config.lcoresSecondary.string? with
    | none =>
      rw [hs] at hsecondary
      rw [Prog.bind_apply, onSecondary_of_error hsecondary]
    | some secondary =>
      rw [hs] at hsecondary
      rw [Prog.bind_of_ok (onSecondary_of_ok hsecondary), Prog.bind_of_ok (Prog.read_apply _)]
      exact appendApp_apply config _ _ rfl

/-! ## The command line -/

theorem configFile_of_lt (h : argv.length < 3) : configFile argv = none := by
  unfold configFile
  split
  · rw [if_neg (by omega)]
  · rfl

theorem ini_suffix_iff (file : CString) :
    (file.length ≤ 4 ∨ file.chars.drop (file.length - 4) ≠ ".ini".toList) ↔
      ¬ (4 < file.length ∧ ".ini".toList <:+ file.chars) := by
  have hdrop : ".ini".toList <:+ file.chars ↔
      ".ini".toList = file.chars.drop (file.length - 4) := List.suffix_iff_eq_drop
  rw [hdrop, not_and_or, Nat.not_lt, ne_comm]

/-- **What the command line and the configuration file come to.** Nothing, if no `.ini` file is
named or it cannot be read. Otherwise the last value of every key counts, in whatever order the
settings are, and the two processes get the cores and memory channels that are set, the
application in addition all that is left of its own arguments, if that is 57 arguments at most.
The two arrays of arguments are never written past their ends; the start-up goes wrong exactly if
a list of cores has lost its end or the number of channels has more than seven characters. -/
theorem parse_args_outcome (libs : ArgsLibraries) (argv : List CString) (g : ArgsGlobals) :
    udpdkParseArgs libs argv g = match (configFile argv).bind libs.iniParse with
      | none => .ok (-1, g)
      | some entries => argsOutcome libs argv entries g := by
  match argv with
  | [] | [_] | [_, _] =>
    rw [configFile_of_lt (by simp)]
    rfl
  | progname :: arg :: arg' :: args =>
    rw [udpdkParseArgs, configFile, List.tail_cons]
    cases getopt (arg :: arg' :: args) with
    | finished => rfl
    | unknown optopt => rfl
    | c file =>
      have hargc : 3 ≤ (progname :: arg :: arg' :: args).length := by simp
      simp only [hargc, true_and]
      by_cases hini : 4 < file.length ∧ ".ini".toList <:+ file.chars
      · rw [if_neg (fun h => (ini_suffix_iff file).mp h hini), if_pos hini, Option.bind_some]
        cases libs.iniParse file with
        | none => rfl
        | some entries =>
          simp only
          rw [Prog.bind_of_ok (Prog.update_apply ..), Prog.bind_apply,
            setupPrimarySecondaryArgs_apply, parseEntries_eq]
          simp only [argsOutcome, List.headD_cons, List.drop_succ_cons, List.drop_zero,
            List.length_cons]
          cases (g.config.updated libs entries).lcoresPrimary.string? with
          | none => rfl
          | some primary =>
            cases (g.config.updated libs entries).lcoresSecondary.string? with
            | none => rfl
            | some secondary =>
              by_cases hn : (g.config.updated libs entries).nMemChannels.toInt ≤ -1000000 ∨
                  10000000 ≤ (g.config.updated libs entries).nMemChannels.toInt
              · simp only [if_pos hn]
              by_cases hroom : args.length + 3 ≤ 60
              · simp only [if_neg hn, if_pos hroom]
                rfl
              · simp only [if_neg hn, if_neg hroom]
                rfl
      · rw [if_pos ((ini_suffix_iff file).mpr hini), if_neg hini]
        rfl

theorem lcores_string? {value : CString} {lcores : CharArray maxArgLen} {s n : String}
    (h : (valuesOf entries s n).getLast? = some value) :
    (((valuesOf entries s n).getLast?.map (strncpy maxArgLen)).getD lcores).string? =
      if value.length < maxArgLen then some value else none := by
  rw [h]
  exact string?_strncpy

/-- **When the start-up writes or reads past a block**, in terms of what stands in the file: a
list of cores of 256 characters has lost its end, and a number of more than seven characters does
not fit its block. -/
theorem parse_args_overflow_iff (libs : ArgsLibraries) {argv : List CString}
    {entries : List IniEntry} {primary secondary channels : CString}
    (hfile : (configFile argv).bind libs.iniParse = some entries)
    (hprimary : (valuesOf entries "dpdk" "lcores_primary").getLast? = some primary)
    (hsecondary : (valuesOf entries "dpdk" "lcores_secondary").getLast? = some secondary)
    (hchannels : (valuesOf entries "dpdk" "n_mem_channels").getLast? = some channels)
    (g : ArgsGlobals) :
    (∃ f, udpdkParseArgs libs argv g = .error f) ↔
      maxArgLen ≤ primary.length ∨ maxArgLen ≤ secondary.length ∨
        (libs.atoi channels).toInt ≤ -1000000 ∨ 10000000 ≤ (libs.atoi channels).toInt := by
  rw [parse_args_outcome, hfile]
  simp only [argsOutcome, GlobalConfiguration.updated, lcores_string? hprimary,
    lcores_string? hsecondary, hchannels, Option.map_some, Option.getD_some]
  by_cases hp : primary.length < maxArgLen
  · by_cases hs : secondary.length < maxArgLen
    · simp only [if_pos hp, if_pos hs]
      by_cases hn : (libs.atoi channels).toInt ≤ -1000000 ∨ 10000000 ≤ (libs.atoi channels).toInt
      · simp [hn]
      · simp only [if_neg hn]
        constructor
        · rintro ⟨f, hf⟩
          split at hf
          · cases hf
          · cases hf
        · rintro (hlong | hlong | hlong)
          · exact absurd hp (Nat.not_lt.mpr hlong)
          · exact absurd hs (Nat.not_lt.mpr hlong)
          · exact absurd hlong hn
    · simp [if_pos hp, if_neg hs, Nat.le_of_not_lt hs]
  · simp [if_neg hp, Nat.le_of_not_lt hp]

/-- A file that sets eight-digit memory channels. -/
def sampleEntries : List IniEntry :=
  [⟨⟨"dpdk".toList, by decide⟩, ⟨"lcores_primary".toList, by decide⟩, ⟨['2'], by decide⟩⟩,
    ⟨⟨"dpdk".toList, by decide⟩, ⟨"lcores_secondary".toList, by decide⟩, ⟨['4'], by decide⟩⟩,
    ⟨⟨"dpdk".toList, by decide⟩, ⟨"n_mem_channels".toList, by decide⟩,
      ⟨"10000000".toList, by decide⟩⟩]

/-- Libraries for which every file is this one, and every number this number. -/
def sampleLibraries : ArgsLibraries where
  iniParse _ := some sampleEntries
  rteEtherUnformatAddr _ addr := (0, addr)
  inetAddr _ := 0
  atoi _ := 10000000

/-- The globals before the command line is parsed. -/
def argsGlobalsInit : ArgsGlobals where
  config := {
    toConfiguration := .zero
    lcoresPrimary := strncpy maxArgLen default
    lcoresSecondary := strncpy maxArgLen default
    nMemChannels := 0 }
  primaryArgv := []
  secondaryArgv := []

/-- Eight-digit memory channels overflow the block of their argument. -/
theorem parse_args_overflow_of_sample : ∃ f, udpdkParseArgs sampleLibraries
    [⟨"app".toList, by decide⟩, ⟨"-c".toList, by decide⟩, ⟨"config.ini".toList, by decide⟩]
    argsGlobalsInit = .error f :=
  (parse_args_overflow_iff sampleLibraries rfl rfl rfl rfl argsGlobalsInit).mpr
    (.inr (.inr (.inr (by decide))))

end Udpdk
