import Udpdk.List.Basic

/-!
# The bind table

`udpdk_bind_table.c`: for every raw port the list of the bindings to it. Wildcard
bindings are kept in front of the specific ones.
-/

namespace Udpdk

open Foundation

/-! ## Initialisation -/

/-- Where DPDK has reserved the memzones of the four allocators. -/
structure AllocatorZones where
  bindInfoAlloc : ℕ
  listAlloc : ℕ
  nodeAlloc : ℕ
  iteratorAlloc : ℕ

def sizeofBindInfo : ℕ := 12

def sizeofUdpdkList : ℕ := 40

def sizeofListNode : ℕ := 24

def sizeofListIterator : ℕ := 16

/-- The shared memory after `udpdk_list_init` and `btable_init`. -/
def btableInit (zones : AllocatorZones) : Mem where
  bindInfoAlloc := {
    mz := udpdkInitAllocator zones.bindInfoAlloc numSocketsMax sizeofBindInfo
    cells _ := { sockfd := 0, ipAddr := 0, reuseAddr := false, reusePort := false,
                 closed := false } }
  listAlloc := {
    mz := udpdkInitAllocator zones.listAlloc udpMaxPort sizeofUdpdkList
    cells _ := { head := none, tail := none, len := 0 } }
  nodeAlloc := {
    mz := udpdkInitAllocator zones.nodeAlloc numSocketsMax sizeofListNode
    cells _ := { prev := none, next := none, val := 0 } }
  iteratorAlloc := {
    mz := udpdkInitAllocator zones.iteratorAlloc listIteratorPoolSize sizeofListIterator
    cells _ := { next := none, direction := .LIST_HEAD } }
  sockBindTable _ := none

/-! ## Operations -/

/-- `btable_get_free_port`: -1 if none is available. -/
def btableGetFreePort : MemProg ℤ := do
  let m ← Prog.read
  match (List.range udpMaxPort).find? fun i => m.sockBindTable (BitVec.ofNat 16 i) = none with
  | some i => return i
  | none => return -1

/-- A bound on the rounds of a scan: `len` is 32 bits wide. -/
def scanFuel : ℕ := 2 ^ 32

/-- `opts & option`, as a truth value. -/
def hasOpt (opts option : BitVec 32) : Bool := opts &&& option ≠ 0

/-- The body of the scan of `btable_can_bind`: `continue`, or stop with `false`. -/
def btableCanBindStep (ipNew : InAddr) (opts : BitVec 32) (node : ℕ) (canBind : Bool) :
    MemProg (ForInStep Bool) := do
  let n ← load udpdkListNodeTAlloc (some node)
  let b ← load bindInfoAlloc (some n.val)
  let ipOth := b.ipAddr
  let othReuseport := b.reusePort
  -- If different, and none is INADDR_ANY, continue
  if ipOth ≠ ipNew ∧ ipOth ≠ inaddrAny ∧ ipNew ≠ inaddrAny then
    return .yield canBind
  -- If different, one is INADDR_ANY, and the new has SO_REUSEADDR or SO_REUSEPORT, continue
  else if ipOth ≠ ipNew ∧ (ipOth = inaddrAny ∨ ipNew ≠ inaddrAny) ∧
      (hasOpt opts soReuseaddr ∨ hasOpt opts soReuseport) then
    return .yield canBind
  -- If same, not INADDR_ANY and both have SO_REUSEPORT, continue
  else if ipOth = ipNew ∧ ipNew ≠ inaddrAny ∧ hasOpt opts soReuseport ∧ othReuseport then
    return .yield canBind
  else
    return .done false

/-- `btable_can_bind`. -/
def btableCanBind (ip : InAddr) (port : Port) (opts : BitVec 32) : MemProg Bool := do
  let list := (← Prog.read).sockBindTable port
  if list = none then
    return true
  else
    let it ← listIteratorNew list .LIST_HEAD
    let canBind ← Prog.whileSome .noReturn (listIteratorNext it) (btableCanBindStep ip opts)
      scanFuel true
    listIteratorDestroy it
    return canBind

/-- The part of `btable_add_binding` that stores and links a binding that was accepted. -/
def btableInsertBinding (s : ℤ) (ip : InAddr) (port : Port) (opts : BitVec 32) :
    MemProg Unit := do
  match ← shmalloc bindInfoAlloc with
  | none => Prog.stop .nullDeref
  | some b =>
    store bindInfoAlloc (some b) fun b => { b with sockfd := s }
    store bindInfoAlloc (some b) fun b => { b with ipAddr := ip }
    store bindInfoAlloc (some b) fun b => { b with reuseAddr := hasOpt opts soReuseaddr }
    store bindInfoAlloc (some b) fun b => { b with reusePort := hasOpt opts soReuseport }
    store bindInfoAlloc (some b) fun b => { b with closed := false }
    let ln ← listNodeNew b
    let list := (← Prog.read).sockBindTable port
    if ip = inaddrAny then
      let _ ← listLpush list ln
    else
      let _ ← listRpush list ln

/-- `btable_add_binding`: 0, or -1 when binding this pair is not allowed. -/
def btableAddBinding (s : ℤ) (ip : InAddr) (port : Port) (opts : BitVec 32) : MemProg ℤ := do
  if !(← btableCanBind ip port opts) then
    return -1
  else
    -- Allocate the list if missing
    if (← Prog.read).sockBindTable port = none then
      let l ← listNew
      Prog.update fun m => { m with sockBindTable := Function.update m.sockBindTable port l }
    btableInsertBinding s ip port opts
    return 0

/-- The body of the scan of `btable_del_binding`. -/
def btableDelBindingStep (s : ℤ) (port : Port) (node : ℕ) (_ : Unit) :
    MemProg (ForInStep Unit) := do
  let n ← load udpdkListNodeTAlloc (some node)
  let b ← load bindInfoAlloc (some n.val)
  if b.sockfd = s then
    shfree bindInfoAlloc (some n.val)
    listRemove ((← Prog.read).sockBindTable port) (some node)
    return .done ()
  else
    return .yield ()

/-- `btable_del_binding`. -/
def btableDelBinding (s : ℤ) (port : Port) : MemProg Unit := do
  -- Remove the binding from the list
  let it ← listIteratorNew ((← Prog.read).sockBindTable port) .LIST_HEAD
  Prog.whileSome .noReturn (listIteratorNext it) (btableDelBindingStep s port) scanFuel ()
  listIteratorDestroy it
  -- If no more bindings left, free the port
  let list := (← Prog.read).sockBindTable port
  let l ← load udpdkListTAlloc list
  if l.len = 0 then
    listDestroy list
    Prog.update fun m => { m with sockBindTable := Function.update m.sockBindTable port none }

/-- `btable_get_bindings`. -/
def btableGetBindings (port : Port) : MemProg Ptr := do
  return (← Prog.read).sockBindTable port

end Udpdk
