import Udpdk.Packed.Memory

/-!
# The bind table, byte by byte

The functions of `Udpdk.List.Basic` and `Udpdk.BindTable.Basic` once more, on memory whose
blocks may share bytes. Every assignment of the source is one `store` of a field, and a field is
read again wherever the source reads it.
-/

namespace Udpdk.Packed

open Foundation

/-! ## The linked list -/

/-- `list_new`: NULL on failure. -/
def listNew : PackedProg ℕ := do
  let self ← shmalloc udpdkListTAlloc
  if self = 0 then
    return 0
  else
    store self UdpdkList.head 0
    store self UdpdkList.tail 0
    store self UdpdkList.free 0
    store self UdpdkList.match 0
    store self UdpdkList.len 0
    return self

/-- `if (self->free) self->free(val)`. The callback is never set, so that an address found there
is no function. -/
def callFree (self : ℕ) : PackedProg Unit := do
  if (← load self UdpdkList.free) ≠ 0 then
    Prog.stop .outOfBounds

/-- The loop of `list_destroy`. -/
def listDestroyNodes (self : ℕ) : ℕ → ℕ → PackedProg Unit
  | 0, _ => return
  | len + 1, curr => do
    let next ← load curr ListNode.next
    callFree self
    shfree udpdkListNodeTAlloc curr
    listDestroyNodes self len next

/-- `list_destroy`. -/
def listDestroy (self : ℕ) : PackedProg Unit := do
  listDestroyNodes self (← load self UdpdkList.len) (← load self UdpdkList.head)
  shfree udpdkListTAlloc self

/-- The branch of `list_rpush` and `list_lpush` for an empty list. -/
def listPushFirst (self node : ℕ) : PackedProg Unit := do
  store self UdpdkList.tail node
  store self UdpdkList.head node
  store node ListNode.next 0
  store node ListNode.prev 0

/-- `list_rpush`. -/
def listRpush (self node : ℕ) : PackedProg ℕ := do
  if node = 0 then
    return 0
  else
    if (← load self UdpdkList.len) ≠ 0 then
      store node ListNode.prev (← load self UdpdkList.tail)
      store node ListNode.next 0
      store (← load self UdpdkList.tail) ListNode.next node
      store self UdpdkList.tail node
    else
      listPushFirst self node
    store self UdpdkList.len ((← load self UdpdkList.len) + 1)
    return node

/-- `list_lpush`. -/
def listLpush (self node : ℕ) : PackedProg ℕ := do
  if node = 0 then
    return 0
  else
    if (← load self UdpdkList.len) ≠ 0 then
      store node ListNode.next (← load self UdpdkList.head)
      store node ListNode.prev 0
      store (← load self UdpdkList.head) ListNode.prev node
      store self UdpdkList.head node
    else
      listPushFirst self node
    store self UdpdkList.len ((← load self UdpdkList.len) + 1)
    return node

/-- `list_remove`. -/
def listRemove (self node : ℕ) : PackedProg Unit := do
  if (← load node ListNode.prev) ≠ 0 then
    store (← load node ListNode.prev) ListNode.next (← load node ListNode.next)
  else
    store self UdpdkList.head (← load node ListNode.next)
  if (← load node ListNode.next) ≠ 0 then
    store (← load node ListNode.next) ListNode.prev (← load node ListNode.prev)
  else
    store self UdpdkList.tail (← load node ListNode.prev)
  callFree self
  shfree udpdkListNodeTAlloc node
  store self UdpdkList.len ((← load self UdpdkList.len) + (2 ^ 32 - 1))

/-- `list_node_new`: NULL on failure. -/
def listNodeNew (val : ℕ) : PackedProg ℕ := do
  let self ← shmalloc udpdkListNodeTAlloc
  if self = 0 then
    return 0
  else
    store self ListNode.prev 0
    store self ListNode.next 0
    store self ListNode.val val
    return self

/-- `list_iterator_new`, with `list_iterator_new_from_node`: NULL on failure. -/
def listIteratorNew (list : ℕ) (direction : ListDirection) : PackedProg ℕ := do
  let node ← load list (if direction = .LIST_HEAD then UdpdkList.head else UdpdkList.tail)
  let self ← shmalloc udpdkListIteratorTAlloc
  if self = 0 then
    return 0
  else
    store self ListIterator.next node
    store self ListIterator.direction (ofDirection direction)
    return self

/-- `list_iterator_next`. -/
def listIteratorNext (self : ℕ) : PackedProg (Option ℕ) := do
  let curr ← load self ListIterator.next
  if curr = 0 then
    return none
  else
    if (← load self ListIterator.direction) = ofDirection .LIST_HEAD then
      store self ListIterator.next (← load curr ListNode.next)
    else
      store self ListIterator.next (← load curr ListNode.prev)
    return some curr

/-- `list_iterator_destroy`. -/
def listIteratorDestroy (self : ℕ) : PackedProg Unit := shfree udpdkListIteratorTAlloc self

/-! ## The bind table -/

/-- Set an entry of `sock_bind_table`. -/
def setBindTable (port : Port) (list : ℕ) : PackedProg Unit :=
  Prog.update fun m => { m with sockBindTable := Function.update m.sockBindTable port list }

/-- The body of the scan of `btable_can_bind`. -/
def btableCanBindStep (ipNew : InAddr) (opts : BitVec 32) (node : ℕ) (canBind : Bool) :
    PackedProg (ForInStep Bool) := do
  let ipOth := BitVec.ofNat 32 (← load (← load node ListNode.val) BindInfo.ipAddr)
  let othReuseport := (← load (← load node ListNode.val) BindInfo.reusePort) ≠ 0
  -- If different, and none is INADDR_ANY, continue
  if ipOth ≠ ipNew ∧ ipOth ≠ inaddrAny ∧ ipNew ≠ inaddrAny then
    return .yield canBind
  -- If different, one is INADDR_ANY, and the new has SO_REUSEADDR or SO_REUSEPORT, continue
  else if ipOth ≠ ipNew ∧ (ipOth = inaddrAny ∨ ipNew ≠ inaddrAny) ∧
      (hasOpt opts soReuseaddr ∨ hasOpt opts soReuseport) then
    return .yield canBind
  -- If same, not INADDR_ANY and both have SO_REUSEPORT, continue
  else if ipOth = ipNew ∧ ipNew ≠ inaddrAny ∧ hasOpt opts soReuseport ∧ othReuseport then
    return .yield canBind
  else
    return .done false

/-- `btable_can_bind`. -/
def btableCanBind (ip : InAddr) (port : Port) (opts : BitVec 32) : PackedProg Bool := do
  let list := (← Prog.read).sockBindTable port
  if list = 0 then
    return true
  else
    let it ← listIteratorNew list .LIST_HEAD
    let canBind ← Prog.whileSome .noReturn (listIteratorNext it) (btableCanBindStep ip opts)
      scanFuel true
    listIteratorDestroy it
    return canBind

/-- `btable_add_binding`: 0, or -1 when binding this pair is not allowed. -/
def btableAddBinding (s : ℤ) (ip : InAddr) (port : Port) (opts : BitVec 32) : PackedProg ℤ := do
  if !(← btableCanBind ip port opts) then
    return -1
  else
    -- Allocate the list if missing
    if (← Prog.read).sockBindTable port = 0 then
      setBindTable port (← listNew)
    -- Allocate and setup a new bind_info element
    let b ← shmalloc bindInfoAlloc
    store b BindInfo.sockfd (ofInt s)
    store b BindInfo.ipAddr ip.toNat
    store b BindInfo.reuseAddr (hasOpt opts soReuseaddr).toNat
    store b BindInfo.reusePort (hasOpt opts soReuseport).toNat
    store b BindInfo.closed 0
    -- Insert the bind_info in the list
    let ln ← listNodeNew b
    let list := (← Prog.read).sockBindTable port
    if ip = inaddrAny then
      let _ ← listLpush list ln
    else
      let _ ← listRpush list ln
    return 0

/-- The body of the scan of `btable_del_binding`. -/
def btableDelBindingStep (s : ℤ) (port : Port) (node : ℕ) (_ : Unit) :
    PackedProg (ForInStep Unit) := do
  if (← load (← load node ListNode.val) BindInfo.sockfd) = ofInt s then
    shfree bindInfoAlloc (← load node ListNode.val)
    listRemove ((← Prog.read).sockBindTable port) node
    return .done ()
  else
    return .yield ()

/-- `btable_del_binding`. -/
def btableDelBinding (s : ℤ) (port : Port) : PackedProg Unit := do
  -- Remove the binding from the list
  let it ← listIteratorNew ((← Prog.read).sockBindTable port) .LIST_HEAD
  Prog.whileSome .noReturn (listIteratorNext it) (btableDelBindingStep s port) scanFuel ()
  listIteratorDestroy it
  -- If no more bindings left, free the port
  let list := (← Prog.read).sockBindTable port
  if (← load list UdpdkList.len) = 0 then
    listDestroy list
    setBindTable port 0

/-! ## Reading the table -/

/-- The binding in memory at `b`. -/
def loadBindInfo (b : ℕ) : PackedProg Udpdk.BindInfo := do
  return {
    sockfd := toInt (← load b BindInfo.sockfd)
    ipAddr := BitVec.ofNat 32 (← load b BindInfo.ipAddr)
    reuseAddr := (← load b BindInfo.reuseAddr) ≠ 0
    reusePort := (← load b BindInfo.reusePort) ≠ 0
    closed := (← load b BindInfo.closed) ≠ 0 }

/-- The bindings that a scan from `node` on comes across. -/
def bindingsFrom : ℕ → ℕ → PackedProg (List Udpdk.BindInfo)
  | 0, _ => Prog.stop .noReturn
  | fuel + 1, node => do
    if node = 0 then
      return []
    else
      let b ← loadBindInfo (← load node ListNode.val)
      return b :: (← bindingsFrom fuel (← load node ListNode.next))

/-- The bindings of a port as the memory lists them. -/
def bindings (port : Port) : PackedProg (List Udpdk.BindInfo) := do
  let list := (← Prog.read).sockBindTable port
  if list = 0 then
    return []
  else
    bindingsFrom scanFuel (← load list UdpdkList.head)

end Udpdk.Packed
