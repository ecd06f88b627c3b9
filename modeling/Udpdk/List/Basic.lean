import Udpdk.Memory

/-!
# The linked list of the bind table

`udpdk_list.c`, `udpdk_list_node.c` and `udpdk_list_iterator.c`, as far as the bind table
uses them, and `list_spush`. Each assignment of the source is one `store`, in the source's order.
-/

namespace Udpdk

open Foundation

/-- `list_new`: NULL on failure. -/
def listNew : MemProg Ptr := do
  match ← shmalloc udpdkListTAlloc with
  | none => return none
  | some self =>
    store udpdkListTAlloc (some self) fun _ => { head := none, tail := none, len := 0 }
    return some self

/-- The loop of `list_destroy` over the `len` nodes from `curr` on. -/
def listDestroyNodes : ℕ → Ptr → MemProg Unit
  | 0, _ => return
  | len + 1, curr => do
    let node ← load udpdkListNodeTAlloc curr
    shfree udpdkListNodeTAlloc curr
    listDestroyNodes len node.next

/-- `list_destroy`. -/
def listDestroy (self : Ptr) : MemProg Unit := do
  let l ← load udpdkListTAlloc self
  listDestroyNodes l.len l.head
  shfree udpdkListTAlloc self

/-- `list_rpush`: append the node; a null node is refused. -/
def listRpush (self node : Ptr) : MemProg Ptr := do
  if node = none then
    return none
  else
    let l ← load udpdkListTAlloc self
    if l.len ≠ 0 then
      store udpdkListNodeTAlloc node fun n => { n with prev := l.tail }
      store udpdkListNodeTAlloc node fun n => { n with next := none }
      store udpdkListNodeTAlloc l.tail fun n => { n with next := node }
      store udpdkListTAlloc self fun l => { l with tail := node }
    else
      store udpdkListTAlloc self fun l => { l with head := node, tail := node }
      store udpdkListNodeTAlloc node fun n => { n with prev := none, next := none }
    store udpdkListTAlloc self fun l => { l with len := u32 (l.len + 1) }
    return node

/-- `list_lpush`: prepend the node; a null node is refused. -/
def listLpush (self node : Ptr) : MemProg Ptr := do
  if node = none then
    return none
  else
    let l ← load udpdkListTAlloc self
    if l.len ≠ 0 then
      store udpdkListNodeTAlloc node fun n => { n with next := l.head }
      store udpdkListNodeTAlloc node fun n => { n with prev := none }
      store udpdkListNodeTAlloc l.head fun n => { n with prev := node }
      store udpdkListTAlloc self fun l => { l with head := node }
    else
      store udpdkListTAlloc self fun l => { l with head := node, tail := node }
      store udpdkListNodeTAlloc node fun n => { n with prev := none, next := none }
    store udpdkListTAlloc self fun l => { l with len := u32 (l.len + 1) }
    return node

/-- `list_spush`: insert the node behind the first one; a null node is refused. -/
def listSpush (self node : Ptr) : MemProg Ptr := do
  if node = none then
    return none
  else
    let l ← load udpdkListTAlloc self
    if l.len ≠ 0 then
      let first ← load udpdkListNodeTAlloc l.head
      store udpdkListNodeTAlloc node fun n => { n with next := first.next }
      store udpdkListNodeTAlloc node fun n => { n with prev := l.head }
      store udpdkListNodeTAlloc l.head fun n => { n with next := node }
      let n ← load udpdkListNodeTAlloc node
      if n.next ≠ none then
        store udpdkListNodeTAlloc n.next fun q => { q with prev := node }
      store udpdkListTAlloc self fun l => { l with len := u32 (l.len + 1) }
      return node
    else
      listLpush self node

/-- `list_remove`: unlink the node and free it. -/
def listRemove (self node : Ptr) : MemProg Unit := do
  let n ← load udpdkListNodeTAlloc node
  if n.prev ≠ none then
    store udpdkListNodeTAlloc n.prev fun p => { p with next := n.next }
  else
    store udpdkListTAlloc self fun l => { l with head := n.next }
  let n ← load udpdkListNodeTAlloc node
  if n.next ≠ none then
    store udpdkListNodeTAlloc n.next fun q => { q with prev := n.prev }
  else
    store udpdkListTAlloc self fun l => { l with tail := n.prev }
  shfree udpdkListNodeTAlloc node
  store udpdkListTAlloc self fun l => { l with len := u32 (l.len + (2 ^ 32 - 1)) }

/-- `list_node_new`: NULL on failure. -/
def listNodeNew (val : ℕ) : MemProg Ptr := do
  match ← shmalloc udpdkListNodeTAlloc with
  | none => return none
  | some self =>
    store udpdkListNodeTAlloc (some self) fun _ => { prev := none, next := none, val := val }
    return some self

/-- `list_iterator_new`, with the start node of `list_iterator_new_from_node`: NULL on
failure. -/
def listIteratorNew (list : Ptr) (direction : ListDirection) : MemProg Ptr := do
  let l ← load udpdkListTAlloc list
  let node := if direction = .LIST_HEAD then l.head else l.tail
  match ← shmalloc udpdkListIteratorTAlloc with
  | none => return none
  | some self =>
    store udpdkListIteratorTAlloc (some self) fun _ => { next := node, direction := direction }
    return some self

/-- `list_iterator_next`: the next node, or NULL when no more nodes remain. -/
def listIteratorNext (self : Ptr) : MemProg Ptr := do
  let it ← load udpdkListIteratorTAlloc self
  match it.next with
  | none => return none
  | some curr =>
    let n ← load udpdkListNodeTAlloc (some curr)
    store udpdkListIteratorTAlloc self fun it =>
      { it with next := if it.direction = .LIST_HEAD then n.next else n.prev }
    return some curr

/-- `list_iterator_destroy`. -/
def listIteratorDestroy (self : Ptr) : MemProg Unit := shfree udpdkListIteratorTAlloc self

end Udpdk
