import Udpdk.Foundation.Run
import Udpdk.Syscall.Basic

/-!
# Start-up of the two processes

`udpdk_sync.c`, and what `udpdk_init` and `poller_init` do from the fork on. The
application creates two rings and a pool of messages, one ring for each direction, and the
poller looks them up. Each of them then notifies the other one by putting a message of the
pool into its ring, and waits for the other one by polling.

A step is one operation on memory that both processes see, so that every interleaving of
the two is a run. The time between two steps of a process is arbitrary.

## Main definitions

* `ipcWait`, `ipcNotify` — one step of a wait, and of a notification
* `udpdkInit`, `pollerInit` — one step of the application, and of the poller
* `Startup.step` — one step of either
-/

namespace Udpdk

open Foundation

/-- The two processes. -/
inductive Party
  | app | poller
  deriving DecidableEq, Repr

def Party.peer : Party → Party
  | .app => .poller
  | .poller => .app

@[simp] theorem Party.peer_peer (p : Party) : p.peer.peer = p := by
  cases p <;> rfl

/-- `WAIT_MAX_CYCLES`. -/
def waitMaxCycles : ℕ := 100

/-- The number of messages in the pool. -/
def ipcMsgPoolSize : ℕ := 5

/-- What the application creates in shared memory and the poller looks up: the rings
`ipc_app_to_pol` and `ipc_pol_to_app`, each under the process that enqueues to it, the pool
of their messages, and whether the exchange zone, the bind table and the exchange rings
are there. -/
structure StartupZone where
  ipcRing : Party → Option (BoundedQueue ℕ)
  ipcMsgPool : Option (List ℕ)
  exchMemzone : Bool
  udpBindTable : Bool
  exchRings : Bool

namespace StartupZone

variable (Z : StartupZone)

def setRing (p : Party) (q : BoundedQueue ℕ) : StartupZone :=
  { Z with ipcRing := Function.update Z.ipcRing p (some q) }

@[simp] theorem ipcRing_setRing (p : Party) (q : BoundedQueue ℕ) :
    (Z.setRing p q).ipcRing = Function.update Z.ipcRing p (some q) := rfl

/-- `rte_mempool_get`; `none` when it fails. -/
def mempoolGet : Option (ℕ × StartupZone) :=
  match Z.ipcMsgPool with
  | some (msg :: pool) => some (msg, { Z with ipcMsgPool := some pool })
  | _ => none

/-- `rte_mempool_put`; `none` when there is no pool. -/
def mempoolPut (msg : ℕ) : Option StartupZone :=
  match Z.ipcMsgPool with
  | some pool => some { Z with ipcMsgPool := some (pool ++ [msg]) }
  | none => none

/-- The look-ups of `retrieve_ipc_channel` all succeed. Nothing is ever removed, so that it
makes no difference when each of them is made. -/
def retrieveIpcChannel : Bool :=
  (Z.ipcRing .app).isSome && (Z.ipcRing .poller).isSome && Z.ipcMsgPool.isSome

end StartupZone

/-- What a step of the start-up is to the handshake. -/
inductive IpcHappened
  | internal
  /-- `sender` tries to enqueue `msg`, to a ring that is empty or not, and succeeds or not -/
  | posted (sender : Party) (msg : ℕ) (empty stored : Bool)
  /-- `receiver` tries to dequeue -/
  | attempted (receiver : Party) (got : Option ℕ)
  /-- the poller goes past `ipc_wait_for_app` -/
  | proceeded
  /-- `udpdk_init` returns in the application -/
  | initReturned (ret : ℤ)
  deriving DecidableEq, Repr

/-! ## Waits and notifications -/

/-- Where a call is after one of its steps. -/
inductive Called (π ρ : Type)
  | still (pc : π)
  | returned (ret : ρ)
  /-- the process is stopped by a null pointer or by `rte_panic` -/
  | died

/-- Where a wait is. -/
inductive WaitPc
  /-- before `rte_ring_dequeue`, with `c` failed attempts behind it -/
  | dequeue (c : ℕ)
  /-- in `usleep`, after one more -/
  | usleep (c : ℕ)
  /-- before `rte_mempool_put` of the message it received -/
  | put (msg : ℕ)
  deriving DecidableEq, Repr

/-- Where a notification is. -/
inductive NotifyPc
  | get
  | enqueue (msg : ℕ)
  /-- before `rte_mempool_put` of the message that found no room -/
  | put (msg : ℕ)
  deriving DecidableEq, Repr

/-- One step of a wait of `p`, on the ring of its peer. -/
def ipcWait (p : Party) (Z : StartupZone) :
    WaitPc → IpcHappened × StartupZone × Called WaitPc ℤ
  | .dequeue c =>
    match Z.ipcRing p.peer with
    | none => (.internal, Z, .died)
    | some q =>
      match q.dequeue with
      | none => (.attempted p none, Z, .still (.usleep c))
      | some (msg, q') => (.attempted p (some msg), Z.setRing p.peer q', .still (.put msg))
  | .usleep c =>
    if c + 1 > waitMaxCycles then (.internal, Z, .returned (-1))
    else (.internal, Z, .still (.dequeue (c + 1)))
  | .put msg =>
    match Z.mempoolPut msg with
    | none => (.internal, Z, .died)
    | some Z' => (.internal, Z', .returned 0)

/-- `ipc_wait_for_app`. -/
def ipcWaitForApp := ipcWait .poller

/-- `ipc_wait_for_poller`. -/
def ipcWaitForPoller := ipcWait .app

/-- One step of a notification by `p`, on its own ring. -/
def ipcNotify (p : Party) (Z : StartupZone) :
    NotifyPc → IpcHappened × StartupZone × Called NotifyPc Unit
  | .get =>
    match Z.mempoolGet with
    | none => (.internal, Z, .died)
    | some (msg, Z') => (.internal, Z', .still (.enqueue msg))
  | .enqueue msg =>
    match Z.ipcRing p with
    | none => (.internal, Z, .died)
    | some q =>
      match q.enqueue msg with
      | none => (.posted p msg q.items.isEmpty false, Z, .still (.put msg))
      | some q' => (.posted p msg q.items.isEmpty true, Z.setRing p q', .returned ())
  | .put msg =>
    match Z.mempoolPut msg with
    | none => (.internal, Z, .died)
    | some Z' => (.internal, Z', .returned ())

/-- `ipc_notify_to_app`. -/
def ipcNotifyToApp := ipcNotify .poller

/-- `ipc_notify_to_poller`. -/
def ipcNotifyToPoller := ipcNotify .app

/-! ## The application -/

/-- Where `udpdk_init` is in the application. -/
inductive InitPc
  /-- before `init_ipc_channel`: EAL, list allocators, pools of mbufs and ports -/
  | prepare
  /-- in `init_ipc_channel`, before it creates the ring of `p` -/
  | createRing (p : Party)
  | createMsgPool
  | initExchMemzone
  | initUdpBindTable
  | initExchangeSlots
  | notify (pc : NotifyPc)
  | wait (pc : WaitPc)
  | returned (ret : ℤ)
  | died
  deriving DecidableEq, Repr

/-- A call that fails or goes on: if it fails, `udpdk_init` returns -1. -/
def InitPc.orFail (ok : Bool) (Z Z' : StartupZone) (next : InitPc) :
    Option (IpcHappened × StartupZone × InitPc) :=
  if ok then some (.internal, Z', next) else some (.initReturned (-1), Z, .returned (-1))

/-- One step of `udpdk_init` in the application; `ok` decides whether the call of this step
succeeds. -/
def udpdkInit (ok : Bool) (Z : StartupZone) :
    InitPc → Option (IpcHappened × StartupZone × InitPc)
  | .prepare => InitPc.orFail ok Z Z (.createRing .app)
  | .createRing .app =>
    InitPc.orFail ok Z (Z.setRing .app (rteRingCreate 1)) (.createRing .poller)
  | .createRing .poller =>
    InitPc.orFail ok Z (Z.setRing .poller (rteRingCreate 1)) .createMsgPool
  -- the result of `rte_mempool_create` is not looked at
  | .createMsgPool =>
    some (.internal,
      { Z with ipcMsgPool := if ok then some (List.range ipcMsgPoolSize) else none },
      .initExchMemzone)
  | .initExchMemzone => InitPc.orFail ok Z { Z with exchMemzone := true } .initUdpBindTable
  | .initUdpBindTable => InitPc.orFail ok Z { Z with udpBindTable := true } .initExchangeSlots
  | .initExchangeSlots => InitPc.orFail ok Z { Z with exchRings := true } (.notify .get)
  | .notify pc =>
    match ipcNotifyToPoller Z pc with
    | (a, Z', .still pc') => some (a, Z', .notify pc')
    | (a, Z', .returned _) => some (a, Z', .wait (.dequeue 0))
    | (a, Z', .died) => some (a, Z', .died)
  | .wait pc =>
    match ipcWaitForPoller Z pc with
    | (a, Z', .still pc') => some (a, Z', .wait pc')
    -- what the wait returns is not looked at
    | (_, Z', .returned _) => some (.initReturned 0, Z', .returned 0)
    | (a, Z', .died) => some (a, Z', .died)
  | .returned _ => none
  | .died => none

/-! ## The poller -/

/-- Where `poller_init` is. -/
inductive PollerInitPc
  | ealInit
  | retrieveIpcChannel
  /-- before it looks at `poller_alive` and sleeps, as it found no channel -/
  | checkAlive
  | wait (pc : WaitPc)
  | setupAllocators
  | setupQueues
  | setupExchZone
  | setupUdpTable
  | notify (pc : NotifyPc)
  | returned (ret : ℤ)
  | died
  deriving DecidableEq, Repr

/-- A call that fails or goes on: if it fails, `poller_init` returns -1. -/
def PollerInitPc.orFail (ok : Bool) (Z : StartupZone) (next : PollerInitPc) :
    Option (IpcHappened × StartupZone × PollerInitPc) :=
  some (.internal, Z, if ok then next else .returned (-1))

/-- One step of `poller_init`; `ok` decides whether the call of this step succeeds, and for
`checkAlive` whether the poller is still alive. -/
def pollerInit (ok : Bool) (Z : StartupZone) :
    PollerInitPc → Option (IpcHappened × StartupZone × PollerInitPc)
  | .ealInit => PollerInitPc.orFail ok Z .retrieveIpcChannel
  | .retrieveIpcChannel =>
    some (.internal, Z, if Z.retrieveIpcChannel then .wait (.dequeue 0) else .checkAlive)
  | .checkAlive => PollerInitPc.orFail ok Z .retrieveIpcChannel
  | .wait pc =>
    match ipcWaitForApp Z pc with
    | (a, Z', .still pc') => some (a, Z', .wait pc')
    -- what the wait returns is not looked at
    | (_, Z', .returned _) => some (.proceeded, Z', .setupAllocators)
    | (a, Z', .died) => some (a, Z', .died)
  | .setupAllocators => PollerInitPc.orFail ok Z .setupQueues
  | .setupQueues => PollerInitPc.orFail ok Z .setupExchZone
  | .setupExchZone => PollerInitPc.orFail (ok && Z.exchMemzone && Z.exchRings) Z .setupUdpTable
  | .setupUdpTable => PollerInitPc.orFail (ok && Z.udpBindTable) Z (.notify .get)
  | .notify pc =>
    match ipcNotifyToApp Z pc with
    | (a, Z', .still pc') => some (a, Z', .notify pc')
    | (a, Z', .returned _) => some (a, Z', .returned 0)
    | (a, Z', .died) => some (a, Z', .died)
  | .returned _ => none
  | .died => none

/-! ## Both -/

/-- The two processes after the fork. -/
structure Startup where
  zone : StartupZone
  app : InitPc
  poller : PollerInitPc

def startupInit : Startup where
  zone := {
    ipcRing := fun _ => none
    ipcMsgPool := none
    exchMemzone := false
    udpBindTable := false
    exchRings := false }
  app := .prepare
  poller := .ealInit

/-- One step of the process `p`; `none` when it has no step to make. -/
def Startup.step (p : Party) (ok : Bool) (s : Startup) : Option (IpcHappened × Startup) :=
  match p with
  | .app =>
    (udpdkInit ok s.zone s.app).map fun r => (r.1, { s with zone := r.2.1, app := r.2.2 })
  | .poller =>
    (pollerInit ok s.zone s.poller).map fun r =>
      (r.1, { s with zone := r.2.1, poller := r.2.2 })

def Startup.Step (a : IpcHappened) (s t : Startup) : Prop :=
  ∃ p ok, s.step p ok = some (a, t)

end Udpdk
