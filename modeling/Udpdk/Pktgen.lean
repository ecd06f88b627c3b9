import Mathlib.Algebra.BigOperators.Group.List.Basic
import Mathlib.Algebra.Order.Ring.Int
import Mathlib.Data.Int.Order.Basic
import Mathlib.Tactic.Ring
import Udpdk.Foundation.Run

/-!
# The pace of the packet generator

`pktgen` sends at a given rate: before each packet it adds the period to the time at which the
packet is due, and polls the clock until that time is over. The clock may stand still or go back,
a poll or a send may take any time, and the loop ends when a signal has arrived.

## Main definitions

* `timespecAdd`, `timespecSub`, `txPeriod` — the arithmetic of times
* `SendEvent.step` — one step of the loop of `send_body`
* `SendState.Paced` — what holds wherever the loop is

## Main results

* `waitOver_iff` — when a wait ends
* `sends_paced` — every packet is sent when it is due, and not earlier
-/

namespace Udpdk

open Foundation

/-! ## Times -/

/-- `struct timespec`. -/
structure Timespec where
  tvSec : ℤ
  tvNsec : ℤ

namespace Timespec

variable (t : Timespec)

def nanos : ℤ := t.tvSec * 1000000000 + t.tvNsec

/-- The nanoseconds are less than a second. -/
structure Normal : Prop where
  nonneg : 0 ≤ t.tvNsec
  lt : t.tvNsec < 1000000000

end Timespec

/-- A time that `clock_gettime` gives. -/
structure ClockTime extends Timespec where
  normal : toTimespec.Normal

/-- `timespec_add`. -/
def timespecAdd (a b : Timespec) : Timespec :=
  let ret : Timespec := ⟨a.tvSec + b.tvSec, a.tvNsec + b.tvNsec⟩
  if ret.tvNsec ≥ 1000000000 then ⟨ret.tvSec + 1, ret.tvNsec - 1000000000⟩ else ret

/-- `timespec_sub`. -/
def timespecSub (a b : Timespec) : Timespec :=
  let ret : Timespec := ⟨a.tvSec - b.tvSec, a.tvNsec - b.tvNsec⟩
  if ret.tvNsec < 0 then ⟨ret.tvSec - 1, ret.tvNsec + 1000000000⟩ else ret

section Arithmetic

variable {a b t : Timespec}

theorem nanos_timespecAdd : (timespecAdd a b).nanos = a.nanos + b.nanos := by
  unfold timespecAdd
  dsimp only
  split
  · simp only [Timespec.nanos]
    ring
  · simp only [Timespec.nanos]
    ring

theorem nanos_timespecSub : (timespecSub a b).nanos = a.nanos - b.nanos := by
  unfold timespecSub
  dsimp only
  split
  · simp only [Timespec.nanos]
    ring
  · simp only [Timespec.nanos]
    ring

/-- One carry is enough. -/
theorem Timespec.Normal.add (ha : a.Normal) (hb : b.Normal) : (timespecAdd a b).Normal := by
  obtain ⟨ha₀, ha₁⟩ := ha
  obtain ⟨hb₀, hb₁⟩ := hb
  unfold timespecAdd
  dsimp only
  split
  · constructor
    · dsimp only
      omega
    · dsimp only
      omega
  · constructor
    · dsimp only
      omega
    · dsimp only
      omega

/-- One borrow is enough. -/
theorem Timespec.Normal.sub (ha : a.Normal) (hb : b.Normal) : (timespecSub a b).Normal := by
  obtain ⟨ha₀, ha₁⟩ := ha
  obtain ⟨hb₀, hb₁⟩ := hb
  unfold timespecSub
  dsimp only
  split
  · constructor
    · dsimp only
      omega
    · dsimp only
      omega
  · constructor
    · dsimp only
      omega
    · dsimp only
      omega

theorem Timespec.Normal.tvSec_neg_iff (ht : t.Normal) : t.tvSec < 0 ↔ t.nanos < 0 := by
  obtain ⟨h₀, h₁⟩ := ht
  unfold nanos
  omega

end Arithmetic

/-- The test of `wait_time` on a reading of the clock. -/
def waitOver (ts cur : Timespec) : Bool := (timespecSub ts cur).tvSec < 0

/-- A wait ends with the first reading after its time. -/
theorem waitOver_iff {ts : Timespec} (hts : ts.Normal) (cur : ClockTime) :
    waitOver ts cur.toTimespec ↔ ts.nanos < cur.nanos := by
  rw [waitOver, decide_eq_true_iff, (hts.sub cur.normal).tvSec_neg_iff, nanos_timespecSub]
  omega

/-- `tx_period`, which `send_body` sets from `tx_rate`. -/
def txPeriod (txRate : BitVec 64) : Timespec :=
  if 0 < txRate.toNat then
    let x : ℤ := 1000000000 / txRate.toNat
    ⟨x / 1000000000, x % 1000000000⟩
  else ⟨0, 0⟩

theorem nanos_txPeriod (txRate : BitVec 64) :
    (txPeriod txRate).nanos = 1000000000 / txRate.toNat := by
  unfold txPeriod Timespec.nanos
  split
  · dsimp only
    omega
  · rename_i hrate
    have hzero : txRate.toNat = 0 := by omega
    simp [hzero]

theorem normal_txPeriod (txRate : BitVec 64) : (txPeriod txRate).Normal := by
  unfold txPeriod
  split
  · constructor
    · exact Int.emod_nonneg _ (by decide)
    · exact Int.emod_lt_of_pos _ (by decide)
  · exact ⟨le_refl 0, by decide⟩

/-! ## The loop -/

/-- The options of the program that `send_body` reads. -/
structure SendOptions where
  txRate : BitVec 64
  hdrStats : Bool

/-- What `send_body` counts of `stats_t`. -/
structure Stats where
  pktsSent : BitVec 64
  bytesSent : BitVec 64

/-- `ETH_HDR_LEN + IP_HDR_LEN + UDP_HDR_LEN`. -/
def pktgenHdrLen : ℤ := 14 + 20 + 8

/-- The bytes that are counted for a packet. -/
def SendOptions.counted (opts : SendOptions) (ret : ℤ) : ℤ :=
  ret + if opts.hdrStats then pktgenHdrLen else 0

/-- The statistics after `udpdk_sendto` has returned. -/
def Stats.count (opts : SendOptions) (stats : Stats) (ret : ℤ) : Stats :=
  if ret > 0 then
    { pktsSent := stats.pktsSent + 1
      bytesSent := stats.bytesSent + BitVec.ofInt 64 (opts.counted ret) }
  else stats

/-- Where the loop is. -/
inductive SendPc
  /-- at its test -/
  | test
  /-- in `wait_time` -/
  | wait
  /-- before `udpdk_sendto` -/
  | send
  /-- behind the loop -/
  | left
  deriving DecidableEq

/-- The local variables of the loop. -/
structure SendState where
  pc : SendPc
  tNext : Timespec
  stats : Stats

/-- What the loop learns in a step: whether the program is still to go on, what time it is, and
what `udpdk_sendto` has returned. -/
inductive SendEvent
  | test (appAlive : Bool)
  | clock (cur : ClockTime)
  | sent (ret : ℤ)

namespace SendEvent

/-- One step of the loop. -/
def step (opts : SendOptions) : SendEvent → SendState → Option SendState
  | .test appAlive, s =>
    match s.pc with
    | .test =>
      if appAlive then
        if 0 < opts.txRate.toNat then
          some { s with pc := .wait, tNext := timespecAdd s.tNext (txPeriod opts.txRate) }
        else some { s with pc := .send }
      else some { s with pc := .left }
    | _ => none
  | .clock cur, s =>
    match s.pc with
    | .wait => some (if waitOver s.tNext cur.toTimespec then { s with pc := .send } else s)
    | _ => none
  | .sent ret, s =>
    match s.pc with
    | .send => some { s with pc := .test, stats := s.stats.count opts ret }
    | _ => none

def Step (opts : SendOptions) (a : SendEvent) (s t : SendState) : Prop := a.step opts s = some t

def result : SendEvent → Option ℤ
  | .sent ret => some ret
  | _ => none

def reading : SendEvent → Option ClockTime
  | .clock cur => some cur
  | _ => none

end SendEvent

def sendResults (log : List SendEvent) : List ℤ := log.filterMap SendEvent.result

/-- The loop before its first step, with the time that was read in front of it. -/
def sendStart (t : ClockTime) : SendState := ⟨.test, t.toTimespec, ⟨0, 0⟩⟩

/-- The packet that the loop waits for or is about to send, if there is one. -/
def SendPc.pending : SendPc → ℤ
  | .wait | .send => 1
  | .test | .left => 0

/-- What holds after these steps: the time at which the next packet is due does not depend on when
the packets before it were sent, and a packet that is about to be sent was found to be due by the
last look at the clock. -/
structure SendState.Paced (s : SendState) (opts : SendOptions) (t₀ : ClockTime)
    (log : List SendEvent) : Prop where
  normal : s.tNext.Normal
  due : s.tNext.nanos =
    t₀.nanos + ((sendResults log).length + s.pc.pending) * (txPeriod opts.txRate).nanos
  elapsed : 0 < opts.txRate.toNat → s.pc = .send →
    ∃ cur, (log.filterMap SendEvent.reading).getLast? = some cur ∧ s.tNext.nanos < cur.nanos
  packets : s.stats.pktsSent = BitVec.ofNat 64 ((sendResults log).filter (0 < ·)).length
  bytes : s.stats.bytesSent =
    BitVec.ofInt 64 (((sendResults log).filter (0 < ·)).map opts.counted).sum

section Loop

variable {opts : SendOptions} {t₀ : ClockTime} {log : List SendEvent} {s t : SendState}
  {a : SendEvent}

theorem paced_start (opts : SendOptions) (t₀ : ClockTime) :
    (sendStart t₀).Paced opts t₀ [] where
  normal := t₀.normal
  due := by simp [sendStart, sendResults, SendPc.pending]
  elapsed _ h := by cases h
  packets := rfl
  bytes := rfl

theorem sendResults_snoc (log : List SendEvent) (a : SendEvent) :
    sendResults (log ++ [a]) = sendResults log ++ a.result.toList := by
  rw [sendResults, List.filterMap_append, sendResults]
  cases a with
  | test | clock => simp [SendEvent.result]
  | sent ret => rfl

/-- A step in which nothing is sent. -/
theorem SendState.Paced.quiet (paced : s.Paced opts t₀ log) (ha : a.result = none)
    (hstats : t.stats = s.stats) (normal : t.tNext.Normal)
    (due : t.tNext.nanos =
      s.tNext.nanos + (t.pc.pending - s.pc.pending) * (txPeriod opts.txRate).nanos)
    (elapsed : 0 < opts.txRate.toNat → t.pc = .send →
      ∃ cur, a.reading = some cur ∧ t.tNext.nanos < cur.nanos) :
    t.Paced opts t₀ (log ++ [a]) := by
  have hresults : sendResults (log ++ [a]) = sendResults log := by
    rw [sendResults_snoc, ha]
    exact List.append_nil _
  refine ⟨normal, ?_, fun hrate hpc => ?_, ?_, ?_⟩
  · rw [hresults, due, paced.due]
    ring
  · obtain ⟨cur, hcur, hlt⟩ := elapsed hrate hpc
    exact ⟨cur, by simp [hcur], hlt⟩
  · rw [hresults, hstats, paced.packets]
  · rw [hresults, hstats, paced.bytes]

/-- The test of the loop sets the time of the next packet. -/
theorem SendState.Paced.test {appAlive : Bool} (paced : s.Paced opts t₀ log)
    (h : (SendEvent.test appAlive).Step opts s t) :
    t.Paced opts t₀ (log ++ [.test appAlive]) := by
  cases hpc : s.pc with
  | wait | send | left =>
    rw [SendEvent.Step, SendEvent.step, hpc] at h
    cases h
  | test =>
    rw [SendEvent.Step, SendEvent.step, hpc] at h
    dsimp only at h
    split at h
    · split at h
      · cases h
        refine paced.quiet rfl rfl (paced.normal.add (normal_txPeriod _)) ?_ ?_
        · simp [nanos_timespecAdd, hpc, SendPc.pending]
        · exact fun _ h => by cases h
      · rename_i hrate
        cases h
        have hzero : opts.txRate.toNat = 0 := by omega
        refine paced.quiet rfl rfl paced.normal ?_ ?_
        · simp [nanos_txPeriod, hzero]
        · exact fun hpos => absurd hpos hrate
    · cases h
      refine paced.quiet rfl rfl paced.normal ?_ ?_
      · simp [hpc, SendPc.pending]
      · exact fun _ h => by cases h

/-- A look at the clock ends the wait if the packet is due. -/
theorem SendState.Paced.clock {cur : ClockTime} (paced : s.Paced opts t₀ log)
    (h : (SendEvent.clock cur).Step opts s t) : t.Paced opts t₀ (log ++ [.clock cur]) := by
  cases hpc : s.pc with
  | test | send | left =>
    rw [SendEvent.Step, SendEvent.step, hpc] at h
    cases h
  | wait =>
    rw [SendEvent.Step, SendEvent.step, hpc] at h
    dsimp only at h
    split at h
    · rename_i hover
      cases h
      refine paced.quiet rfl rfl paced.normal ?_ ?_
      · simp [hpc, SendPc.pending]
      · exact fun _ _ => ⟨cur, rfl, (waitOver_iff paced.normal cur).mp hover⟩
    · cases h
      refine paced.quiet rfl rfl paced.normal ?_ ?_
      · simp
      · intro _ hsend
        rw [hpc] at hsend
        cases hsend

/-- A packet that was sent is counted if `udpdk_sendto` has sent any bytes. -/
theorem SendState.Paced.sent {ret : ℤ} (paced : s.Paced opts t₀ log)
    (h : (SendEvent.sent ret).Step opts s t) : t.Paced opts t₀ (log ++ [.sent ret]) := by
  have hresults : sendResults (log ++ [.sent ret]) = sendResults log ++ [ret] :=
    sendResults_snoc log (.sent ret)
  have hdue := paced.due
  cases hpc : s.pc with
  | test | wait | left =>
    rw [SendEvent.Step, SendEvent.step, hpc] at h
    cases h
  | send =>
    rw [SendEvent.Step, SendEvent.step, hpc] at h
    cases h
    refine ⟨paced.normal, ?_, fun _ h => (by cases h), ?_, ?_⟩
    · rw [hresults, hdue, hpc, List.length_append]
      simp [SendPc.pending]
    · rw [hresults, List.filter_append]
      by_cases hret : 0 < ret
      · simp [Stats.count, hret, paced.packets, BitVec.ofNat_add]
      · simp [Stats.count, hret, paced.packets]
    · rw [hresults, List.filter_append]
      by_cases hret : 0 < ret
      · simp [Stats.count, hret, paced.bytes, BitVec.ofInt_add]
      · simp [Stats.count, hret, paced.bytes]

theorem paced_of_run (run : Run (SendEvent.Step opts) (sendStart t₀) log s) :
    s.Paced opts t₀ log := by
  refine run.invariant (fun log s => s.Paced opts t₀ log) (paced_start opts t₀) ?_
  intro log s a t _ paced hstep
  cases a with
  | test appAlive => exact paced.test hstep
  | clock cur => exact paced.clock hstep
  | sent ret => exact paced.sent hstep

theorem SendEvent.pc_of_sent {ret : ℤ} (h : (SendEvent.sent ret).Step opts s t) :
    s.pc = .send := by
  cases hpc : s.pc with
  | send => rfl
  | test | wait | left =>
    rw [Step, step, hpc] at h
    cases h

theorem SendEvent.pc_of_clock {cur : ClockTime} (hpc : s.pc = .wait)
    (h : (SendEvent.clock cur).Step opts s t) :
    t.pc = .send ↔ waitOver s.tNext cur.toTimespec := by
  rw [Step, step, hpc] at h
  dsimp only at h
  split at h
  · rename_i hover
    cases h
    exact iff_of_true rfl hover
  · rename_i hover
    cases h
    exact iff_of_false (by simp [hpc]) hover

/-- **The packets are sent when they are due, and not earlier.** Whatever the clock does and
however long polls and sends take, with a rate above zero the packet number `k` (from 1 on) is sent
only after a reading later than the start by `k` periods, and with the first such reading in its
wait, so that lateness does not add up. The statistics count the packets and bytes that were sent,
modulo `2 ^ 64`. -/
theorem sends_paced (run : Run (SendEvent.Step opts) (sendStart t₀) log s) :
    (0 < opts.txRate.toNat →
      (∀ before ret after, log = before ++ .sent ret :: after →
        ∃ cur, (before.filterMap SendEvent.reading).getLast? = some cur ∧
          t₀.nanos + ((sendResults before).length + 1) * (1000000000 / opts.txRate.toNat) <
            cur.nanos) ∧
      (s.pc = .wait → ∀ cur t, (SendEvent.clock cur).Step opts s t → (t.pc = .send ↔
        t₀.nanos + ((sendResults log).length + 1) * (1000000000 / opts.txRate.toNat) <
          cur.nanos))) ∧
    s.stats.pktsSent = BitVec.ofNat 64 ((sendResults log).filter (0 < ·)).length ∧
    s.stats.bytesSent =
      BitVec.ofInt 64 (((sendResults log).filter (0 < ·)).map opts.counted).sum := by
  have paced := paced_of_run run
  refine ⟨fun hrate => ⟨?_, ?_⟩, paced.packets, paced.bytes⟩
  · rintro before ret after rfl
    rw [List.append_cons] at run
    obtain ⟨v, first, -⟩ := run.split
    obtain ⟨u, first, hstep⟩ := first.of_snoc
    have hpaced := paced_of_run first
    have hpc := SendEvent.pc_of_sent hstep
    obtain ⟨cur, hlast, hlt⟩ := hpaced.elapsed hrate hpc
    refine ⟨cur, hlast, ?_⟩
    rw [hpaced.due, hpc, nanos_txPeriod] at hlt
    exact hlt
  · intro hpc cur t hstep
    have hdue := paced.due
    rw [hpc, nanos_txPeriod] at hdue
    rw [SendEvent.pc_of_clock hpc hstep, waitOver_iff paced.normal, hdue]
    exact Iff.rfl

end Loop

/-- One packet a second. -/
def sampleOptions : SendOptions := ⟨1, true⟩

def clockZero : ClockTime := ⟨⟨0, 0⟩, ⟨by decide, by decide⟩⟩

def clockLater : ClockTime := ⟨⟨1, 1⟩, ⟨by decide, by decide⟩⟩

/-- The first packet of 64 bytes after a second. -/
theorem sends_paced_of_first : ∃ s, ∃ cur : ℤ, Run (SendEvent.Step sampleOptions)
    (sendStart clockZero) [.test true, .clock clockLater, .sent 64] s ∧ 1000000000 < cur ∧
      s.stats.pktsSent = 1 ∧ s.stats.bytesSent = 106 := by
  have htest : (SendEvent.test true).Step sampleOptions (sendStart clockZero)
      ⟨.wait, ⟨1, 0⟩, ⟨0, 0⟩⟩ := rfl
  have hclock : (SendEvent.clock clockLater).Step sampleOptions ⟨.wait, ⟨1, 0⟩, ⟨0, 0⟩⟩
      ⟨.send, ⟨1, 0⟩, ⟨0, 0⟩⟩ := rfl
  have hsent : (SendEvent.sent 64).Step sampleOptions ⟨.send, ⟨1, 0⟩, ⟨0, 0⟩⟩
      ⟨.test, ⟨1, 0⟩, ⟨1, 106⟩⟩ := rfl
  have hrun := Run.cons htest (.cons hclock (.single hsent))
  have paced := sends_paced hrun
  obtain ⟨cur, -, hlater⟩ := (paced.1 (by decide)).1 [.test true, .clock clockLater] 64 [] rfl
  exact ⟨_, cur.nanos, hrun, hlater, paced.2.1, paced.2.2⟩

end Udpdk
