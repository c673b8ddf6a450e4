import Mathlib.Data.List.Basic
import Mathlib.Algebra.Order.Ring.Nat

/-! The bandwidth throttle the two pipelines share: a worker that stored a record waits while
the quota is spent and `stop` is clear; the counter thread raises the quota once a tick,
signals the waiters, and returns once it has seen `stop`. A step made under the lock is one
step of the model. -/

namespace CdtValidation.Throttle

/-- The two pipelines. -/
inductive Tool
  | backup
  | restore
deriving DecidableEq, Repr

/-- The throttle's settings: `bandwidth` in bytes and, for `restore`, `tps` in records, each
a second. -/
structure Limits where
  bandwidth : Nat
  tps : Nat
deriving DecidableEq, Repr

/-- Whether the throttle is on: `bandwidth > 0` in `backup.c`, `bandwidth > 0 && tps > 0`
in `restore.c`; the workers wait and the counter thread raises and signals under this test. -/
def throttled : Tool → Limits → Bool
  | .backup, l => 0 < l.bandwidth
  | .restore, l => 0 < l.bandwidth && 0 < l.tps

/-- The shared counters: bytes and records stored and their limits (`backup.c` limits bytes
only). -/
structure Quota where
  bytes : Nat
  records : Nat
  bytesLimit : Nat
  recordsLimit : Nat
deriving DecidableEq, Repr

/-- The limits `main` starts from: `bandwidth` bytes and `tps` records. -/
def Quota.init (l : Limits) : Quota := ⟨0, 0, l.bandwidth, l.tps⟩

/-- The wait condition but `stop`: `byte_count_total >= byte_count_limit` in `backup.c`,
`total_bytes >= bytes_limit || total_records >= records_limit` in `restore.c`. -/
def Quota.spent : Tool → Quota → Bool
  | .backup, q => q.bytesLimit ≤ q.bytes
  | .restore, q => q.bytesLimit ≤ q.bytes || q.recordsLimit ≤ q.records

/-- A record of `bytes` bytes stored. -/
def Quota.use (bytes : Nat) (q : Quota) : Quota :=
  { q with bytes := q.bytes + bytes, records := q.records + 1 }

/-- The raise of a tick `ms` milliseconds after the last: `bandwidth * 1000 / ms` bytes and,
in `restore.c`, `tps * 1000 / ms` records; nothing when `ms` is 0. -/
def Quota.raise (t : Tool) (l : Limits) (ms : Nat) (q : Quota) : Quota :=
  if ms = 0 then q
  else
    match t with
    | .backup => { q with bytesLimit := q.bytesLimit + l.bandwidth * 1000 / ms }
    | .restore =>
      { q with
        bytesLimit := q.bytesLimit + l.bandwidth * 1000 / ms,
        recordsLimit := q.recordsLimit + l.tps * 1000 / ms }

/-- A worker: between records, asleep in `safe_wait`, woken by `safe_signal` and not yet
back under the lock, or returned. -/
inductive WorkerAt
  | io
  | waiting
  | woken
  | done
deriving DecidableEq, Repr

/-- The counter thread: in its loop, past `last_iter = stop` of `restore.c`, or returned. -/
inductive CounterAt
  | loop
  | lastIter (stop : Bool)
  | exited
deriving DecidableEq, Repr

/-- The throttle's state: the workers, the quota, `stop` and the counter thread. -/
structure Sys where
  workers : List WorkerAt
  quota : Quota
  stop : Bool
  counter : CounterAt
deriving DecidableEq, Repr

/-- `n` workers at work, nothing stored, `stop` clear. -/
def Sys.init (l : Limits) (n : Nat) : Sys := ⟨.replicate n .io, Quota.init l, false, .loop⟩

section Step

variable (t : Tool) (l : Limits)

/-- The test of the wait loop under the lock: wait while the quota is spent and `stop` is
clear. -/
def waitCheck (s : Sys) : WorkerAt :=
  if throttled t l && s.quota.spent t && !s.stop then .waiting else .io

/-- `safe_signal`. Modelled from the spec: `safe_signal` is defined in `utils.c`, outside the
sources, and the spec's coordinator "signals waiting workers", so a signal wakes every waiter. -/
def signal (ws : List WorkerAt) : List WorkerAt :=
  ws.map fun x => if x = .waiting then .woken else x

/-- A tick of the counter thread under the lock: raise the quota and signal when throttled,
then return if `seen`, the `stop` it read. -/
def counterTick (ms : Nat) (seen : Bool) (s : Sys) : Sys :=
  { s with
    workers := if throttled t l then signal s.workers else s.workers,
    quota := if throttled t l then s.quota.raise t l ms else s.quota,
    counter := if seen then .exited else .loop }

/-- A step: a worker stores a record and tests the wait condition, a woken worker tests it
again, a worker returns or fails (setting `stop`), `sig_hand` sets `stop`, the counter
thread of `restore.c` reads `last_iter`, or the counter thread ticks. -/
inductive Act
  | write (w bytes : Nat)
  | recheck (w : Nat)
  | finish (w : Nat)
  | fail (w : Nat)
  | interrupt
  | readStop
  | tick (ms : Nat)
deriving DecidableEq, Repr

/-- One step; `none` when the thread is not where the step starts. `backup.c` reads `stop`
under the lock after its signal, `restore.c` before it, at the top of the loop. -/
def step (s : Sys) : Act → Option Sys
  | .write w bytes =>
    if s.workers[w]? = some .io then
      let s := { s with quota := s.quota.use bytes }
      some { s with workers := s.workers.set w (waitCheck t l s) }
    else none
  | .recheck w =>
    if s.workers[w]? = some .woken then
      some { s with workers := s.workers.set w (waitCheck t l s) }
    else none
  | .finish w =>
    if s.workers[w]? = some .io then some { s with workers := s.workers.set w .done } else none
  | .fail w =>
    if s.workers[w]? = some .io then
      some { s with workers := s.workers.set w .done, stop := true }
    else none
  | .interrupt => some { s with stop := true }
  | .readStop =>
    match t, s.counter with
    | .restore, .loop => some { s with counter := .lastIter s.stop }
    | _, _ => none
  | .tick ms =>
    match t, s.counter with
    | .backup, .loop => some (counterTick t l ms s.stop s)
    | .restore, .lastIter seen => some (counterTick t l ms seen s)
    | _, _ => none

/-- The steps of a schedule in order. -/
def run : Sys → List Act → Option Sys
  | s, [] => some s
  | s, a :: acts => (step t l s a).bind (run · acts)

/-- The states `n` workers and the counter thread reach. -/
inductive Reachable (n : Nat) : Sys → Prop
  | init : Reachable n (Sys.init l n)
  | step {s s' : Sys} {a : Act} : Reachable n s → step t l s a = some s' → Reachable n s'

end Step

variable {t : Tool} {l : Limits}

theorem run_reachable {n : Nat} :
    ∀ {acts : List Act} {s s' : Sys}, Reachable t l n s → run t l s acts = some s' →
      Reachable t l n s'
  | [], _, _, hs, h => Option.some.inj h ▸ hs
  | a :: acts, s, _, hs, h => by
    cases ha : step t l s a with
    | none => simp [run, ha] at h
    | some s₁ =>
      simp only [run, ha, Option.some_bind] at h
      exact run_reachable (.step hs ha) h

/-! ### No waiter outlives the counter thread -/

/-- What every reachable state keeps: a worker waits only while the throttle is on, the
counter thread of `restore.c` that read `stop` set reads it set still, and once the counter
thread has returned `stop` is set and no worker waits. -/
structure WakeInv (t : Tool) (l : Limits) (s : Sys) : Prop where
  unthrottled : throttled t l = false → WorkerAt.waiting ∉ s.workers
  last_iter : s.counter = .lastIter true → s.stop = true
  exited : s.counter = .exited → s.stop = true ∧ WorkerAt.waiting ∉ s.workers

theorem waitCheck_waiting {s : Sys} (h : waitCheck t l s = .waiting) :
    throttled t l = true ∧ s.stop = false := by
  unfold waitCheck at h
  split at h
  · next hc =>
    simp only [Bool.and_eq_true, Bool.not_eq_true'] at hc
    exact ⟨hc.1.1, hc.2⟩
  · cases h

theorem waiting_not_mem_signal (ws : List WorkerAt) : WorkerAt.waiting ∉ signal ws := by
  simp only [signal, List.mem_map, not_exists, not_and]
  intro x _
  split <;> simp_all

section Wake

variable {s s' : Sys}

theorem WakeInv.set {w : Nat} {v : WorkerAt} (hi : WakeInv t l s)
    (hth : s'.workers = s.workers.set w v) (hc : s'.counter = s.counter)
    (hs : s.stop = true → s'.stop = true)
    (hv : v = .waiting → throttled t l = true ∧ s.stop = false) : WakeInv t l s' := by
  have hmem : WorkerAt.waiting ∈ s'.workers →
      WorkerAt.waiting ∈ s.workers ∨ (throttled t l = true ∧ s.stop = false) := fun h => by
    rw [hth] at h
    exact (List.mem_or_eq_of_mem_set h).imp_right fun he => hv he.symm
  refine ⟨fun ht h => ?_, fun h => hs (hi.last_iter (hc ▸ h)), fun h => ?_⟩
  · rcases hmem h with h | h
    · exact hi.unthrottled ht h
    · simp [h.1] at ht
  · obtain ⟨hstop, hw⟩ := hi.exited (hc ▸ h)
    refine ⟨hs hstop, fun h => ?_⟩
    rcases hmem h with h | h
    · exact hw h
    · simp [h.2] at hstop

/-- After a tick no worker waits: the signal woke every waiter, or the throttle is off. -/
theorem WakeInv.tick {ms : Nat} {seen : Bool} (hi : WakeInv t l s)
    (hseen : seen = true → s.stop = true) : WakeInv t l (counterTick t l ms seen s) := by
  have hw : WorkerAt.waiting ∉ (counterTick t l ms seen s).workers := by
    unfold counterTick
    split
    · exact waiting_not_mem_signal _
    · next ht => exact hi.unthrottled (by simpa using ht)
  refine ⟨fun _ => hw, fun h => ?_, fun h => ⟨?_, hw⟩⟩ <;> cases seen
  · simp [counterTick] at h
  · exact hseen rfl
  · simp [counterTick] at h
  · exact hseen rfl

theorem WakeInv.next {a : Act} (hi : WakeInv t l s) (h : step t l s a = some s') :
    WakeInv t l s' := by
  cases a with
  | write w _ | recheck w =>
    simp only [step] at h
    split at h
    · cases h; exact hi.set rfl rfl id waitCheck_waiting
    · cases h
  | finish w | fail w =>
    simp only [step] at h
    split at h
    · cases h; exact hi.set rfl rfl (by simp) (by simp)
    · cases h
  | interrupt =>
    cases h
    exact ⟨hi.unthrottled, fun _ => rfl, fun h => ⟨rfl, (hi.exited h).2⟩⟩
  | readStop =>
    cases t <;> cases hc : s.counter <;> simp [step, hc] at h
    subst h
    exact ⟨hi.unthrottled, CounterAt.lastIter.inj, by simp⟩
  | tick =>
    cases t <;> cases hc : s.counter <;> simp only [step, hc, reduceCtorEq] at h <;>
      obtain rfl := Option.some.inj h
    · exact hi.tick id
    · exact hi.tick fun h => hi.last_iter (by rw [hc, h])

end Wake

theorem WakeInv.of_reachable {n : Nat} {s : Sys} (h : Reachable t l n s) : WakeInv t l s := by
  induction h with
  | init => exact ⟨by simp [Sys.init], by simp [Sys.init], by simp [Sys.init]⟩
  | step _ hs ih => exact ih.next hs

/-- In both pipelines, for any number of workers and under every schedule of the workers,
the counter thread and the events that set `stop`, the counter thread never returns while a
worker waits: its last tick comes after it saw `stop` and wakes every waiter, and with `stop`
set no wait starts. -/
theorem stop_never_strands_waiter {n : Nat} {s : Sys} (h : Reachable t l n s)
    (hc : s.counter = .exited) : WorkerAt.waiting ∉ s.workers :=
  ((WakeInv.of_reachable h).exited hc).2

/-- Two workers each store a record that spends the quota and wait, `stop` is set, and the
counter thread ticks once (`restore.c` reads `last_iter` first). -/
def waitStopActs (t : Tool) (l : Limits) : List Act :=
  [.write 0 l.bandwidth, .write 1 0, .interrupt] ++
    (if t = .restore then [.readStop] else []) ++ [.tick 1000]

theorem two_waiters_woken_at_stop : ∃ s,
    run .restore ⟨1, 1⟩ (Sys.init ⟨1, 1⟩ 2) (waitStopActs .restore ⟨1, 1⟩) = some s ∧
      s.counter = .exited ∧ WorkerAt.waiting ∉ s.workers :=
  (fun (hr : _ = _) (hc : _ = _) =>
    ⟨_, hr, hc, stop_never_strands_waiter (run_reachable .init hr) hc⟩)
    rfl rfl

/-! ### The grant of a tick -/

/-- What a tick of `ms` milliseconds owes a limit of `rate` a second, `rate * ms / 1000`: the
law of a quota that grows at the configured rate over the time that elapsed. The source has
no such function; it is the law the code is compared with. -/
def elapsedGrant (rate ms : Nat) : Nat := rate * ms / 1000

/-- `-N 1`, a mebibyte a second (and for `restore` one record a second), and a first tick that
measured two seconds: the byte limit gains a quarter of the two mebibytes the time is worth,
and the record limit nothing of its two records. -/
theorem two_second_tick_underpays :
    (∃ s, run .backup ⟨1048576, 1⟩ (Sys.init ⟨1048576, 1⟩ 1) [.tick 2000] = some s ∧
      s.quota.bytesLimit = 1048576 + 524288 ∧
      s.quota.bytesLimit ≠ 1048576 + elapsedGrant 1048576 2000) ∧
    (∃ s, run .restore ⟨1048576, 1⟩ (Sys.init ⟨1048576, 1⟩ 1) [.readStop, .tick 2000] = some s ∧
      s.quota.bytesLimit = 1048576 + 524288 ∧ s.quota.recordsLimit = 1 ∧
      s.quota.recordsLimit ≠ 1 + elapsedGrant 1 2000) :=
  ⟨⟨_, rfl, rfl, by decide⟩, ⟨_, rfl, rfl, rfl, by decide⟩⟩

end CdtValidation.Throttle
