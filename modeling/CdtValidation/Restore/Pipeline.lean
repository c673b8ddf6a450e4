import CdtValidation.Restore.Retry
import Mathlib.Data.List.Nodup

/-! The correction threads of `restore.c`, the counter thread and `main`, with every read or
write of `stop`, the job queue and the counters a step of its own in any interleaving. The
throttle wait is modelled in `CdtValidation.Throttle`; it only delays a thread. -/

namespace CdtValidation.Restore

/-- What `decoder->parse` returns: a record (whether it expired, its number of bins and its
set), the end of the file, or an error. -/
inductive Decoded where
  | record (expired : Bool) (bins : Nat) (set : List Char)
  | eof
  | error
deriving DecidableEq, Repr

/-- `check_set`: an empty set list admits every set. -/
def checkSet (set : List Char) (setVec : List (List Char)) : Bool :=
  setVec.isEmpty || setVec.contains set

/-- The fields of `restore_config` the correction threads read, with `MAX_TRIES` and
`INITIAL_BACKOFF`. `inputFile` is `input_file != NULL`: every job reads one shared file. -/
structure RestoreConf where
  maxTries : Nat
  initialBackoff : Nat
  inputFile : Bool
  cdtPrint : Bool
  ignoreRecError : Bool
  setVec : List (List Char)

/-- All counters zero, as `main` starts them. -/
def RestoreCounters.zero : RestoreCounters := ⟨0, 0, 0, 0, 0, 0, 0, 0⟩

/-- The six outcomes a `SUMMARY` line splits `total_records` into. -/
def RestoreCounters.outcomes (c : RestoreCounters) : Nat :=
  c.expiredRecords + c.skippedRecords + c.ignoredRecords + c.insertedRecords +
    c.existedRecords + c.fresherRecords

/-- The state the correction threads share: the job queue, `stop`, the counters, and the
jobs whose decoder returned `DECODER_EOF`, in order. -/
structure Shared where
  queue : List Nat
  stop : Bool
  conf : RestoreCounters
  eofs : List Nat
deriving DecidableEq, Repr

/-- The loop of `cdt_print_rec`, `fuel` rounds from index `i`, which tests the bin count and
not `i`: `some (.error i)` is a read of `entries[i]` past the array, `some (.ok ())` the loop
left, and `none` a loop still running. -/
def cdtPrintRec (size : Nat) : Nat → Nat → Option (Except Nat Unit)
  | 0, _ => none
  | fuel + 1, i =>
    if size = 0 then some (.ok ())
    else if i < size then cdtPrintRec size fuel ((i + 1) % 2 ^ 16)
    else some (.error i)

theorem cdtPrintRec_from {size : Nat} (hs : 0 < size) (hlt : size < 2 ^ 16) :
    ∀ fuel i, i ≤ size → size - i < fuel → cdtPrintRec size fuel i = some (.error size)
  | 0, _, _, hf => absurd hf (Nat.not_lt_zero _)
  | fuel + 1, i, hi, hf => by
    rw [cdtPrintRec, if_neg (Nat.pos_iff_ne_zero.1 hs)]
    split
    · rw [Nat.mod_eq_of_lt (by omega)]
      exact cdtPrintRec_from hs hlt fuel (i + 1) (by omega) (by omega)
    · rw [show i = size by omega]

/-- `cdt_print_rec` never leaves its loop on a record with a bin: it reads each of the
`bins.size` entries and then `entries[bins.size]`, past the end of the array. The count is a
`uint16_t`, so the index reaches it before it wraps. -/
theorem cdtPrintRec_reads_past_bins {size fuel : Nat} (hs : 0 < size) (hlt : size < 2 ^ 16)
    (hf : size < fuel) : cdtPrintRec size fuel 0 = some (.error size) :=
  cdtPrintRec_from hs hlt fuel 0 (Nat.zero_le _) (by omega)

theorem cdtPrintRec_one_bin : 0 < 1 ∧ 1 < 2 ^ 16 ∧ 1 < 2 ∧ cdtPrintRec 1 2 0 = some (.error 1) :=
  ⟨by decide, by decide, by decide, cdtPrintRec_reads_past_bins (by decide) (by decide) (by decide)⟩

/-- Where a correction thread is, with the job it holds. `printing` is inside
`cdt_print_rec` on a record with a bin, whose loop runs past the bins and never returns. -/
inductive Worker where
  | top
  | pop
  | opening (job : Nat)
  | innerTop (job : Nat)
  | reading (job : Nat)
  | printing (job : Nat)
  | writing (job : Nat) (w : WriteLoop)
  | putting (job : Nat) (w : WriteLoop)
  | counting (job : Nat)
  | closing (job : Nat)
  | returned (ok : Bool)
deriving DecidableEq, Repr

/-- A step of a correction thread: the `stop` check of the job loop, `cf_queue_pop`,
`open_file`, the `stop` check of the record loop, `decoder->parse`, the test of the write
loop, `aerospike_key_put`, `total_records++`, `close_file`. -/
inductive WAct where
  | top
  | pop
  | openFile (ok : Bool)
  | check
  | parse (d : Decoded)
  | test
  | put (r : AsStatus)
  | count
  | closeFile (ok : Bool)
deriving DecidableEq, Repr

/-- The steps that call `open_file`, `decoder->parse` or `aerospike_key_put`. -/
def WAct.io : WAct → Bool
  | .openFile _ | .parse _ | .put _ => true
  | _ => false

namespace Worker

/-- The job a thread holds. -/
def job : Worker → Option Nat
  | .opening j | .innerTop j | .reading j | .printing j | .writing j _ | .putting j _
  | .counting j | .closing j => some j
  | _ => none

/-- Whether the thread can still return `EXIT_SUCCESS` once `stop` is set: from
`cf_queue_pop`, which may find the queue empty, or having returned it. -/
def mayReturnOk : Worker → Bool
  | .pop => true
  | .returned ok => ok
  | _ => false

def isReturned : Worker → Bool
  | .returned _ => true
  | _ => false

/-- A record already counted in an outcome counter, or lost, and not yet in
`total_records`. -/
def isCounting : Worker → Bool
  | .counting _ => true
  | _ => false

/-- The calls of `open_file`, `decoder->parse` or `aerospike_key_put` a thread can still
make once `stop` is set. -/
def ioBudget : Worker → Nat
  | .pop | .opening _ | .reading _ | .putting _ _ => 1
  | _ => 0

end Worker

section Threads

variable (k : RestoreConf)

/-- The `DECODER_RECORD` branch: `cdt_print_rec`, `expired_records`, `skipped_records` (no
bins, or a set `check_set` rejects), or the write loop at its first test. -/
def onRecord (sh : Shared) (j : Nat) (expired : Bool) (bins : Nat) (set : List Char) :
    Worker × Shared :=
  if k.cdtPrint then (if bins = 0 then .counting j else .printing j, sh)
  else if expired then
    (.counting j, { sh with conf := { sh.conf with expiredRecords := sh.conf.expiredRecords + 1 } })
  else if bins = 0 ∨ checkSet set k.setVec = false then
    (.counting j, { sh with conf := { sh.conf with skippedRecords := sh.conf.skippedRecords + 1 } })
  else (.writing j ⟨0, 0, k.initialBackoff * 1000 % 2 ^ 32, false, sh.conf, []⟩, sh)

/-- One step of `restore_thread_func` at `x`; `none` when `a` is not the step `x` takes. A
thread that leaves its job loop with `EXIT_FAILURE` sets `stop`. -/
def restoreThreadStep (sh : Shared) : Worker → WAct → Option (Worker × Shared)
  | .top, .top => some (if sh.stop then (.returned false, sh) else (.pop, sh))
  | .pop, .pop =>
    some (match sh.queue with
      | [] => (.returned true, sh)
      | j :: q => (.opening j, { sh with queue := q }))
  | .opening j, .openFile ok =>
    some (if k.inputFile = false ∧ ok = false then (.returned false, { sh with stop := true })
      else (.innerTop j, sh))
  | .innerTop j, .check => some (if sh.stop then (.closing j, sh) else (.reading j, sh))
  | .reading j, .parse d =>
    some (match d with
      | .record expired bins set => onRecord k sh j expired bins set
      | .eof => (.closing j, { sh with eofs := sh.eofs ++ [j] })
      | .error => (.closing j, { sh with stop := true }))
  | .writing j w, .test =>
    some (if w.tries < k.maxTries ∧ sh.stop = false then (.putting j w, sh)
      else (.counting j, sh))
  | .putting j w, .put r =>
    let b := writeBody k.maxTries k.initialBackoff k.ignoreRecError r { w with conf := sh.conf }
    some (if b.2 then .writing j { b.1 with tries := w.tries + 1 } else .counting j,
      { sh with conf := b.1.conf, stop := sh.stop || b.1.stop })
  | .counting j, .count =>
    some (.innerTop j,
      { sh with conf := { sh.conf with totalRecords := sh.conf.totalRecords + 1 } })
  | .closing _, .closeFile ok =>
    some (if k.inputFile = false ∧ ok = false then (.returned false, { sh with stop := true })
      else (.top, sh))
  | _, _ => none

end Threads

/-- The counter thread: at the top of its loop, loading one iteration's counters
(`lastIter` is the `stop` it read after `sleep(1)`, `vals` the counters loaded so far), or
returned. -/
inductive CounterThread where
  | loop
  | reads (lastIter : Bool) (vals : List Nat)
  | exited
deriving DecidableEq, Repr

/-- The counters of a `SUMMARY` line in the order the counter thread loads them:
`now_records`, then `expired_records`, `skipped_records`, `ignored_records`,
`inserted_records`, `existed_records`, `fresher_records`. -/
def summaryFields (c : RestoreCounters) : List Nat :=
  [c.totalRecords, c.expiredRecords, c.skippedRecords, c.ignoredRecords, c.insertedRecords,
    c.existedRecords, c.fresherRecords]

/-- The correction threads, the counter thread, the `SUMMARY` line once written, and
whether `main` has set `stop` after joining the correction threads. -/
structure Pipeline where
  sh : Shared
  workers : List Worker
  counter : CounterThread
  summary : Option (List Nat)
  mainStopped : Bool
deriving DecidableEq, Repr

/-- After `main` has queued the jobs and created `n` correction threads. -/
def Pipeline.init (jobs : List Nat) (n : Nat) : Pipeline :=
  ⟨⟨jobs, false, .zero, []⟩, List.replicate n .top, .loop, none, false⟩

/-- A step: one of correction thread `w`, the counter thread's `sleep(1)` and
`last_iter = stop`, one of its loads, `sig_hand`, or `main` setting `stop` once every
correction thread is joined. -/
inductive Act where
  | worker (w : Nat) (a : WAct)
  | tick
  | load
  | interrupt
  | mainStop
deriving DecidableEq, Repr

section System

variable (k : RestoreConf)

/-- One step; `none` when the thread is not where the step starts. The counter thread's
last load ends its iteration: it writes the `SUMMARY` line and returns if `last_iter`. -/
def step (s : Pipeline) : Act → Option Pipeline
  | .worker w a =>
    match s.workers[w]? with
    | some x => (restoreThreadStep k s.sh x a).map fun p =>
        { s with sh := p.2, workers := s.workers.set w p.1 }
    | none => none
  | .tick =>
    match s.counter with
    | .loop => some { s with counter := .reads s.sh.stop [] }
    | _ => none
  | .load =>
    match s.counter with
    | .reads lastIter vals =>
      (summaryFields s.sh.conf)[vals.length]?.map fun v =>
        if vals.length + 1 < (summaryFields s.sh.conf).length then
          { s with counter := .reads lastIter (vals ++ [v]) }
        else if lastIter then { s with counter := .exited, summary := some (vals ++ [v]) }
        else { s with counter := .loop }
    | _ => none
  | .interrupt => some { s with sh := { s.sh with stop := true } }
  | .mainStop =>
    if s.workers.all Worker.isReturned ∧ s.mainStopped = false then
      some { s with sh := { s.sh with stop := true }, mainStopped := true }
    else none

/-- The steps of a schedule in order. -/
def run : Pipeline → List Act → Option Pipeline
  | s, [] => some s
  | s, a :: l => (step k s a).bind (run · l)

/-- The states a run of `main` reaches once it has created `n` correction threads for
`jobs`. -/
inductive Reachable (jobs : List Nat) (n : Nat) : Pipeline → Prop
  | init : Reachable jobs n (Pipeline.init jobs n)
  | step {s s' : Pipeline} {a : Act} : Reachable jobs n s → step k s a = some s' →
      Reachable jobs n s'

/-- The exit status of `main` once the counter thread is joined (`none` before): a failure
if a correction thread returned `EXIT_FAILURE` or the shared file's `close_file` failed
(`closeOk`). -/
def mainExit (closeOk : Bool) (s : Pipeline) : Option Bool :=
  if s.mainStopped ∧ s.counter = .exited then
    some (s.workers.all (fun x => x = .returned true) && (!k.inputFile || closeOk))
  else none

theorem run_reachable {jobs : List Nat} {n : Nat} :
    ∀ {acts : List Act} {s s' : Pipeline}, Reachable k jobs n s → run k s acts = some s' →
      Reachable k jobs n s'
  | [], _, _, hs, h => by cases h; exact hs
  | a :: acts, s, s', hs, h => by
    cases ha : step k s a with
    | none => simp [run, ha] at h
    | some t =>
      simp only [run, ha, Option.some_bind] at h
      exact run_reachable (hs.step ha) h

end System


/-! ### One step of a correction thread -/

section Step

variable {maxTries initialBackoff : Nat} {ignore : Bool}

/-- One attempt moves at most one outcome, and never `total_records`. -/
theorem writeBody_outcomes {r : AsStatus} {w w' : WriteLoop} {retry : Bool}
    (h : writeBody maxTries initialBackoff ignore r w = (w', retry)) :
    w'.conf.totalRecords = w.conf.totalRecords ∧
      (retry = true → w'.conf.outcomes = w.conf.outcomes ∧ w'.stop = w.stop ∧
        w.tries ≠ maxTries - 1) ∧
      (retry = false → w'.conf.outcomes = w.conf.outcomes + 1 ∨
        (w'.conf.outcomes = w.conf.outcomes ∧ w'.stop = true)) := by
  cases hr : r.retried
  · rw [writeBody_done hr, Prod.mk.injEq] at h
    obtain ⟨rfl, rfl⟩ := h
    refine ⟨rfl, nofun, fun _ => ?_⟩
    cases r <;> simp only [AsStatus.retried, AsStatus.fatal, AsStatus.recordSpecific,
      RestoreCounters.outcomes, reduceCtorEq, ↓reduceIte, Bool.or_true, Bool.or_false,
      Bool.false_and, Bool.true_and, Nat.add_zero, and_true, or_true] at hr ⊢ <;> omega
  · by_cases ht : w.tries = maxTries - 1
    · rw [writeBody_last hr ht, Prod.mk.injEq] at h
      obtain ⟨rfl, rfl⟩ := h
      simp
    · rw [writeBody_retry hr ht, Prod.mk.injEq] at h
      obtain ⟨rfl, rfl⟩ := h
      simp [RestoreCounters.outcomes, ht]

end Step

variable {k : RestoreConf} {sh sh' : Shared} {x x' : Worker} {a : WAct}

/-- The branches of `restoreThreadStep`, one constructor each, with what they leave. -/
inductive WorkerStep (k : RestoreConf) (sh : Shared) : Worker → WAct → Worker → Shared → Prop
  | stopped : sh.stop = true → WorkerStep k sh .top .top (.returned false) sh
  | top : sh.stop = false → WorkerStep k sh .top .top .pop sh
  | drained : sh.queue = [] → WorkerStep k sh .pop .pop (.returned true) sh
  | pop {j : Nat} {q : List Nat} : sh.queue = j :: q →
      WorkerStep k sh .pop .pop (.opening j) { sh with queue := q }
  | openFailed {j : Nat} {ok : Bool} : k.inputFile = false ∧ ok = false →
      WorkerStep k sh (.opening j) (.openFile ok) (.returned false) { sh with stop := true }
  | opened {j : Nat} {ok : Bool} : ¬(k.inputFile = false ∧ ok = false) →
      WorkerStep k sh (.opening j) (.openFile ok) (.innerTop j) sh
  | interrupted {j : Nat} : sh.stop = true → WorkerStep k sh (.innerTop j) .check (.closing j) sh
  | check {j : Nat} : sh.stop = false → WorkerStep k sh (.innerTop j) .check (.reading j) sh
  | record {j : Nat} {expired : Bool} {bins : Nat} {set : List Char} {x' : Worker} {sh' : Shared} :
      onRecord k sh j expired bins set = (x', sh') →
      WorkerStep k sh (.reading j) (.parse (.record expired bins set)) x' sh'
  | eof {j : Nat} :
      WorkerStep k sh (.reading j) (.parse .eof) (.closing j) { sh with eofs := sh.eofs ++ [j] }
  | error {j : Nat} : WorkerStep k sh (.reading j) (.parse .error) (.closing j) { sh with stop := true }
  | test {j : Nat} {w : WriteLoop} : w.tries < k.maxTries ∧ sh.stop = false →
      WorkerStep k sh (.writing j w) .test (.putting j w) sh
  | testEnd {j : Nat} {w : WriteLoop} : ¬(w.tries < k.maxTries ∧ sh.stop = false) →
      WorkerStep k sh (.writing j w) .test (.counting j) sh
  | retry {j : Nat} {w w' : WriteLoop} {r : AsStatus} :
      writeBody k.maxTries k.initialBackoff k.ignoreRecError r { w with conf := sh.conf } =
        (w', true) →
      WorkerStep k sh (.putting j w) (.put r) (.writing j { w' with tries := w.tries + 1 })
        { sh with conf := w'.conf, stop := sh.stop || w'.stop }
  | put {j : Nat} {w w' : WriteLoop} {r : AsStatus} :
      writeBody k.maxTries k.initialBackoff k.ignoreRecError r { w with conf := sh.conf } =
        (w', false) →
      WorkerStep k sh (.putting j w) (.put r) (.counting j)
        { sh with conf := w'.conf, stop := sh.stop || w'.stop }
  | count {j : Nat} : WorkerStep k sh (.counting j) .count (.innerTop j)
      { sh with conf := { sh.conf with totalRecords := sh.conf.totalRecords + 1 } }
  | closeFailed {j : Nat} {ok : Bool} : k.inputFile = false ∧ ok = false →
      WorkerStep k sh (.closing j) (.closeFile ok) (.returned false) { sh with stop := true }
  | closed {j : Nat} {ok : Bool} : ¬(k.inputFile = false ∧ ok = false) →
      WorkerStep k sh (.closing j) (.closeFile ok) .top sh

/-- Every step `restoreThreadStep` takes is one of the branches of `WorkerStep`. -/
theorem restoreThreadStep_spec (h : restoreThreadStep k sh x a = some (x', sh')) :
    WorkerStep k sh x a x' sh' := by
  unfold restoreThreadStep at h
  split at h <;> simp only [Option.some.injEq, reduceCtorEq] at h
  · split at h <;> cases h
    · exact .stopped ‹_›
    · exact .top (Bool.eq_false_iff.2 ‹_›)
  · split at h <;> cases h
    · exact .drained ‹_›
    · exact .pop ‹_›
  · split at h <;> cases h
    · exact .openFailed ‹_›
    · exact .opened ‹_›
  · split at h <;> cases h
    · exact .interrupted ‹_›
    · exact .check (Bool.eq_false_iff.2 ‹_›)
  · split at h
    · exact .record h
    · cases h
      exact .eof
    · cases h
      exact .error
  · split at h <;> cases h
    · exact .test ‹_›
    · exact .testEnd ‹_›
  · generalize hb : writeBody k.maxTries k.initialBackoff k.ignoreRecError _ _ = b at h
    obtain ⟨w', retry⟩ := b
    cases retry <;> cases h
    · exact .put hb
    · exact .retry hb
  · cases h
    exact .count
  · split at h <;> cases h
    · exact .closeFailed ‹_›
    · exact .closed ‹_›

/-- What one step of a correction thread does to the shared state and to the thread. -/
structure StepFacts (k : RestoreConf) (sh : Shared) (x : Worker) (a : WAct) (x' : Worker)
    (sh' : Shared) : Prop where
  stop_mono : sh.stop = true → sh'.stop = true
  queue : sh'.queue = sh.queue ∨ ∃ j, sh.queue = j :: sh'.queue ∧ x' = .opening j
  eofs : ∀ j ∈ sh.eofs, j ∈ sh'.eofs
  stays_failing : sh.stop = true → x.mayReturnOk = false → x'.mayReturnOk = false
  conf_of_ok : x'.mayReturnOk = true → sh'.conf = sh.conf
  returned_ok : x' = .returned true → sh'.queue = []
  budget : sh.stop = true → x'.ioBudget + (if a.io then 1 else 0) ≤ x.ioBudget
  closing : ∀ j, x' = .closing j → j ∈ sh'.eofs ∨ sh'.stop = true
  job : ∀ j, x.job = some j → x'.job = some j ∨ j ∈ sh'.eofs ∨
    (x = .closing j ∧ x'.mayReturnOk = false) ∨ (sh'.stop = true ∧ x'.mayReturnOk = false)
  tries : 0 < k.maxTries → (∀ j w, x = .putting j w → w.tries < k.maxTries) →
    ∀ j w, x' = .writing j w ∨ x' = .putting j w → w.tries < k.maxTries
  outcomes : k.cdtPrint = false → (∀ j w, x = .writing j w → w.tries < k.maxTries) →
    sh'.conf.outcomes + sh.conf.totalRecords + (if x.isCounting then 1 else 0) ≤
      sh.conf.outcomes + sh'.conf.totalRecords + (if x'.isCounting then 1 else 0) ∧
    (sh'.conf.outcomes + sh.conf.totalRecords + (if x.isCounting then 1 else 0) <
        sh.conf.outcomes + sh'.conf.totalRecords + (if x'.isCounting then 1 else 0) →
      sh'.stop = true ∧ x'.mayReturnOk = false)

theorem onRecord_facts {j : Nat} {expired : Bool} {bins : Nat} {set : List Char}
    (h : onRecord k sh j expired bins set = (x', sh')) :
    StepFacts k sh (.reading j) (.parse (.record expired bins set)) x' sh' := by
  unfold onRecord at h
  split_ifs at h <;> cases h <;>
    constructor <;> simp [Worker.mayReturnOk, Worker.ioBudget, Worker.job, Worker.isCounting,
      WAct.io, RestoreCounters.outcomes, *] <;> omega

theorem WorkerStep.facts (h : WorkerStep k sh x a x' sh') : StepFacts k sh x a x' sh' := by
  cases h with
  | record ho => exact onRecord_facts ho
  | retry hb =>
    obtain ⟨h1, h2, -⟩ := writeBody_outcomes hb
    obtain ⟨h2, -, h4⟩ := h2 rfl
    clear hb
    constructor <;> simp_all [Worker.mayReturnOk, Worker.ioBudget, Worker.job, Worker.isCounting,
      WAct.io]
    omega
  | put hb =>
    obtain ⟨h1, -, h3⟩ := writeBody_outcomes hb
    clear hb
    rcases h3 rfl with h3 | ⟨h3, h4⟩ <;> constructor <;> simp_all [Worker.mayReturnOk,
      Worker.ioBudget, Worker.job, Worker.isCounting, WAct.io]
    omega
  | _ => constructor <;> simp_all [Worker.mayReturnOk, Worker.ioBudget, Worker.job,
    Worker.isCounting, WAct.io, RestoreCounters.outcomes, Nat.add_assoc]

theorem restoreThreadStep_facts (h : restoreThreadStep k sh x a = some (x', sh')) :
    StepFacts k sh x a x' sh' :=
  (restoreThreadStep_spec h).facts


/-! ### The pipeline -/

/-- `stop` is set and some correction thread will return `EXIT_FAILURE`: it is neither at
`cf_queue_pop` nor returned `EXIT_SUCCESS`. -/
def Pipeline.Failing (s : Pipeline) : Prop :=
  s.sh.stop = true ∧ ∃ (w : Nat) (x : Worker), s.workers[w]? = some x ∧ x.mayReturnOk = false

/-- The steps of thread `w` that call `open_file`, `decoder->parse` or `aerospike_key_put`. -/
def Act.ioOf (w : Nat) : Act → Bool
  | .worker v a => v == w && a.io
  | _ => false

section Run

variable {s s' : Pipeline}

theorem step_worker {w : Nat} (h : step k s (.worker w a) = some s') :
    ∃ x x' sh', s.workers[w]? = some x ∧ restoreThreadStep k s.sh x a = some (x', sh') ∧
      s' = { s with sh := sh', workers := s.workers.set w x' } := by
  simp only [step] at h
  split at h
  · next x hx =>
    obtain ⟨⟨x', sh'⟩, hp, rfl⟩ := Option.map_eq_some'.mp h
    exact ⟨x, x', sh', hx, hp, rfl⟩
  · cases h

theorem step_other {b : Act} (hb : ∀ w a, b ≠ .worker w a) (h : step k s b = some s') :
    s'.workers = s.workers ∧ s'.sh.queue = s.sh.queue ∧ s'.sh.eofs = s.sh.eofs ∧
      s'.sh.conf = s.sh.conf ∧ (s.sh.stop = true → s'.sh.stop = true) := by
  cases b with
  | worker w a => exact absurd rfl (hb w a)
  | tick => simp only [step] at h; split at h <;> cases h; exact ⟨rfl, rfl, rfl, rfl, id⟩
  | load =>
    simp only [step] at h
    split at h
    · obtain ⟨v, -, rfl⟩ := Option.map_eq_some'.mp h
      split_ifs <;> simp
    · cases h
  | interrupt => cases h; simp
  | mainStop => simp only [step] at h; split_ifs at h; cases h; simp

theorem getElem?_set_of_ne {l : List Worker} {w v : Nat} {x' : Worker} (h : v ≠ w) :
    (l.set w x')[v]? = l[v]? := List.getElem?_set_ne (Ne.symm h)

theorem getElem?_set_cases {l : List Worker} {w v : Nat} {x' y : Worker}
    (h : (l.set w x')[v]? = some y) : (v = w ∧ y = x') ∨ (v ≠ w ∧ l[v]? = some y) := by
  rw [List.getElem?_set] at h
  split_ifs at h with h1
  · exact .inl ⟨h1.symm, (Option.some.inj h).symm⟩
  · exact .inr ⟨Ne.symm h1, h⟩

theorem Pipeline.Failing.step {b : Act} (hf : s.Failing) (h : step k s b = some s') : s'.Failing := by
  obtain ⟨hs, v, y, hv, hy⟩ := hf
  by_cases hb : ∃ w a, b = .worker w a
  · obtain ⟨w, a, rfl⟩ := hb
    obtain ⟨x, x', sh', hx, hp, rfl⟩ := step_worker h
    have hfa := restoreThreadStep_facts hp
    refine ⟨hfa.stop_mono hs, ?_⟩
    by_cases hvw : v = w
    · subst hvw
      rw [hx, Option.some.injEq] at hv
      subst hv
      exact ⟨v, x', List.getElem?_set_self (List.getElem?_eq_some_iff.mp hx).1,
        hfa.stays_failing hs hy⟩
    · exact ⟨v, y, by rw [getElem?_set_of_ne hvw, hv], hy⟩
  · push_neg at hb
    obtain ⟨hw, -, -, -, hstop⟩ := step_other hb h
    exact ⟨hstop hs, v, y, by rw [hw, hv], hy⟩

theorem Reachable.length {jobs : List Nat} {n : Nat} (h : Reachable k jobs n s) :
    s.workers.length = n := by
  induction h with
  | init => simp [Pipeline.init]
  | step _ hs ih =>
    rename_i b _
    by_cases hb : ∃ w a, b = .worker w a
    · obtain ⟨w, a, rfl⟩ := hb
      obtain ⟨x, x', sh', -, -, rfl⟩ := step_worker hs
      simpa using ih
    · push_neg at hb
      rw [(step_other hb hs).1, ih]

end Run

/-! ### Every job is read to its end before `main` succeeds -/

/-- A job is still queued, read to `DECODER_EOF`, held by a thread, or some thread will
fail; a thread closing its file has read it to the end or seen `stop`; a thread returns
`EXIT_SUCCESS` only on an empty queue. -/
structure JobsInv (jobs : List Nat) (s : Pipeline) : Prop where
  closing : ∀ w j : Nat, s.workers[w]? = some (.closing j) → j ∈ s.sh.eofs ∨ s.sh.stop = true
  returned : ∀ w : Nat, s.workers[w]? = some (.returned true) → s.sh.queue = []
  held : ∀ j ∈ jobs, j ∈ s.sh.queue ∨ j ∈ s.sh.eofs ∨
    (∃ (w : Nat) (x : Worker), s.workers[w]? = some x ∧ x.job = some j) ∨ s.Failing

section Jobs

variable {jobs : List Nat} {s s' : Pipeline}

theorem JobsInv.init' (n : Nat) : JobsInv jobs (Pipeline.init jobs n) := by
  refine ⟨fun w j h => ?_, fun w h => ?_, fun j hj => .inl hj⟩ <;>
    simp [Pipeline.init, List.getElem?_replicate] at h

theorem JobsInv.worker {w : Nat} (hi : JobsInv jobs s) (h : step k s (.worker w a) = some s') :
    JobsInv jobs s' := by
  obtain ⟨x, x', sh', hx, hp, rfl⟩ := step_worker h
  have hfa := restoreThreadStep_facts hp
  have hw : w < s.workers.length := (List.getElem?_eq_some_iff.mp hx).1
  refine ⟨fun v j hv => ?_, fun v hv => ?_, fun j hj => ?_⟩
  · rcases getElem?_set_cases hv with ⟨-, rfl⟩ | ⟨-, hv⟩
    · exact hfa.closing j rfl
    · rcases hi.closing v j hv with he | hs
      · exact .inl (hfa.eofs j he)
      · exact .inr (hfa.stop_mono hs)
  · rcases getElem?_set_cases hv with ⟨-, rfl⟩ | ⟨-, hv⟩
    · exact hfa.returned_ok rfl
    · rcases hfa.queue with hq | ⟨i, hq, -⟩
      · rw [hq]; exact hi.returned v hv
      · simp [hi.returned v hv] at hq
  · have hfail : ∀ y, x' = y → sh'.stop = true → y.mayReturnOk = false →
        Pipeline.Failing { s with sh := sh', workers := s.workers.set w x' } :=
      fun y hy hs hm => ⟨hs, w, y, by rw [← hy]; exact List.getElem?_set_self hw, hm⟩
    rcases hi.held j hj with hq | he | ⟨v, y, hv, hy⟩ | hf
    · rcases hfa.queue with hq' | ⟨i, hq', hx'⟩
      · exact .inl (hq' ▸ hq)
      · rw [hq', List.mem_cons] at hq
        rcases hq with rfl | hq
        · exact .inr (.inr (.inl ⟨w, x', List.getElem?_set_self hw, by rw [hx']; rfl⟩))
        · exact .inl hq
    · exact .inr (.inl (hfa.eofs j he))
    · by_cases hvw : v = w
      · subst hvw
        rw [hx, Option.some.injEq] at hv
        subst hv
        rcases hfa.job j hy with hj' | he | ⟨rfl, hm⟩ | ⟨hs, hm⟩
        · exact .inr (.inr (.inl ⟨v, x', List.getElem?_set_self hw, hj'⟩))
        · exact .inr (.inl he)
        · rcases hi.closing v j hx with he | hs
          · exact .inr (.inl (hfa.eofs j he))
          · exact .inr (.inr (.inr (hfail x' rfl (hfa.stop_mono hs) hm)))
        · exact .inr (.inr (.inr (hfail x' rfl hs hm)))
      · exact .inr (.inr (.inl ⟨v, y, by rw [getElem?_set_of_ne hvw, hv], hy⟩))
    · exact .inr (.inr (.inr (hf.step h)))

theorem JobsInv.next {b : Act} (hi : JobsInv jobs s) (h : step k s b = some s') :
    JobsInv jobs s' := by
  by_cases hb : ∃ w a, b = .worker w a
  · obtain ⟨w, a, rfl⟩ := hb
    exact hi.worker h
  · push_neg at hb
    obtain ⟨hw, hq, he, -, hstop⟩ := step_other hb h
    refine ⟨fun w j hv => ?_, fun w hv => ?_, fun j hj => ?_⟩
    · rw [hw] at hv; rw [he]
      exact (hi.closing w j hv).imp_right hstop
    · rw [hw] at hv; rw [hq]; exact hi.returned w hv
    · rw [hq, he, hw]
      exact (hi.held j hj).imp_right (.imp_right (.imp_right fun hf => hf.step h))

theorem JobsInv.of_reachable {n : Nat} (h : Reachable k jobs n s) : JobsInv jobs s := by
  induction h with
  | init => exact .init' n
  | step _ hs ih => exact ih.next hs

theorem mainExit_eq_some_true {closeOk : Bool} (h : mainExit k closeOk s = some true) :
    s.counter = .exited ∧ ∀ (w : Nat) (x : Worker), s.workers[w]? = some x → x = .returned true := by
  unfold mainExit at h
  split_ifs at h with hm
  simp only [Option.some.injEq, Bool.and_eq_true, List.all_eq_true, decide_eq_true_eq] at h
  exact ⟨hm.2, fun w x hw => h.1 x (List.getElem?_mem hw)⟩

/-- A run of `main` that returns `EXIT_SUCCESS` has read the file of every job to
`DECODER_EOF`: a thread that leaves a file early, on `stop`, a decoder error or a failed
`open_file`, returns `EXIT_FAILURE`, and so does `main`. -/
theorem mainExit_true_every_job_read {n : Nat} {closeOk : Bool} (hn : 0 < n)
    (hs : Reachable k jobs n s) (hx : mainExit k closeOk s = some true) :
    ∀ j ∈ jobs, j ∈ s.sh.eofs := by
  have hi := JobsInv.of_reachable hs
  have hall := (mainExit_eq_some_true hx).2
  have h0 : ∃ x, s.workers[0]? = some x :=
    Option.isSome_iff_exists.mp (by simp [hs.length, hn])
  obtain ⟨x, hx0⟩ := h0
  have hq : s.sh.queue = [] := hi.returned 0 (hall 0 x hx0 ▸ hx0)
  intro j hj
  rcases hi.held j hj with hq' | he | ⟨w, y, hw, hy⟩ | ⟨-, w, y, hw, hy⟩
  · simp [hq] at hq'
  · exact he
  · rw [hall w y hw] at hy; cases hy
  · rw [hall w y hw] at hy; cases hy

/-- Two files, one thread: both read to the end before `main` succeeds. -/
theorem two_jobs_read :
    ∃ s, run ⟨1, 0, false, false, false, []⟩ (Pipeline.init [0, 1] 1)
        [.worker 0 .top, .worker 0 .pop, .worker 0 (.openFile true), .worker 0 .check,
          .worker 0 (.parse .eof), .worker 0 (.closeFile true), .worker 0 .top, .worker 0 .pop,
          .worker 0 (.openFile true), .worker 0 .check, .worker 0 (.parse .eof),
          .worker 0 (.closeFile true), .worker 0 .top, .worker 0 .pop, .mainStop, .tick,
          .load, .load, .load, .load, .load, .load, .load] = some s ∧
      mainExit ⟨1, 0, false, false, false, []⟩ true s = some true ∧
      ∀ j ∈ [0, 1], j ∈ s.sh.eofs :=
  (fun (hr : _ = _) (hx : _ = _) => ⟨_, hr, hx,
    mainExit_true_every_job_read (by decide) (run_reachable _ .init hr) hx⟩) rfl rfl

end Jobs

/-! ### The `SUMMARY` line of a successful run adds up -/

/-- The counts of a run with `--cdt-print` off and `MAX_TRIES` positive, where an outcome
not yet in `total_records` belongs to a thread about to add it. -/
structure CountInv (k : RestoreConf) (s : Pipeline) : Prop where
  tries : ∀ (w j : Nat) (t : WriteLoop), s.workers[w]? = some (.writing j t) ∨
    s.workers[w]? = some (.putting j t) → t.tries < k.maxTries
  le : s.sh.conf.outcomes ≤ s.sh.conf.totalRecords + s.workers.countP Worker.isCounting
  lt : s.sh.conf.outcomes < s.sh.conf.totalRecords + s.workers.countP Worker.isCounting →
    s.Failing
  reads : ∀ vals, s.counter = .reads true vals → s.sh.stop = true ∧
    (s.Failing ∨ vals = (summaryFields s.sh.conf).take vals.length)
  summary : ∀ vals, s.summary = some vals → s.sh.stop = true ∧
    (s.Failing ∨ vals = summaryFields s.sh.conf)
  exited : s.counter = .exited → s.summary.isSome

section Counts

variable {s s' : Pipeline}

theorem CountInv.init' (jobs : List Nat) (n : Nat) : CountInv k (Pipeline.init jobs n) := by
  refine ⟨fun w j t h => ?_, ?_, fun h => ?_, fun vals h => ?_, fun vals h => ?_, fun h => ?_⟩ <;>
    simp_all [Pipeline.init, List.getElem?_replicate, RestoreCounters.zero,
      RestoreCounters.outcomes, Worker.isCounting, List.countP_replicate]

theorem CountInv.worker (hk : k.cdtPrint = false) (hm : 0 < k.maxTries) {w : Nat}
    (hi : CountInv k s) (h : step k s (.worker w a) = some s') : CountInv k s' := by
  obtain ⟨x, x', sh', hx, hp, rfl⟩ := step_worker h
  have hfa := restoreThreadStep_facts hp
  obtain ⟨hw, hxw⟩ := List.getElem?_eq_some_iff.mp hx
  have hcount := List.countP_set Worker.isCounting s.workers w x' hw
  have hcx := List.boole_getElem_le_countP Worker.isCounting s.workers w hw
  rw [hxw] at hcount hcx
  have hfail : sh'.stop = true → x'.mayReturnOk = false →
      Pipeline.Failing { s with sh := sh', workers := s.workers.set w x' } :=
    fun hs hm' => ⟨hs, w, x', List.getElem?_set_self hw, hm'⟩
  obtain ⟨hle, hlt⟩ := hfa.outcomes hk fun j t hxt => hi.tries w j t (.inl (hxt ▸ hx))
  have hold := hi.le
  refine ⟨fun v j t hv => ?_, by dsimp only; omega, fun hlt' => ?_, fun vals hc => ?_,
    fun vals hc => ?_, hi.exited⟩
  · rcases hv with hv | hv <;> rcases getElem?_set_cases hv with ⟨rfl, rfl⟩ | ⟨-, hv⟩
    · exact hfa.tries hm (fun j t hxt => hi.tries v j t (.inr (hxt ▸ hx))) j t (.inl rfl)
    · exact hi.tries v j t (.inl hv)
    · exact hfa.tries hm (fun j t hxt => hi.tries v j t (.inr (hxt ▸ hx))) j t (.inr rfl)
    · exact hi.tries v j t (.inr hv)
  · by_cases hstrict : s.sh.conf.outcomes < s.sh.conf.totalRecords +
        s.workers.countP Worker.isCounting
    · exact (hi.lt hstrict).step h
    · obtain ⟨hs, hm'⟩ := hlt (by dsimp only at hlt'; omega)
      exact hfail hs hm'
  · obtain ⟨hs, hv⟩ := hi.reads vals hc
    refine ⟨hfa.stop_mono hs, ?_⟩
    rcases hv with hf | hv
    · exact .inl (hf.step h)
    · cases hok : x'.mayReturnOk
      · exact .inl (hfail (hfa.stop_mono hs) hok)
      · exact .inr (by rw [hfa.conf_of_ok hok]; exact hv)
  · obtain ⟨hs, hv⟩ := hi.summary vals hc
    refine ⟨hfa.stop_mono hs, ?_⟩
    rcases hv with hf | hv
    · exact .inl (hf.step h)
    · cases hok : x'.mayReturnOk
      · exact .inl (hfail (hfa.stop_mono hs) hok)
      · exact .inr (by rw [hfa.conf_of_ok hok]; exact hv)

theorem take_append_getElem? {l vals : List Nat} {v : Nat} (hv : l[vals.length]? = some v)
    (h : vals = l.take vals.length) : vals ++ [v] = l.take (vals ++ [v]).length := by
  rw [List.length_append, List.length_singleton, List.take_succ, hv, ← h]
  rfl

theorem CountInv.next (hk : k.cdtPrint = false) (hm : 0 < k.maxTries) {b : Act}
    (hi : CountInv k s) (h : step k s b = some s') : CountInv k s' := by
  cases b with
  | worker w a => exact hi.worker hk hm h
  | tick =>
    simp only [step] at h
    split at h <;> cases h
    refine ⟨hi.tries, hi.le, hi.lt, fun vals hc => ?_, hi.summary, nofun⟩
    obtain ⟨hs, rfl⟩ := CounterThread.reads.inj hc
    exact ⟨hs, .inr rfl⟩
  | load =>
    simp only [step] at h
    split at h
    · next li vals hc =>
      obtain ⟨v, hv, rfl⟩ := Option.map_eq_some'.mp h
      have hlen := (List.getElem?_eq_some_iff.mp hv).1
      have hagree : ∀ vals', vals' = vals ++ [v] → li = true →
          s.sh.stop = true ∧ (s.Failing ∨ vals' = (summaryFields s.sh.conf).take vals'.length) :=
        fun vals' he hli => by
          subst he hli
          obtain ⟨hs, hv'⟩ := hi.reads vals hc
          exact ⟨hs, hv'.imp_right (take_append_getElem? hv)⟩
      split_ifs with h1 h2
      · refine ⟨hi.tries, hi.le, hi.lt, fun vals' hc' => ?_, hi.summary, nofun⟩
        cases hc'
        exact hagree _ rfl rfl
      · refine ⟨hi.tries, hi.le, hi.lt, nofun, fun vals' hc' => ?_, fun _ => rfl⟩
        cases hc'
        obtain ⟨hs, hv'⟩ := hagree _ rfl h2
        refine ⟨hs, hv'.imp_right fun he => he.trans (List.take_of_length_le ?_)⟩
        simp only [List.length_append, List.length_singleton] at h1 ⊢
        omega
      · exact ⟨hi.tries, hi.le, hi.lt, nofun, hi.summary, nofun⟩
    · cases h
  | interrupt =>
    cases h
    exact ⟨hi.tries, hi.le, fun hlt => ⟨rfl, (hi.lt hlt).2⟩,
      fun vals hc => ⟨rfl, (hi.reads vals hc).2.imp_left fun hf => ⟨rfl, hf.2⟩⟩,
      fun vals hc => ⟨rfl, (hi.summary vals hc).2.imp_left fun hf => ⟨rfl, hf.2⟩⟩, hi.exited⟩
  | mainStop =>
    simp only [step] at h
    split_ifs at h
    cases h
    exact ⟨hi.tries, hi.le, fun hlt => ⟨rfl, (hi.lt hlt).2⟩,
      fun vals hc => ⟨rfl, (hi.reads vals hc).2.imp_left fun hf => ⟨rfl, hf.2⟩⟩,
      fun vals hc => ⟨rfl, (hi.summary vals hc).2.imp_left fun hf => ⟨rfl, hf.2⟩⟩, hi.exited⟩

theorem CountInv.of_reachable (hk : k.cdtPrint = false) (hm : 0 < k.maxTries) {jobs : List Nat}
    {n : Nat} (h : Reachable k jobs n s) : CountInv k s := by
  induction h with
  | init => exact .init' _ _
  | step _ hs ih => exact ih.next hk hm hs

/-- With `--cdt-print` off, a run of `main` that returns `EXIT_SUCCESS` writes a `SUMMARY`
line whose record count is the sum of its six outcomes, and whose values are the final
counters: a record counted in `total_records` with no outcome (the write loop ended by
`stop`, a fatal result or the last retry) makes its thread, and `main`, fail, and no counter
moves after `stop` is set in a run that succeeds. -/
theorem summary_outcomes_add_up (hk : k.cdtPrint = false) (hm : 0 < k.maxTries)
    {jobs : List Nat} {n : Nat} {closeOk : Bool} (hs : Reachable k jobs n s)
    (hx : mainExit k closeOk s = some true) :
    s.summary = some (summaryFields s.sh.conf) ∧ s.sh.conf.totalRecords = s.sh.conf.outcomes := by
  have hi := CountInv.of_reachable hk hm hs
  obtain ⟨hex, hall⟩ := mainExit_eq_some_true hx
  have hnf : ¬ s.Failing := fun ⟨_, w, x, hw, hf⟩ => by rw [hall w x hw] at hf; cases hf
  have hc : s.workers.countP Worker.isCounting = 0 := by
    refine List.countP_eq_zero.mpr fun x hx' => ?_
    obtain ⟨w, hw⟩ := List.getElem?_of_mem hx'
    simp [hall w x hw, Worker.isCounting]
  obtain ⟨vals, hv⟩ := Option.isSome_iff_exists.mp (hi.exited hex)
  have hle := hi.le
  have hlt := mt hi.lt hnf
  rw [hc] at hle hlt
  refine ⟨?_, by omega⟩
  rw [hv, ((hi.summary vals hv).2.resolve_left hnf)]

/-- One thread restores one record and reads its file to the end; `main` succeeds. -/
theorem one_record_summary :
    ∃ s, run ⟨1, 0, false, false, false, []⟩ (Pipeline.init [0] 1)
        [.worker 0 .top, .worker 0 .pop, .worker 0 (.openFile true), .worker 0 .check,
          .worker 0 (.parse (.record false 1 [])), .worker 0 .test, .worker 0 (.put .ok),
          .worker 0 .count, .worker 0 .check, .worker 0 (.parse .eof),
          .worker 0 (.closeFile true), .worker 0 .top, .worker 0 .pop, .mainStop, .tick,
          .load, .load, .load, .load, .load, .load, .load] = some s ∧
      mainExit ⟨1, 0, false, false, false, []⟩ true s = some true ∧
      s.summary = some (summaryFields s.sh.conf) ∧ s.sh.conf.totalRecords = s.sh.conf.outcomes :=
  (fun (hr : _ = _) (hx : _ = _) => ⟨_, hr, hx,
    summary_outcomes_add_up rfl (by decide) (run_reachable _ .init hr) hx⟩) rfl rfl

end Counts

/-! ### After `stop`, each thread makes at most one more call -/

section Io

variable {s s' : Pipeline}

/-- The budget of thread `w`, zero past the last thread. -/
def Pipeline.ioBudget (s : Pipeline) (w : Nat) : Nat := (s.workers[w]?.map Worker.ioBudget).getD 0

/-- Once `stop` is set, every step keeps it, and each I/O call of thread `w` uses up its budget. -/
theorem step_ioBudget (w : Nat) {b : Act} (hs : s.sh.stop = true) (h : step k s b = some s') :
    s'.sh.stop = true ∧ s'.ioBudget w + (if b.ioOf w then 1 else 0) ≤ s.ioBudget w := by
  by_cases hb : ∃ v a, b = .worker v a
  · obtain ⟨v, a, rfl⟩ := hb
    obtain ⟨x, x', sh', hx, hp, rfl⟩ := step_worker h
    have hfa := restoreThreadStep_facts hp
    refine ⟨hfa.stop_mono hs, ?_⟩
    by_cases hvw : v = w
    · subst hvw
      have hb := hfa.budget hs
      simp only [Pipeline.ioBudget, hx, List.getElem?_set_self (List.getElem?_eq_some_iff.mp hx).1,
        Act.ioOf, beq_self_eq_true, Bool.true_and, Option.map_some', Option.getD_some]
      exact hb
    · simp [Pipeline.ioBudget, Act.ioOf, getElem?_set_of_ne (Ne.symm hvw), hvw]
  · push_neg at hb
    obtain ⟨hw, -, -, -, hstop⟩ := step_other hb h
    refine ⟨hstop hs, ?_⟩
    have hio : b.ioOf w = false := by cases b <;> simp_all [Act.ioOf]
    simp [Pipeline.ioBudget, hw, hio]

theorem run_ioBudget (w : Nat) : ∀ {acts : List Act} {s s' : Pipeline}, s.sh.stop = true →
    run k s acts = some s' → (acts.filter (Act.ioOf w)).length + s'.ioBudget w ≤ s.ioBudget w
  | [], _, _, _, h => by cases h; simp
  | b :: acts, s, s', hs, h => by
    cases hb : step k s b with
    | none => simp [run, hb] at h
    | some t =>
      simp only [run, hb, Option.some_bind] at h
      obtain ⟨ht, hle⟩ := step_ioBudget w hs hb
      have ih := run_ioBudget w ht h
      rw [List.filter_cons]
      split <;> simp_all <;> omega

/-- Once `stop` is set, each correction thread calls `open_file`, `decoder->parse` or
`aerospike_key_put` at most once more, whatever the schedule: each of these calls follows a
`stop` check with only the thread's own work in between. -/
theorem io_after_stop_le_one {w : Nat} {acts : List Act} (hs : s.sh.stop = true)
    (h : run k s acts = some s') : (acts.filter (Act.ioOf w)).length ≤ 1 := by
  have hle := run_ioBudget w hs h
  have hb : s.ioBudget w ≤ 1 := by
    unfold Pipeline.ioBudget
    cases s.workers[w]? with
    | none => simp
    | some x => cases x <;> simp [Worker.ioBudget]
  omega

/-- A thread past its record-loop check when `sig_hand` sets `stop` makes its one decoder
call, then closes its file and returns. -/
theorem reading_thread_after_stop :
    ∃ s s', run ⟨1, 0, false, false, false, []⟩ (Pipeline.init [0] 1)
        [.worker 0 .top, .worker 0 .pop, .worker 0 (.openFile true), .worker 0 .check,
          .interrupt] = some s ∧ s.sh.stop = true ∧
      run ⟨1, 0, false, false, false, []⟩ s
        [.worker 0 (.parse .eof), .worker 0 (.closeFile true), .worker 0 .top] = some s' ∧
      ([Act.worker 0 (.parse .eof), .worker 0 (.closeFile true), .worker 0 .top].filter
        (Act.ioOf 0)).length ≤ 1 :=
  (fun (h1 : _ = _) (hs : _ = _) (h2 : _ = _) =>
    ⟨_, _, h1, hs, h2, io_after_stop_le_one hs h2⟩) rfl rfl rfl

end Io

/-! ### Each file is restored once -/

/-- The job whose file a thread holds open and has not read to its end. -/
def Worker.active : Worker → Option Nat
  | .top | .pop | .closing _ | .returned _ => none
  | .opening j | .innerTop j | .reading j | .printing j | .writing j _ | .putting j _
  | .counting j => some j

/-- How often job `j` is read to `DECODER_EOF`, held open by a thread, or queued. -/
def Pipeline.placed (j : Nat) (s : Pipeline) : Nat :=
  s.sh.eofs.count j + s.workers.countP (·.active == some j) + s.sh.queue.count j

theorem two_le_countP {α : Type} (p : α → Bool) : ∀ {l : List α} {v w : Nat} {x y : α},
    l[v]? = some x → l[w]? = some y → v ≠ w → p x → p y → 2 ≤ l.countP p
  | _ :: _, 0, 0, _, _, _, _, hne, _, _ => absurd rfl hne
  | a :: l, 0, w + 1, x, y, hv, hw, _, hx, hy => by
    obtain rfl : a = x := by simpa using hv
    have := List.countP_pos_iff.2 ⟨y, List.getElem?_mem (by simpa using hw), hy⟩
    rw [List.countP_cons, if_pos hx]
    omega
  | a :: l, v + 1, 0, x, y, hv, hw, _, hx, hy => by
    obtain rfl : a = y := by simpa using hw
    have := List.countP_pos_iff.2 ⟨x, List.getElem?_mem (by simpa using hv), hx⟩
    rw [List.countP_cons, if_pos hy]
    omega
  | a :: l, v + 1, w + 1, x, y, hv, hw, hne, hx, hy => by
    have := two_le_countP p (by simpa using hv : l[v]? = some x)
      (by simpa using hw : l[w]? = some y) (fun h => hne (congrArg (· + 1) h)) hx hy
    rw [List.countP_cons]
    omega

section Files

variable {s s' : Pipeline}

theorem onRecord_active {j : Nat} {expired : Bool} {bins : Nat} {set : List Char}
    (h : onRecord k sh j expired bins set = (x', sh')) :
    x'.active = some j ∧ sh'.eofs = sh.eofs ∧ sh'.queue = sh.queue := by
  unfold onRecord at h
  split_ifs at h <;> cases h <;> exact ⟨rfl, rfl, rfl⟩

theorem restoreThreadStep_placed (h : restoreThreadStep k sh x a = some (x', sh')) (j : Nat) :
    sh'.eofs.count j + (if x'.active == some j then 1 else 0) + sh'.queue.count j ≤
      sh.eofs.count j + (if x.active == some j then 1 else 0) + sh.queue.count j := by
  cases restoreThreadStep_spec h with
  | pop hq =>
    simp only [Worker.active, hq, List.count_cons, beq_iff_eq, Option.some.injEq]
    omega
  | record ho =>
    obtain ⟨ha, he, hq⟩ := onRecord_active ho
    rw [ha, he, hq]
    rfl
  | eof => simp [Worker.active, List.count_singleton]
  | _ => simp [Worker.active]

theorem step_placed {b : Act} (h : step k s b = some s') (j : Nat) : s'.placed j ≤ s.placed j := by
  by_cases hb : ∃ w a, b = .worker w a
  · obtain ⟨w, a, rfl⟩ := hb
    obtain ⟨x, x', sh', hx, hp, rfl⟩ := step_worker h
    obtain ⟨hlt, hget⟩ := List.getElem?_eq_some_iff.1 hx
    have hc := List.countP_set (·.active == some j) s.workers w x' hlt
    have hle := List.boole_getElem_le_countP (·.active == some j) s.workers w hlt
    rw [hget] at hc hle
    have := restoreThreadStep_placed hp j
    simp only [Pipeline.placed] at this hc hle ⊢
    omega
  · push_neg at hb
    obtain ⟨hw, hq, he, -, -⟩ := step_other hb h
    simp only [Pipeline.placed, hw, hq, he, le_refl]

theorem Reachable.placed {jobs : List Nat} {n : Nat} (h : Reachable k jobs n s) (j : Nat) :
    s.placed j ≤ jobs.count j := by
  induction h with
  | init => simp [Pipeline.placed, Pipeline.init, List.countP_replicate, Worker.active]
  | step _ hs ih => exact (step_placed hs j).trans ih

/-- Under any schedule, a file `main` queued once is restored at most once: no two correction
threads hold it open at a time, and it is read to `DECODER_EOF` at most once. -/
theorem file_restored_once {jobs : List Nat} {n : Nat} (hnd : jobs.Nodup)
    (hs : Reachable k jobs n s) :
    s.sh.eofs.Nodup ∧ ∀ (v w j : Nat) (x y : Worker), s.workers[v]? = some x →
      s.workers[w]? = some y → x.active = some j → y.active = some j → v = w := by
  have hp : ∀ j, s.placed j ≤ 1 := fun j =>
    (hs.placed j).trans (List.nodup_iff_count_le_one.1 hnd j)
  refine ⟨List.nodup_iff_count_le_one.2 fun j => ?_, fun v w j x y hv hw hx hy => ?_⟩
  · have := hp j
    simp only [Pipeline.placed] at this
    omega
  · by_contra hne
    have h2 := two_le_countP (·.active == some j) hv hw hne (by simp [hx]) (by simp [hy])
    have := hp j
    simp only [Pipeline.placed] at this
    omega

/-- Two files, two threads, each thread in the middle of its own file. -/
theorem two_files_restored_once :
    ∃ s, run ⟨1, 0, false, false, false, []⟩ (Pipeline.init [0, 1] 2)
        [.worker 0 .top, .worker 0 .pop, .worker 1 .top, .worker 1 .pop,
          .worker 0 (.openFile true), .worker 1 (.openFile true)] = some s ∧
      s.sh.eofs.Nodup ∧ ∀ (v w j : Nat) (x y : Worker), s.workers[v]? = some x →
        s.workers[w]? = some y → x.active = some j → y.active = some j → v = w :=
  (fun (hr : _ = _) => ⟨_, hr, file_restored_once (by decide)
    (run_reachable ⟨1, 0, false, false, false, []⟩ .init hr)⟩) rfl

end Files

end CdtValidation.Restore
