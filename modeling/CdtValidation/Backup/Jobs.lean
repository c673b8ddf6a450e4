import Mathlib.Data.List.Basic

/-! The scan pipeline of `backup.c`: the queue of node names, the threads of
`backup_thread_func` that pop it, and the join in `main` that makes the exit status. The
`stop` check and the pop at the top of the job loop are one step, the job of one node is
another; what the calls of a job return is the schedule's choice. Node names are numbers. -/

namespace CdtValidation.Backup

/-- `MAX_PARALLEL`. -/
def maxParallel : Nat := 100

/-- `conf.parallel` as the `-w` check of `main` leaves it. -/
structure Parallel where
  val : Nat
  one_le : 1 ≤ val
  le_max : val ≤ maxParallel

/-- Where the records go: `--output-file` or `--directory`; `main` requires exactly one. -/
inductive Output
  | file
  | directory
deriving DecidableEq, Repr

/-- What the calls of one job return: `open_dir_file` of its first file, the node scan and
`close_dir_file` of its last file. `scanOk` is whether `aerospike_scan_node` returned
`AEROSPIKE_OK`; an abort of `scan_callback` makes it false. -/
structure JobEnv where
  openOk : Bool
  scanOk : Bool
  closeOk : Bool
deriving DecidableEq, Repr

/-- A thread of `backup_thread_func`: at the top of its job loop, in the job of a node, or
returned `EXIT_SUCCESS` (`true`) or `EXIT_FAILURE`. -/
inductive JobThread
  | top
  | job (node : Nat)
  | returned (ok : Bool)
deriving DecidableEq, Repr

/-- Whether `safe_join` of the thread has returned. -/
def JobThread.isReturned : JobThread → Bool
  | .returned _ => true
  | _ => false

/-- The pipeline: the node names left in `job_queue`, `stop`, the threads, and the node
scans run so far with what `aerospike_scan_node` returned. -/
structure Jobs where
  queue : List Nat
  stop : Bool
  threads : List JobThread
  scans : List (Nat × Bool)
deriving DecidableEq, Repr

/-- After the pushes of `main`: every node queued, `min(parallel, n_node_names)` threads. -/
def Jobs.init (nodes : List Nat) (par : Parallel) : Jobs :=
  ⟨nodes, false, List.replicate (min par.val nodes.length) .top, []⟩

/-- Thread `w` leaves its loop with `res`; a failure sets `stop` for the others. -/
def Jobs.leave (s : Jobs) (w : Nat) (ok : Bool) : Jobs :=
  { s with threads := s.threads.set w (.returned ok), stop := s.stop || !ok }

/-- The top of the job loop of thread `w`: the `stop` check and `cf_queue_pop`; an empty
queue is `EXIT_SUCCESS`. -/
def loopTop (s : Jobs) (w : Nat) : Jobs :=
  if s.stop then s.leave w false
  else
    match s.queue with
    | [] => s.leave w true
    | n :: q => { s with queue := q, threads := s.threads.set w (.job n) }

/-- The job of node `n` on thread `w`: the first file, the scan, the last file. A failed
scan goes to `close_file` as a completed one does. -/
def runJob (out : Output) (e : JobEnv) (s : Jobs) (w n : Nat) : Jobs :=
  if out = .directory ∧ !e.openOk then s.leave w false
  else
    let s := { s with scans := s.scans ++ [(n, e.scanOk)] }
    if out = .directory ∧ !e.closeOk then s.leave w false
    else { s with threads := s.threads.set w .top }

/-- A step of the pipeline: a thread's loop top, a thread's job, or `sig_hand`. -/
inductive JobAct
  | top (w : Nat)
  | job (w : Nat) (e : JobEnv)
  | interrupt
deriving DecidableEq, Repr

/-- One step; `none` when the thread is not where the step starts. -/
def jobStep (out : Output) (s : Jobs) : JobAct → Option Jobs
  | .top w => if s.threads[w]? = some .top then some (loopTop s w) else none
  | .job w e =>
    match s.threads[w]? with
    | some (.job n) => some (runJob out e s w n)
    | _ => none
  | .interrupt => some { s with stop := true }

/-- The steps of a schedule in order. -/
def jobRun (out : Output) : Jobs → List JobAct → Option Jobs
  | s, [] => some s
  | s, a :: l => (jobStep out s a).bind (jobRun out · l)

/-- The states a run of `main` reaches once its threads are created. -/
inductive JobsReachable (out : Output) (nodes : List Nat) (par : Parallel) : Jobs → Prop
  | init : JobsReachable out nodes par (Jobs.init nodes par)
  | step {s s' : Jobs} {a : JobAct} : JobsReachable out nodes par s →
      jobStep out s a = some s' → JobsReachable out nodes par s'

/-- The exit status of `main` once it has joined every thread (`none` while one runs): a
failure if a thread returned `EXIT_FAILURE` or the shared output file's `close_file`
failed (`closeOk`). -/
def mainExit (out : Output) (closeOk : Bool) (s : Jobs) : Option Bool :=
  if s.threads.all JobThread.isReturned then
    some (s.threads.all (· = .returned true) && (out = .directory || closeOk))
  else none

/-! ### Runs -/

theorem jobRun_append (out : Output) (l₁ l₂ : List JobAct) :
    ∀ s, jobRun out s (l₁ ++ l₂) = (jobRun out s l₁).bind (jobRun out · l₂) := by
  induction l₁ with
  | nil => intro s; rfl
  | cons a l ih =>
    intro s
    cases h : jobStep out s a <;> simp [jobRun, h, ih]

theorem jobRun_reachable {out : Output} {nodes : List Nat} {par : Parallel} :
    ∀ {l : List JobAct} {s s' : Jobs}, JobsReachable out nodes par s →
      jobRun out s l = some s' → JobsReachable out nodes par s'
  | [], _, _, hs, h => Option.some.inj h ▸ hs
  | a :: l, s, _, hs, h => by
    cases ha : jobStep out s a with
    | none => simp [jobRun, ha] at h
    | some s₁ =>
      simp only [jobRun, ha, Option.some_bind] at h
      exact jobRun_reachable (.step hs ha) h

/-! ### Every node is scanned before `main` succeeds -/

section SetLemmas

variable {α : Type} {l : List α} {w : Nat} {old x v : α}

theorem mem_set_of_ne (hw : l[w]? = some old) (hx : x ∈ l) (hne : x ≠ old) :
    x ∈ l.set w v := by
  obtain ⟨j, hj⟩ := List.mem_iff_getElem?.1 hx
  have hwj : w ≠ j := by
    rintro rfl
    exact hne (Option.some.inj (hj.symm.trans hw))
  exact List.mem_iff_getElem?.2 ⟨j, by rwa [List.getElem?_set_ne hwj]⟩

theorem mem_set_of_getElem? (hw : l[w]? = some old) : v ∈ l.set w v :=
  List.mem_set _ _ (List.getElem?_eq_some_iff.1 hw).1 _

theorem set_of_getElem? (hw : l[w]? = some old) : l.set w old = l :=
  List.ext_getElem? fun j => by
    by_cases hwj : w = j
    · subst hwj; rw [hw, List.getElem?_set_self (List.getElem?_eq_some_iff.1 hw).1]
    · exact List.getElem?_set_ne hwj

end SetLemmas

/-- What every reachable state keeps: the thread count, a thread returns `EXIT_SUCCESS`
only on an empty queue that stays empty, and each node is queued, in a job or scanned
unless a thread failed. -/
structure JobsInv (nodes : List Nat) (par : Parallel) (s : Jobs) : Prop where
  length_threads : s.threads.length = min par.val nodes.length
  drained : JobThread.returned true ∈ s.threads → s.queue = []
  accounted : JobThread.returned false ∈ s.threads ∨
    ∀ n ∈ nodes, n ∈ s.queue ∨ JobThread.job n ∈ s.threads ∨ n ∈ s.scans.map Prod.fst

section Inv

variable {nodes : List Nat} {par : Parallel} {s : Jobs} {w : Nat} {old : JobThread}

theorem JobsInv.init' : JobsInv nodes par (Jobs.init nodes par) :=
  ⟨by simp [Jobs.init], by simp [Jobs.init, List.mem_replicate],
    .inr fun _ hn => .inl hn⟩

theorem JobsInv.leave_false (hi : JobsInv nodes par s) (hw : s.threads[w]? = some old) :
    JobsInv nodes par (s.leave w false) := by
  refine ⟨by simp [Jobs.leave, hi.length_threads], fun h => ?_,
    .inl (mem_set_of_getElem? hw)⟩
  rcases List.mem_or_eq_of_mem_set h with h | h
  · exact hi.drained h
  · cases h

theorem JobsInv.scan (hi : JobsInv nodes par s) (p : Nat × Bool) :
    JobsInv nodes par { s with scans := s.scans ++ [p] } := by
  refine ⟨hi.length_threads, hi.drained, hi.accounted.imp_right fun h n hn => ?_⟩
  rcases h n hn with h | h | h
  · exact .inl h
  · exact .inr (.inl h)
  · exact .inr (.inr (by simp [h]))

theorem JobsInv.replace {s' : Jobs} {v : JobThread} (hi : JobsInv nodes par s)
    (hw : s.threads[w]? = some old) (hth : s'.threads = s.threads.set w v)
    (hq : s.queue = [] → s'.queue = []) (hv : v = .returned true → s'.queue = [])
    (hfalse : old ≠ .returned false)
    (hnode : ∀ n ∈ nodes, n ∈ s.queue ∨ JobThread.job n ∈ s.threads ∨ n ∈ s.scans.map Prod.fst →
      n ∈ s'.queue ∨ JobThread.job n ∈ s'.threads ∨ n ∈ s'.scans.map Prod.fst) :
    JobsInv nodes par s' := by
  refine ⟨by rw [hth, List.length_set, hi.length_threads], fun h => ?_, ?_⟩
  · rw [hth] at h
    rcases List.mem_or_eq_of_mem_set h with h | h
    · exact hq (hi.drained h)
    · exact hv h.symm
  · rcases hi.accounted with h | h
    · exact .inl (hth ▸ mem_set_of_ne hw h (Ne.symm hfalse))
    · exact .inr fun n hn => hnode n hn (h n hn)

theorem loopTop_inv (hi : JobsInv nodes par s) (hw : s.threads[w]? = some .top) :
    JobsInv nodes par (loopTop s w) := by
  unfold loopTop
  split
  · exact hi.leave_false hw
  · split
    · next hq =>
      refine hi.replace hw rfl (fun h => h) (fun _ => hq) (by simp) fun n _ h => ?_
      simpa [Jobs.leave, hq] using h.imp_right (Or.imp_left fun h => mem_set_of_ne hw h (by simp))
    · next m q hq =>
      refine hi.replace hw rfl (fun h => by simp [hq] at h) (by simp) (by simp) fun n _ h => ?_
      rw [hq, List.mem_cons] at h
      rcases h with (rfl | h) | h | h
      · exact .inr (.inl (mem_set_of_getElem? hw))
      · exact .inl h
      · exact .inr (.inl (mem_set_of_ne hw h (by simp)))
      · exact .inr (.inr h)

theorem runJob_inv {out : Output} {e : JobEnv} {n : Nat} (hi : JobsInv nodes par s)
    (hw : s.threads[w]? = some (.job n)) : JobsInv nodes par (runJob out e s w n) := by
  unfold runJob
  split
  · exact hi.leave_false hw
  · have hs := hi.scan (n, e.scanOk)
    split
    · exact hs.leave_false hw
    · refine hs.replace hw rfl id (by simp) (by simp) fun m _ h => ?_
      rcases h with h | h | h
      · exact .inl h
      · by_cases hm : m = n
        · subst hm; exact .inr (.inr (by simp))
        · exact .inr (.inl (mem_set_of_ne hw h (by simpa using hm)))
      · exact .inr (.inr h)

theorem jobStep_inv {out : Output} {a : JobAct} {s' : Jobs} (hi : JobsInv nodes par s)
    (h : jobStep out s a = some s') : JobsInv nodes par s' := by
  cases a with
  | top w =>
    simp only [jobStep] at h
    split at h
    · next hw => exact Option.some.inj h ▸ loopTop_inv hi hw
    · cases h
  | job w e =>
    simp only [jobStep] at h
    split at h
    · next n hw => exact Option.some.inj h ▸ runJob_inv hi hw
    · cases h
  | interrupt =>
    cases h
    exact ⟨hi.length_threads, hi.drained, hi.accounted⟩

theorem JobsReachable.inv {out : Output} (h : JobsReachable out nodes par s) :
    JobsInv nodes par s := by
  induction h with
  | init => exact .init'
  | step _ hs ih => exact jobStep_inv ih hs

end Inv

theorem mainExit_eq_some_true {out : Output} {closeOk : Bool} {s : Jobs}
    (he : mainExit out closeOk s = some true) : ∀ t ∈ s.threads, t = .returned true := by
  unfold mainExit at he
  split at he
  · simp only [Option.some.injEq, Bool.and_eq_true, List.all_eq_true, decide_eq_true_eq] at he
    exact he.1
  · cases he

/-- What `main` does guarantee: it returns `EXIT_SUCCESS` only after a scan of every node
ran, in every schedule. -/
theorem mainExit_true_scanned {out : Output} {nodes : List Nat} {par : Parallel} {s : Jobs}
    {closeOk : Bool} (h : JobsReachable out nodes par s) (he : mainExit out closeOk s = some true) :
    ∀ n ∈ nodes, n ∈ s.scans.map Prod.fst := by
  have hi := h.inv
  have hall := mainExit_eq_some_true he
  intro n hn
  have hq : s.queue = [] := by
    have hlen : 0 < s.threads.length := by
      have := par.one_le
      have := List.length_pos_of_mem hn
      rw [hi.length_threads]
      omega
    obtain ⟨t, ht⟩ := List.exists_mem_of_length_pos hlen
    exact hi.drained (hall t ht ▸ ht)
  rcases hi.accounted with hf | hf
  · cases hall _ hf
  · rcases hf n hn with h | h | h
    · simp [hq] at h
    · cases hall _ h
    · exact h

/-! ### The scans' results never reach the exit status -/

/-- Thread 0 runs the job of each queued node in turn, every call but the scan succeeding. -/
def drainActs (ok : Nat → Bool) (q : List Nat) : List JobAct :=
  q.flatMap fun n => [.top 0, .job 0 ⟨true, ok n, true⟩]

theorem jobRun_drainActs (out : Output) (ok : Nat → Bool) {ts : List JobThread}
    (h0 : ts[0]? = some .top) : ∀ q sc, jobRun out ⟨q, false, ts, sc⟩ (drainActs ok q) =
      some ⟨[], false, ts, sc ++ q.map fun n => (n, ok n)⟩
  | [], sc => by simp [drainActs, jobRun]
  | n :: q, sc => by
    have hget : (ts.set 0 (.job n))[0]? = some (.job n) :=
      List.getElem?_set_self (List.getElem?_eq_some_iff.1 h0).1
    have hts : (ts.set 0 (.job n)).set 0 .top = ts := by
      rw [List.set_set]; exact set_of_getElem? h0
    have := jobRun_drainActs out ok h0 q (sc ++ [(n, ok n)])
    simp only [drainActs, List.flatMap_cons] at this ⊢
    simpa [jobRun, jobStep, h0, hget, loopTop, runJob, hts] using this

theorem jobRun_tops (out : Output) (sc : List (Nat × Bool)) : ∀ j m,
    jobRun out ⟨[], false, .replicate j (.returned true) ++ .replicate m .top, sc⟩
      ((List.range' j m).map .top) = some ⟨[], false, .replicate (j + m) (.returned true), sc⟩
  | j, 0 => by simp [jobRun]
  | j, m + 1 => by
    have hget : (List.replicate j (JobThread.returned true) ++ .replicate (m + 1) .top)[j]? =
        some .top := by rw [List.getElem?_append_right (by simp)]; simp
    have hset : (List.replicate j (JobThread.returned true) ++ .replicate (m + 1) .top).set j
        (.returned true) = .replicate (j + 1) (.returned true) ++ .replicate m .top := by
      rw [List.set_append_right _ _ (by simp), List.length_replicate, Nat.sub_self,
        List.replicate_succ, List.set_cons_zero, List.replicate_succ', List.append_assoc,
        List.singleton_append]
    have := jobRun_tops out sc (j + 1) m
    rw [Nat.add_right_comm, ← hset] at this
    simpa [jobRun, jobStep, hget, loopTop, Jobs.leave, List.range'_succ] using this

/-- For every node list, parallelism and output, and whatever each node scan returns, some
schedule ends with `main` returning `EXIT_SUCCESS` and those scan results logged: every
file call succeeds, and a failed scan goes on to the next job. -/
theorem mainExit_true_whatever_scans (out : Output) (nodes : List Nat) (par : Parallel)
    (ok : Nat → Bool) :
    ∃ s, JobsReachable out nodes par s ∧ mainExit out true s = some true ∧
      s.scans = nodes.map fun n => (n, ok n) := by
  let k := min par.val nodes.length
  refine ⟨⟨[], false, .replicate k (.returned true), nodes.map fun n => (n, ok n)⟩,
    @jobRun_reachable out nodes par (drainActs ok nodes ++ (List.range' 0 k).map .top) _ _ .init ?_,
    by simp [mainExit, List.mem_replicate, JobThread.isReturned], rfl⟩
  rw [jobRun_append]
  cases nodes with
  | nil => simp [Jobs.init, drainActs, jobRun, k]
  | cons n q =>
    have h0 : (List.replicate k JobThread.top)[0]? = some .top :=
      List.getElem?_replicate_of_lt (by have := par.one_le; simp [k]; omega)
    rw [Jobs.init, jobRun_drainActs out ok h0]
    simpa using jobRun_tops out _ 0 k

/-! ### Each node is taken once

`cf_queue_pop` hands each queued node to one thread. A node is then in the queue, in the job
of one thread, or among the scans run, or gone with a job that failed before its scan. -/

/-- The node of a thread's job. -/
def JobThread.node? : JobThread → Option Nat
  | .top => none
  | .job n => some n
  | .returned _ => none

/-- The nodes of the scans run, of the threads' jobs and of the queue. -/
def Jobs.placed (s : Jobs) : List Nat :=
  s.scans.map Prod.fst ++ s.threads.filterMap JobThread.node? ++ s.queue

theorem count_filterMap_set {α : Type} (f : α → Option Nat) (c : Nat) (new : α) :
    ∀ {l : List α} {w : Nat} {old : α}, l[w]? = some old →
      ((l.set w new).filterMap f).count c + (f old).toList.count c =
        (l.filterMap f).count c + (f new).toList.count c
  | a :: l, 0, old, h => by
    obtain rfl : a = old := by simpa using h
    rw [List.set_cons_zero, List.filterMap_cons, List.filterMap_cons]
    cases f a <;> cases f new <;> simp [List.count_cons]
    omega
  | a :: l, w + 1, old, h => by
    have ih := count_filterMap_set f c new (by simpa using h : l[w]? = some old)
    rw [List.set_cons_succ, List.filterMap_cons, List.filterMap_cons]
    cases f a <;> simp only [List.count_cons] <;> omega

section Placed

variable {out : Output} {nodes : List Nat} {par : Parallel} {s s' : Jobs} {w : Nat}
  {old new : JobThread}

theorem Jobs.count_placed (c : Nat) : s.placed.count c = (s.scans.map Prod.fst).count c +
    (s.threads.filterMap JobThread.node?).count c + s.queue.count c := by
  simp only [Jobs.placed, List.count_append]

theorem jobStep_placed {a : JobAct} (h : jobStep out s a = some s') (c : Nat) :
    s'.placed.count c ≤ s.placed.count c := by
  cases a with
  | top w =>
    simp only [jobStep] at h
    split_ifs at h with hw
    cases h
    have hf := count_filterMap_set JobThread.node? c (.returned false) hw
    have ht := count_filterMap_set JobThread.node? c (.returned true) hw
    simp only [loopTop]
    split
    · simp only [Jobs.leave, Jobs.count_placed, JobThread.node?, Option.toList_none,
        List.count_nil] at hf ⊢
      omega
    · split
      · simp only [Jobs.leave, Jobs.count_placed, JobThread.node?, Option.toList_none,
          List.count_nil] at ht ⊢
        omega
      · rename_i n q hq
        have hj := count_filterMap_set JobThread.node? c (.job n) hw
        simp only [Jobs.count_placed, hq, List.count_cons, JobThread.node?, Option.toList_none,
          Option.toList_some, List.count_nil, List.count_singleton] at hj ⊢
        omega
  | job w e =>
    simp only [jobStep] at h
    split at h
    · rename_i n hw
      cases h
      have hf := count_filterMap_set JobThread.node? c (.returned false) hw
      have ht := count_filterMap_set JobThread.node? c .top hw
      simp only [JobThread.node?, Option.toList_none, Option.toList_some, List.count_nil,
        List.count_singleton] at hf ht
      unfold runJob
      split_ifs <;> simp only [Jobs.leave, Jobs.count_placed, List.map_append, List.count_append,
        List.map_cons, List.map_nil, List.count_cons, List.count_nil] <;> omega
    · cases h
  | interrupt =>
    cases h
    exact le_rfl

/-- Every node is taken at most as often as `main` queued it. -/
theorem JobsReachable.placed (h : JobsReachable out nodes par s) (c : Nat) :
    s.placed.count c ≤ nodes.count c := by
  induction h with
  | init =>
    have : (List.replicate (min par.val nodes.length) JobThread.top).filterMap
        JobThread.node? = [] := by
      simp [List.filterMap_eq_nil_iff, List.mem_replicate, JobThread.node?]
    simp [Jobs.placed, Jobs.init, this]
  | step _ hs ih => exact (jobStep_placed hs c).trans ih

end Placed

end CdtValidation.Backup
