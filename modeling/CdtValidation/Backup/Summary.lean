import CdtValidation.Backup.OnDisk

/-! The counter thread of `backup.c` and the end of `main` around the backup threads: the
counter thread's read of `stop`, its two atomic loads and its `SUMMARY` line, and `main`'s
`stop` after its joins, each a step of its own among the steps of the backup threads. -/

namespace CdtValidation.Backup

/-- The counter thread: in its loop, out of it having read `stop` set, after its load of
`rec_count_total`, or returned. -/
inductive CounterThread where
  | loop
  | loadRecords
  | loadBytes (records : Nat)
  | exited
deriving DecidableEq, Repr

/-- The values of the `SUMMARY` line: records, bytes, and bytes per record, `0` without
records. -/
def summaryLine (records bytes : Nat) : List Nat :=
  [records, bytes, if records = 0 then 0 else bytes / records]

/-- The backup process once `main` has created its threads: the backup threads, the counter
thread, the `SUMMARY` line once written, and whether `main` has set `stop` after its joins. -/
structure Process where
  scan : ScanSys
  counter : CounterThread
  summary : Option (List Nat)
  mainStopped : Bool
deriving DecidableEq, Repr

/-- A step: one of the backup threads or `sig_hand`, the counter thread's `sleep(1)` and read
of `stop`, one of its two loads, or `main` setting `stop` once every backup thread is
joined. -/
inductive ProcessAct where
  | scan (a : ScanAct)
  | tick
  | load
  | mainStop

/-- One step; `none` when the thread is not where the step starts. -/
def processStep (k : ScanConf) (p : Process) : ProcessAct → Option Process
  | .scan a => (scanStep k p.scan a).map fun s => { p with scan := s }
  | .tick =>
    match p.counter with
    | .loop => some { p with counter := if p.scan.stop then .loadRecords else .loop }
    | _ => none
  | .load =>
    match p.counter with
    | .loadRecords => some { p with counter := .loadBytes p.scan.recCountTotal }
    | .loadBytes n =>
      some { p with counter := .exited, summary := some (summaryLine n p.scan.byteCountTotal) }
    | _ => none
  | .mainStop =>
    if p.scan.threads.all (fun x => x.job.isReturned) ∧ p.mainStopped = false then
      some { p with scan := { p.scan with stop := true }, mainStopped := true }
    else none

/-- The steps of a schedule in order. -/
def processRun (k : ScanConf) : Process → List ProcessAct → Option Process
  | p, [] => some p
  | p, a :: l => (processStep k p a).bind (processRun k · l)

/-- After `main` has created the counter thread and the backup threads. -/
def Process.init (k : ScanConf) (nodes : List Nat) (par : Parallel) (bc : BackupConfig) :
    Process :=
  ⟨ScanSys.init k nodes par bc, .loop, none, false⟩

/-- The states a run of `main` reaches once its threads are created. -/
inductive ProcessReachable (k : ScanConf) (nodes : List Nat) (par : Parallel)
    (bc : BackupConfig) : Process → Prop
  | init : ProcessReachable k nodes par bc (Process.init k nodes par bc)
  | step {p p' : Process} {a : ProcessAct} : ProcessReachable k nodes par bc p →
      processStep k p a = some p' → ProcessReachable k nodes par bc p'

/-- The exit status of `main` once it has joined the counter thread (`none` before): that of
`CdtValidation.Backup.mainExit`, with `closeOk` the `close_file` of the shared output file. -/
def processExit (k : ScanConf) (closeOk : Bool) (p : Process) : Option Bool :=
  if p.mainStopped ∧ p.counter = .exited then mainExit k.out closeOk p.scan.jobs else none

section Steps

variable {k : ScanConf} {nodes : List Nat} {par : Parallel} {bc : BackupConfig}
  {s s' : ScanSys} {x x' : ScanThread}

theorem processRun_reachable : ∀ {l : List ProcessAct} {p p' : Process},
    ProcessReachable k nodes par bc p → processRun k p l = some p' →
      ProcessReachable k nodes par bc p'
  | [], _, _, hp, h => Option.some.inj h ▸ hp
  | a :: l, p, _, hp, h => by
    cases ha : processStep k p a with
    | none => simp [processRun, ha] at h
    | some p₁ =>
      simp only [processRun, ha, Option.some_bind] at h
      exact processRun_reachable (.step hp ha) h

/-- With `stop` set, no thread step returns `EXIT_SUCCESS`. -/
theorem backupThreadStep_not_ok (hst : s.stop = true) {a : ThreadAct}
    (h : backupThreadStep k s x a = some (x', s')) : x' ≠ .returned true := by
  cases backupThreadStep_spec h with
  | drained hf _ => simp [hst] at hf
  | _ => nofun

/-- Some backup thread will not return `EXIT_SUCCESS`. -/
def Failing (s : ScanSys) : Prop :=
  ∃ (w : Nat) (x : ScanThread), s.threads[w]? = some x ∧ x ≠ .returned true

/-- Once `stop` is set, a failing thread stays failing. -/
theorem Failing.next (hst : s.stop = true) (hf : Failing s) {a : ScanAct}
    (h : scanStep k s a = some s') : Failing s' := by
  obtain ⟨v, y, hv, hy⟩ := hf
  cases a with
  | interrupt =>
    cases h
    exact ⟨v, y, hv, hy⟩
  | thread w a =>
    obtain ⟨x, x', s₁, hw, hs, rfl⟩ := scanStep_thread h
    have ht := backupThreadStep_threads hs
    by_cases hvw : v = w
    · subst hvw
      rw [hw] at hv
      cases hv
      refine ⟨v, x', ?_, backupThreadStep_not_ok hst hs⟩
      rw [List.getElem?_set_self (List.getElem?_eq_some_iff.1 (ht ▸ hw)).1]
    · exact ⟨v, y, by rw [List.getElem?_set_ne (Ne.symm hvw), ht, hv], hy⟩

theorem scanStep_of_all_ok (hok : ∀ x ∈ s.threads, x = .returned true) {a : ScanAct}
    (h : scanStep k s a = some s') : s' = { s with stop := true } := by
  cases a with
  | interrupt => exact (Option.some.inj h).symm
  | thread w a =>
    obtain ⟨x, x', s₁, hw, hs, -⟩ := scanStep_thread h
    rw [hok x (List.getElem?_mem hw)] at hs
    cases hs

end Steps

/-! ### The `SUMMARY` line -/

/-- Once the counter thread has read `stop` set, either some backup thread fails, or every
backup thread returned `EXIT_SUCCESS` and what the counter thread loaded is the final
counters. -/
structure SummaryInv (p : Process) : Prop where
  stop : p.counter ≠ .loop → p.scan.stop = true
  written : p.counter = .exited → p.summary ≠ none
  unwritten : p.counter ≠ .exited → p.summary = none
  settled : p.counter ≠ .loop → Failing p.scan ∨
    ((∀ x ∈ p.scan.threads, x = .returned true) ∧
      (∀ n, p.counter = .loadBytes n → n = p.scan.recCountTotal) ∧
      (∀ l, p.summary = some l → l = summaryLine p.scan.recCountTotal p.scan.byteCountTotal))

section Summary

variable {k : ScanConf} {nodes : List Nat} {par : Parallel} {bc : BackupConfig}
  {p p' : Process}

theorem failing_or_all_ok (s : ScanSys) :
    Failing s ∨ ∀ x ∈ s.threads, x = .returned true := by
  by_cases h : ∀ x ∈ s.threads, x = .returned true
  · exact .inr h
  · push_neg at h
    obtain ⟨x, hx, hne⟩ := h
    obtain ⟨w, hw⟩ := List.mem_iff_getElem?.1 hx
    exact .inl ⟨w, x, hw, hne⟩

theorem SummaryInv.scan (hi : SummaryInv p) {a : ScanAct} {s : ScanSys}
    (h : scanStep k p.scan a = some s) : SummaryInv { p with scan := s } := by
  refine ⟨fun hc => ?_, hi.written, hi.unwritten, fun hc => ?_⟩
  · exact (scanStep_draining (hi.stop hc) h).stop
  · rcases hi.settled hc with hf | ⟨hok, hn, hl⟩
    · exact .inl (hf.next (hi.stop hc) h)
    · cases scanStep_of_all_ok hok h
      exact .inr ⟨hok, hn, hl⟩

theorem SummaryInv.next (hi : SummaryInv p) {a : ProcessAct} (h : processStep k p a = some p') :
    SummaryInv p' := by
  cases a with
  | scan a =>
    obtain ⟨s, hs, rfl⟩ := Option.map_eq_some'.1 h
    exact hi.scan hs
  | tick =>
    simp only [processStep] at h
    split at h
    · cases h
      have hn : p.summary = none := hi.unwritten (by simp [*])
      split_ifs with hst
      · refine ⟨fun _ => hst, nofun, fun _ => hn, fun _ => ?_⟩
        rcases failing_or_all_ok p.scan with hf | hok
        · exact .inl hf
        · exact .inr ⟨hok, nofun, fun l hl => by simp [hn] at hl⟩
      · exact ⟨fun hc => absurd rfl hc, nofun, fun _ => hn, fun hc => absurd rfl hc⟩
    · cases h
  | load =>
    simp only [processStep] at h
    split at h
    next hc =>
      cases h
      have hne : p.counter ≠ .loop := by rw [hc]; nofun
      refine ⟨fun _ => hi.stop hne, nofun, fun _ => hi.unwritten (by rw [hc]; nofun),
        fun _ => ?_⟩
      rcases hi.settled hne with hf | ⟨hok, -, hl⟩
      · exact .inl hf
      · exact .inr ⟨hok, fun n hn => (CounterThread.loadBytes.inj hn).symm, hl⟩
    next n hc =>
      cases h
      have hne : p.counter ≠ .loop := by rw [hc]; nofun
      refine ⟨fun _ => hi.stop hne, fun _ => nofun, fun hx => absurd rfl hx, fun _ => ?_⟩
      rcases hi.settled hne with hf | ⟨hok, hn, -⟩
      · exact .inl hf
      · refine .inr ⟨hok, nofun, fun l hl => ?_⟩
        rw [← Option.some.inj hl, hn n hc]
    next => cases h
  | mainStop =>
    simp only [processStep] at h
    split_ifs at h
    cases h
    refine ⟨fun _ => rfl, hi.written, hi.unwritten, fun hc => ?_⟩
    rcases hi.settled hc with ⟨w, x, hw, hx⟩ | ⟨hok, hn, hl⟩
    · exact .inl ⟨w, x, hw, hx⟩
    · exact .inr ⟨hok, hn, hl⟩

theorem ProcessReachable.summaryInv (hp : ProcessReachable k nodes par bc p) : SummaryInv p := by
  induction hp with
  | init => exact ⟨nofun, nofun, fun _ => rfl, nofun⟩
  | step _ h ih => exact ih.next h

/-- A backup that exits with `EXIT_SUCCESS` wrote a `SUMMARY` line of the final
`rec_count_total` and `byte_count_total`, under any schedule: no thread that could still move
them was running when the counter thread saw `stop`. -/
theorem summary_of_success {closeOk : Bool} (hp : ProcessReachable k nodes par bc p)
    (he : processExit k closeOk p = some true) :
    p.summary = some (summaryLine p.scan.recCountTotal p.scan.byteCountTotal) := by
  have hi := hp.summaryInv
  unfold processExit at he
  split_ifs at he with hm
  have hok := mainExit_eq_some_true he
  have hne : p.counter ≠ .loop := by rw [hm.2]; nofun
  rcases hi.settled hne with ⟨w, x, hw, hx⟩ | ⟨-, -, hl⟩
  · refine absurd ?_ hx
    have := hok _ (List.mem_map_of_mem ScanThread.job (List.getElem?_mem hw))
    cases x <;> cases this
    rfl
  · obtain ⟨l, hs⟩ := Option.ne_none_iff_exists'.1 (hi.written hm.2)
    rw [hs, hl l hs]

/-- The whole of `twoNodeActs` in `twoNodeDir`, then `main`'s `stop` and the counter
thread's last iteration. -/
theorem twoNodeRun_summary : ∃ p, processRun twoNodeDir (Process.init twoNodeDir [0, 1]
      ⟨1, by decide, by decide⟩ ⟨false, true, .zero, .zero⟩)
      (twoNodeActs.map .scan ++ [.mainStop, .tick, .load, .load]) = some p ∧
    processExit twoNodeDir true p = some true ∧
    p.summary = some (summaryLine p.scan.recCountTotal p.scan.byteCountTotal) :=
  (fun (hr : _ = _) (he : _ = _) => ⟨_, hr, he, summary_of_success
    (processRun_reachable .init hr) he⟩) rfl rfl

theorem ProcessReachable.scan (hp : ProcessReachable k nodes par bc p) :
    ScanReachable k nodes par bc p.scan := by
  induction hp with
  | init => exact .init
  | @step p p' a _ h ih =>
    cases a with
    | scan a =>
      obtain ⟨s, hs, rfl⟩ := Option.map_eq_some'.1 h
      exact ih.step hs
    | tick =>
      simp only [processStep] at h
      split at h <;> cases h
      exact ih
    | load =>
      simp only [processStep] at h
      split at h <;> cases h <;> exact ih
    | mainStop =>
      simp only [processStep] at h
      split_ifs at h
      cases h
      exact ih.step (show scanStep k p.scan .interrupt = some { p.scan with stop := true } from rfl)

/-- A backup that exits with `EXIT_SUCCESS` ran exactly one scan of each node it queued,
under any schedule and whatever the scans returned. -/
theorem success_scans_each_node_once {closeOk : Bool} (hnd : nodes.Nodup)
    (hp : ProcessReachable k nodes par bc p) (he : processExit k closeOk p = some true) :
    List.Perm (p.scan.scans.map Prod.fst) nodes := by
  have hj := hp.scan.jobs
  unfold processExit at he
  split_ifs at he
  have hsc := mainExit_true_scanned hj he
  refine List.perm_iff_count.2 fun c => le_antisymm ?_ ?_
  · have := hj.placed c
    rw [Jobs.count_placed] at this
    simp only [ScanSys.jobs] at this
    omega
  · by_cases hc : c ∈ nodes
    · rw [List.count_eq_one_of_mem hnd hc]
      exact List.count_pos_iff.2 (hsc c hc)
    · rw [List.count_eq_zero_of_not_mem hc]
      exact Nat.zero_le _

theorem twoNodeRun_each_node_once : ∃ p, processRun twoNodeDir (Process.init twoNodeDir [0, 1]
      ⟨1, by decide, by decide⟩ ⟨false, true, .zero, .zero⟩)
      (twoNodeActs.map .scan ++ [.mainStop, .tick, .load, .load]) = some p ∧
    processExit twoNodeDir true p = some true ∧ List.Perm (p.scan.scans.map Prod.fst) [0, 1] :=
  (fun (hr : _ = _) (he : _ = _) => ⟨_, hr, he, success_scans_each_node_once (by decide)
    (processRun_reachable .init hr) he⟩) rfl rfl

end Summary

end CdtValidation.Backup
