import CdtValidation.Backup.Scan

/-! `CdtValidation.Backup.Jobs` takes a node's job as one step. The threads of
`CdtValidation.Backup.Scan` refine it: each of their steps is invisible there, or one of its
steps. -/

namespace CdtValidation.Backup

/-- Where the job model sees a thread: inside a job it does not tell the steps apart. -/
def ScanThread.job : ScanThread → JobThread
  | .top => .top
  | .opening n => .job n
  | .scanning ctx => .job ctx.node
  | .inCallback ctx _ => .job ctx.node
  | .closing ctx _ => .job ctx.node
  | .returned ok => .returned ok

/-- The pipeline as the job model sees it: no files, counters or CDT state. -/
def ScanSys.jobs (s : ScanSys) : Jobs :=
  ⟨s.queue, s.stop, s.threads.map ScanThread.job, s.scans⟩

section Refinement

variable {k : ScanConf} {nodes : List Nat} {par : Parallel} {bc : BackupConfig}
  {s s' s₁ : ScanSys} {w : Nat} {x x' : ScanThread}

theorem ScanSys.jobs_set : ({ s with threads := s.threads.set w x } : ScanSys).jobs =
    { s.jobs with threads := s.jobs.threads.set w x.job } := by
  simp [ScanSys.jobs, List.map_set]

theorem Frame.jobs (hf : Frame s s₁) : s₁.jobs = s.jobs := by
  simp only [ScanSys.jobs, hf.queue, hf.stop, hf.threads, hf.scans]

theorem jobs_stutter (hf : Frame s s₁) (hw : s.threads[w]? = some x) (hx : x'.job = x.job) :
    ({ s₁ with threads := s₁.threads.set w x' } : ScanSys).jobs = s.jobs := by
  rw [ScanSys.jobs_set, hf.jobs, hx,
    set_of_getElem? (show s.jobs.threads[w]? = some x.job by simp [ScanSys.jobs, hw])]

/-- Every step of the pipeline is invisible to the job model or one of its steps. -/
theorem scanStep_jobs {a : ScanAct} (h : scanStep k s a = some s') :
    s'.jobs = s.jobs ∨ ∃ b, jobStep k.out s.jobs b = some s'.jobs := by
  cases a with
  | interrupt =>
    cases h
    exact .inr ⟨.interrupt, rfl⟩
  | thread w a =>
    obtain ⟨x, x', s₁, hw, hs, rfl⟩ := scanStep_thread h
    cases backupThreadStep_spec hs with
    | stopped _ | drained _ _ | pop _ _ =>
      -- the loop top: `jobStep` of the top
      refine .inr ⟨.top w, ?_⟩
      rw [ScanSys.jobs_set]
      simp_all [jobStep, loopTop, Jobs.leave, ScanThread.job, ScanSys.jobs]
    | shared _ | refused _ | entered _ | scanEnd => exact .inl (jobs_stutter Frame.rfl' hw rfl)
    | opened _ ho =>
      obtain ⟨hf, hn⟩ := openDirFile_frame ho
      exact .inl (jobs_stutter hf hw (congrArg JobThread.job hn))
    | openFailed hd ho =>
      -- a job whose first file failed
      obtain ⟨hf, -⟩ := openDirFile_frame ho
      refine .inr ⟨.job w ⟨false, true, true⟩, ?_⟩
      rw [ScanSys.jobs_set]
      simp [jobStep, hw, runJob, Jobs.leave, ScanThread.job, ScanSys.jobs, hf.queue, hf.threads,
        hf.scans, hd]
    | callback ho | aborted ho =>
      obtain ⟨hf, hn⟩ := scanCallback_frame ho
      exact .inl (jobs_stutter hf hw (congrArg JobThread.job hn))
    | @closed ctx ok e ho =>
      -- the last file: the job's step, with what the scan and `close_file` returned
      refine .inr ⟨.job w ⟨true, ok, (closeFile ctx.fd e).1⟩, ?_⟩
      rw [ScanSys.jobs_set]
      rcases ho with ho | ho <;> simp [jobStep, hw, runJob, ScanThread.job, ScanSys.jobs, ho]
    | @closeFailed ctx ok e hd ho =>
      refine .inr ⟨.job w ⟨true, ok, (closeFile ctx.fd e).1⟩, ?_⟩
      rw [ScanSys.jobs_set]
      simp [jobStep, hw, runJob, Jobs.leave, ScanThread.job, ScanSys.jobs, hd, ho]

/-- Every state the pipeline reaches is seen by the job model as a state it reaches. -/
theorem ScanReachable.jobs (hs : ScanReachable k nodes par bc s) :
    JobsReachable k.out nodes par s.jobs := by
  induction hs with
  | init => simpa [ScanSys.init, ScanSys.jobs, Jobs.init, List.map_replicate] using .init
  | step _ h ih =>
    rcases scanStep_jobs h with he | ⟨b, hb⟩
    · rwa [he]
    · exact ih.step hb

end Refinement

end CdtValidation.Backup
