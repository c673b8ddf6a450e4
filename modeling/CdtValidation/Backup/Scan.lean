import CdtValidation.Backup.Files
import CdtValidation.Backup.Check
import CdtValidation.Backup.Jobs

/-! The output side of `backup.c`: `open_dir_file`, `close_dir_file` and `scan_callback`
inside the job loop of `backup_thread_func`. A job is cut where it touches shared state: the
first `open_dir_file`, each callback's test of `stop`, the rest of each callback, the end of
`aerospike_scan_node`, and the last `close_dir_file`. What the file system, the server and
the encoder return is the schedule's choice. -/

namespace CdtValidation.Backup

/-! ### One node's job -/

/-- The fields of `backup_config` the output side reads, the node names of
`get_node_names`, and `backup_args.bytes`, the header of the single output file. -/
structure ScanConf where
  out : Output
  directory : List Char
  outputFile : List Char
  fileLimit : Nat
  nodeName : Nat → List Char
  sharedHeader : Nat

/-- `per_node_context`; the descriptor is an inode, `none` for `NULL`. -/
structure NodeCtx where
  node : Nat
  fd : Option Nat
  fileCount : Nat
  recCountFile : Nat
  byteCountFile : Nat
  recCountNode : Nat
  byteCountNode : Nat
deriving DecidableEq, Repr

/-- The context `backup_thread_func` starts a job with. -/
def NodeCtx.init (n : Nat) : NodeCtx := ⟨n, none, 0, 0, 0, 0, 0⟩

/-- The context after `open_dir_file` opened inode `i` and wrote a header of `b` bytes. -/
def NodeCtx.opened (ctx : NodeCtx) (i b : Nat) : NodeCtx :=
  ⟨ctx.node, some i, ctx.fileCount + 1, 0, b, ctx.recCountNode, ctx.byteCountNode + b⟩

/-- The context after `put_record` wrote a record of `b` bytes. -/
def NodeCtx.wrote (ctx : NodeCtx) (b : Nat) : NodeCtx :=
  ⟨ctx.node, ctx.fd, ctx.fileCount, ctx.recCountFile + 1, ctx.byteCountFile + b,
    ctx.recCountNode + 1, ctx.byteCountNode + b⟩

/-- A value the scan hands `scan_callback`: not a record, a record without namespace, or a
record with its key and the values of its bins. -/
inductive ScanVal where
  | other
  | noNamespace
  | record (key : Nat) (bins : List AsVal)
deriving DecidableEq, Repr

/-- A thread of `backup_thread_func`: at the top of its loop, before the first file of a
node, in its scan, inside `scan_callback` on a value past its test of `stop`, after the scan
(with whether `aerospike_scan_node` returned `AEROSPIKE_OK`), or returned. -/
inductive ScanThread where
  | top
  | opening (node : Nat)
  | scanning (ctx : NodeCtx)
  | inCallback (ctx : NodeCtx) (v : ScanVal)
  | closing (ctx : NodeCtx) (scanOk : Bool)
  | returned (ok : Bool)
deriving DecidableEq, Repr

/-- The state the backup threads share. `popped`, the nodes taken off the queue, and
`writeFailed`, set by a failed write to a file, are ghost state. -/
structure ScanSys where
  queue : List Nat
  stop : Bool
  threads : List ScanThread
  scans : List (Nat × Bool)
  popped : List Nat
  bc : BackupConfig
  repairs : List CdtRepair
  recCountChecked : Nat
  recCountTotal : Nat
  byteCountTotal : Nat
  fs : Fs
  writeFailed : Bool
deriving DecidableEq, Repr

/-- The path of the node's next file. -/
def NodeCtx.nextPath (k : ScanConf) (ctx : NodeCtx) : List Char :=
  dirFilePath k.directory (k.nodeName ctx.node) ctx.fileCount

/-- `open_dir_file`: the path of the node's next file, then `open_file`. On success the
file's counters restart and the header's bytes are counted. -/
def openDirFile (k : ScanConf) (s : ScanSys) (ctx : NodeCtx) (e : OpenEnv) :
    Bool × NodeCtx × ScanSys :=
  let p := ctx.nextPath k
  if pathMax ≤ p.length then (false, ctx, s)
  else
    let s' := { s with fs := openFileFs s.fs p e }
    match e with
    | .removeFailed => (false, ctx, s')
    | .createFailed => (false, { ctx with fd := none }, s')
    | .headerFailed _ => (false, { ctx with fd := none }, { s' with writeFailed := true })
    | .ok b =>
      (true, ctx.opened s.fs.inodes.length b, { s' with byteCountTotal := s.byteCountTotal + b })

/-- What the calls of one `scan_callback` return: the server's answers to the repairs of
`cdt_fix_list`, `close_dir_file` and `open_dir_file` of a file switch, and `put_record` with
the bytes it wrote. -/
structure CallbackEnv where
  put : CdtRepair → Bool
  closeOk : Bool
  opened : OpenEnv
  written : Option Nat

/-- `put_record` through the context's descriptor and the counters after it. A failed one
may have written part of the record. -/
def putRecord (ctx : NodeCtx) (s : ScanSys) (key : Nat) : Option Nat → Bool × NodeCtx × ScanSys
  | none => (false, ctx, { s with writeFailed := true })
  | some b =>
    match ctx.fd with
    | none => (false, ctx, s)
    | some i =>
      (true, ctx.wrote b,
        { s with
          recCountTotal := s.recCountTotal + 1
          byteCountTotal := s.byteCountTotal + b
          fs := s.fs.append i (key, b) })

/-- The file switch of `scan_callback`, when the directory's current file has reached
`file_limit`: `close_dir_file`, then `open_dir_file`. -/
def switchFile (k : ScanConf) (s : ScanSys) (ctx : NodeCtx) (e : CallbackEnv) :
    Bool × NodeCtx × ScanSys :=
  let c := closeFile ctx.fd e.closeOk
  if c.1 then openDirFile k s { ctx with fd := c.2 } e.opened
  else (false, { ctx with fd := c.2 }, { s with writeFailed := true })

/-- The part of `scan_callback` after `cdt_check` asked for the record: the file switch of a
directory whose current file has reached `file_limit`, then `put_record`. -/
def outputRecord (k : ScanConf) (s : ScanSys) (ctx : NodeCtx) (key : Nat) (e : CallbackEnv) :
    Bool × NodeCtx × ScanSys :=
  if k.out = .directory ∧ k.fileLimit ≤ ctx.byteCountFile then
    let o := switchFile k s ctx e
    if o.1 then putRecord o.2.1 o.2.2 key e.written else o
  else putRecord ctx s key e.written

/-- `scan_callback` on one value past its test of `stop`, which is a step of its own; `true`
keeps the scan going. -/
def scanCallback (k : ScanConf) (s : ScanSys) (ctx : NodeCtx) (v : ScanVal)
    (e : CallbackEnv) : Bool × NodeCtx × ScanSys :=
  match v with
  | .other | .noNamespace => (false, ctx, s)
  | .record key bins =>
    let c := cdtCheck e.put s.bc bins
    let s := { s with
      recCountChecked := s.recCountChecked + 1
      bc := c.bc
      repairs := s.repairs ++ c.writes }
    if !c.needLog then (true, ctx, s) else outputRecord k s ctx key e

/-- A step of one thread: the top of the job loop, the first file, a value handed to
`scan_callback` and its test of `stop`, the rest of the callback, the end of the scan, the
last file. -/
inductive ThreadAct where
  | top
  | openFirst (e : OpenEnv)
  | callback (v : ScanVal)
  | store (e : CallbackEnv)
  | scanEnd (ok : Bool)
  | close (ok : Bool)

/-- One step of `backup_thread_func`; `none` when the thread is not where the step starts.
A thread that breaks out of its loop sets `stop`. -/
def backupThreadStep (k : ScanConf) (s : ScanSys) :
    ScanThread → ThreadAct → Option (ScanThread × ScanSys)
  | .top, .top =>
    if s.stop then some (.returned false, s)
    else
      match s.queue with
      | [] => some (.returned true, s)
      | n :: q => some (.opening n, { s with queue := q, popped := s.popped ++ [n] })
  | .opening n, .openFirst e =>
    match k.out with
    | .file => some (.scanning { NodeCtx.init n with fd := some 0 }, s)
    | .directory =>
      let o := openDirFile k s (NodeCtx.init n) e
      if o.1 then some (.scanning o.2.1, o.2.2)
      else some (.returned false, { o.2.2 with stop := true })
  | .scanning ctx, .callback v =>
    some (if s.stop then (.closing ctx false, s) else (.inCallback ctx v, s))
  | .inCallback ctx v, .store e =>
    let o := scanCallback k s ctx v e
    some (if o.1 then .scanning o.2.1 else .closing o.2.1 false, o.2.2)
  | .scanning ctx, .scanEnd ok => some (.closing ctx ok, s)
  | .closing ctx ok, .close e =>
    let s := { s with scans := s.scans ++ [(ctx.node, ok)] }
    match k.out with
    | .file => some (.top, s)
    | .directory =>
      if (closeFile ctx.fd e).1 then some (.top, s)
      else some (.returned false, { s with stop := true, writeFailed := true })
  | _, _ => none

/-- The branches of `backupThreadStep`, one constructor each, with what they leave. -/
inductive ThreadStep (k : ScanConf) (s : ScanSys) : ScanThread → ScanThread → ScanSys → Prop
  | stopped : s.stop = true → ThreadStep k s .top (.returned false) s
  | drained : s.stop = false → s.queue = [] → ThreadStep k s .top (.returned true) s
  | pop {n : Nat} {q : List Nat} : s.stop = false → s.queue = n :: q →
      ThreadStep k s .top (.opening n) { s with queue := q, popped := s.popped ++ [n] }
  | shared {n : Nat} : k.out = .file →
      ThreadStep k s (.opening n) (.scanning { NodeCtx.init n with fd := some 0 }) s
  | opened {n : Nat} {e : OpenEnv} {c : NodeCtx} {s' : ScanSys} : k.out = .directory →
      openDirFile k s (NodeCtx.init n) e = (true, c, s') → ThreadStep k s (.opening n) (.scanning c) s'
  | openFailed {n : Nat} {e : OpenEnv} {c : NodeCtx} {s' : ScanSys} : k.out = .directory →
      openDirFile k s (NodeCtx.init n) e = (false, c, s') →
      ThreadStep k s (.opening n) (.returned false) { s' with stop := true }
  | refused {ctx : NodeCtx} : s.stop = true → ThreadStep k s (.scanning ctx) (.closing ctx false) s
  | entered {ctx : NodeCtx} {v : ScanVal} : s.stop = false →
      ThreadStep k s (.scanning ctx) (.inCallback ctx v) s
  | callback {ctx c : NodeCtx} {v : ScanVal} {e : CallbackEnv} {s' : ScanSys} :
      scanCallback k s ctx v e = (true, c, s') → ThreadStep k s (.inCallback ctx v) (.scanning c) s'
  | aborted {ctx c : NodeCtx} {v : ScanVal} {e : CallbackEnv} {s' : ScanSys} :
      scanCallback k s ctx v e = (false, c, s') →
      ThreadStep k s (.inCallback ctx v) (.closing c false) s'
  | scanEnd {ctx : NodeCtx} {ok : Bool} : ThreadStep k s (.scanning ctx) (.closing ctx ok) s
  | closed {ctx : NodeCtx} {ok e : Bool} : (k.out = .file ∨ (closeFile ctx.fd e).1 = true) →
      ThreadStep k s (.closing ctx ok) .top { s with scans := s.scans ++ [(ctx.node, ok)] }
  | closeFailed {ctx : NodeCtx} {ok e : Bool} : k.out = .directory → (closeFile ctx.fd e).1 = false →
      ThreadStep k s (.closing ctx ok) (.returned false)
        { s with scans := s.scans ++ [(ctx.node, ok)], stop := true, writeFailed := true }

/-- Every step `backupThreadStep` takes is one of the branches of `ThreadStep`. -/
theorem backupThreadStep_spec {k : ScanConf} {s s' : ScanSys} {x x' : ScanThread}
    {a : ThreadAct} (h : backupThreadStep k s x a = some (x', s')) : ThreadStep k s x x' s' := by
  unfold backupThreadStep at h
  split at h
  · split at h
    · cases h
      exact .stopped ‹_›
    · split at h <;> cases h
      · exact .drained (Bool.eq_false_iff.2 ‹_›) ‹_›
      · exact .pop (Bool.eq_false_iff.2 ‹_›) ‹_›
  · split at h
    · cases h
      exact .shared ‹_›
    · generalize ho : openDirFile k s _ _ = o at h
      obtain ⟨o₁, c, s₂⟩ := o
      cases o₁ <;> cases h
      · exact .openFailed ‹_› ho
      · exact .opened ‹_› ho
  · split at h <;> cases h
    · exact .refused ‹_›
    · exact .entered (Bool.eq_false_iff.2 ‹_›)
  · generalize ho : scanCallback k s _ _ _ = o at h
    obtain ⟨o₁, c, s₂⟩ := o
    cases o₁ <;> cases h
    · exact .aborted ho
    · exact .callback ho
  · cases h
    exact .scanEnd
  · split at h
    · cases h
      rename_i ctx ok e _ hf
      exact @ThreadStep.closed k s ctx ok e (.inl hf)
    · split at h <;> cases h
      · exact .closed (.inr ‹_›)
      · exact .closeFailed ‹_› (Bool.eq_false_iff.2 ‹_›)
  · cases h

/-! ### The pipeline -/

/-- A step: thread `w` moves, or `sig_hand` sets `stop`. -/
inductive ScanAct where
  | thread (w : Nat) (a : ThreadAct)
  | interrupt

/-- One step of the pipeline. -/
def scanStep (k : ScanConf) (s : ScanSys) : ScanAct → Option ScanSys
  | .thread w a =>
    match s.threads[w]? with
    | some x => (backupThreadStep k s x a).map fun p => { p.2 with threads := p.2.threads.set w p.1 }
    | none => none
  | .interrupt => some { s with stop := true }

/-- The steps of a schedule in order. -/
def scanRun (k : ScanConf) : ScanSys → List ScanAct → Option ScanSys
  | s, [] => some s
  | s, a :: l => (scanStep k s a).bind (scanRun k · l)

/-- The files when the threads start: the single output file `main` opened, with its
header, or the backup directory that `clean_directory` left without backup files. -/
def Fs.init (k : ScanConf) : Fs :=
  match k.out with
  | .file => ⟨[⟨k.sharedHeader, []⟩], [(k.outputFile, 0)]⟩
  | .directory => ⟨[], []⟩

/-- After the pushes of `main`, with the counters it zeroes and the CDT configuration. -/
def ScanSys.init (k : ScanConf) (nodes : List Nat) (par : Parallel) (bc : BackupConfig) :
    ScanSys :=
  ⟨nodes, false, List.replicate (min par.val nodes.length) .top, [], [], bc, [], 0, 0, 0,
    Fs.init k, false⟩

/-- The states a run of `main` reaches once its threads are created. -/
inductive ScanReachable (k : ScanConf) (nodes : List Nat) (par : Parallel) (bc : BackupConfig) :
    ScanSys → Prop
  | init : ScanReachable k nodes par bc (ScanSys.init k nodes par bc)
  | step {s s' : ScanSys} {a : ScanAct} : ScanReachable k nodes par bc s →
      scanStep k s a = some s' → ScanReachable k nodes par bc s'


section Spec

variable {k : ScanConf} {s s' : ScanSys} {ctx ctx' : NodeCtx} {e : OpenEnv} {ok : Bool}

/-- What `open_dir_file` can leave, one case per branch. -/
theorem openDirFile_spec (h : openDirFile k s ctx e = (ok, ctx', s')) :
    (ok = false ∧ ctx' = ctx ∧ s' = s) ∨
    (ok = false ∧ ctx' = { ctx with fd := none } ∧
      s' = { s with fs := s.fs.unlink (ctx.nextPath k) }) ∨
    (∃ b, ok = false ∧ ctx' = { ctx with fd := none } ∧
      s' = { s with
        fs := (s.fs.unlink (ctx.nextPath k)).create (ctx.nextPath k) ⟨b, []⟩
        writeFailed := true }) ∨
    ∃ b, ok = true ∧ ctx' = ctx.opened s.fs.inodes.length b ∧
      s' = { s with
        fs := (s.fs.unlink (ctx.nextPath k)).create (ctx.nextPath k) ⟨b, []⟩
        byteCountTotal := s.byteCountTotal + b } := by
  dsimp only [openDirFile] at h
  split_ifs at h
  · obtain ⟨rfl, rfl, rfl⟩ := h
    exact .inl ⟨rfl, rfl, rfl⟩
  · cases e <;> obtain ⟨rfl, rfl, rfl⟩ := h
    · exact .inl ⟨rfl, rfl, rfl⟩
    · exact .inr (.inl ⟨rfl, rfl, rfl⟩)
    · exact .inr (.inr (.inl ⟨_, rfl, rfl, rfl⟩))
    · exact .inr (.inr (.inr ⟨_, rfl, rfl, rfl⟩))

theorem switchFile_true {e : CallbackEnv} (h : switchFile k s ctx e = (true, ctx', s')) :
    ∃ b, ctx'.fd = some s.fs.inodes.length ∧
      s'.fs.inodes[s.fs.inodes.length]? = some ⟨b, []⟩ := by
  dsimp only [switchFile] at h
  split_ifs at h
  · rcases openDirFile_spec h with ⟨h, -⟩ | ⟨h, -⟩ | ⟨-, h, -⟩ | ⟨b, -, rfl, rfl⟩
    · cases h
    · cases h
    · cases h
    · exact ⟨b, rfl, by simp⟩
  · exact absurd (congrArg Prod.fst h) Bool.false_ne_true

/-- `s'` differs from `s` at most in the files, the counters and the CDT state: what a thread
changes inside a job. -/
structure Frame (s s' : ScanSys) : Prop where
  queue : s'.queue = s.queue
  stop : s'.stop = s.stop
  threads : s'.threads = s.threads
  scans : s'.scans = s.scans
  popped : s'.popped = s.popped

theorem Frame.rfl' : Frame s s := ⟨rfl, rfl, rfl, rfl, rfl⟩

theorem Frame.trans {s'' : ScanSys} (h₁ : Frame s s') (h₂ : Frame s' s'') : Frame s s'' :=
  ⟨h₂.queue.trans h₁.queue, h₂.stop.trans h₁.stop, h₂.threads.trans h₁.threads,
    h₂.scans.trans h₁.scans, h₂.popped.trans h₁.popped⟩

theorem openDirFile_frame (h : openDirFile k s ctx e = (ok, ctx', s')) :
    Frame s s' ∧ ctx'.node = ctx.node := by
  rcases openDirFile_spec h with ⟨-, rfl, rfl⟩ | ⟨-, rfl, rfl⟩ | ⟨b, -, rfl, rfl⟩ |
    ⟨b, -, rfl, rfl⟩ <;> exact ⟨⟨rfl, rfl, rfl, rfl, rfl⟩, rfl⟩

theorem putRecord_frame {key : Nat} {x : Option Nat} (h : putRecord ctx s key x = (ok, ctx', s')) :
    Frame s s' ∧ ctx'.node = ctx.node := by
  unfold putRecord at h
  split at h
  · obtain ⟨-, rfl, rfl⟩ := h
    exact ⟨⟨rfl, rfl, rfl, rfl, rfl⟩, rfl⟩
  · split at h <;> obtain ⟨-, rfl, rfl⟩ := h <;> exact ⟨⟨rfl, rfl, rfl, rfl, rfl⟩, rfl⟩

theorem switchFile_frame {e : CallbackEnv} (h : switchFile k s ctx e = (ok, ctx', s')) :
    Frame s s' ∧ ctx'.node = ctx.node := by
  dsimp only [switchFile] at h
  split_ifs at h
  · obtain ⟨hf, hn⟩ := openDirFile_frame h
    exact ⟨hf, hn⟩
  · obtain ⟨-, rfl, rfl⟩ := h
    exact ⟨⟨rfl, rfl, rfl, rfl, rfl⟩, rfl⟩

theorem outputRecord_frame {key : Nat} {e : CallbackEnv}
    (h : outputRecord k s ctx key e = (ok, ctx', s')) : Frame s s' ∧ ctx'.node = ctx.node := by
  unfold outputRecord at h
  split_ifs at h
  · generalize hsf : switchFile k s ctx e = o at h
    obtain ⟨o₁, c₂, s₂⟩ := o
    obtain ⟨hf, hn⟩ := switchFile_frame hsf
    cases o₁
    · obtain ⟨-, rfl, rfl⟩ := h
      exact ⟨hf, hn⟩
    · obtain ⟨hf', hn'⟩ := putRecord_frame h
      exact ⟨hf.trans hf', hn'.trans hn⟩
  · exact putRecord_frame h

theorem scanCallback_frame {v : ScanVal} {e : CallbackEnv}
    (h : scanCallback k s ctx v e = (ok, ctx', s')) : Frame s s' ∧ ctx'.node = ctx.node := by
  dsimp only [scanCallback] at h
  split at h
  · obtain ⟨-, rfl, rfl⟩ := h
    exact ⟨Frame.rfl', rfl⟩
  · obtain ⟨-, rfl, rfl⟩ := h
    exact ⟨Frame.rfl', rfl⟩
  · split_ifs at h
    · obtain ⟨-, rfl, rfl⟩ := h
      exact ⟨⟨rfl, rfl, rfl, rfl, rfl⟩, rfl⟩
    · obtain ⟨hf, hn⟩ := outputRecord_frame h
      exact ⟨⟨hf.queue, hf.stop, hf.threads, hf.scans, hf.popped⟩, hn⟩

theorem backupThreadStep_threads {x x' : ScanThread} {a : ThreadAct}
    (h : backupThreadStep k s x a = some (x', s')) : s'.threads = s.threads := by
  cases backupThreadStep_spec h with
  | opened _ ho | openFailed _ ho => exact (openDirFile_frame ho).1.threads
  | callback ho | aborted ho => exact (scanCallback_frame ho).1.threads
  | _ => rfl

end Spec

theorem getElem?_set_some {α : Type} {l : List α} {w v : Nat} {y z : α}
    (h : (l.set w y)[v]? = some z) : (v = w ∧ y = z) ∨ (v ≠ w ∧ l[v]? = some z) := by
  rw [List.getElem?_set] at h
  split_ifs at h with h1
  · exact .inl ⟨h1.symm, Option.some.inj h⟩
  · exact .inr ⟨Ne.symm h1, h⟩

section Runs

variable {k : ScanConf} {nodes : List Nat} {par : Parallel} {bc : BackupConfig} {s s' : ScanSys}

theorem scanStep_thread {w : Nat} {a : ThreadAct} (h : scanStep k s (.thread w a) = some s') :
    ∃ x x' s₁, s.threads[w]? = some x ∧ backupThreadStep k s x a = some (x', s₁) ∧
      s' = { s₁ with threads := s₁.threads.set w x' } := by
  simp only [scanStep] at h
  split at h
  · obtain ⟨⟨x', s₁⟩, hp, rfl⟩ := Option.map_eq_some'.1 h
    exact ⟨_, x', s₁, ‹_›, hp, rfl⟩
  · cases h

theorem scanRun_reachable : ∀ {l : List ScanAct} {s s' : ScanSys},
    ScanReachable k nodes par bc s → scanRun k s l = some s' → ScanReachable k nodes par bc s'
  | [], _, _, hs, h => Option.some.inj h ▸ hs
  | a :: l, s, _, hs, h => by
    cases ha : scanStep k s a with
    | none => simp [scanRun, ha] at h
    | some s₁ =>
      simp only [scanRun, ha, Option.some_bind] at h
      exact scanRun_reachable (.step hs ha) h

end Runs

end CdtValidation.Backup
