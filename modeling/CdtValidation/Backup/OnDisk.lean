import CdtValidation.Backup.FilesInv
import CdtValidation.Backup.Links
import CdtValidation.Backup.Refinement

/-! What a backup leaves on disk, under any schedule of the threads and whatever `fopen`,
`fwrite`, `fclose` and the server return, and what the threads may still do once `stop` is
set. Each result is followed by a run of two nodes in a directory with a limit of 16 bytes,
where the third record of a node switches files. -/

namespace CdtValidation.Backup

/-! ### `stop` and the callbacks in flight -/

/-- Whether a thread is inside `scan_callback`, past its test of `stop`. -/
def ScanThread.isInCallback : ScanThread → Bool
  | .inCallback _ _ => true
  | _ => false

/-- The callbacks in flight. -/
def ScanSys.inFlight (s : ScanSys) : Nat := s.threads.countP ScanThread.isInCallback

section Stop

variable {k : ScanConf} {s s' s'' : ScanSys} {ctx ctx' : NodeCtx} {ok : Bool}

/-- `rec_count_checked` grows by at most `c` from `s` to `s'`, `rec_count_total` by at most `t`. -/
structure Counts (c t : Nat) (s s' : ScanSys) : Prop where
  checked : s.recCountChecked ≤ s'.recCountChecked ∧
    s'.recCountChecked ≤ s.recCountChecked + c
  total : s.recCountTotal ≤ s'.recCountTotal ∧ s'.recCountTotal ≤ s.recCountTotal + t

theorem Counts.of_eq {c t : Nat} (hc : s'.recCountChecked = s.recCountChecked)
    (ht : s'.recCountTotal = s.recCountTotal) : Counts c t s s' :=
  ⟨by omega, by omega⟩

theorem Counts.trans {c t c' t' : Nat} (h₁ : Counts c t s s') (h₂ : Counts c' t' s' s'') :
    Counts (c + c') (t + t') s s'' :=
  ⟨by have := h₁.checked; have := h₂.checked; omega,
    by have := h₁.total; have := h₂.total; omega⟩

theorem openDirFile_counts {e : OpenEnv} (h : openDirFile k s ctx e = (ok, ctx', s')) :
    Counts 0 0 s s' ∧ s'.repairs = s.repairs := by
  rcases openDirFile_spec h with ⟨-, -, rfl⟩ | ⟨-, -, rfl⟩ | ⟨b, -, -, rfl⟩ |
    ⟨b, -, -, rfl⟩ <;> exact ⟨.of_eq rfl rfl, rfl⟩

theorem putRecord_counts {key : Nat} {x : Option Nat} (h : putRecord ctx s key x = (ok, ctx', s')) :
    Counts 0 1 s s' := by
  unfold putRecord at h
  split at h
  · obtain ⟨-, -, rfl⟩ := h
    exact .of_eq rfl rfl
  · split at h <;> obtain ⟨-, -, rfl⟩ := h
    · exact .of_eq rfl rfl
    · exact ⟨⟨le_rfl, le_rfl⟩, ⟨Nat.le_add_right _ _, le_rfl⟩⟩

theorem switchFile_counts {e : CallbackEnv} (h : switchFile k s ctx e = (ok, ctx', s')) :
    Counts 0 0 s s' := by
  dsimp only [switchFile] at h
  split_ifs at h
  · exact (openDirFile_counts h).1
  · obtain ⟨-, -, rfl⟩ := h
    exact .of_eq rfl rfl

theorem outputRecord_counts {key : Nat} {e : CallbackEnv}
    (h : outputRecord k s ctx key e = (ok, ctx', s')) : Counts 0 1 s s' := by
  unfold outputRecord at h
  split_ifs at h
  · generalize hsf : switchFile k s ctx e = o at h
    obtain ⟨o₁, c₂, s₂⟩ := o
    cases o₁
    · obtain ⟨-, -, rfl⟩ := h
      exact (switchFile_counts hsf).trans (.of_eq rfl rfl : Counts 0 1 _ _)
    · exact (switchFile_counts hsf).trans (putRecord_counts h)
  · exact putRecord_counts h

/-- A callback checks one record at most and writes one at most. -/
theorem scanCallback_counts {v : ScanVal} {e : CallbackEnv}
    (h : scanCallback k s ctx v e = (ok, ctx', s')) : Counts 1 1 s s' := by
  dsimp only [scanCallback] at h
  split at h
  · obtain ⟨-, -, rfl⟩ := h
    exact .of_eq rfl rfl
  · obtain ⟨-, -, rfl⟩ := h
    exact .of_eq rfl rfl
  · split_ifs at h
    · obtain ⟨-, -, rfl⟩ := h
      exact ⟨⟨Nat.le_add_right _ _, le_rfl⟩, ⟨le_rfl, Nat.le_add_right _ _⟩⟩
    · refine (?_ : Counts 1 0 _ _).trans (outputRecord_counts h)
      exact ⟨⟨Nat.le_add_right _ _, le_rfl⟩, ⟨le_rfl, le_rfl⟩⟩

/-- With `stop` set, a thread step starts no callback, and only the end of one moves a counter. -/
theorem backupThreadStep_after_stop (hst : s.stop = true) {x x' : ScanThread} {a : ThreadAct}
    (h : backupThreadStep k s x a = some (x', s')) :
    s'.stop = true ∧ x'.isInCallback = false ∧
      (x.isInCallback = true ∧ Counts 1 1 s s' ∨
        x.isInCallback = false ∧ Counts 0 0 s s' ∧ s'.repairs = s.repairs) := by
  cases backupThreadStep_spec h with
  | drained hf _ | pop hf _ | entered hf => exact Bool.noConfusion (hst.symm.trans hf)
  | opened _ ho =>
    exact ⟨(openDirFile_frame ho).1.stop.trans hst, rfl, .inr ⟨rfl, openDirFile_counts ho⟩⟩
  | openFailed _ ho =>
    obtain ⟨hc, hr⟩ := openDirFile_counts ho
    exact ⟨rfl, rfl, .inr ⟨rfl, ⟨hc.checked, hc.total⟩, hr⟩⟩
  | callback ho | aborted ho =>
    exact ⟨(scanCallback_frame ho).1.stop.trans hst, rfl,
      .inl ⟨rfl, scanCallback_counts ho⟩⟩
  | closeFailed _ _ => exact ⟨rfl, rfl, .inr ⟨rfl, .of_eq rfl rfl, rfl⟩⟩
  | _ => exact ⟨hst, rfl, .inr ⟨rfl, .of_eq rfl rfl, rfl⟩⟩

theorem inFlight_set {s₁ : ScanSys} {w : Nat} {x x' : ScanThread} (hw : s.threads[w]? = some x)
    (ht : s₁.threads = s.threads) (hx' : x'.isInCallback = false) :
    ({ s₁ with threads := s₁.threads.set w x' } : ScanSys).inFlight +
      (if x.isInCallback then 1 else 0) = s.inFlight := by
  obtain ⟨hlt, rfl⟩ := List.getElem?_eq_some_iff.1 hw
  have hpos : (if s.threads[w].isInCallback then 1 else 0) ≤ s.inFlight := by
    split
    · exact List.countP_pos_iff.2 ⟨_, List.getElem_mem hlt, ‹_›⟩
    · exact Nat.zero_le _
  simp only [ScanSys.inFlight, ht, List.countP_set _ _ _ _ hlt, hx', Bool.false_eq_true,
    ↓reduceIte] at hpos ⊢
  omega

/-- What a run does once `stop` is set: it keeps `stop`, and each counter grows by at most the
callbacks it ends; with none in flight, it repairs nothing. -/
structure Draining (s s' : ScanSys) : Prop where
  stop : s'.stop = true
  checked : s.recCountChecked ≤ s'.recCountChecked ∧
    s'.recCountChecked + s'.inFlight ≤ s.recCountChecked + s.inFlight
  total : s.recCountTotal ≤ s'.recCountTotal ∧
    s'.recCountTotal + s'.inFlight ≤ s.recCountTotal + s.inFlight
  quiet : s.inFlight = 0 → s'.repairs = s.repairs

theorem Draining.refl (hst : s.stop = true) : Draining s s :=
  ⟨hst, ⟨le_rfl, le_rfl⟩, ⟨le_rfl, le_rfl⟩, fun _ => rfl⟩

theorem Draining.trans (h₁ : Draining s s') (h₂ : Draining s' s'') : Draining s s'' where
  stop := h₂.stop
  checked := by have := h₁.checked; have := h₂.checked; omega
  total := by have := h₁.total; have := h₂.total; omega
  quiet h := by
    have := h₁.checked
    have := h₂.checked
    rw [h₂.quiet (by omega), h₁.quiet h]

theorem scanStep_draining (hst : s.stop = true) {a : ScanAct} (h : scanStep k s a = some s') :
    Draining s s' := by
  cases a with
  | interrupt =>
    cases h
    exact ⟨rfl, ⟨le_rfl, le_rfl⟩, ⟨le_rfl, le_rfl⟩, fun _ => rfl⟩
  | thread w a =>
    obtain ⟨x, x', s₁, hw, hs, rfl⟩ := scanStep_thread h
    obtain ⟨hst₁, hx', hc⟩ := backupThreadStep_after_stop hst hs
    have hf := inFlight_set hw (backupThreadStep_threads hs) hx'
    rcases hc with ⟨hx, hn⟩ | ⟨hx, hn, hr⟩
    · simp only [hx, ↓reduceIte] at hf
      have := hn.checked
      have := hn.total
      exact ⟨hst₁, by dsimp only; omega, by dsimp only; omega, fun h0 => by omega⟩
    · simp only [hx, Bool.false_eq_true, ↓reduceIte, Nat.add_zero] at hf
      have := hn.checked
      have := hn.total
      exact ⟨hst₁, by dsimp only; omega, by dsimp only; omega, fun _ => hr⟩

theorem scanRun_draining : ∀ {l : List ScanAct} {s s' : ScanSys}, s.stop = true →
    scanRun k s l = some s' → Draining s s'
  | [], _, _, hst, h => Option.some.inj h ▸ .refl hst
  | a :: l, s, _, hst, h => by
    cases ha : scanStep k s a with
    | none => simp [scanRun, ha] at h
    | some s₁ =>
      simp only [scanRun, ha, Option.some_bind] at h
      have h₁ := scanStep_draining hst ha
      exact h₁.trans (scanRun_draining h₁.stop h)

end Stop

theorem map_range_getD {α : Type} (xs : List α) (d : α) :
    (List.range xs.length).map (xs.getD · d) = xs := by
  induction xs with
  | nil => rfl
  | cons x xs ih =>
    rw [List.length_cons, List.range_succ_eq_map, List.map_cons, List.map_map]
    simp only [Function.comp_def, List.getD_cons_zero, List.getD_cons_succ, ih]

/-! ### Results -/

/-- A directory backup of nodes `0` and `1` into `d`, with a limit of 16 bytes a file. -/
def twoNodeDir : ScanConf := ⟨.directory, ['d'], [], 16, fun n => [Nat.digitChar n], 0⟩

/-- The same nodes backed up to the file `o`, with a header of 10 bytes. -/
def twoNodeFile : ScanConf := ⟨.file, [], ['o'], 16, fun n => [Nat.digitChar n], 10⟩

/-- A record with a `nil` map key, which `check_map_keys` logs. -/
def twoNodeVal : ScanVal := .record 7 [.bytes asBytesMap [0x81, 0xc0, 0x01]]

/-- Thread `0` hands `scan_callback` the record, which `put_record` writes in 5 bytes. -/
def twoNodeRecord : List ScanAct :=
  [.thread 0 (.callback twoNodeVal), .thread 0 (.store ⟨fun _ => true, true, .ok 10, some 5⟩)]

/-- One thread backs up both nodes, three records each. -/
def twoNodeActs : List ScanAct :=
  let job := [.thread 0 .top, .thread 0 (.openFirst (.ok 10))] ++ twoNodeRecord ++
    twoNodeRecord ++ twoNodeRecord ++ [.thread 0 (.scanEnd true), .thread 0 (.close true)]
  job ++ job ++ [.thread 0 .top]

/-- The first job, interrupted inside its first callback. -/
def twoNodeStopActs : List ScanAct :=
  [.thread 0 .top, .thread 0 (.openFirst (.ok 10)), .thread 0 (.callback twoNodeVal), .interrupt,
    .thread 0 (.store ⟨fun _ => true, true, .ok 10, some 5⟩), .thread 0 (.callback twoNodeVal),
    .thread 0 (.close true), .thread 0 .top]

/-- The state the threads start from. -/
def twoNodeStart (k : ScanConf) : ScanSys :=
  ScanSys.init k [0, 1] ⟨1, by decide, by decide⟩ ⟨false, true, .zero, .zero⟩

/-- The run of `twoNodeActs`. -/
def twoNodeRun (k : ScanConf) : Option ScanSys :=
  scanRun k (twoNodeStart k) twoNodeActs

section Results

variable {k : ScanConf} {nodes : List Nat} {par : Parallel} {bc : BackupConfig} {s : ScanSys}

/-- While no write has failed, the files hold the records `rec_count_total` counts and the
bytes `byte_count_total` counts, but for the header of the single output file: `main` writes
it before the threads start and never counts it. -/
theorem counters_match_backup_files (hs : ScanReachable k nodes par bc s)
    (hok : s.writeFailed = false) :
    (s.fs.inodes.map fun d => d.records.length).sum = s.recCountTotal ∧
      (s.fs.inodes.map FileData.size).sum =
        s.byteCountTotal + if k.out = .file then k.sharedHeader else 0 :=
  hs.filesInv.counted hok

theorem twoNodeRun_counters : ∃ s, twoNodeRun twoNodeDir = some s ∧ s.writeFailed = false ∧
    (s.fs.inodes.map fun d => d.records.length).sum = s.recCountTotal ∧
      (s.fs.inodes.map FileData.size).sum =
        s.byteCountTotal + if twoNodeDir.out = .file then twoNodeDir.sharedHeader else 0 :=
  (fun (hr : _ = _) (hok : _ = _) => ⟨_, hr, hok,
    counters_match_backup_files (scanRun_reachable .init hr) hok⟩) rfl rfl

/-- A backup to a single file creates no other file: every record goes to the output file
`main` opened, after its header, and while no write has failed `byte_count_total` counts their
bytes. -/
theorem single_file_holds_every_record (hf : k.out = .file) (hs : ScanReachable k nodes par bc s)
    (hok : s.writeFailed = false) :
    s.fs.links = [(k.outputFile, 0)] ∧ ∃ rs, s.fs.inodes = [⟨k.sharedHeader, rs⟩] ∧
      rs.length = s.recCountTotal ∧ (rs.map Prod.snd).sum = s.byteCountTotal := by
  obtain ⟨hl, rs, hi⟩ := hs.singleFile hf
  obtain ⟨hr, hb⟩ := hs.filesInv.counted hok
  refine ⟨hl, rs, hi, by simpa [hi] using hr, ?_⟩
  simp only [hi, hf, List.map_cons, List.map_nil, List.sum_cons, List.sum_nil, FileData.size,
    ↓reduceIte] at hb
  omega

theorem twoNodeRun_single_file : ∃ s, twoNodeRun twoNodeFile = some s ∧
    s.writeFailed = false ∧ s.fs.links = [(twoNodeFile.outputFile, 0)] ∧
      ∃ rs, s.fs.inodes = [⟨twoNodeFile.sharedHeader, rs⟩] ∧ rs.length = s.recCountTotal ∧ (rs.map Prod.snd).sum = s.byteCountTotal :=
  (fun (hr : _ = _) (hok : _ = _) => ⟨_, hr, hok,
    single_file_holds_every_record rfl (scanRun_reachable .init hr) hok⟩) rfl rfl

/-- In a directory, every record of a file after its first was written while the file was
below `file_limit`: `scan_callback` moves to a new file once the current one reaches it. -/
theorem backup_file_below_limit (hd : k.out = .directory) (hs : ScanReachable k nodes par bc s) :
    ∀ d ∈ s.fs.inodes, ∀ j, 0 < j → j < d.records.length →
      d.header + ((d.records.take j).map Prod.snd).sum < k.fileLimit := by
  intro d hm
  obtain ⟨i, hi⟩ := List.mem_iff_getElem?.1 hm
  exact hs.filesInv.bounded hd i d hi

theorem twoNodeRun_below_limit : ∃ s, twoNodeRun twoNodeDir = some s ∧
    ∀ d ∈ s.fs.inodes, ∀ j, 0 < j → j < d.records.length →
      d.header + ((d.records.take j).map Prod.snd).sum < twoNodeDir.fileLimit :=
  (fun (hr : _ = _) => ⟨_, hr, backup_file_below_limit rfl (scanRun_reachable .init hr)⟩) rfl

/-- In a directory backup of nodes of distinct names, no backup file is lost: every file
`open_dir_file` created is linked once, under a name no other file has, so while no write has
failed the directory's files hold all `rec_count_total` records. -/
theorem directory_keeps_every_record (hd : k.out = .directory) (hnd : nodes.Nodup)
    (hnm : NamesDistinct k nodes) (hs : ScanReachable k nodes par bc s) :
    (s.fs.links.map Prod.fst).Nodup ∧
      List.Perm (s.fs.links.map Prod.snd) (List.range s.fs.inodes.length) ∧
      (s.writeFailed = false →
        (s.fs.links.map fun l => (s.fs.inodes.getD l.2 ⟨0, []⟩).records.length).sum =
          s.recCountTotal) := by
  have hl := hs.linkInv hd hnd hnm
  refine ⟨hl.paths, hl.once, fun hok => ?_⟩
  let f := fun i => (s.fs.inodes.getD i ⟨0, []⟩).records.length
  calc (s.fs.links.map fun l => f l.2).sum
      = ((s.fs.links.map Prod.snd).map f).sum := by rw [List.map_map]; rfl
    _ = ((List.range s.fs.inodes.length).map f).sum := (hl.once.map f).sum_eq
    _ = (s.fs.inodes.map fun d => d.records.length).sum := by
      conv_rhs => rw [← map_range_getD s.fs.inodes ⟨0, []⟩, List.map_map]
      rfl
    _ = s.recCountTotal := (hs.filesInv.counted hok).1

theorem twoNodeRun_keeps_every_record : ∃ s, twoNodeRun twoNodeDir = some s ∧
    (s.fs.links.map Prod.fst).Nodup ∧
      List.Perm (s.fs.links.map Prod.snd) (List.range s.fs.inodes.length) ∧
      (s.writeFailed = false →
        (s.fs.links.map fun l => (s.fs.inodes.getD l.2 ⟨0, []⟩).records.length).sum =
          s.recCountTotal) :=
  (fun (hr : _ = _) => ⟨_, hr, directory_keeps_every_record rfl (by decide)
    (by unfold NamesDistinct; decide) (scanRun_reachable .init hr)⟩) rfl
/-- The detailed threads refine the job model: what `CdtValidation.Backup.Jobs` proves of
every state it reaches holds of the pipeline's. -/
theorem scan_refines_jobs (hs : ScanReachable k nodes par bc s) :
    JobsReachable k.out nodes par s.jobs :=
  hs.jobs

theorem twoNodeRun_refines : ∃ s, twoNodeRun twoNodeDir = some s ∧
    JobsReachable twoNodeDir.out [0, 1] ⟨1, by decide, by decide⟩ s.jobs :=
  (fun (hr : _ = _) => ⟨_, hr, scan_refines_jobs (scanRun_reachable .init hr)⟩) rfl

/-- Each queued node is backed up at most once, under any schedule: `cf_queue_pop` hands it
to one thread, and the scans run are of queued nodes. -/
theorem node_backed_up_once (hnd : nodes.Nodup) (hs : ScanReachable k nodes par bc s) :
    (s.scans.map Prod.fst).Nodup ∧ ∀ p ∈ s.scans, p.1 ∈ nodes := by
  have hc : ∀ c, (s.scans.map Prod.fst).count c ≤ nodes.count c := fun c => by
    have := hs.jobs.placed c
    rw [Jobs.count_placed] at this
    exact le_trans (by simp only [ScanSys.jobs]; omega) this
  refine ⟨List.nodup_iff_count_le_one.2 fun c => (hc c).trans
    (List.nodup_iff_count_le_one.1 hnd c), fun p hp => ?_⟩
  exact List.count_pos_iff.1 (lt_of_lt_of_le
    (List.count_pos_iff.2 (List.mem_map_of_mem Prod.fst hp)) (hc p.1))

theorem twoNodeRun_backed_up_once : ∃ s, twoNodeRun twoNodeDir = some s ∧
    (s.scans.map Prod.fst).Nodup ∧ ∀ p ∈ s.scans, p.1 ∈ [0, 1] :=
  (fun (hr : _ = _) => ⟨_, hr, node_backed_up_once (by decide)
    (scanRun_reachable .init hr)⟩) rfl

/-- Once `stop` is set, by `sig_hand` or by a thread that failed, only the callbacks already
past their test of `stop` may still check and write a record, one each; with none in flight,
no record is checked, written or repaired again, whatever the threads do next. -/
theorem records_after_stop_in_flight (hst : s.stop = true) {l : List ScanAct} {s' : ScanSys}
    (h : scanRun k s l = some s') :
    s'.recCountChecked ≤ s.recCountChecked + s.inFlight ∧
      s'.recCountTotal ≤ s.recCountTotal + s.inFlight ∧
      (s.inFlight = 0 → s'.recCountChecked = s.recCountChecked ∧
        s'.recCountTotal = s.recCountTotal ∧ s'.repairs = s.repairs) := by
  have hd := scanRun_draining hst h
  have hc := hd.checked
  have ht := hd.total
  exact ⟨by omega, by omega, fun h0 => ⟨by omega, by omega, hd.quiet h0⟩⟩

theorem twoNodeRun_stopped : ∃ s s',
    scanRun twoNodeDir (twoNodeStart twoNodeDir) (twoNodeStopActs.take 4) = some s ∧
      s.stop = true ∧ scanRun twoNodeDir s (twoNodeStopActs.drop 4) = some s' ∧
      s.inFlight = 1 ∧ s'.recCountTotal = s.recCountTotal + 1 ∧
      s'.recCountChecked ≤ s.recCountChecked + s.inFlight ∧
      s'.recCountTotal ≤ s.recCountTotal + s.inFlight ∧
      (s.inFlight = 0 → s'.recCountChecked = s.recCountChecked ∧
        s'.recCountTotal = s.recCountTotal ∧ s'.repairs = s.repairs) :=
  (fun (h₁ : _ = _) (hst : _ = _) (h₂ : _ = _) (hn : _ = _) (ht : _ = _) =>
    ⟨_, _, h₁, hst, h₂, hn, ht, records_after_stop_in_flight hst h₂⟩) rfl rfl rfl rfl rfl

end Results

end CdtValidation.Backup
