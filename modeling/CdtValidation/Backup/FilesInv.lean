import CdtValidation.Backup.Scan

/-! The files and counters as the threads see them, in both output modes: every descriptor
names an inode, and, while no write has failed, the files hold what the counters count; in a
directory each thread writes an inode of its own, of the size it counts, and in a single
output file a step only appends to it. -/

namespace CdtValidation.Backup

/-- The inode a context writes through and the size it counts for it. -/
def NodeCtx.claim (ctx : NodeCtx) : Option (Nat × Nat) :=
  ctx.fd.map fun i => (i, ctx.byteCountFile)

/-- The claim of a thread's context, in its scan or after it. -/
def ScanThread.claim : ScanThread → Option (Nat × Nat)
  | .scanning ctx => ctx.claim
  | .inCallback ctx _ => ctx.claim
  | .closing ctx _ => ctx.claim
  | _ => none

/-- The files and counters as the threads' claims `l` see them; the header of the single
output file is the one write the counters never count. -/
structure FilesInv (k : ScanConf) (s : ScanSys) (l : List (Option (Nat × Nat))) : Prop where
  fd_lt : ∀ w i b : Nat, l[w]? = some (some (i, b)) → i < s.fs.inodes.length
  shared : k.out = .file → s.fs.inodes ≠ []
  counted : s.writeFailed = false →
    (s.fs.inodes.map fun d => d.records.length).sum = s.recCountTotal ∧
      (s.fs.inodes.map FileData.size).sum =
        s.byteCountTotal + if k.out = .file then k.sharedHeader else 0
  own : k.out = .directory → ∀ w₁ w₂ i b₁ b₂ : Nat, l[w₁]? = some (some (i, b₁)) →
    l[w₂]? = some (some (i, b₂)) → w₁ = w₂
  size : k.out = .directory → ∀ w i b : Nat, l[w]? = some (some (i, b)) →
    (s.fs.inodes[i]?).map FileData.size = some b
  bounded : k.out = .directory → ∀ (i : Nat) (d : FileData), s.fs.inodes[i]? = some d →
    Bounded k.fileLimit d

section FilesInv

variable {k : ScanConf} {s s' : ScanSys} {l : List (Option (Nat × Nat))} {w : Nat}
  {ctx ctx' : NodeCtx}

theorem FilesInv.forget (hi : FilesInv k s l) : FilesInv k s (l.set w none) := by
  have h : ∀ {v c}, (l.set w none)[v]? = some (some c) → l[v]? = some (some c) := fun h =>
    (getElem?_set_some h).elim (fun ⟨_, h⟩ => by cases h) And.right
  exact ⟨fun v i b hv => hi.fd_lt v i b (h hv), hi.shared, hi.counted,
    fun ho v₁ v₂ i b₁ b₂ h₁ h₂ => hi.own ho v₁ v₂ i b₁ b₂ (h h₁) (h h₂),
    fun ho v i b hv => hi.size ho v i b (h hv), hi.bounded⟩

theorem FilesInv.congr (hi : FilesInv k s l) (hf : s'.fs.inodes = s.fs.inodes)
    (hr : s'.recCountTotal = s.recCountTotal) (hb : s'.byteCountTotal = s.byteCountTotal)
    (hw : s'.writeFailed = s.writeFailed) : FilesInv k s' l := by
  obtain ⟨h1, h2, h3, h5, h6, h7⟩ := hi
  exact ⟨by rwa [hf], by rwa [hf], by rwa [hf, hr, hb, hw], h5, by rwa [hf], by rwa [hf]⟩

theorem FilesInv.fail (hi : FilesInv k s l) (hf : s'.fs.inodes = s.fs.inodes)
    (hw : s'.writeFailed = true) : FilesInv k s' l := by
  obtain ⟨h1, h2, -, h5, h6, h7⟩ := hi
  exact ⟨by rwa [hf], by rwa [hf], by simp [hw], h5, by rwa [hf], by rwa [hf]⟩

theorem FilesInv.push {b : Nat} {c : Option (Nat × Nat)} (hd : k.out = .directory)
    (hi : FilesInv k s l) (hw : l[w]? = some none)
    (hc : c = none ∨ c = some (s.fs.inodes.length, b))
    (hf : s'.fs.inodes = s.fs.inodes ++ [⟨b, []⟩])
    (hcnt : s'.writeFailed = false → s.writeFailed = false ∧ s'.recCountTotal = s.recCountTotal ∧
      s'.byteCountTotal = s.byteCountTotal + b) : FilesInv k s' (l.set w c) := by
  have hn : ∀ {v j b'}, (l.set w c)[v]? = some (some (j, b')) →
      (v = w ∧ j = s.fs.inodes.length ∧ b' = b) ∨ l[v]? = some (some (j, b')) := by
    intro v j b' h
    rcases getElem?_set_some h with ⟨rfl, rfl⟩ | ⟨-, h⟩
    · rcases hc with h | h <;> simp_all
    · exact .inr h
  have hlt : ∀ {v j b'}, l[v]? = some (some (j, b')) → j < s.fs.inodes.length := hi.fd_lt _ _ _
  refine ⟨fun v j b' h => ?_, fun h => by simp [hd] at h, fun h => ?_,
    fun _ v₁ v₂ j b₁ b₂ h₁ h₂ => ?_, fun _ v j b' h => ?_, fun _ j d h => ?_⟩
  · rw [hf, List.length_append]
    rcases hn h with ⟨-, rfl, -⟩ | h
    · exact Nat.lt_succ_self _
    · exact Nat.lt_succ_of_lt (hlt h)
  · obtain ⟨hw', hr, hb⟩ := hcnt h
    obtain ⟨h₁, h₂⟩ := hi.counted hw'
    exact ⟨by simp [hf, h₁, hr], by simp [hf, h₂, hb, hd, FileData.size]⟩
  · rcases hn h₁ with ⟨rfl, rfl, -⟩ | h₁'
    · rcases hn h₂ with ⟨rfl, -, -⟩ | h₂'
      · rfl
      · exact absurd (hlt h₂') (Nat.lt_irrefl _)
    · rcases hn h₂ with ⟨rfl, rfl, -⟩ | h₂'
      · exact absurd (hlt h₁') (Nat.lt_irrefl _)
      · exact hi.own hd v₁ v₂ j b₁ b₂ h₁' h₂'
  · rcases hn h with ⟨-, rfl, rfl⟩ | h
    · simp [hf, FileData.size]
    · rw [hf, List.getElem?_append_left (hlt h)]
      exact hi.size hd v j b' h
  · rw [hf] at h
    rcases Nat.lt_or_ge j s.fs.inodes.length with hj | hj
    · rw [List.getElem?_append_left hj] at h
      exact hi.bounded hd j d h
    · rw [List.getElem?_append_right hj] at h
      obtain rfl := List.mem_singleton.1 (List.getElem?_mem h)
      intro j' _ hlt
      simp at hlt

theorem FilesInv.put {i b x key : Nat} (hi : FilesInv k s l) (hw : l[w]? = some (some (i, b)))
    (hb : k.out = .directory → ∀ d, s.fs.inodes[i]? = some d → d.records = [] ∨ b < k.fileLimit) :
    FilesInv k { s with
      recCountTotal := s.recCountTotal + 1
      byteCountTotal := s.byteCountTotal + x
      fs := s.fs.append i (key, x) } (l.set w (some (i, b + x))) := by
  have hil := hi.fd_lt w i b hw
  have hn : ∀ {v j b'}, (l.set w (some (i, b + x)))[v]? = some (some (j, b')) →
      (v = w ∧ j = i ∧ b' = b + x) ∨ (v ≠ w ∧ l[v]? = some (some (j, b'))) := by
    intro v j b' h
    rcases getElem?_set_some h with ⟨rfl, hy⟩ | hl
    · simp only [Option.some.injEq, Prod.mk.injEq] at hy
      exact .inl ⟨rfl, hy.1.symm, hy.2.symm⟩
    · exact .inr hl
  have hne : k.out = .directory → ∀ {v j b'}, v ≠ w → l[v]? = some (some (j, b')) → j ≠ i :=
    fun hd v j b' hv h hj => hv (hi.own hd v w j b' b h (hj ▸ hw))
  refine ⟨fun v j b' h => ?_, fun h => ?_, fun h => ⟨?_, ?_⟩, fun hd v₁ v₂ j b₁ b₂ h₁ h₂ => ?_,
    fun hd v j b' h => ?_, fun hd j d h => ?_⟩
  · rw [Fs.append_inodes_length]
    rcases hn h with ⟨-, rfl, -⟩ | ⟨-, h⟩
    · exact hil
    · exact hi.fd_lt _ _ _ h
  · exact List.ne_nil_of_length_pos (by
      rw [Fs.append_inodes_length]; exact List.length_pos.2 (hi.shared h))
  · dsimp only [Fs.append]
    rw [sum_map_modify (fun (d : FileData) =>
      show (d.records ++ [(key, x)]).length = d.records.length + 1 by
      simp) hil, (hi.counted h).1]
  · dsimp only [Fs.append]
    rw [sum_map_modify (fun (d : FileData) => show FileData.size { d with
      records := d.records ++ [(key, x)] } = d.size + x by simp [FileData.size]; omega) hil,
      (hi.counted h).2]
    omega
  · rcases hn h₁ with ⟨rfl, rfl, -⟩ | ⟨h₁v, h₁'⟩
    · rcases hn h₂ with ⟨rfl, -, -⟩ | ⟨h₂v, h₂'⟩
      · rfl
      · exact absurd rfl (hne hd h₂v h₂')
    · rcases hn h₂ with ⟨rfl, rfl, -⟩ | ⟨-, h₂'⟩
      · exact absurd rfl (hne hd h₁v h₁')
      · exact hi.own hd v₁ v₂ j b₁ b₂ h₁' h₂'
  · rcases hn h with ⟨-, rfl, rfl⟩ | ⟨hv, h⟩
    · obtain ⟨d, hd'⟩ := Option.isSome_iff_exists.1 (by simp [hil] : s.fs.inodes[j]?.isSome)
      have := hi.size hd w j b hw
      rw [hd', Option.map_some', Option.some.injEq] at this
      rw [getElem?_append_inode hd', Option.map_some', ← this]
      simp [FileData.size, Nat.add_assoc]
    · rw [getElem?_append_inode_ne (Ne.symm (hne hd hv h))]
      exact hi.size hd v j b' h
  · by_cases hj : i = j
    · subst hj
      obtain ⟨d₀, hd₀⟩ := Option.isSome_iff_exists.1 (by simp [hil] : s.fs.inodes[i]?.isSome)
      rw [getElem?_append_inode hd₀, Option.some.injEq] at h
      subst h
      refine (hi.bounded hd i d₀ hd₀).append ((hb hd d₀ hd₀).imp_right fun hb' => ?_)
      have := hi.size hd w i b hw
      rw [hd₀, Option.map_some', Option.some.injEq] at this
      rwa [this]
    · rw [getElem?_append_inode_ne hj] at h
      exact hi.bounded hd j d h

theorem FilesInv.of_openDirFile {e : OpenEnv} {ok : Bool} (h : openDirFile k s ctx e = (ok, ctx', s'))
    (hd : k.out = .directory) (hi : FilesInv k s l) (hw : l[w]? = some none) (hc : ctx.fd = none) :
    FilesInv k s' (l.set w ctx'.claim) := by
  rcases openDirFile_spec h with ⟨-, rfl, rfl⟩ | ⟨-, rfl, rfl⟩ | ⟨b, -, rfl, rfl⟩ |
    ⟨b, -, rfl, rfl⟩
  · rwa [NodeCtx.claim, hc, Option.map_none', set_of_getElem? hw]
  · exact FilesInv.forget (hi.congr rfl rfl rfl rfl)
  · exact hi.push hd hw (.inl rfl) rfl nofun
  · exact hi.push hd hw (.inr rfl) rfl fun h => ⟨h, rfl, rfl⟩

theorem FilesInv.of_putRecord {key : Nat} {x : Option Nat} {ok : Bool}
    (h : putRecord ctx s key x = (ok, ctx', s')) (hi : FilesInv k s l) (hw : l[w]? = some ctx.claim)
    (hb : k.out = .directory → ∀ i d, ctx.fd = some i → s.fs.inodes[i]? = some d →
      d.records = [] ∨ ctx.byteCountFile < k.fileLimit) :
    FilesInv k s' (l.set w ctx'.claim) := by
  unfold putRecord at h
  split at h
  · obtain ⟨-, rfl, rfl⟩ := h
    rw [set_of_getElem? hw]
    exact hi.fail rfl rfl
  · split at h
    · obtain ⟨-, rfl, rfl⟩ := h
      rwa [set_of_getElem? hw]
    · rename_i b _ i hfd
      obtain ⟨-, rfl, rfl⟩ := h
      rw [NodeCtx.claim, hfd, Option.map_some'] at hw
      have hc : (ctx.wrote b).claim = some (i, ctx.byteCountFile + b) := by
        simp [NodeCtx.claim, NodeCtx.wrote, hfd]
      rw [hc]
      exact hi.put hw fun hd d hd' => hb hd i d hfd hd'

theorem FilesInv.of_switchFile {e : CallbackEnv} {ok : Bool}
    (h : switchFile k s ctx e = (ok, ctx', s')) (hd : k.out = .directory) (hi : FilesInv k s l)
    (hw : l[w]? = some ctx.claim) : FilesInv k s' (l.set w ctx'.claim) := by
  dsimp only [switchFile] at h
  split_ifs at h with hc
  · rw [((closeFile_spec ctx.fd e.closeOk).resolve_right (by simp [hc])).2] at h
    have hw' : (l.set w none)[w]? = some none := by
      simp [(List.getElem?_eq_some_iff.1 hw).1]
    simpa using hi.forget.of_openDirFile h hd hw' rfl
  · obtain ⟨-, rfl, rfl⟩ := h
    have hc' : ({ ctx with fd := (closeFile ctx.fd e.closeOk).2 } : NodeCtx).claim = ctx.claim := by
      simp [NodeCtx.claim, ((closeFile_spec ctx.fd e.closeOk).resolve_left (by simp [hc])).2]
    rw [hc', set_of_getElem? hw]
    exact hi.fail rfl rfl

theorem FilesInv.of_outputRecord {key : Nat} {e : CallbackEnv} {ok : Bool}
    (h : outputRecord k s ctx key e = (ok, ctx', s')) (hi : FilesInv k s l)
    (hw : l[w]? = some ctx.claim) : FilesInv k s' (l.set w ctx'.claim) := by
  unfold outputRecord at h
  split_ifs at h with hsw
  · generalize hsf : switchFile k s ctx e = o at h
    obtain ⟨o₁, c₂, s₂⟩ := o
    have h₂ := hi.of_switchFile hsf hsw.1 hw
    cases o₁
    · obtain ⟨-, rfl, rfl⟩ := h
      exact h₂
    · obtain ⟨b, hfd, hin⟩ := switchFile_true hsf
      have hw₂ : (l.set w c₂.claim)[w]? = some c₂.claim := by
        simp [(List.getElem?_eq_some_iff.1 hw).1]
      simpa using h₂.of_putRecord h hw₂ fun _ i d hi' hd => by
        rw [hfd, Option.some.injEq] at hi'
        subst hi'
        rw [hin, Option.some.injEq] at hd
        exact .inl (by rw [← hd])
  · exact hi.of_putRecord h hw fun hd _ _ _ _ => .inr (Nat.lt_of_not_le fun hl => hsw ⟨hd, hl⟩)

theorem FilesInv.of_scanCallback {v : ScanVal} {e : CallbackEnv} {ok : Bool}
    (h : scanCallback k s ctx v e = (ok, ctx', s')) (hi : FilesInv k s l)
    (hw : l[w]? = some ctx.claim) : FilesInv k s' (l.set w ctx'.claim) := by
  dsimp only [scanCallback] at h
  split at h
  · obtain ⟨-, rfl, rfl⟩ := h
    rwa [set_of_getElem? hw]
  · obtain ⟨-, rfl, rfl⟩ := h
    rwa [set_of_getElem? hw]
  · split_ifs at h
    · obtain ⟨-, rfl, rfl⟩ := h
      rw [set_of_getElem? hw]
      exact hi.congr rfl rfl rfl rfl
    · exact FilesInv.of_outputRecord h (hi.congr rfl rfl rfl rfl) hw

theorem FilesInv.shared_start {b : Nat} (hf : k.out = .file) (hi : FilesInv k s l) :
    FilesInv k s (l.set w (some (0, b))) := by
  refine ⟨fun v i b' h => ?_, hi.shared, hi.counted, fun hd => by simp [hf] at hd,
    fun hd => by simp [hf] at hd, fun hd => by simp [hf] at hd⟩
  rcases getElem?_set_some h with ⟨-, h⟩ | ⟨-, h⟩
  · cases h
    exact List.length_pos.2 (hi.shared hf)
  · exact hi.fd_lt v i b' h

theorem FilesInv.of_backupThreadStep {x x' : ScanThread} {a : ThreadAct}
    (h : backupThreadStep k s x a = some (x', s')) (hi : FilesInv k s l)
    (hw : l[w]? = some x.claim) : FilesInv k s' (l.set w x'.claim) := by
  have hnone : ∀ {s₁}, FilesInv k s₁ l → x.claim = none → FilesInv k s₁ (l.set w none) :=
    fun hi₁ hx => by rwa [← hx, set_of_getElem? hw]
  cases backupThreadStep_spec h with
  | stopped _ | drained _ _ => exact hnone hi rfl
  | pop _ _ => exact hnone (hi.congr rfl rfl rfl rfl) rfl
  | shared hf => exact hi.shared_start hf
  | opened hd ho => exact FilesInv.of_openDirFile ho hd hi hw rfl
  | @openFailed n e c s₂ hd ho =>
    have h₂ : FilesInv k s₂ ((l.set w c.claim).set w none) :=
      (FilesInv.of_openDirFile ho hd hi hw rfl).forget
    rw [List.set_set] at h₂
    exact h₂.congr rfl rfl rfl rfl
  | callback ho | aborted ho => exact FilesInv.of_scanCallback ho hi hw
  | refused _ | entered _ | scanEnd => exact (set_of_getElem? hw).symm ▸ hi
  | closed _ => exact FilesInv.forget (hi.congr rfl rfl rfl rfl)
  | closeFailed _ _ => exact FilesInv.forget (hi.fail rfl rfl)

end FilesInv

section Runs

variable {k : ScanConf} {nodes : List Nat} {par : Parallel} {bc : BackupConfig} {s s' : ScanSys}

theorem FilesInv.init : FilesInv k (ScanSys.init k nodes par bc)
    ((ScanSys.init k nodes par bc).threads.map ScanThread.claim) := by
  have hl : ∀ (v : Nat) (c : Nat × Nat),
      ((ScanSys.init k nodes par bc).threads.map ScanThread.claim)[v]? ≠ some (some c) := by
    intro v c h
    simp [ScanSys.init, List.getElem?_replicate, ScanThread.claim] at h
  refine ⟨fun v i b h => absurd h (hl v _), fun hf => ?_, fun _ => ⟨?_, ?_⟩,
    fun _ v _ _ _ _ h => absurd h (hl v _), fun _ v _ _ h => absurd h (hl v _),
    fun hd i d h => ?_⟩
  · simp only [ScanSys.init, Fs.init, hf]
    exact List.cons_ne_nil _ _
  rotate_right
  · simp [ScanSys.init, Fs.init, hd] at h
  all_goals
    unfold ScanSys.init Fs.init
    split <;> simp [FileData.size, *]

/-- Every step keeps the invariant of the files and counters. -/
theorem FilesInv.next (hi : FilesInv k s (s.threads.map ScanThread.claim)) {a : ScanAct}
    (h : scanStep k s a = some s') : FilesInv k s' (s'.threads.map ScanThread.claim) := by
  cases a with
  | interrupt =>
    cases h
    exact hi.congr rfl rfl rfl rfl
  | thread w a =>
    obtain ⟨x, x', s₁, hw, hs, rfl⟩ := scanStep_thread h
    have h₁ := hi.of_backupThreadStep hs
      (show (s.threads.map ScanThread.claim)[w]? = some x.claim by simp [hw])
    rw [← backupThreadStep_threads hs, ← List.map_set] at h₁
    exact h₁.congr rfl rfl rfl rfl

theorem ScanReachable.filesInv (hs : ScanReachable k nodes par bc s) :
    FilesInv k s (s.threads.map ScanThread.claim) := by
  induction hs with
  | init => exact FilesInv.init
  | step _ h ih => exact ih.next h

end Runs

/-! ### A single output file -/

section Single

variable {k : ScanConf} {s s' : ScanSys} {ctx ctx' : NodeCtx} {ok : Bool}

/-- What a step may do to the file system of a single output file: nothing, or a record
appended through a descriptor. -/
def AppendOnly (fs fs' : Fs) : Prop := fs' = fs ∨ ∃ i r, fs' = fs.append i r

theorem putRecord_appendOnly {key : Nat} {x : Option Nat}
    (h : putRecord ctx s key x = (ok, ctx', s')) : AppendOnly s.fs s'.fs := by
  unfold putRecord at h
  split at h
  · obtain ⟨-, -, rfl⟩ := h
    exact .inl rfl
  · split at h <;> obtain ⟨-, -, rfl⟩ := h
    · exact .inl rfl
    · exact .inr ⟨_, _, rfl⟩

theorem scanCallback_appendOnly (hf : k.out = .file) {v : ScanVal} {e : CallbackEnv}
    (h : scanCallback k s ctx v e = (ok, ctx', s')) : AppendOnly s.fs s'.fs := by
  dsimp only [scanCallback] at h
  split at h
  · obtain ⟨-, -, rfl⟩ := h
    exact .inl rfl
  · obtain ⟨-, -, rfl⟩ := h
    exact .inl rfl
  · split_ifs at h
    · obtain ⟨-, -, rfl⟩ := h
      exact .inl rfl
    · simp only [outputRecord, hf, reduceCtorEq, false_and, ↓reduceIte] at h
      have := putRecord_appendOnly h
      exact this

/-- In a backup to a single file, a thread step only appends records to it. -/
theorem backupThreadStep_appendOnly (hf : k.out = .file) {x x' : ScanThread} {a : ThreadAct}
    (h : backupThreadStep k s x a = some (x', s')) : AppendOnly s.fs s'.fs := by
  cases backupThreadStep_spec h with
  | opened hd _ | openFailed hd _ | closeFailed hd _ => exact absurd (hf.symm.trans hd) (by decide)
  | callback ho | aborted ho => exact scanCallback_appendOnly hf ho
  | _ => exact .inl rfl

/-- The single output file `main` opened, with its header and some records. -/
def SingleFile (k : ScanConf) (fs : Fs) : Prop :=
  fs.links = [(k.outputFile, 0)] ∧ ∃ rs, fs.inodes = [⟨k.sharedHeader, rs⟩]

theorem SingleFile.of_appendOnly {fs fs' : Fs} (hs : SingleFile k fs) (h : AppendOnly fs fs') :
    SingleFile k fs' := by
  rcases h with rfl | ⟨i, r, rfl⟩
  · exact hs
  · obtain ⟨hl, rs, hi⟩ := hs
    refine ⟨hl, ?_⟩
    rcases i with _ | i <;> simp [Fs.append, hi]

theorem ScanReachable.singleFile {nodes : List Nat} {par : Parallel} {bc : BackupConfig}
    (hf : k.out = .file) (hs : ScanReachable k nodes par bc s) : SingleFile k s.fs := by
  induction hs with
  | init => simp [SingleFile, ScanSys.init, Fs.init, hf]
  | @step _ _ a _ h ih =>
    cases a with
    | interrupt =>
      cases h
      exact ih
    | thread w a =>
      obtain ⟨x, x', s₁, -, hs, rfl⟩ := scanStep_thread h
      have ha := backupThreadStep_appendOnly hf hs
      exact ih.of_appendOnly ha

end Single

end CdtValidation.Backup
