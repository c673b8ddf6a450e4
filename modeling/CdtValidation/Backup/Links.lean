import CdtValidation.Backup.Scan

/-! The backup directory over a run: every file `open_dir_file` creates is linked once, under
a path no other link holds, when the nodes' names are distinct. -/

namespace CdtValidation.Backup

section Steps

variable {k : ScanConf} {s s' : ScanSys} {ctx ctx' : NodeCtx} {e : OpenEnv} {ok : Bool}

/-- What a step of a job does to the directory: nothing; `remove` of the path `p` of the
context's next file; or that and `fopen` of a new inode there. -/
def LinkStep (p : List Char) (fs fs' : Fs) : Prop :=
  (fs'.links = fs.links ∧ fs'.inodes.length = fs.inodes.length) ∨
  (fs'.links = (fs.unlink p).links ∧ fs'.inodes.length = fs.inodes.length) ∨
  (fs'.links = (fs.unlink p).links ++ [(p, fs.inodes.length)] ∧
    fs'.inodes.length = fs.inodes.length + 1)

theorem LinkStep.rfl' {p : List Char} {fs : Fs} : LinkStep p fs fs := .inl ⟨rfl, rfl⟩

theorem LinkStep.trans_same {p : List Char} {fs fs' fs'' : Fs} (h : LinkStep p fs fs')
    (h' : fs''.links = fs'.links ∧ fs''.inodes.length = fs'.inodes.length) : LinkStep p fs fs'' := by
  rcases h with ⟨h₁, h₂⟩ | ⟨h₁, h₂⟩ | ⟨h₁, h₂⟩
  · exact .inl ⟨h'.1.trans h₁, h'.2.trans h₂⟩
  · exact .inr (.inl ⟨h'.1.trans h₁, h'.2.trans h₂⟩)
  · exact .inr (.inr ⟨h'.1.trans h₁, h'.2.trans h₂⟩)

theorem openDirFile_links (h : openDirFile k s ctx e = (ok, ctx', s')) :
    LinkStep (ctx.nextPath k) s.fs s'.fs ∧ ctx.fileCount ≤ ctx'.fileCount ∧
      (ok = true → ctx'.fileCount = ctx.fileCount + 1) := by
  rcases openDirFile_spec h with ⟨rfl, rfl, rfl⟩ | ⟨rfl, rfl, rfl⟩ | ⟨b, rfl, rfl, rfl⟩ |
    ⟨b, rfl, rfl, rfl⟩
  · exact ⟨LinkStep.rfl', le_rfl, nofun⟩
  · exact ⟨.inr (.inl ⟨rfl, rfl⟩), le_rfl, nofun⟩
  · exact ⟨.inr (.inr ⟨rfl, by simp⟩), le_rfl, nofun⟩
  · exact ⟨.inr (.inr ⟨rfl, by simp⟩), Nat.le_succ _, fun _ => rfl⟩

theorem putRecord_links {key : Nat} {x : Option Nat} (h : putRecord ctx s key x = (ok, ctx', s')) :
    (s'.fs.links = s.fs.links ∧ s'.fs.inodes.length = s.fs.inodes.length) ∧
      ctx'.fileCount = ctx.fileCount := by
  unfold putRecord at h
  split at h
  · obtain ⟨-, rfl, rfl⟩ := h
    exact ⟨⟨rfl, rfl⟩, rfl⟩
  · split at h <;> obtain ⟨-, rfl, rfl⟩ := h
    · exact ⟨⟨rfl, rfl⟩, rfl⟩
    · exact ⟨⟨rfl, by simp⟩, rfl⟩

theorem switchFile_links {e : CallbackEnv} (h : switchFile k s ctx e = (ok, ctx', s')) :
    LinkStep (ctx.nextPath k) s.fs s'.fs ∧ ctx.fileCount ≤ ctx'.fileCount ∧
      (ok = true → ctx'.fileCount = ctx.fileCount + 1) := by
  dsimp only [switchFile] at h
  split_ifs at h
  · obtain ⟨hl, hc, hok⟩ := openDirFile_links h
    exact ⟨hl, hc, hok⟩
  · obtain ⟨rfl, rfl, rfl⟩ := h
    exact ⟨LinkStep.rfl', le_rfl, nofun⟩

theorem scanCallback_links {v : ScanVal} {e : CallbackEnv}
    (h : scanCallback k s ctx v e = (ok, ctx', s')) :
    LinkStep (ctx.nextPath k) s.fs s'.fs ∧ ctx.fileCount ≤ ctx'.fileCount ∧
      (ok = true → s'.fs.inodes.length ≠ s.fs.inodes.length →
        ctx'.fileCount = ctx.fileCount + 1) := by
  have hsame : ∀ {s₁ : ScanSys}, s₁.fs = s.fs → LinkStep (ctx.nextPath k) s.fs s₁.fs ∧
      ctx.fileCount ≤ ctx.fileCount ∧ (ok = true → s₁.fs.inodes.length ≠ s.fs.inodes.length →
        ctx.fileCount = ctx.fileCount + 1) :=
    fun hf => ⟨hf ▸ LinkStep.rfl', le_rfl, fun _ h => absurd (hf ▸ rfl) h⟩
  dsimp only [scanCallback] at h
  split at h
  · obtain ⟨-, rfl, rfl⟩ := h
    exact hsame rfl
  · obtain ⟨-, rfl, rfl⟩ := h
    exact hsame rfl
  · split_ifs at h
    · obtain ⟨-, rfl, rfl⟩ := h
      exact hsame rfl
    · unfold outputRecord at h
      split_ifs at h
      · generalize hsf : switchFile k _ ctx e = o at h
        obtain ⟨o₁, c₂, s₂⟩ := o
        obtain ⟨hl, hc, hok⟩ := switchFile_links hsf
        cases o₁
        · obtain ⟨rfl, rfl, rfl⟩ := h
          exact ⟨hl, hc, nofun⟩
        · obtain ⟨hp, hpc⟩ := putRecord_links h
          refine ⟨hl.trans_same hp, hpc ▸ hc, fun _ _ => hpc.trans (hok rfl)⟩
      · obtain ⟨hp, hpc⟩ := putRecord_links h
        refine ⟨LinkStep.rfl'.trans_same hp, hpc.ge, fun _ hne => absurd hp.2 hne⟩


end Steps

/-- The node a thread holds. -/
def ScanThread.node? : ScanThread → Option Nat
  | .opening n => some n
  | .scanning ctx => some ctx.node
  | .inCallback ctx _ => some ctx.node
  | .closing ctx _ => some ctx.node
  | _ => none

/-- The node and the file count of a thread's next `open_dir_file`, where one can follow. -/
def ScanThread.nextFile? : ScanThread → Option (Nat × Nat)
  | .opening n => some (n, 0)
  | .scanning ctx => some (ctx.node, ctx.fileCount)
  | .inCallback ctx _ => some (ctx.node, ctx.fileCount)
  | _ => none

theorem ScanThread.node?_of_nextFile? {x : ScanThread} {n f : Nat}
    (h : x.nextFile? = some (n, f)) : x.node? = some n := by
  cases x <;> simp only [ScanThread.nextFile?, ScanThread.node?, reduceCtorEq,
    Option.some.injEq, Prod.mk.injEq] at h ⊢ <;> exact h.1

/-- The directory of a run over distinct node names: the nodes are queued or taken, each taken
node held by at most one thread; every link is of a backup path of a taken node, with a count
below the one its thread opens next; and every inode is linked once. -/
structure LinkInv (k : ScanConf) (nodes : List Nat) (s : ScanSys) : Prop where
  nodes : s.popped ++ s.queue = nodes
  held : ∀ x ∈ s.threads, ∀ n, x.node? = some n → n ∈ s.popped
  excl : ∀ (w₁ w₂ n : Nat) (x₁ x₂ : ScanThread), s.threads[w₁]? = some x₁ →
    s.threads[w₂]? = some x₂ → x₁.node? = some n → x₂.node? = some n → w₁ = w₂
  issued : ∀ l ∈ s.fs.links, ∃ n c, l.1 = dirFilePath k.directory (k.nodeName n) c ∧
    n ∈ s.popped ∧ ∀ x ∈ s.threads, ∀ f, x.nextFile? = some (n, f) → c < f
  paths : (s.fs.links.map Prod.fst).Nodup
  once : List.Perm (s.fs.links.map Prod.snd) (List.range s.fs.inodes.length)

section Links

variable {k : ScanConf} {nodes : List Nat} {s s' : ScanSys}

/-- Node names are distinct on the nodes of the run. -/
def NamesDistinct (k : ScanConf) (nodes : List Nat) : Prop :=
  ∀ a ∈ nodes, ∀ b ∈ nodes, k.nodeName a = k.nodeName b → a = b

theorem LinkInv.init (hd : k.out = .directory) (par : Parallel) (bc : BackupConfig) :
    LinkInv k nodes (ScanSys.init k nodes par bc) := by
  have htop : ∀ x ∈ (ScanSys.init k nodes par bc).threads, x = .top :=
    fun _ hx => (List.mem_replicate.1 hx).2
  refine ⟨rfl, fun x hx n hn => ?_, fun _ _ n x₁ _ h₁ _ hn₁ _ => ?_, ?_, ?_, ?_⟩
  · rw [htop x hx] at hn
    cases hn
  · rw [htop x₁ (List.getElem?_mem h₁)] at hn₁
    cases hn₁
  all_goals simp [ScanSys.init, Fs.init, hd]

/-- The path of a thread's next file is free: no link of the directory holds it. -/
theorem LinkInv.fresh (hnm : NamesDistinct k nodes) (hi : LinkInv k nodes s) {x : ScanThread}
    {n f : Nat} (hx : x ∈ s.threads) (hn : x.nextFile? = some (n, f)) :
    dirFilePath k.directory (k.nodeName n) f ∉ s.fs.links.map Prod.fst := by
  intro hp
  obtain ⟨l, hl, hlp⟩ := List.mem_map.1 hp
  obtain ⟨m, c, hm, hmp, hc⟩ := hi.issued l hl
  obtain ⟨hnm', rfl⟩ := dirFilePath_inj (hlp ▸ hm).symm
  have hin : n ∈ nodes := hi.nodes ▸ List.mem_append_left _
    (hi.held x hx n (ScanThread.node?_of_nextFile? hn))
  obtain rfl := hnm n hin m (hi.nodes ▸ List.mem_append_left _ hmp) hnm'.symm
  exact Nat.lt_irrefl _ (hc x hx _ hn)

theorem LinkStep.of_fresh {p : List Char} {fs fs' : Fs} (h : LinkStep p fs fs')
    (hp : p ∉ fs.links.map Prod.fst) :
    (fs'.links = fs.links ∧ fs'.inodes.length = fs.inodes.length) ∨
      (fs'.links = fs.links ++ [(p, fs.inodes.length)] ∧
        fs'.inodes.length = fs.inodes.length + 1) := by
  unfold LinkStep at h
  rw [Fs.unlink_of_not_mem hp] at h
  rcases h with h | h | h
  · exact .inl h
  · exact .inl h
  · exact .inr h

theorem LinkInv.replace (hnm : NamesDistinct k nodes) (hi : LinkInv k nodes s) {w : Nat}
    {x x' : ScanThread} (hw : s.threads[w]? = some x) (ht : s'.threads = s.threads.set w x')
    (hq : s'.queue = s.queue) (hpop : s'.popped = s.popped)
    (hnode : x'.node? = x.node? ∨ x'.node? = none)
    (hnext : ∀ m f', x'.nextFile? = some (m, f') → ∃ f, x.nextFile? = some (m, f) ∧ f ≤ f')
    (hfs : (s'.fs.links = s.fs.links ∧ s'.fs.inodes.length = s.fs.inodes.length) ∨
      ∃ n f, x.nextFile? = some (n, f) ∧
        LinkStep (dirFilePath k.directory (k.nodeName n) f) s.fs s'.fs ∧
        ∀ f', x'.nextFile? = some (n, f') → s'.fs.inodes.length ≠ s.fs.inodes.length → f < f') :
    LinkInv k nodes s' := by
  have hx : x ∈ s.threads := List.getElem?_mem hw
  have hth : ∀ {v : Nat} {y : ScanThread}, s'.threads[v]? = some y →
      (v = w ∧ y = x') ∨ (v ≠ w ∧ s.threads[v]? = some y) := by
    intro v y h
    rw [ht] at h
    rcases getElem?_set_some h with ⟨h₁, h₂⟩ | h
    · exact .inl ⟨h₁, h₂.symm⟩
    · exact .inr h
  have hnd : ∀ {v : Nat} {y : ScanThread} {m : Nat}, s'.threads[v]? = some y →
      y.node? = some m → ∃ y₀, s.threads[v]? = some y₀ ∧ y₀.node? = some m := by
    intro v y m h hm
    rcases hth h with ⟨rfl, rfl⟩ | ⟨-, h⟩
    · rcases hnode with h' | h'
      · exact ⟨x, hw, h' ▸ hm⟩
      · rw [h'] at hm
        cases hm
    · exact ⟨y, h, hm⟩
  have hnf : ∀ {v : Nat} {y : ScanThread} {m f' : Nat}, s'.threads[v]? = some y →
      y.nextFile? = some (m, f') →
      ∃ y₀ f, s.threads[v]? = some y₀ ∧ y₀.nextFile? = some (m, f) ∧ f ≤ f' := by
    intro v y m f' h hm
    rcases hth h with ⟨rfl, rfl⟩ | ⟨-, h⟩
    · obtain ⟨f, hf, hle⟩ := hnext m f' hm
      exact ⟨x, f, hw, hf, hle⟩
    · exact ⟨y, f', h, hm, le_rfl⟩
  have hlinks : (s'.fs.links = s.fs.links ∧ s'.fs.inodes.length = s.fs.inodes.length) ∨
      ∃ n f, x.nextFile? = some (n, f) ∧
        s'.fs.links = s.fs.links ++ [(dirFilePath k.directory (k.nodeName n) f, s.fs.inodes.length)] ∧
        s'.fs.inodes.length = s.fs.inodes.length + 1 ∧
        ∀ f', x'.nextFile? = some (n, f') → f < f' := by
    rcases hfs with h | ⟨n, f, hn, hstep, hgo⟩
    · exact .inl h
    · rcases hstep.of_fresh (hi.fresh hnm hx hn) with h | ⟨hl, hlen⟩
      · exact .inl h
      · exact .inr ⟨n, f, hn, hl, hlen, fun f' h' => hgo f' h' (by omega)⟩
  refine ⟨hpop ▸ hq ▸ hi.nodes, fun y hy m hm => ?_, fun v₁ v₂ m y₁ y₂ h₁ h₂ hm₁ hm₂ => ?_,
    fun l hl => ?_, ?_, ?_⟩
  · obtain ⟨v, hv⟩ := List.mem_iff_getElem?.1 hy
    obtain ⟨y₀, hy₀, hm₀⟩ := hnd hv hm
    exact hpop ▸ hi.held y₀ (List.getElem?_mem hy₀) m hm₀
  · obtain ⟨z₁, hz₁, hzm₁⟩ := hnd h₁ hm₁
    obtain ⟨z₂, hz₂, hzm₂⟩ := hnd h₂ hm₂
    exact hi.excl v₁ v₂ m z₁ z₂ hz₁ hz₂ hzm₁ hzm₂
  · have hold : l ∈ s.fs.links → ∃ n c, l.1 = dirFilePath k.directory (k.nodeName n) c ∧
        n ∈ s'.popped ∧ ∀ y ∈ s'.threads, ∀ f, y.nextFile? = some (n, f) → c < f := by
      intro hl
      obtain ⟨n, c, hp, hn, hc⟩ := hi.issued l hl
      refine ⟨n, c, hp, hpop ▸ hn, fun y hy f' hf' => ?_⟩
      obtain ⟨v, hv⟩ := List.mem_iff_getElem?.1 hy
      obtain ⟨y₀, f, hy₀, hf, hle⟩ := hnf hv hf'
      exact Nat.lt_of_lt_of_le (hc y₀ (List.getElem?_mem hy₀) f hf) hle
    rcases hlinks with ⟨hl', -⟩ | ⟨n, f, hn, hl', -, hgo⟩
    · exact hold (hl' ▸ hl)
    · rw [hl', List.mem_append, List.mem_singleton] at hl
      rcases hl with hl | rfl
      · exact hold hl
      refine ⟨n, f, rfl, hpop ▸ hi.held x hx n (ScanThread.node?_of_nextFile? hn),
        fun y hy f' hf' => ?_⟩
      obtain ⟨v, hv⟩ := List.mem_iff_getElem?.1 hy
      rcases hth hv with ⟨-, rfl⟩ | ⟨hvw, hv'⟩
      · exact hgo f' hf'
      · exact absurd (hi.excl v w n y x hv' hw (ScanThread.node?_of_nextFile? hf')
          (ScanThread.node?_of_nextFile? hn)) hvw
  · rcases hlinks with ⟨hl', -⟩ | ⟨n, f, hn, hl', -, -⟩
    · exact hl' ▸ hi.paths
    · rw [hl', List.map_append, List.nodup_append]
      exact ⟨hi.paths, List.nodup_singleton _, List.disjoint_singleton.2 (hi.fresh hnm hx hn)⟩
  · rcases hlinks with ⟨hl', hlen⟩ | ⟨n, f, -, hl', hlen, -⟩
    · rw [hl', hlen]
      exact hi.once
    · rw [hl', hlen, List.map_append, List.range_succ]
      exact hi.once.append_right _

theorem LinkInv.pop (hnd : nodes.Nodup) (hi : LinkInv k nodes s) {w n : Nat} {q : List Nat}
    (hw : s.threads[w]? = some .top) (hq : s.queue = n :: q) :
    LinkInv k nodes { s with
      queue := q
      popped := s.popped ++ [n]
      threads := s.threads.set w (.opening n) } := by
  have hfree : n ∉ s.popped := fun h => by
    have := hi.nodes ▸ hnd
    rw [hq] at this
    exact List.disjoint_of_nodup_append this h (List.mem_cons_self n q)
  have hth : ∀ {v : Nat} {y : ScanThread}, (s.threads.set w (.opening n))[v]? = some y →
      (v = w ∧ y = .opening n) ∨ (v ≠ w ∧ s.threads[v]? = some y) := by
    intro v y h
    rcases getElem?_set_some h with ⟨h₁, h₂⟩ | h
    · exact .inl ⟨h₁, h₂.symm⟩
    · exact .inr h
  refine ⟨by rw [← hi.nodes, hq, List.append_assoc, List.singleton_append], fun y hy m hm => ?_,
    fun v₁ v₂ m y₁ y₂ h₁ h₂ hm₁ hm₂ => ?_, fun l hl => ?_, hi.paths, hi.once⟩
  · obtain ⟨v, hv⟩ := List.mem_iff_getElem?.1 hy
    rcases hth hv with ⟨-, rfl⟩ | ⟨-, hv⟩
    · cases hm
      exact List.mem_append_right _ (List.mem_singleton_self _)
    · exact List.mem_append_left _ (hi.held y (List.getElem?_mem hv) m hm)
  · rcases hth h₁ with ⟨rfl, rfl⟩ | ⟨-, h₁'⟩ <;> rcases hth h₂ with ⟨rfl, rfl⟩ | ⟨-, h₂'⟩
    · rfl
    · cases hm₁
      exact absurd (hi.held y₂ (List.getElem?_mem h₂') _ hm₂) hfree
    · cases hm₂
      exact absurd (hi.held y₁ (List.getElem?_mem h₁') _ hm₁) hfree
    · exact hi.excl v₁ v₂ m y₁ y₂ h₁' h₂' hm₁ hm₂
  · obtain ⟨m, c, hp, hm, hc⟩ := hi.issued l hl
    refine ⟨m, c, hp, List.mem_append_left _ hm, fun y hy f hf => ?_⟩
    obtain ⟨v, hv⟩ := List.mem_iff_getElem?.1 hy
    rcases hth hv with ⟨-, rfl⟩ | ⟨-, hv⟩
    · simp only [ScanThread.nextFile?, Option.some.injEq, Prod.mk.injEq] at hf
      exact absurd (hf.1 ▸ hm) hfree
    · exact hc y (List.getElem?_mem hv) f hf
/-- Every step of a directory backup over distinct node names keeps the directory's links. -/
theorem LinkInv.next (hd : k.out = .directory) (hnd : nodes.Nodup) (hnm : NamesDistinct k nodes)
    (hi : LinkInv k nodes s) {a : ScanAct} (h : scanStep k s a = some s') : LinkInv k nodes s' := by
  cases a with
  | interrupt =>
    cases h
    exact ⟨hi.nodes, hi.held, hi.excl, hi.issued, hi.paths, hi.once⟩
  | thread w a =>
    obtain ⟨x, x', s₁, hw, hs, rfl⟩ := scanStep_thread h
    have hkeep : ∀ {y : ScanThread}, s₁.threads = s.threads → s₁.queue = s.queue →
        s₁.popped = s.popped → s₁.fs = s.fs → x' = y → y.node? = none →
        LinkInv k nodes { s₁ with threads := s₁.threads.set w x' } := by
      intro y ht hq hp hfs hy hn
      subst hy
      exact hi.replace hnm hw (by rw [ht]) hq hp (.inr hn)
        (fun _ _ h' => absurd (ScanThread.node?_of_nextFile? h') (by rw [hn]; exact nofun))
        (.inl ⟨by rw [hfs], by rw [hfs]⟩)
    have hth : ∀ {s₂ : ScanSys}, s₂.threads = s.threads →
        ({ s₂ with threads := s₂.threads.set w x' } : ScanSys).threads = s.threads.set w x' :=
      fun ht => by rw [← ht]
    cases backupThreadStep_spec hs with
    | stopped _ | drained _ _ => exact hkeep rfl rfl rfl rfl rfl rfl
    | pop _ hq => exact hi.pop hnd hw hq
    | shared hf =>
      rw [hd] at hf
      cases hf
    | @opened n e c s₂ _ ho =>
      obtain ⟨hf, hnode⟩ := openDirFile_frame ho
      obtain ⟨hl, -, hok⟩ := openDirFile_links ho
      have hc : (ScanThread.scanning c).nextFile? = some (n, 1) := by
        simp [ScanThread.nextFile?, hnode, hok rfl, NodeCtx.init]
      refine hi.replace hnm hw (hth hf.threads) hf.queue hf.popped
        (.inl (by simp [ScanThread.node?, hnode, NodeCtx.init])) (fun m f' h' => ?_)
        (.inr ⟨n, 0, rfl, hl, fun f' h' _ => ?_⟩)
      · rw [hc, Option.some.injEq, Prod.mk.injEq] at h'
        obtain ⟨rfl, rfl⟩ := h'
        exact ⟨0, rfl, Nat.zero_le _⟩
      · rw [hc, Option.some.injEq, Prod.mk.injEq] at h'
        rw [← h'.2]
        exact Nat.zero_lt_one
    | @openFailed n e c s₂ _ ho =>
      obtain ⟨hf, -⟩ := openDirFile_frame ho
      obtain ⟨hl, -, -⟩ := openDirFile_links ho
      exact hi.replace hnm hw (hth hf.threads) hf.queue hf.popped (.inr rfl) nofun
        (.inr ⟨n, 0, rfl, hl, nofun⟩)
    | @callback ctx c v e s₂ ho =>
      obtain ⟨hf, hnode⟩ := scanCallback_frame ho
      obtain ⟨hl, hle, hok⟩ := scanCallback_links ho
      refine hi.replace hnm hw (hth hf.threads) hf.queue hf.popped
        (.inl (by simp [ScanThread.node?, hnode])) (fun m f' h' => ?_)
        (.inr ⟨ctx.node, ctx.fileCount, rfl, hl, fun f' h' hne => ?_⟩)
      · simp only [ScanThread.nextFile?, Option.some.injEq, Prod.mk.injEq] at h'
        exact ⟨ctx.fileCount, by rw [← h'.1, hnode]; rfl, h'.2 ▸ hle⟩
      · simp only [ScanThread.nextFile?, Option.some.injEq, Prod.mk.injEq] at h'
        rw [← h'.2, hok rfl hne]
        exact Nat.lt_succ_self _
    | @aborted ctx c v e s₂ ho =>
      obtain ⟨hf, hnode⟩ := scanCallback_frame ho
      obtain ⟨hl, -, -⟩ := scanCallback_links ho
      exact hi.replace hnm hw (hth hf.threads) hf.queue hf.popped
        (.inl (by simp [ScanThread.node?, hnode])) nofun
        (.inr ⟨ctx.node, ctx.fileCount, rfl, hl, nofun⟩)
    | refused _ | scanEnd =>
      exact hi.replace hnm hw (hth rfl) rfl rfl (.inl rfl) nofun (.inl ⟨rfl, rfl⟩)
    | entered _ =>
      exact hi.replace hnm hw (hth rfl) rfl rfl (.inl rfl) (fun _ f' h' => ⟨f', h', le_rfl⟩)
        (.inl ⟨rfl, rfl⟩)
    | closed _ | closeFailed _ _ => exact hkeep rfl rfl rfl rfl rfl rfl

end Links

section Runs

variable {k : ScanConf} {nodes : List Nat} {par : Parallel} {bc : BackupConfig} {s : ScanSys}

theorem ScanReachable.linkInv (hd : k.out = .directory) (hnd : nodes.Nodup)
    (hnm : NamesDistinct k nodes) (hs : ScanReachable k nodes par bc s) : LinkInv k nodes s := by
  induction hs with
  | init => exact LinkInv.init hd par bc
  | step _ h ih => exact ih.next hd hnd hnm h

end Runs

end CdtValidation.Backup
