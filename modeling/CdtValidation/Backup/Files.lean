import Mathlib.Data.Nat.Digits
import Mathlib.Algebra.BigOperators.Group.List
import Mathlib.Algebra.Order.Ring.Nat

/-! The files of `backup.c`: the paths `open_dir_file` prints, and a file system of inodes in
which `remove` unlinks a path, `fopen` links a new inode to it, and a thread writes through
its descriptor whether or not the path still names that inode. -/

namespace CdtValidation.Backup

/-! ### File names -/

/-- `PATH_MAX`, the size of `open_dir_file`'s path buffer. -/
def pathMax : Nat := 4096

/-- `%05d` of a file count: its decimal digits, with `0`s in front up to five. -/
def fmt05d (n : Nat) : List Char :=
  List.replicate (5 - (Nat.toDigits 10 n).length) '0' ++ Nat.toDigits 10 n

/-- The path `open_dir_file` prints, `"%s/%s_%05d.asb"`. -/
def dirFilePath (directory node : List Char) (fileCount : Nat) : List Char :=
  directory ++ '/' :: node ++ '_' :: fmt05d fileCount ++ ['.', 'a', 's', 'b']

/-- The value of a string of decimal digits, read left to right. -/
def digitsValue (l : List Char) : Nat :=
  l.foldl (fun a c => 10 * a + (c.toNat - 48)) 0

theorem mem_toDigitsCore {f n : Nat} {ds : List Char} {c : Char}
    (h : c ∈ Nat.toDigitsCore 10 f n ds) : c ∈ ds ∨ ∃ k < 10, c = Nat.digitChar k := by
  have hk : ∀ {m ds}, c ∈ Nat.digitChar (m % 10) :: ds → c ∈ ds ∨ ∃ k < 10, c = Nat.digitChar k :=
    fun h => (List.mem_cons.1 h).symm.imp_right fun h => ⟨_, Nat.mod_lt _ (by decide), h⟩
  induction f generalizing n ds with
  | zero => exact .inl h
  | succ f ih =>
    simp only [Nat.toDigitsCore] at h
    split at h
    · exact hk h
    · exact (ih h).elim hk .inr

theorem underscore_not_mem_fmt05d (n : Nat) : '_' ∉ fmt05d n := by
  have hd : ∀ k < 10, Nat.digitChar k ≠ '_' := by decide
  intro h
  rcases List.mem_append.1 h with h | h
  · exact absurd (List.eq_of_mem_replicate h) (by decide)
  · rcases mem_toDigitsCore h with h | ⟨k, hk, h⟩
    · cases h
    · exact hd k hk h.symm

theorem foldl_digits_toDigitsCore {f n : Nat} (ds : List Char) (hn : n < f) :
    (Nat.toDigitsCore 10 f n ds).foldl (fun a c => 10 * a + (c.toNat - 48)) 0 =
      ds.foldl (fun a c => 10 * a + (c.toNat - 48)) n := by
  have hd : ∀ k < 10, (Nat.digitChar k).toNat - 48 = k := by decide
  induction f generalizing n ds with
  | zero => omega
  | succ f ih =>
    simp only [Nat.toDigitsCore]
    split
    · simp only [List.foldl_cons, hd _ (Nat.mod_lt _ (by omega))]
      congr 1
      omega
    · rw [ih _ (by omega), List.foldl_cons, hd _ (Nat.mod_lt _ (by omega)), Nat.div_add_mod]

theorem digitsValue_fmt05d (n : Nat) : digitsValue (fmt05d n) = n := by
  have hz : ∀ k, (List.replicate k '0').foldl (fun a c => 10 * a + (c.toNat - 48)) 0 = 0 := by
    intro k
    induction k with
    | zero => rfl
    | succ k ih => rw [List.replicate_succ, List.foldl_cons]; exact ih
  rw [digitsValue, fmt05d, List.foldl_append, hz, Nat.toDigits,
    foldl_digits_toDigitsCore [] (Nat.lt_add_one n), List.foldl_nil]

theorem append_cons_cancel {α : Type} {a : α} :
    ∀ {l₁ l₂ d₁ d₂ : List α}, a ∉ d₁ → a ∉ d₂ → l₁ ++ a :: d₁ = l₂ ++ a :: d₂ →
      l₁ = l₂ ∧ d₁ = d₂
  | [], [], _, _, _, _, h => ⟨rfl, (List.cons.inj h).2⟩
  | [], b :: l₂, _, _, h₁, _, h => by
    obtain ⟨rfl, rfl⟩ := List.cons.inj h
    simp at h₁
  | b :: l₁, [], _, _, _, h₂, h => by
    obtain ⟨rfl, rfl⟩ := List.cons.inj h
    simp at h₂
  | b :: l₁, c :: l₂, _, _, h₁, h₂, h => by
    rw [List.cons_append, List.cons_append, List.cons.injEq] at h
    obtain ⟨rfl, h⟩ := h
    obtain ⟨rfl, rfl⟩ := append_cons_cancel h₁ h₂ h
    exact ⟨rfl, rfl⟩

/-- `open_dir_file` never names two files alike, whatever characters the node name holds. -/
theorem dirFilePath_inj {directory a b : List Char} {c d : Nat}
    (h : dirFilePath directory a c = dirFilePath directory b d) : a = b ∧ c = d := by
  have hu : ∀ n, '_' ∉ fmt05d n ++ ['.', 'a', 's', 'b'] := fun n h =>
    (List.mem_append.1 h).elim (underscore_not_mem_fmt05d n) (by decide)
  simp only [dirFilePath, List.append_assoc, List.cons_append, List.append_cancel_left_eq,
    List.cons.injEq, true_and] at h
  obtain ⟨rfl, hs⟩ := append_cons_cancel (hu c) (hu d) h
  refine ⟨rfl, ?_⟩
  rw [← digitsValue_fmt05d c, ← digitsValue_fmt05d d, List.append_cancel_right hs]

/-! ### Files -/

/-- A file's contents as far as the counters see them: the bytes of the header `open_file`
wrote, and the records `put_record` appended, each as its key and its byte count. -/
structure FileData where
  header : Nat
  records : List (Nat × Nat)
deriving DecidableEq, Repr

/-- The bytes of a file. -/
def FileData.size (d : FileData) : Nat :=
  d.header + (d.records.map Prod.snd).sum

/-- The file system: the inodes in the order they were created, and the links of the backup
paths to them. -/
structure Fs where
  inodes : List FileData
  links : List (List Char × Nat)
deriving DecidableEq, Repr

/-- `remove(p)`: the link goes, the inode stays for a descriptor open on it. -/
def Fs.unlink (fs : Fs) (p : List Char) : Fs :=
  { fs with links := fs.links.filter (·.1 ≠ p) }

/-- `fopen(p, "w")` on an unlinked path: a new inode, linked at `p`. -/
def Fs.create (fs : Fs) (p : List Char) (d : FileData) : Fs :=
  ⟨fs.inodes ++ [d], fs.links ++ [(p, fs.inodes.length)]⟩

/-- A record written through descriptor `i`. -/
def Fs.append (fs : Fs) (i : Nat) (r : Nat × Nat) : Fs :=
  { fs with inodes := fs.inodes.modify (fun d => { d with records := d.records ++ [r] }) i }

/-- What the calls of `open_file` return: `remove` failing with an `errno` other than
`ENOENT`, `fopen` failing, a header `fprintf` failing after `bytes` bytes reached the file,
or success with the header's bytes. -/
inductive OpenEnv where
  | removeFailed
  | createFailed
  | headerFailed (bytes : Nat)
  | ok (bytes : Nat)
deriving DecidableEq, Repr

/-- The file system after `open_file(p)`. After a failed header the file stays, closed by
the `close_file` that flushes the bytes written. -/
def openFileFs (fs : Fs) (p : List Char) : OpenEnv → Fs
  | .removeFailed => fs
  | .createFailed => fs.unlink p
  | .headerFailed b => (fs.unlink p).create p ⟨b, []⟩
  | .ok b => (fs.unlink p).create p ⟨b, []⟩

/-- `close_file(fd)`: `NULL` is closed already; otherwise `fflush`, `fsync` and `fclose`
succeed (`ok`) and the descriptor is cleared, or one fails and it stays. What a failed flush
leaves of the buffered records is not modelled: the callers flag the run. -/
def closeFile (fd : Option Nat) (ok : Bool) : Bool × Option Nat :=
  match fd with
  | none => (true, none)
  | some i => if ok then (true, none) else (false, some i)


/-- Every record of a file after its first starts below `limit`. -/
def Bounded (limit : Nat) (d : FileData) : Prop :=
  ∀ j, 0 < j → j < d.records.length → d.header + ((d.records.take j).map Prod.snd).sum < limit

section FsLemmas

variable {fs : Fs} {p : List Char} {d : FileData} {i : Nat} {r : Nat × Nat}

@[simp] theorem Fs.unlink_inodes : (fs.unlink p).inodes = fs.inodes := rfl
@[simp] theorem Fs.create_inodes : (fs.create p d).inodes = fs.inodes ++ [d] := rfl
@[simp] theorem Fs.create_links : (fs.create p d).links = fs.links ++ [(p, fs.inodes.length)] :=
  rfl
@[simp] theorem Fs.append_links : (fs.append i r).links = fs.links := rfl
@[simp] theorem Fs.append_inodes_length : (fs.append i r).inodes.length = fs.inodes.length :=
  List.length_modify ..

theorem Fs.unlink_of_not_mem (hp : p ∉ fs.links.map Prod.fst) : fs.unlink p = fs := by
  unfold Fs.unlink
  refine congrArg (Fs.mk fs.inodes) (List.filter_eq_self.2 fun a ha => ?_)
  simp only [ne_eq, decide_eq_true_eq]
  rintro rfl
  exact hp (List.mem_map_of_mem _ ha)

theorem sum_map_modify {α : Type} {g : α → Nat} {f : α → α} {c : Nat} (hf : ∀ a, g (f a) = g a + c) :
    ∀ {l : List α} {i : Nat}, i < l.length → ((l.modify f i).map g).sum = (l.map g).sum + c
  | _ :: _, 0, _ => by simp only [List.modify_zero_cons, List.map_cons, List.sum_cons, hf]; omega
  | _ :: _, _ + 1, h => by
    simp only [List.modify_succ_cons, List.map_cons, List.sum_cons,
      sum_map_modify hf (Nat.lt_of_succ_lt_succ h)]
    omega

theorem getElem?_append_inode (h : fs.inodes[i]? = some d) :
    (fs.append i r).inodes[i]? = some { d with records := d.records ++ [r] } := by
  simp [Fs.append, List.getElem?_modify, h]

theorem getElem?_append_inode_ne {j : Nat} (h : i ≠ j) :
    (fs.append i r).inodes[j]? = fs.inodes[j]? := by
  simp only [Fs.append, List.getElem?_modify, if_neg h]
  cases fs.inodes[j]? <;> rfl

theorem Bounded.append {limit : Nat} (hb : Bounded limit d)
    (hs : d.records = [] ∨ d.size < limit) : Bounded limit { d with records := d.records ++ [r] } := by
  intro j hj hlt
  simp only [List.length_append, List.length_singleton] at hlt
  rcases Nat.lt_succ_iff_lt_or_eq.1 hlt with hlt | rfl
  · simpa [List.take_append_of_le_length hlt.le] using hb j hj hlt
  · rcases hs with hs | hs
    · simp [hs] at hj
    · simpa [FileData.size] using hs

end FsLemmas

/-- `close_file` leaves the descriptor closed, or as it was when it fails. -/
theorem closeFile_spec (fd : Option Nat) (ok : Bool) :
    (closeFile fd ok).1 = true ∧ (closeFile fd ok).2 = none ∨
      (closeFile fd ok).1 = false ∧ (closeFile fd ok).2 = fd := by
  unfold closeFile
  split
  · exact .inl ⟨rfl, rfl⟩
  · split <;> simp_all

end CdtValidation.Backup
