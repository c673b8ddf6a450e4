import Mathlib.Data.List.Basic

/-! The head of a validation file: the two lines `open_file` of `backup.c` writes, and the
check `open_file` of `restore.c` makes on the files it opens. Files are character lists;
the constants of the shared headers and `escape` are not part of the sources and are
parameters. -/

namespace CdtValidation.Restore

/-- The constants the two `open_file`s take from the missing headers. -/
structure FileConsts where
  version11 : List Char
  version30 : List Char
  version31 : List Char
  metaPrefix : List Char
  metaNamespace : List Char
  metaFirstFile : List Char
  maxMetaLine : Nat

/-- What `open_file` of `backup.c` writes first: `"Validation Version " VERSION_1_1 "\n"`,
then `META_PREFIX META_NAMESPACE " %s\n"` with the escaped namespace. -/
def validationHeader (k : FileConsts) (escape : List Char → List Char) (ns : List Char) :
    List Char :=
  "Validation Version ".toList ++ k.version11 ++ ['\n'] ++
    k.metaPrefix ++ k.metaNamespace ++ [' '] ++ escape ns ++ ['\n']

/-! The C library on character lists. -/

/-- The characters `fgets` reads: at most `k`, through the first newline. -/
def takeLine : Nat → List Char → List Char × List Char
  | 0, s => ([], s)
  | _ + 1, [] => ([], [])
  | k + 1, ch :: s => if ch = '\n' then (['\n'], s) else
    let r := takeLine k s
    (ch :: r.1, r.2)

/-- `fgets(buf, n, fd)`: `none` at the end of the stream. -/
def fgets (n : Nat) (s : List Char) : Option (List Char × List Char) :=
  if s = [] then none else some (takeLine (n - 1) s)

/-- `buf[i]` of a zero-filled buffer holding `buf`. -/
def cAt (buf : List Char) (i : Nat) : Char := buf.getD i '\x00'

/-- The C string at the start of `buf`. -/
def cstr (buf : List Char) : List Char := buf.takeWhile (· ≠ '\x00')

/-- `strncmp(a, b, n) == 0`. -/
def strncmpEq (n : Nat) (a b : List Char) : Bool := (cstr a).take n = (cstr b).take n

/-- `strcmp(a, b) == 0`. -/
def strcmpEq (a b : List Char) : Bool := cstr a = cstr b

/-- What `open_file` of `restore.c` returns through its pointers when it succeeds. -/
structure Opened where
  legacy : Bool
  firstFile : Bool
  lineNo : Nat
  total : Nat
  rest : List Char
deriving DecidableEq, Repr

/-- The scan of `meta` for its newline: the line before it, or `none` when a NUL comes
first (the line did not fit, or held a NUL). -/
def metaLine (m : List Char) : Option (List Char) :=
  match m.span (fun ch => ch ≠ '\n' ∧ ch ≠ '\x00') with
  | (line, '\n' :: _) => some line
  | _ => none

/-- One meta-data line `#…` after the first `#`: `META_PREFIX[1]`, then the first-file
marker or the namespace, checked against `ns_vec[0]` when a target namespace is given. -/
def metaCheck (k : FileConsts) (nsVec : List (List Char)) (line : List Char) (o : Opened) :
    Option Opened :=
  if cAt line 0 ≠ cAt k.metaPrefix 1 then none
  else if strcmpEq (line.drop 1) k.metaFirstFile then some { o with firstFile := true }
  else if strncmpEq k.metaNamespace.length (line.drop 1) k.metaNamespace then
    if 1 < nsVec.length then
      if cAt line (1 + k.metaNamespace.length) ≠ ' ' then none
      else if !strcmpEq (line.drop (1 + k.metaNamespace.length + 1)) (nsVec.headD []) then none
      else some o
    else some o
  else none

/-- The loop over the meta-data lines; `fuel` bounds the characters left. -/
def metaLoop (k : FileConsts) (nsVec : List (List Char)) : Nat → Opened → Option Opened
  | 0, _ => none
  | fuel + 1, o =>
    match o.rest with
    | [] => some o
    | ch :: s =>
      if ch ≠ cAt k.metaPrefix 0 then some o
      else
        match fgets (k.maxMetaLine + 1) s with
        | none => none
        | some m =>
          match metaLine m.1 with
          | none => none
          | some line =>
            match metaCheck k nsVec line
                { o with total := o.total + 1 + line.length + 1, rest := m.2 } with
            | none => none
            | some o => metaLoop k nsVec fuel { o with lineNo := o.lineNo + 1 }

/-- `open_file` of `restore.c` on the stream `s`, with `ns_vec`: the version line, then
the meta-data lines; `none` where it returns `false`. -/
def openFile (k : FileConsts) (nsVec : List (List Char)) (s : List Char) : Option Opened := do
  let v ← fgets 13 s
  if !strncmpEq 8 "Version ".toList v.1 || cAt v.1 11 ≠ '\n' || cAt v.1 12 ≠ '\x00' then none
  else
    let legacy := strncmpEq 3 (v.1.drop 8) k.version30
    if !legacy && !strncmpEq 3 (v.1.drop 8) k.version31 then none
    else metaLoop k nsVec (v.2.length + 1) ⟨legacy, false, 2, 12, v.2⟩

/-- `restore.c` rejects every validation file `backup.c` writes: the twelve characters its
version check reads are `Validation V`, not `Version X.Y\n`. This holds for every
namespace, every `ns_vec`, every value of the missing constants and any records after the
header. -/
theorem openFile_validationHeader (k : FileConsts) (escape : List Char → List Char)
    (ns : List Char) (nsVec : List (List Char)) (records : List Char) :
    openFile k nsVec (validationHeader k escape ns ++ records) = none := by
  have h : fgets 13 (validationHeader k escape ns ++ records) =
      some ("Validation V".toList, "ersion ".toList ++ k.version11 ++ ['\n'] ++ k.metaPrefix ++
        k.metaNamespace ++ [' '] ++ escape ns ++ ['\n'] ++ records) := by
    simp [fgets, validationHeader, takeLine]
  have hv : (!strncmpEq 8 "Version ".toList "Validation V".toList ||
      cAt "Validation V".toList 11 ≠ '\n' || cAt "Validation V".toList 12 ≠ '\x00') = true := by
    decide
  rw [openFile, h]
  simp only [Option.bind_eq_bind, Option.some_bind, hv, if_true]

end CdtValidation.Restore
