import CdtValidation.Backup.Verdict

/-! Map-key checks of `backup.c`: `map_is_key`, the nested-key validator
`check_map_keys_internal`, and the quadratic duplicate-key scan
`cdt_map_dup_key_check`. Each reads only the region of the bin it is given. -/

namespace CdtValidation.Backup
open CdtValidation.Msgpack

/-- `map_is_key`, on the region `[start, start + sz)` it is given: an integer, a string,
or a blob whose first payload byte is `AS_BYTES_BLOB`. -/
def mapIsKey (buf : List UInt8) : Bool :=
  match msgpackPeekType buf .init with
  | .negint | .int | .string => true
  | .bytes =>
    match msgpackGetBin buf .init with
    | some data => data.head? = some asBytesBlob
    | none => false
  | _ => false

/-- Applies `f` to `x` `k` times, stopping at the first `none`: a C loop whose body
returns `NULL` on failure. -/
def iterateOpt (f : Nat → Option Nat) : Nat → Nat → Option Nat
  | 0, x => some x
  | k + 1, x => (f x).bind (iterateOpt f k)

/-- `check_map_keys_internal(b, end)`, on `buf` cut at `end`: the offset after the value
at `b`, or `none` when it is truncated or holds a map with an invalid key. The C `count`
is a `uint32_t` that `msgpack_parse` adds the element count to. -/
def checkMapKeysInternal (buf : List UInt8) : Nat → Nat → Option Nat
  | 0, _ => none
  | fuel + 1, b => do
    let h ← msgpackParse buf b
    let count := (1 + h.children) % 2 ^ 32
    let eleCount := (count + (2 ^ 32 - 1)) % 2 ^ 32
    if h.type ≠ .list ∧ h.type ≠ .map then some h.next
    else if eleCount = 0 then some h.next
    else do
      -- the cursor and the element count left after an ext marker (and, in a map, its value)
      let s ← if msgpackPeekType buf ⟨h.next, false⟩ = .ext then do
          let e ← msgpackParse buf h.next
          if h.type = .map then do
            let v ← msgpackParse buf e.next
            pure (v.next, eleCount - 2)
          else pure (e.next, eleCount - 1)
        else pure (h.next, eleCount)
      if h.type = .list then iterateOpt (checkMapKeysInternal buf fuel) s.2 s.1
      else iterateOpt (fun nb => if mapIsKey (buf.drop nb) then
          (checkMapKeysInternal buf fuel nb).bind (checkMapKeysInternal buf fuel)
        else none) (s.2 / 2) s.1

/-- The call `check_map_keys_internal(start, end)` on the bin, `true` when it returns
`NULL`. -/
def keysInvalid (buf : List UInt8) (start end_ : Nat) : Bool :=
  (checkMapKeysInternal (buf.take end_) (end_ + 1) start).isNone

/-- The inner loop of `cdt_map_dup_key_check`: compares the key at `cur` with the keys of
the next `k` pairs from `rhs`. -/
def dupKeyInner (buf : List UInt8) (cur : MsgpackIn) : Nat → MsgpackIn → Bool
  | 0, _ => false
  | k + 1, rhs =>
    let r := msgpackCmp buf cur rhs
    if r.cmp = .equal then true else dupKeyInner buf cur k (msgpackSz buf r.mp1).mp

/-- The outer loop of `cdt_map_dup_key_check`, at pair `i` of `eleCount`, `k` rounds left. -/
def dupKeyOuter (buf : List UInt8) (eleCount : Nat) : Nat → Nat → MsgpackIn → Bool
  | 0, _, _ => false
  | k + 1, i, mp =>
    let next := (msgpackSzRep buf mp 2).mp
    if dupKeyInner buf mp (eleCount - i) next then true
    else dupKeyOuter buf eleCount k (i + 1) next

/-- `cdt_map_dup_key_check(ele_count, contents, content_sz)` on the content region. -/
def cdtMapDupKeyCheck (eleCount : Nat) (contents : List UInt8) : Bool :=
  if eleCount ≤ 1 then false else dupKeyOuter contents eleCount (eleCount - 1) 1 .init

end CdtValidation.Backup
