import CdtValidation.Backup.Keys

/-! `cdt_map_need_fix`, written as `cdt_list_need_fix` is: `.error` for an early
`return`, `.ok` on reaching `cdt_check_sz`. -/

namespace CdtValidation.Backup
open CdtValidation.Msgpack

/-- The bytes `[cf->contents, cf->contents + cf->content_sz)` of the bin. -/
def contentRegion (buf : List UInt8) (cf : CdtFix) : List UInt8 :=
  (buf.drop cf.contents).take cf.contentSz

/-- The tail of the map reorder branch: a duplicate key wins over the order fix, and an
overrun is counted corrupt. -/
def mapOrderFix (buf : List UInt8) (eleCount : Nat) (mp : MsgpackIn) (cf : CdtFix)
    (st : CdtStats) : Verdict :=
  let cf := { cf with contentSz := mp.offset - cf.contents, nfMapOrder := true }
  if mp.offset ≤ buf.length then
    if cdtMapDupKeyCheck eleCount (contentRegion buf cf) then cannotFix .cfDupkey cf st
    else orderFix mp.offset buf.length cf st
  else cannotFix .cfCorrupt cf st

/-- The reorder branch at iteration `i`: it skips `2 * (ele_count - i - 2)` values,
computed in `uint32_t`, when `ele_count - i - 1 != 0`. -/
def mapReorder (buf : List UInt8) (eleCount i : Nat) (mp : MsgpackIn) (cf : CdtFix)
    (st : CdtStats) : Verdict :=
  if mp.hasNonstorage then cdtCheckSetCannotfix mp cf st
  else if eleCount - i - 1 ≠ 0 then
    let r := msgpackSzRep buf mp (2 * (eleCount - i - 2) % 2 ^ 32)
    if r.sz = 0 ∨ r.mp.hasNonstorage then cdtCheckSetCannotfix r.mp cf st
    else mapOrderFix buf eleCount r.mp cf st
  else mapOrderFix buf eleCount mp cf st

/-- The loop `for (i = 1; i < ele_count - 1; i++)` of an ordered map: compare the keys,
check the key, skip both values, then the order test. -/
def mapWalk (buf : List UInt8) (checkMapKeys : Bool) (eleCount : Nat) (cf : CdtFix)
    (st : CdtStats) : Nat → Nat → MsgpackIn → MsgpackIn → Except Verdict MsgpackIn
  | 0, _, _, mp => .ok mp
  | k + 1, i, prev, mp =>
    let start := mp.offset
    let r := msgpackCmp buf prev mp
    if checkMapKeys ∧ !mapIsKey ((buf.drop start).take (r.mp1.offset - start)) then
      .error (invalidKey cf st)
    else
      let start := r.mp1.offset
      let p := msgpackSz buf r.mp0
      if p.sz = 0 then .error (cdtCheckSetCannotfix r.mp1 cf st)
      else
        let q := msgpackSz buf r.mp1
        if q.sz = 0 ∨ q.mp.hasNonstorage then .error (cdtCheckSetCannotfix q.mp cf st)
        else if r.cmp ≠ .less then .error (mapReorder buf eleCount i q.mp cf st)
        else if checkMapKeys ∧ keysInvalid buf start q.mp.offset then .error (invalidKey cf st)
        else mapWalk buf checkMapKeys eleCount cf st k (i + 1) p.mp q.mp

/-- The loop over the pairs of an unordered map under `check_map_keys`. -/
def mapKeysLoop (buf : List UInt8) (cf : CdtFix) (st : CdtStats) :
    Nat → MsgpackIn → Except Verdict MsgpackIn
  | 0, mp => .ok mp
  | k + 1, mp =>
    let start := mp.offset
    let r := msgpackSzRep buf mp 1
    if r.sz = 0 ∨ r.mp.hasNonstorage then .error (cdtCheckSetCannotfix r.mp cf st)
    else if !mapIsKey ((buf.drop start).take r.sz) then .error (invalidKey cf st)
    else
      let start := r.mp.offset
      let q := msgpackSzRep buf r.mp 1
      if q.sz = 0 ∨ q.mp.hasNonstorage then .error (cdtCheckSetCannotfix q.mp cf st)
      else if keysInvalid buf start q.mp.offset then .error (invalidKey cf st)
      else mapKeysLoop buf cf st k q.mp

/-- The pairs of a map without the ordered marker, skipped one at a time under
`check_map_keys`; `2 * ele_count` is a `uint32_t`. -/
def mapSkip (buf : List UInt8) (cf : CdtFix) (st : CdtStats) (checkMapKeys : Bool)
    (eleCount : Nat) (mp : MsgpackIn) : Except Verdict MsgpackIn :=
  if checkMapKeys then mapKeysLoop buf cf st eleCount mp
  else
    let r := msgpackSzRep buf mp (2 * eleCount % 2 ^ 32)
    if r.sz = 0 ∨ r.mp.hasNonstorage then .error (cdtCheckSetCannotfix r.mp cf st) else .ok r.mp

/-- The path of a map without the ordered marker. -/
def mapUnordered (buf : List UInt8) (cf : CdtFix) (st : CdtStats) (checkMapKeys : Bool)
    (eleCount : Nat) (mp : MsgpackIn) : Except Verdict (MsgpackIn × CdtFix) :=
  let cf := { cf with eleCount := eleCount, contents := mp.offset }
  mapSkip buf cf st checkMapKeys eleCount mp >>= fun mp =>
    let cf := { cf with contentSz := mp.offset - cf.contents }
    if cdtMapDupKeyCheck eleCount (contentRegion buf cf) then .error (cannotFix .cfDupkey cf st)
    else pure (mp, cf)

/-- The path of an ordered map, the cursor past the marker pair. -/
def mapOrdered (buf : List UInt8) (cf : CdtFix) (st : CdtStats) (checkMapKeys : Bool)
    (eleCount : Nat) (mp : MsgpackIn) : Except Verdict (MsgpackIn × CdtFix) :=
  let cf := { cf with eleCount := eleCount - 1, contents := mp.offset }
  if eleCount - 1 = 0 then .ok (mp, { cf with contentSz := 0 })
  else
    let prev := mp
    let start := mp.offset
    let r := msgpackSzRep buf mp 1
    if r.sz = 0 ∨ r.mp.hasNonstorage then .error (cdtCheckSetCannotfix r.mp cf st)
    else if checkMapKeys ∧ !mapIsKey ((buf.drop start).take r.sz) then .error (invalidKey cf st)
    else
      let start := r.mp.offset
      let q := msgpackSzRep buf r.mp 1
      if q.sz = 0 ∨ q.mp.hasNonstorage then .error (cdtCheckSetCannotfix q.mp cf st)
      else if checkMapKeys ∧ keysInvalid buf start q.mp.offset then .error (invalidKey cf st)
      else do
        let mp ← mapWalk buf checkMapKeys eleCount cf st (eleCount - 2) 1 prev q.mp
        pure (mp, { cf with contentSz := mp.offset - cf.contents })

/-- The body of `cdt_map_need_fix` up to its final `cdt_check_sz`: the header, an empty
map, the ordered marker and its value, then the ordered or unordered walk. -/
def mapBody (buf : List UInt8) (cf : CdtFix) (st : CdtStats) (checkMapKeys : Bool) :
    Except Verdict (MsgpackIn × CdtFix) :=
  match msgpackGetMapEleCount buf .init with
  | none => .error (cannotFix .cfCorrupt cf st)
  | some c =>
    if c.count = 0 then .ok (c.mp, { cf with eleCount := 0, contents := c.mp.offset, contentSz := 0 })
    else if msgpackPeekIsExt buf c.mp then
      match msgpackGetExt buf c.mp with
      | none => .error (cannotFix .cfCorrupt cf st)
      | some mp =>
        let r := msgpackSz buf mp
        if r.sz = 0 then .error (cannotFix .cfCorrupt cf st)
        else mapOrdered buf cf st checkMapKeys c.count r.mp
    else mapUnordered buf cf st checkMapKeys c.count c.mp

/-- `cdt_map_need_fix(buf, sz, cf, st, check_map_keys)` on a bin of `sz = buf.length`
bytes. -/
def cdtMapNeedFix (buf : List UInt8) (cf : CdtFix) (st : CdtStats) (checkMapKeys : Bool) :
    Verdict :=
  match mapBody buf cf st checkMapKeys with
  | .error v => v
  | .ok r => cdtCheckSz r.1 buf.length r.2 st

end CdtValidation.Backup
