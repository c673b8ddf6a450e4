import CdtValidation.Backup.Keys

/-! `cdt_list_need_fix`. The body is written up to its `cdt_check_sz` calls: an early
`return` of the C function is `.error` carrying the verdict, and reaching
`cdt_check_sz` is `.ok` with the cursor and the filled `cdt_fix`. -/

namespace CdtValidation.Backup
open CdtValidation.Msgpack

/-- The tail of the reorder branch, the rest of the list skipped: the order fix, or an
overrun counted corrupt without `need_log`. -/
def listOrderFix (sz : Nat) (mp : MsgpackIn) (cf : CdtFix) (st : CdtStats) : Verdict :=
  let cf := { cf with contentSz := mp.offset - cf.contents, nfListOrder := true }
  if mp.offset ≤ sz then orderFix mp.offset sz cf st
  else ⟨false, cf, (st.incr .cannotFix).incr .cfCorrupt⟩

/-- The reorder branch at iteration `i`: skip the `ele_count - i - 2` elements left. -/
def listReorder (buf : List UInt8) (eleCount i : Nat) (mp : MsgpackIn) (cf : CdtFix)
    (st : CdtStats) : Verdict :=
  if mp.hasNonstorage then cdtCheckSetCannotfix mp cf st
  else if eleCount - i - 2 ≠ 0 then
    let r := msgpackSzRep buf mp (eleCount - i - 2)
    if r.sz = 0 ∨ r.mp.hasNonstorage then cdtCheckSetCannotfix r.mp cf st
    else listOrderFix buf.length r.mp cf st
  else listOrderFix buf.length mp cf st

/-- The loop `for (i = 1; i < ele_count - 1; i++)` of an ordered list, `k` rounds left,
`prev` on the previous element and `mp` on the current one. -/
def listWalk (buf : List UInt8) (checkMapKeys : Bool) (eleCount : Nat) (cf : CdtFix)
    (st : CdtStats) : Nat → Nat → MsgpackIn → MsgpackIn → Except Verdict MsgpackIn
  | 0, _, _, mp => .ok mp
  | k + 1, i, prev, mp =>
    let start := mp.offset
    let r := msgpackCmp buf prev mp
    if r.cmp ≠ .less ∧ r.cmp ≠ .equal then .error (listReorder buf eleCount i r.mp1 cf st)
    else if checkMapKeys ∧ keysInvalid buf start r.mp1.offset then .error (invalidKey cf st)
    else listWalk buf checkMapKeys eleCount cf st k (i + 1) r.mp0 r.mp1

/-- The loop over the elements of an unordered list under `check_map_keys`. -/
def listKeysLoop (buf : List UInt8) (cf : CdtFix) (st : CdtStats) :
    Nat → MsgpackIn → Except Verdict MsgpackIn
  | 0, mp => .ok mp
  | k + 1, mp =>
    let start := mp.offset
    let r := msgpackSzRep buf mp 1
    if r.sz = 0 ∨ r.mp.hasNonstorage then .error (cdtCheckSetCannotfix r.mp cf st)
    else if keysInvalid buf start r.mp.offset then .error (invalidKey cf st)
    else listKeysLoop buf cf st k r.mp

/-- The elements of a list without the ordered marker, skipped one at a time under
`check_map_keys`. -/
def listSkip (buf : List UInt8) (cf : CdtFix) (st : CdtStats) (checkMapKeys : Bool)
    (eleCount : Nat) (mp : MsgpackIn) : Except Verdict MsgpackIn :=
  if checkMapKeys then listKeysLoop buf cf st eleCount mp
  else
    let r := msgpackSzRep buf mp eleCount
    if r.sz = 0 ∨ r.mp.hasNonstorage then .error (cdtCheckSetCannotfix r.mp cf st) else .ok r.mp

/-- The path of a list without the ordered marker. -/
def listUnordered (buf : List UInt8) (cf : CdtFix) (st : CdtStats) (checkMapKeys : Bool)
    (eleCount : Nat) (mp : MsgpackIn) : Except Verdict (MsgpackIn × CdtFix) :=
  let cf := { cf with eleCount := eleCount, contents := mp.offset }
  listSkip buf cf st checkMapKeys eleCount mp >>= fun mp =>
    pure (mp, { cf with contentSz := mp.offset - cf.contents })

/-- The path of an ordered list, the cursor past the marker. -/
def listOrdered (buf : List UInt8) (cf : CdtFix) (st : CdtStats) (checkMapKeys : Bool)
    (eleCount : Nat) (mp : MsgpackIn) : Except Verdict (MsgpackIn × CdtFix) :=
  let cf := { cf with eleCount := eleCount - 1, contents := mp.offset }
  if eleCount - 1 = 0 then .ok (mp, { cf with contentSz := 0 })
  else
    let prev := mp
    let r := msgpackSzRep buf mp 1
    if r.sz = 0 ∨ r.mp.hasNonstorage then .error (cdtCheckSetCannotfix r.mp cf st)
    else if checkMapKeys ∧ keysInvalid buf prev.offset r.mp.offset then .error (invalidKey cf st)
    else do
      let mp ← listWalk buf checkMapKeys eleCount cf st (eleCount - 2) 1 prev r.mp
      if mp.hasNonstorage then .error (cannotFix .cfNonstorage cf st)
      else pure (mp, { cf with contentSz := mp.offset - cf.contents })

/-- The body of `cdt_list_need_fix` up to its final `cdt_check_sz`: the header, an empty
list, the ordered marker, then the ordered or unordered walk. -/
def listBody (buf : List UInt8) (cf : CdtFix) (st : CdtStats) (checkMapKeys : Bool) :
    Except Verdict (MsgpackIn × CdtFix) :=
  match msgpackGetListEleCount buf .init with
  | none => .error (cannotFix .cfCorrupt cf st)
  | some c =>
    if c.count = 0 then .ok (c.mp, { cf with eleCount := 0, contents := c.mp.offset, contentSz := 0 })
    else if msgpackPeekIsExt buf c.mp then
      match msgpackGetExt buf c.mp with
      | none => .error (cannotFix .cfCorrupt cf st)
      | some mp => listOrdered buf cf st checkMapKeys c.count mp
    else listUnordered buf cf st checkMapKeys c.count c.mp

/-- `cdt_list_need_fix(buf, sz, cf, st, check_map_keys)` on a bin of `sz = buf.length`
bytes. -/
def cdtListNeedFix (buf : List UInt8) (cf : CdtFix) (st : CdtStats) (checkMapKeys : Bool) :
    Verdict :=
  match listBody buf cf st checkMapKeys with
  | .error v => v
  | .ok r => cdtCheckSz r.1 buf.length r.2 st

end CdtValidation.Backup
