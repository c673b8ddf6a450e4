import CdtValidation.Msgpack.Cursor

/-! The counters and the per-bin result of the CDT classifier in `backup.c`, and the
verdicts its exit paths return. Counters are `uint32_t` in the source; one call adds at
most one to each, so they are natural numbers here. -/

namespace CdtValidation.Backup
open CdtValidation.Msgpack

/-- The counters of `cdt_stats`. -/
inductive Counter where
  | count | fixed | needFix | nfFailed | nfOrder | nfPadding
  | cannotFix | cfDupkey | cfNonstorage | cfCorrupt | cfInvalidkey
deriving DecidableEq, Repr

/-- `cdt_stats`: one instance for lists and one for maps. -/
structure CdtStats where
  count : Nat
  fixed : Nat
  needFix : Nat
  nfFailed : Nat
  nfOrder : Nat
  nfPadding : Nat
  cannotFix : Nat
  cfDupkey : Nat
  cfNonstorage : Nat
  cfCorrupt : Nat
  cfInvalidkey : Nat
deriving DecidableEq, Repr

namespace CdtStats

def zero : CdtStats := ⟨0, 0, 0, 0, 0, 0, 0, 0, 0, 0, 0⟩

def get (st : CdtStats) : Counter → Nat
  | .count => st.count | .fixed => st.fixed | .needFix => st.needFix
  | .nfFailed => st.nfFailed | .nfOrder => st.nfOrder | .nfPadding => st.nfPadding
  | .cannotFix => st.cannotFix | .cfDupkey => st.cfDupkey
  | .cfNonstorage => st.cfNonstorage | .cfCorrupt => st.cfCorrupt
  | .cfInvalidkey => st.cfInvalidkey

/-- `atomic_incr(&stat->c)`. -/
def incr (st : CdtStats) : Counter → CdtStats
  | .count => { st with count := st.count + 1 }
  | .fixed => { st with fixed := st.fixed + 1 }
  | .needFix => { st with needFix := st.needFix + 1 }
  | .nfFailed => { st with nfFailed := st.nfFailed + 1 }
  | .nfOrder => { st with nfOrder := st.nfOrder + 1 }
  | .nfPadding => { st with nfPadding := st.nfPadding + 1 }
  | .cannotFix => { st with cannotFix := st.cannotFix + 1 }
  | .cfDupkey => { st with cfDupkey := st.cfDupkey + 1 }
  | .cfNonstorage => { st with cfNonstorage := st.cfNonstorage + 1 }
  | .cfCorrupt => { st with cfCorrupt := st.cfCorrupt + 1 }
  | .cfInvalidkey => { st with cfInvalidkey := st.cfInvalidkey + 1 }

@[simp] theorem get_incr (st : CdtStats) (c d : Counter) :
    (st.incr c).get d = st.get d + if c = d then 1 else 0 := by
  cases c <;> cases d <;> rfl

@[ext] theorem ext' {s t : CdtStats} (h : ∀ c, s.get c = t.get c) : s = t := by
  cases s; cases t
  have := h .count; have := h .fixed; have := h .needFix; have := h .nfFailed
  have := h .nfOrder; have := h .nfPadding; have := h .cannotFix; have := h .cfDupkey
  have := h .cfNonstorage; have := h .cfCorrupt; have := h .cfInvalidkey
  simp_all [get]

end CdtStats

/-- `cdt_fix`, with `contents` an offset into the bin. The field `nf_map_dupkey` is never
written nor read and is left out. -/
structure CdtFix where
  contents : Nat
  contentSz : Nat
  eleCount : Nat
  nfPadding : Nat
  nfListOrder : Bool
  nfMapOrder : Bool
  needLog : Bool
deriving DecidableEq, Repr

/-- `cdt_fix cf = { NULL }`. -/
def CdtFix.init : CdtFix := ⟨0, 0, 0, 0, false, false, false⟩

/-- What a classifier returns: its `bool` (fix needed), and the `cdt_fix` and the counters
it wrote through its pointers. -/
structure Verdict where
  needFix : Bool
  cf : CdtFix
  st : CdtStats
deriving DecidableEq, Repr

/-- An unfixable verdict: `need_log`, `cannot_fix` and its cause counter. -/
def cannotFix (cause : Counter) (cf : CdtFix) (st : CdtStats) : Verdict :=
  ⟨false, { cf with needLog := true }, (st.incr .cannotFix).incr cause⟩

/-- `cdt_check_set_cannotfix`, with the caller's `return false`. -/
def cdtCheckSetCannotfix (mp : MsgpackIn) (cf : CdtFix) (st : CdtStats) : Verdict :=
  cannotFix (if mp.hasNonstorage then .cfNonstorage else .cfCorrupt) cf st

/-- An invalid map key: `need_log` and `cf_invalidkey`, and `return false`. -/
def invalidKey (cf : CdtFix) (st : CdtStats) : Verdict :=
  ⟨false, { cf with needLog := true }, st.incr .cfInvalidkey⟩

/-- `cdt_check_sz`: trailing bytes are padding to fix; an overrun is corrupt. -/
def cdtCheckSz (mp : MsgpackIn) (sz : Nat) (cf : CdtFix) (st : CdtStats) : Verdict :=
  if mp.offset < sz then
    ⟨true, { cf with needLog := true, nfPadding := sz - mp.offset },
      (st.incr .needFix).incr .nfPadding⟩
  else if mp.offset > sz then ⟨false, cf, (st.incr .cannotFix).incr .cfCorrupt⟩
  else ⟨false, cf, st⟩

/-- The order-fix return of the reorder branches, the cursor having reached `o ≤ sz`:
`need_fix`, `nf_order`, and `nf_padding` when bytes remain. -/
def orderFix (o sz : Nat) (cf : CdtFix) (st : CdtStats) : Verdict :=
  if o ≠ sz then
    ⟨true, { cf with nfPadding := sz - o }, ((st.incr .needFix).incr .nfOrder).incr .nfPadding⟩
  else ⟨true, cf, (st.incr .needFix).incr .nfOrder⟩

end CdtValidation.Backup
