import CdtValidation.Msgpack.Parse

/-! The cursor operations of `msgpack_in` that the validator calls, modelled from the
specification's Binary Cursor and Structural Comparator. A cursor never leaves its
buffer (`msgpackSzRep_le`, `msgpackCmp_le`), and an operation whose cursor ends below
`m` gives the same result on the first `m` bytes (`msgpackSzRep_take`,
`msgpackCmp_take`). -/

namespace CdtValidation.Msgpack

/-- The cursor of `msgpack_in`; the buffer it reads (`buf`, `buf_sz`) is passed alongside. -/
structure MsgpackIn where
  offset : Nat
  hasNonstorage : Bool
deriving DecidableEq, Repr

/-- A cursor at the start of its buffer, as `{ .buf = buf, .buf_sz = sz }` builds it. -/
def MsgpackIn.init : MsgpackIn := ⟨0, false⟩

/-- One complete value at `off`, and the offset after it. -/
def parseOne (buf : List UInt8) (off : Nat) : Option (MsgpackVal × Nat) :=
  (parseVals buf (buf.length + 1) 1 off).bind fun r => r.1.head?.map (·, r.2)

/-- What `msgpack_sz_rep` returns, and the cursor it leaves. -/
structure Skipped where
  sz : Nat
  mp : MsgpackIn

/-- `msgpack_sz_rep`: skips `n` values and returns the bytes skipped; `0` on failure, the
cursor then unchanged. The cursor records any non-storage type it crosses. -/
def msgpackSzRep (buf : List UInt8) (mp : MsgpackIn) (n : Nat) : Skipped :=
  match parseVals buf (buf.length + 1) n mp.offset with
  | some r => ⟨r.2 - mp.offset, ⟨r.2, mp.hasNonstorage || MsgpackVal.nonstorageList r.1⟩⟩
  | none => ⟨0, mp⟩

/-- `msgpack_sz`. -/
def msgpackSz (buf : List UInt8) (mp : MsgpackIn) : Skipped := msgpackSzRep buf mp 1

/-- `msgpack_peek_type`; `MSGPACK_TYPE_ERROR` when no header fits. -/
def msgpackPeekType (buf : List UInt8) (mp : MsgpackIn) : MsgpackType :=
  match msgpackParse buf mp.offset with
  | some h => h.type
  | none => .error

/-- `msgpack_buf_peek_type`. -/
def msgpackBufPeekType (buf : List UInt8) : MsgpackType := msgpackPeekType buf .init

/-- Tags of the ext family: `ext 8/16/32` and `fixext 1..16`. -/
def isExtTag (t : UInt8) : Bool := (0xc7 ≤ t && t ≤ 0xc9) || (0xd4 ≤ t && t ≤ 0xd8)

/-- `msgpack_peek_is_ext`: the tag at the cursor is an ext tag. -/
def msgpackPeekIsExt (buf : List UInt8) (mp : MsgpackIn) : Bool :=
  match buf[mp.offset]? with
  | some t => isExtTag t
  | none => false

/-- `msgpack_get_ext`: moves past the ext at the cursor. -/
def msgpackGetExt (buf : List UInt8) (mp : MsgpackIn) : Option MsgpackIn :=
  if msgpackPeekIsExt buf mp then
    (msgpackParse buf mp.offset).map fun h => { mp with offset := h.next }
  else none

/-- An element count read from a header, and the cursor after the header. -/
structure Counted where
  count : Nat
  mp : MsgpackIn

/-- The element count of a `t` header at the cursor. -/
def getEleCount (t : MsgpackType) (buf : List UInt8) (mp : MsgpackIn) : Option Counted :=
  match msgpackParse buf mp.offset with
  | some h => if h.type = t then some ⟨h.num.toNat, { mp with offset := h.next }⟩ else none
  | none => none

/-- `msgpack_get_list_ele_count`. -/
def msgpackGetListEleCount (buf : List UInt8) (mp : MsgpackIn) : Option Counted :=
  getEleCount .list buf mp

/-- `msgpack_get_map_ele_count`: the number of pairs. -/
def msgpackGetMapEleCount (buf : List UInt8) (mp : MsgpackIn) : Option Counted :=
  getEleCount .map buf mp

/-- `msgpack_get_bin`: the payload of the string or blob at the cursor. -/
def msgpackGetBin (buf : List UInt8) (mp : MsgpackIn) : Option (List UInt8) :=
  (msgpackParse buf mp.offset).map (·.data)

/-- Results of `msgpack_cmp`; `error` is the spec's "unorderable", and truncation. -/
inductive MsgpackCmpType where
  | error | less | equal | greater
deriving DecidableEq, Repr

def cmpInt (a b : Int) : MsgpackCmpType :=
  if a < b then .less else if a = b then .equal else .greater

/-- Lexicographic order of byte strings, a proper prefix first. -/
def cmpBytes : List UInt8 → List UInt8 → MsgpackCmpType
  | [], [] => .equal
  | [], _ :: _ => .less
  | _ :: _, [] => .greater
  | x :: xs, y :: ys => if x < y then .less else if y < x then .greater else cmpBytes xs ys

/-- Order key of an IEEE double's bits: negative values reversed below the positive ones. -/
def doubleKey (d : List UInt8) : Int :=
  let v : Nat := d.foldl (fun a x => a * 256 + x.toNat) 0
  let half : Nat := 2 ^ (8 * d.length - 1)
  if v < half then (v : Int) else -((v - half : Nat) : Int) - 1

mutual
/-- Modelled from the spec: type first (a wildcard matches anything), then the value, and
containers element by element. -/
def cmpVal : MsgpackVal → MsgpackVal → MsgpackCmpType
  | .node t n d ks, .node t' n' d' ks' =>
    if t = .cmpWildcard ∨ t' = .cmpWildcard then .equal
    else if t.rank < t'.rank then .less
    else if t'.rank < t.rank then .greater
    else match t with
      | .error => .error
      | .negint | .int => cmpInt n n'
      | .string | .bytes | .geojson => cmpBytes d d'
      | .double => cmpInt (doubleKey d) (doubleKey d')
      | .ext => match cmpInt n n' with
        | .equal => cmpBytes d d'
        | o => o
      | .list | .map => cmpVals ks ks'
      | _ => .equal
def cmpVals : List MsgpackVal → List MsgpackVal → MsgpackCmpType
  | [], [] => .equal
  | [], _ :: _ => .less
  | _ :: _, [] => .greater
  | v :: vs, v' :: vs' => match cmpVal v v' with
    | .equal => cmpVals vs vs'
    | o => o
end

/-- The cursor moved past a parsed value ending at `e`. -/
def MsgpackIn.past (mp : MsgpackIn) (v : MsgpackVal) (e : Nat) : MsgpackIn :=
  ⟨e, mp.hasNonstorage || v.nonstorage⟩

/-- What `msgpack_cmp` returns, and the two cursors it leaves. -/
structure Compared where
  cmp : MsgpackCmpType
  mp0 : MsgpackIn
  mp1 : MsgpackIn

/-- `msgpack_cmp`: compares the next value at each cursor and moves both past it; when a
value does not parse the result is `error` and the cursors stay. -/
def msgpackCmp (buf : List UInt8) (mp0 mp1 : MsgpackIn) : Compared :=
  match parseOne buf mp0.offset, parseOne buf mp1.offset with
  | some p0, some p1 => ⟨cmpVal p0.1 p1.1, mp0.past p0.1 p0.2, mp1.past p1.1 p1.2⟩
  | _, _ => ⟨.error, mp0, mp1⟩

section Bounds

variable {b : List UInt8}

theorem parseVals_take_fuel {n off m : Nat} :
    parseVals (b.take m) ((b.take m).length + 1) n off = parseVals (b.take m) (b.length + 1) n off :=
  parseVals_fuel (by omega) (by rw [List.length_take]; omega)

theorem parseVals_take {fuel n off m : Nat}
    (hm : ∀ r, parseVals b fuel n off = some r → r.2 ≤ m) :
    parseVals (b.take m) fuel n off = parseVals b fuel n off := by
  cases hp : parseVals b fuel n off with
  | none => exact parseVals_take_none hp
  | some r => exact parseVals_take_some hp (hm r hp)

theorem msgpackSzRep_offset {mp : MsgpackIn} {n : Nat} :
    mp.offset ≤ (msgpackSzRep b mp n).mp.offset ∧
      (mp.offset ≤ b.length → (msgpackSzRep b mp n).mp.offset ≤ b.length) := by
  unfold msgpackSzRep
  split
  · next r hp => exact parseVals_bounds hp
  · exact ⟨le_rfl, id⟩

theorem msgpackSzRep_parsed {mp : MsgpackIn} {n : Nat} (h : (msgpackSzRep b mp n).sz ≠ 0) :
    ∃ vs, parseVals b (b.length + 1) n mp.offset = some (vs, (msgpackSzRep b mp n).mp.offset) := by
  unfold msgpackSzRep at h ⊢
  split at h
  · next r hr => exact ⟨r.1, by simp [hr]⟩
  · exact absurd rfl h

theorem parseOne_eq_some {off : Nat} {p : MsgpackVal × Nat} :
    parseOne b off = some p ↔ parseVals b (b.length + 1) 1 off = some ([p.1], p.2) := by
  constructor
  · intro h
    simp only [parseOne, Option.bind_eq_some] at h
    obtain ⟨r, hr, hp⟩ := h
    obtain ⟨v, hv⟩ := List.length_eq_one.mp (parseVals_length hr)
    obtain ⟨rfl⟩ : (v, r.2) = p := by simpa [hv] using hp
    rw [hr, ← hv]
  · intro h
    simp [parseOne, h]

theorem parseOne_bounds {off : Nat} {p : MsgpackVal × Nat} (h : parseOne b off = some p) :
    off < p.2 ∧ p.2 ≤ b.length :=
  parseVals_succ_bounds (parseOne_eq_some.mp h)

theorem parseOne_take {off m : Nat} (hm : ∀ p, parseOne b off = some p → p.2 ≤ m) :
    parseOne (b.take m) off = parseOne b off := by
  unfold parseOne
  rw [parseVals_take_fuel, parseVals_take]
  intro r hp
  obtain ⟨v, hv⟩ := List.length_eq_one.mp (parseVals_length hp)
  exact hm (v, r.2) (parseOne_eq_some.mpr (by rw [hp, ← hv]))

theorem msgpackCmp_offset {mp0 mp1 : MsgpackIn} :
    (mp0.offset ≤ (msgpackCmp b mp0 mp1).mp0.offset ∧
      (mp0.offset ≤ b.length → (msgpackCmp b mp0 mp1).mp0.offset ≤ b.length)) ∧
    (mp1.offset ≤ (msgpackCmp b mp0 mp1).mp1.offset ∧
      (mp1.offset ≤ b.length → (msgpackCmp b mp0 mp1).mp1.offset ≤ b.length)) := by
  unfold msgpackCmp
  split
  · next p0 p1 h0 h1 =>
    have := parseOne_bounds h0
    have := parseOne_bounds h1
    simp only [MsgpackIn.past]
    omega
  · simp

theorem msgpackGetExt_some {mp mp' : MsgpackIn} (h : msgpackGetExt b mp = some mp') :
    msgpackPeekIsExt b mp = true ∧ ∃ hd, msgpackParse b mp.offset = some hd ∧
      mp' = { mp with offset := hd.next } := by
  unfold msgpackGetExt at h
  split at h
  · obtain ⟨hd, hp, rfl⟩ := Option.map_eq_some'.mp h
    exact ⟨‹_›, hd, hp, rfl⟩
  · cases h

theorem msgpackGetExt_offset {mp mp' : MsgpackIn} (h : msgpackGetExt b mp = some mp') :
    mp.offset < mp'.offset ∧ mp'.offset ≤ b.length ∧ mp'.hasNonstorage = mp.hasNonstorage := by
  obtain ⟨-, hd, hp, rfl⟩ := msgpackGetExt_some h
  exact ⟨(msgpackParse_next hp).1, (msgpackParse_next hp).2, rfl⟩

theorem getEleCount_some {t : MsgpackType} {mp : MsgpackIn} {c : Counted}
    (h : getEleCount t b mp = some c) : ∃ hd, msgpackParse b mp.offset = some hd ∧
      hd.type = t ∧ c = ⟨hd.num.toNat, { mp with offset := hd.next }⟩ := by
  unfold getEleCount at h
  split at h
  · next hd hp =>
    split at h
    · cases h; exact ⟨hd, hp, ‹_›, rfl⟩
    · cases h
  · cases h

theorem getEleCount_offset {t : MsgpackType} {mp : MsgpackIn} {c : Counted}
    (h : getEleCount t b mp = some c) :
    mp.offset < c.mp.offset ∧ c.mp.offset ≤ b.length ∧ c.mp.hasNonstorage = mp.hasNonstorage := by
  obtain ⟨hd, hp, -, rfl⟩ := getEleCount_some h
  exact ⟨(msgpackParse_next hp).1, (msgpackParse_next hp).2, rfl⟩

theorem msgpackSz_of_parseOne {mp : MsgpackIn} {p : MsgpackVal × Nat}
    (h : parseOne b mp.offset = some p) : (msgpackSz b mp).mp.offset = p.2 := by
  simp [msgpackSz, msgpackSzRep, parseOne_eq_some.mp h]

theorem msgpackCmp_of_parseOne {mp0 mp1 : MsgpackIn} {p0 p1 : MsgpackVal × Nat}
    (h0 : parseOne b mp0.offset = some p0) (h1 : parseOne b mp1.offset = some p1) :
    msgpackCmp b mp0 mp1 = ⟨cmpVal p0.1 p1.1, mp0.past p0.1 p0.2, mp1.past p1.1 p1.2⟩ := by
  simp [msgpackCmp, h0, h1]

theorem parseOne_of_length_le {off : Nat} (h : b.length ≤ off) : parseOne b off = none := by
  simp [parseOne, parseVals, msgpackParse, List.getElem?_eq_none h]

/-- A value parsed at `off` is the header there and the values of its elements. -/
theorem parseOne_node {off e : Nat} {v : MsgpackVal} (hp : parseOne b off = some (v, e)) :
    ∃ h kids, msgpackParse b off = some h ∧
      parseVals b (b.length + 1) h.children h.next = some (kids, e) ∧
      v = .node h.type h.num h.data kids := by
  obtain ⟨h, kids, o, rest, hh, hk, hr, hv⟩ := parseVals_succ_eq_some.mp (parseOne_eq_some.mp hp)
  simp only [parseVals, Option.some.injEq, Prod.mk.injEq] at hr
  obtain ⟨rfl, rfl⟩ := hr
  have hn := (msgpackParse_next hh).1
  refine ⟨h, kids, hh, ?_, by simpa using hv⟩
  rwa [@parseVals_fuel b (b.length + 1) b.length h.children h.next (by omega) (by omega)]

theorem parseOne_header_end {o m : Nat} {v : MsgpackVal} {h : MsgpackHeader}
    (hp : parseOne b o = some (v, m)) (hh : msgpackParse b o = some h) (hc : h.children = 0) :
    m = h.next ∧ v = .node h.type h.num h.data [] := by
  obtain ⟨h', kids, hh', hk, rfl⟩ := parseOne_node hp
  cases hh.symm.trans hh'
  rw [hc] at hk
  simp only [parseVals, Option.some.injEq, Prod.mk.injEq] at hk
  obtain ⟨rfl, rfl⟩ := hk
  exact ⟨rfl, rfl⟩

theorem parseVals_succ_cons {n off e : Nat} {vs : List MsgpackVal}
    (hp : parseVals b (b.length + 1) (n + 1) off = some (vs, e)) :
    ∃ v m rest, parseOne b off = some (v, m) ∧ parseVals b (b.length + 1) n m = some (rest, e) ∧
      vs = v :: rest := by
  obtain ⟨h, kids, o, rest, hh, hk, hr, rfl⟩ := parseVals_succ_eq_some.mp hp
  have hn := (msgpackParse_next hh).1
  have ho := (parseVals_bounds hk).1
  have h1 : parseOne b off = some (.node h.type h.num h.data kids, o) :=
    parseOne_eq_some.mpr (parseVals_succ_eq_some.mpr ⟨h, kids, o, [], hh, hk, by simp [parseVals], rfl⟩)
  refine ⟨_, o, rest, h1, ?_, rfl⟩
  rwa [@parseVals_fuel b (b.length + 1) b.length n o (by omega) (by omega)]

theorem parseVals_cons {n off o e : Nat} {v : MsgpackVal} {vs : List MsgpackVal}
    (h1 : parseOne b off = some (v, o)) (hn : parseVals b (b.length + 1) n o = some (vs, e)) :
    parseVals b (b.length + 1) (n + 1) off = some (v :: vs, e) := by
  obtain ⟨h, kids, o1, rest, hh, hk, hr, hv⟩ := parseVals_succ_eq_some.mp (parseOne_eq_some.mp h1)
  simp only [parseVals, Option.some.injEq, Prod.mk.injEq] at hr
  obtain ⟨rfl, rfl⟩ := hr
  have hlt : off < o1 := (parseOne_bounds h1).1
  refine parseVals_succ_eq_some.mpr ⟨h, kids, o1, vs, hh, hk, ?_, ?_⟩
  · rwa [@parseVals_fuel b b.length (b.length + 1) n o1 (by omega) (by omega)]
  · simp only [List.cons.injEq, and_true] at hv
    rw [hv]

theorem msgpackSzRep_two {mp : MsgpackIn} {p q : MsgpackVal × Nat}
    (hp : parseOne b mp.offset = some p) (hq : parseOne b p.2 = some q) :
    (msgpackSzRep b mp 2).mp.offset = q.2 := by
  simp [msgpackSzRep, parseVals_cons hp (parseOne_eq_some.mp hq)]

theorem msgpackSzRep_of_length_le {mp : MsgpackIn} {n : Nat} (h : b.length ≤ mp.offset) :
    (msgpackSzRep b mp (n + 1)).mp = mp := by
  simp [msgpackSzRep, parseVals, msgpackParse, List.getElem?_eq_none h]

theorem msgpackCmp_of_none {mp0 mp1 : MsgpackIn}
    (h : parseOne b mp0.offset = none ∨ parseOne b mp1.offset = none) :
    msgpackCmp b mp0 mp1 = ⟨.error, mp0, mp1⟩ := by
  rcases h with h | h <;> simp [msgpackCmp, h]

theorem msgpackCmp_cmp_offsets {mp0 mp1 mq0 mq1 : MsgpackIn} (h0 : mp0.offset = mq0.offset)
    (h1 : mp1.offset = mq1.offset) : (msgpackCmp b mp0 mp1).cmp = (msgpackCmp b mq0 mq1).cmp := by
  simp only [msgpackCmp, h0, h1]
  cases parseOne b mq0.offset <;> cases parseOne b mq1.offset <;> rfl

end Bounds

end CdtValidation.Msgpack
