import Mathlib.Data.List.Basic
import Mathlib.Algebra.Group.Int

/-! The MessagePack wire format as the validator reads it. The reader `msgpack_in.h` is
not among the sources, so this layer is modelled from the specification's Binary Cursor
and the MessagePack format. Every read is `buf[i]?`: a value parsed from a buffer depends
only on the bytes below its end (`parseVals_agree`). -/

namespace CdtValidation.Msgpack

/-- Element types, in the order of `msgpack_type` (the `type_names` table of `restore.c`). -/
inductive MsgpackType where
  | error | nil | false | true | negint | int | string | list | map | bytes | double
  | geojson | ext | cmpWildcard | cmpInf
deriving DecidableEq, Repr

/-- Position in `msgpack_type`; values of different types compare by it. -/
def MsgpackType.rank : MsgpackType → Nat
  | .error => 0 | .nil => 1 | .false => 2 | .true => 3 | .negint => 4 | .int => 5
  | .string => 6 | .list => 7 | .map => 8 | .bytes => 9 | .double => 10 | .geojson => 11
  | .ext => 12 | .cmpWildcard => 13 | .cmpInf => 14

/-- Modelled from the spec: the wildcard and infinity sentinels and the unused tag `0xc1`
are the non-storage types. -/
def MsgpackType.nonstorage : MsgpackType → Bool
  | .error | .cmpWildcard | .cmpInf => Bool.true
  | _ => Bool.false

/-- `AS_BYTES_STRING`, `AS_BYTES_BLOB` and `AS_BYTES_GEOJSON` of the client's
`as_bytes_type`: aerospike prefixes a string or blob payload with one of them. -/
def asBytesString : UInt8 := 3
def asBytesBlob : UInt8 := 4
def asBytesGeojson : UInt8 := 23

/-- The `n` bytes at `off`. -/
def slice (buf : List UInt8) (off : Nat) : Nat → Option (List UInt8)
  | 0 => some []
  | n + 1 => do
    let s ← slice buf off n
    let b ← buf[off + n]?
    pure (s ++ [b])

/-- Big-endian value of the `n` bytes at `off`. -/
def readBE (buf : List UInt8) (off n : Nat) : Option Nat :=
  (slice buf off n).map (·.foldl (fun a x => a * 256 + x.toNat) 0)

/-- One decoded header. `num` is the integer value, the element count of a list or map,
or the type byte of an ext; `children` counts the values that follow as elements (`2 n`
for a map); `next` is the offset after the header and its scalar payload. -/
structure MsgpackHeader where
  type : MsgpackType
  num : Int
  data : List UInt8
  children : Nat
  next : Nat
deriving DecidableEq, Repr

/-- A payload tagged `AS_BYTES_STRING` is a string, `AS_BYTES_GEOJSON` a GeoJSON value. -/
def bytesType (data : List UInt8) : MsgpackType :=
  if data.head? = some asBytesString then .string
  else if data.head? = some asBytesGeojson then .geojson
  else .bytes

/-- Modelled from the spec: the sentinels are the ext of type `0xff` holding `0` or `1`. -/
def extType (t : UInt8) (data : List UInt8) : MsgpackType :=
  if t = 0xff ∧ data = [0] then .cmpWildcard
  else if t = 0xff ∧ data = [1] then .cmpInf
  else .ext

/-- Signed value of a `w`-byte two's complement field. -/
def signed (v w : Nat) : Int :=
  if v < 2 ^ (8 * w - 1) then v else (v : Int) - 2 ^ (8 * w)

/-- How the bytes after a tag are laid out: a big-endian field of `field` bytes, an ext
type byte when `typed`, then a payload whose length the field gives; `build` makes the
type, number and child count from the field, the type byte and the payload. -/
structure Layout where
  field : Nat
  typed : Bool
  payload : Nat → Nat
  build : Nat → UInt8 → List UInt8 → MsgpackType × Int × Nat

namespace Layout

def fixed (t : MsgpackType) (n : Int) (c : Nat) : Layout := ⟨0, false, fun _ => 0, fun _ _ _ => (t, n, c)⟩
def blob (w : Nat) : Layout := ⟨w, false, id, fun _ _ d => (bytesType d, 0, 0)⟩
def fixBlob (len : Nat) : Layout := ⟨0, false, fun _ => len, fun _ _ d => (bytesType d, 0, 0)⟩
def ext (w : Nat) : Layout := ⟨w, true, id, fun _ t d => (extType t d, t.toNat, 0)⟩
def fixExt (len : Nat) : Layout := ⟨0, true, fun _ => len, fun _ t d => (extType t d, t.toNat, 0)⟩
def float (w : Nat) : Layout := ⟨0, false, fun _ => w, fun _ _ _ => (.double, 0, 0)⟩
def uint (w : Nat) : Layout := ⟨w, false, fun _ => 0, fun v _ _ => (.int, v, 0)⟩
def sint (w : Nat) : Layout :=
  ⟨w, false, fun _ => 0, fun v _ _ => (if signed v w < 0 then .negint else .int, signed v w, 0)⟩
def list (w : Nat) : Layout := ⟨w, false, fun _ => 0, fun n _ _ => (.list, n, n)⟩
def map (w : Nat) : Layout := ⟨w, false, fun _ => 0, fun n _ _ => (.map, n, 2 * n)⟩

end Layout

/-- The layout each tag announces, as in the MessagePack format. -/
def tagLayout (t : Nat) : Layout :=
  if t < 0x80 then .fixed .int t 0
  else if t < 0x90 then .fixed .map (t - 0x80) (2 * (t - 0x80))
  else if t < 0xa0 then .fixed .list (t - 0x90) (t - 0x90)
  else if t < 0xc0 then .fixBlob (t - 0xa0)
  else if 0xe0 ≤ t then .fixed .negint ((t : Int) - 256) 0
  else match t with
    | 0xc0 => .fixed .nil 0 0 | 0xc2 => .fixed .false 0 0 | 0xc3 => .fixed .true 0 0
    | 0xc4 => .blob 1 | 0xc5 => .blob 2 | 0xc6 => .blob 4
    | 0xc7 => .ext 1 | 0xc8 => .ext 2 | 0xc9 => .ext 4
    | 0xca => .float 4 | 0xcb => .float 8
    | 0xcc => .uint 1 | 0xcd => .uint 2 | 0xce => .uint 4 | 0xcf => .uint 8
    | 0xd0 => .sint 1 | 0xd1 => .sint 2 | 0xd2 => .sint 4 | 0xd3 => .sint 8
    | 0xd4 => .fixExt 1 | 0xd5 => .fixExt 2 | 0xd6 => .fixExt 4 | 0xd7 => .fixExt 8
    | 0xd8 => .fixExt 16
    | 0xd9 => .blob 1 | 0xda => .blob 2 | 0xdb => .blob 4
    | 0xdc => .list 2 | 0xdd => .list 4 | 0xde => .map 2 | 0xdf => .map 4
    | _ => .fixed .error 0 0

/-- The ext type byte at `off`, when the layout has one. -/
def typeByte (buf : List UInt8) (off : Nat) (typed : Bool) : Option UInt8 :=
  if typed then buf[off]? else some 0

/-- Reads what follows a tag, from offset `o`. -/
def readLayout (buf : List UInt8) (o : Nat) (l : Layout) : Option MsgpackHeader := do
  let v ← readBE buf o l.field
  let t ← typeByte buf (o + l.field) l.typed
  let p := o + l.field + l.typed.toNat
  let data ← slice buf p (l.payload v)
  let (ty, num, c) := l.build v t data
  pure ⟨ty, num, data, c, p + l.payload v⟩

/-- `msgpack_parse`: decodes the header at `off`; `none` when it runs past the buffer. -/
def msgpackParse (buf : List UInt8) (off : Nat) : Option MsgpackHeader := do
  let tag ← buf[off]?
  readLayout buf (off + 1) (tagLayout tag.toNat)

/-- A parsed value: its header's type, number and payload, and its elements. -/
inductive MsgpackVal where
  | node (type : MsgpackType) (num : Int) (data : List UInt8) (kids : List MsgpackVal)
deriving Repr

mutual
/-- Whether a non-storage type occurs at any depth. -/
def MsgpackVal.nonstorage : MsgpackVal → Bool
  | .node t _ _ kids => t.nonstorage || MsgpackVal.nonstorageList kids
def MsgpackVal.nonstorageList : List MsgpackVal → Bool
  | [] => Bool.false
  | v :: vs => v.nonstorage || MsgpackVal.nonstorageList vs
end

/-- Parses `n` consecutive complete values from `off`, returning them and the offset
after the last; every call spends one unit of fuel. -/
def parseVals (buf : List UInt8) : Nat → Nat → Nat → Option (List MsgpackVal × Nat)
  | _, 0, off => some ([], off)
  | 0, _ + 1, _ => none
  | fuel + 1, n + 1, off => do
    let h ← msgpackParse buf off
    let kids ← parseVals buf fuel h.children h.next
    let rest ← parseVals buf fuel n kids.2
    pure (.node h.type h.num h.data kids.1 :: rest.1, rest.2)

/-- Two buffers hold the same bytes below `n`. -/
def Agree (b b' : List UInt8) (n : Nat) : Prop := ∀ i < n, b[i]? = b'[i]?

theorem Agree.mono {b b' : List UInt8} {n m : Nat} (h : Agree b b' n) (hm : m ≤ n) :
    Agree b b' m := fun i hi => h i (by omega)

theorem agree_take (b : List UInt8) (n : Nat) : Agree b (b.take n) n :=
  fun _ hi => (List.getElem?_take_of_lt hi).symm

section Frame

variable {b b' : List UInt8}

theorem slice_agree {off : Nat} : ∀ {n : Nat},
    (∀ i, off ≤ i → i < off + n → b[i]? = b'[i]?) → slice b off n = slice b' off n
  | 0, _ => rfl
  | n + 1, h => by
    have ih := @slice_agree off n fun i h1 h2 => h i h1 (by omega)
    simp only [slice, ih, h (off + n) (by omega) (by omega)]

theorem slice_le {off : Nat} : ∀ {n : Nat} {s : List UInt8},
    slice b off n = some s → off ≤ b.length → off + n ≤ b.length
  | 0, _, _, ho => ho
  | n + 1, s, h, _ => by
    simp only [slice, Option.bind_eq_bind, Option.bind_eq_some] at h
    obtain ⟨_, -, x, hx, -⟩ := h
    have := (List.getElem?_eq_some_iff.mp hx).1
    omega

theorem slice_of_agree {n off k : Nat} {s : List UInt8} (ha : Agree b b' n)
    (h : slice b off k = some s) (hk : off + k ≤ n) : slice b' off k = some s :=
  (@slice_agree b b' off k fun i _ hi => ha i (by omega)) ▸ h

theorem typeByte_le {off : Nat} {typed : Bool} {t : UInt8} (h : typeByte b off typed = some t)
    (ho : off ≤ b.length) : off + typed.toNat ≤ b.length := by
  cases typed
  · simpa using ho
  · have := (List.getElem?_eq_some_iff.mp h).1
    simp only [Bool.toNat_true]; omega

theorem typeByte_of_agree {n off : Nat} {typed : Bool} {t : UInt8} (ha : Agree b b' n)
    (h : typeByte b off typed = some t) (hn : off + typed.toNat ≤ n) :
    typeByte b' off typed = some t := by
  cases typed
  · exact h
  · simp only [typeByte, ite_true, ← ha off (by simp at hn; omega)] at h ⊢
    exact h

theorem readLayout_le {o : Nat} {l : Layout} {h : MsgpackHeader}
    (hr : readLayout b o l = some h) (ho : o ≤ b.length) : o ≤ h.next ∧ h.next ≤ b.length := by
  simp only [readLayout, readBE, Option.bind_eq_bind, Option.bind_eq_some, Option.map_eq_some', Option.pure_def, Option.some.injEq] at hr
  obtain ⟨v, ⟨f, hf, -⟩, t, ht, d, hd, rfl⟩ := hr
  have := slice_le hd (typeByte_le ht (slice_le hf ho))
  dsimp only
  constructor <;> omega

theorem readLayout_agree {o : Nat} {l : Layout} {h : MsgpackHeader}
    (hr : readLayout b o l = some h) (ha : Agree b b' h.next) : readLayout b' o l = some h := by
  simp only [readLayout, readBE, Option.bind_eq_bind, Option.bind_eq_some, Option.map_eq_some', Option.pure_def, Option.some.injEq] at hr ⊢
  obtain ⟨v, ⟨f, hf, rfl⟩, t, ht, d, hd, rfl⟩ := hr
  dsimp only at ha
  exact ⟨_, ⟨f, slice_of_agree ha hf (by omega), rfl⟩, t, typeByte_of_agree ha ht (by omega), d,
    slice_of_agree ha hd le_rfl, rfl⟩

theorem msgpackParse_next {off : Nat} {h : MsgpackHeader} (hp : msgpackParse b off = some h) :
    off < h.next ∧ h.next ≤ b.length := by
  simp only [msgpackParse, Option.bind_eq_bind, Option.bind_eq_some] at hp
  obtain ⟨tag, ht, hr⟩ := hp
  have := readLayout_le hr (List.getElem?_eq_some_iff.mp ht).1
  omega

theorem msgpackParse_agree {off : Nat} {h : MsgpackHeader} (hp : msgpackParse b off = some h)
    (ha : Agree b b' h.next) : msgpackParse b' off = some h := by
  have hoff := (msgpackParse_next hp).1
  simp only [msgpackParse, Option.bind_eq_bind, Option.bind_eq_some] at hp ⊢
  obtain ⟨tag, ht, hr⟩ := hp
  exact ⟨tag, ha off hoff ▸ ht, readLayout_agree hr ha⟩

theorem parseVals_succ_eq_some {fuel n off : Nat} {vs : List MsgpackVal} {e : Nat} :
    parseVals b (fuel + 1) (n + 1) off = some (vs, e) ↔
      ∃ h kids o rest, msgpackParse b off = some h ∧
        parseVals b fuel h.children h.next = some (kids, o) ∧
        parseVals b fuel n o = some (rest, e) ∧ vs = .node h.type h.num h.data kids :: rest := by
  simp only [parseVals, Option.bind_eq_bind, Option.bind_eq_some, Option.pure_def,
    Option.some.injEq, Prod.exists, Prod.mk.injEq]
  constructor
  · rintro ⟨h, hh, kids, o, hk, rest, e', hr, rfl, rfl⟩
    exact ⟨h, kids, o, rest, hh, hk, hr, rfl⟩
  · rintro ⟨h, kids, o, rest, hh, hk, hr, rfl⟩
    exact ⟨h, hh, kids, o, hk, rest, e, hr, rfl, rfl⟩

theorem parseVals_bounds : ∀ {fuel n off : Nat} {vs : List MsgpackVal} {e : Nat},
    parseVals b fuel n off = some (vs, e) → off ≤ e ∧ (off ≤ b.length → e ≤ b.length)
  | _, 0, _, _, _, h => by simp only [parseVals, Option.some.injEq, Prod.mk.injEq] at h; omega
  | 0, _ + 1, _, _, _, h => by simp [parseVals] at h
  | fuel + 1, n + 1, off, vs, e, hp => by
    obtain ⟨h, kids, o, rest, hh, hk, hr, -⟩ := parseVals_succ_eq_some.mp hp
    have := msgpackParse_next hh
    have hk' := parseVals_bounds hk
    have hr' := parseVals_bounds hr
    omega

theorem parseVals_length : ∀ {fuel n off : Nat} {vs : List MsgpackVal} {e : Nat},
    parseVals b fuel n off = some (vs, e) → vs.length = n
  | _, 0, _, _, _, h => by simp only [parseVals, Option.some.injEq, Prod.mk.injEq] at h; simp [← h.1]
  | 0, _ + 1, _, _, _, h => by simp [parseVals] at h
  | _ + 1, _ + 1, _, _, _, hp => by
    obtain ⟨h, kids, o, rest, -, -, hr, rfl⟩ := parseVals_succ_eq_some.mp hp
    simp [parseVals_length hr]

theorem parseVals_succ_bounds {fuel n off : Nat} {vs : List MsgpackVal} {e : Nat}
    (hp : parseVals b fuel (n + 1) off = some (vs, e)) : off < e ∧ e ≤ b.length := by
  cases fuel with
  | zero => simp [parseVals] at hp
  | succ fuel =>
    obtain ⟨h, kids, o, rest, hh, hk, hr, -⟩ := parseVals_succ_eq_some.mp hp
    have := msgpackParse_next hh
    have := parseVals_bounds hk
    have := parseVals_bounds hr
    omega

/-- Values parsed from `b` parse identically from any buffer agreeing with `b` below
their end. -/
theorem parseVals_agree : ∀ {fuel n off : Nat} {vs : List MsgpackVal} {e : Nat},
    parseVals b fuel n off = some (vs, e) → Agree b b' e → parseVals b' fuel n off = some (vs, e)
  | _, 0, _, _, _, h, _ => by simpa [parseVals] using h
  | 0, _ + 1, _, _, _, h, _ => by simp [parseVals] at h
  | fuel + 1, n + 1, off, vs, e, hp, ha => by
    obtain ⟨h, kids, o, rest, hh, hk, hr, rfl⟩ := parseVals_succ_eq_some.mp hp
    have ho := (parseVals_bounds hr).1
    have hn := (parseVals_bounds hk).1
    exact parseVals_succ_eq_some.mpr ⟨h, kids, o, rest, msgpackParse_agree hh (ha.mono (by omega)),
      parseVals_agree hk (ha.mono ho), parseVals_agree hr ha, rfl⟩

theorem parseVals_fuel : ∀ {fuel fuel' n off : Nat}, b.length < fuel + off →
    b.length < fuel' + off → parseVals b fuel n off = parseVals b fuel' n off
  | _, _, 0, _, _, _ => by simp [parseVals]
  | 0, fuel' + 1, n + 1, off, hf, _ => by
    have : msgpackParse b off = none := by simp [msgpackParse, List.getElem?_eq_none (by omega : b.length ≤ off)]
    simp [parseVals, this]
  | fuel + 1, 0, n + 1, off, _, hf' => by
    have : msgpackParse b off = none := by simp [msgpackParse, List.getElem?_eq_none (by omega : b.length ≤ off)]
    simp [parseVals, this]
  | 0, 0, n + 1, _, _, _ => rfl
  | fuel + 1, fuel' + 1, n + 1, off, hf, hf' => by
    cases hh : msgpackParse b off with
    | none => simp [parseVals, hh]
    | some h =>
      have hn := (msgpackParse_next hh).1
      simp only [parseVals, hh, Option.bind_eq_bind, Option.some_bind]
      rw [@parseVals_fuel fuel fuel' h.children h.next (by omega) (by omega)]
      cases hk : parseVals b fuel' h.children h.next with
      | none => rfl
      | some r =>
        have := (parseVals_bounds hk).1
        simp only [Option.some_bind]
        rw [@parseVals_fuel fuel fuel' n r.2 (by omega) (by omega)]

theorem parseVals_take_some {fuel n off m : Nat} {vs : List MsgpackVal} {e : Nat}
    (hp : parseVals b fuel n off = some (vs, e)) (hm : e ≤ m) :
    parseVals (b.take m) fuel n off = some (vs, e) :=
  parseVals_agree hp ((agree_take b m).mono hm)

theorem parseVals_take_none {fuel n off m : Nat} (hp : parseVals b fuel n off = none) :
    parseVals (b.take m) fuel n off = none := by
  cases n with
  | zero => simp [parseVals] at hp
  | succ n =>
    cases ht : parseVals (b.take m) fuel (n + 1) off with
    | none => rfl
    | some r =>
      have hl := (parseVals_succ_bounds ht).2
      have ha : Agree (b.take m) b r.2 := fun i hi =>
        List.getElem?_take_of_lt (by rw [List.length_take] at hl; omega)
      rw [parseVals_agree ht ha] at hp
      exact absurd hp (by simp)

theorem slice_drop {k off : Nat} : ∀ {n : Nat}, slice (b.drop k) off n = slice b (k + off) n
  | 0 => rfl
  | n + 1 => by simp only [slice, slice_drop, List.getElem?_drop, Nat.add_assoc]

theorem readLayout_drop {k o : Nat} {l : Layout} :
    readLayout (b.drop k) o l = (readLayout b (k + o) l).map fun h => { h with next := h.next - k } := by
  simp only [readLayout, readBE, typeByte, slice_drop, List.getElem?_drop, Nat.add_assoc,
    Option.bind_eq_bind, Option.map_bind, Function.comp_def, Option.pure_def, Option.map_some',
    Nat.add_sub_cancel_left]

theorem msgpackParse_drop {k off : Nat} :
    msgpackParse (b.drop k) off = (msgpackParse b (k + off)).map fun h => { h with next := h.next - k } := by
  simp only [msgpackParse, List.getElem?_drop, readLayout_drop, Nat.add_assoc, Option.bind_eq_bind,
    Option.map_bind, Function.comp_def]

theorem parseVals_drop {k : Nat} : ∀ {fuel n off : Nat},
    parseVals (b.drop k) fuel n off = (parseVals b fuel n (k + off)).map fun r => (r.1, r.2 - k)
  | _, 0, off => by simp [parseVals]
  | 0, _ + 1, _ => rfl
  | fuel + 1, n + 1, off => by
    simp only [parseVals, msgpackParse_drop, Option.bind_eq_bind]
    cases hh : msgpackParse b (k + off) with
    | none => rfl
    | some h =>
      have hn := (msgpackParse_next hh).1
      simp only [Option.map_some', Option.some_bind]
      rw [parseVals_drop, show k + (h.next - k) = h.next by omega]
      cases hk : parseVals b fuel h.children h.next with
      | none => rfl
      | some kids =>
        have hk' := (parseVals_bounds hk).1
        simp only [Option.map_some', Option.some_bind]
        rw [parseVals_drop, show k + (kids.2 - k) = kids.2 by omega]
        cases parseVals b fuel n kids.2 <;> rfl

end Frame

theorem tagLayout_build (t v : Nat) (x : UInt8) (d : List UInt8) :
    (((tagLayout t).build v x d).1 ≠ .list → ((tagLayout t).build v x d).1 ≠ .map →
      ((tagLayout t).build v x d).2.2 = 0) ∧
    (((tagLayout t).build v x d).1 = .map → ((tagLayout t).build v x d).2.2 % 2 = 0) := by
  unfold tagLayout
  split_ifs
  all_goals try split
  all_goals simp [Layout.fixed, Layout.blob, Layout.fixBlob, Layout.ext, Layout.fixExt,
    Layout.float, Layout.uint, Layout.sint, Layout.list, Layout.map]

theorem msgpackParse_children {b : List UInt8} {off : Nat} {h : MsgpackHeader}
    (hp : msgpackParse b off = some h) :
    (h.type ≠ .list → h.type ≠ .map → h.children = 0) ∧ (h.type = .map → h.children % 2 = 0) := by
  simp only [msgpackParse, readLayout, Option.bind_eq_bind, Option.bind_eq_some, Option.pure_def,
    Option.some.injEq] at hp
  obtain ⟨tag, -, v, -, x, -, d, -, rfl⟩ := hp
  exact tagLayout_build tag.toNat v x d

end CdtValidation.Msgpack
