import CdtValidation.Backup.Keys

/-! The nested-key validator `check_map_keys_internal` against the value it walks. The walk
re-implements the traversal of `msgpack_sz` with `msgpack_parse`, which reads one header, and
its own `uint32_t` element count. It lands where `msgpack_sz` does, and checks every key of
every map, for a value whose counts do not wrap and whose ordered maps have a scalar marker
value: the walk skips the marker value by its header alone. -/

namespace CdtValidation.Backup
open CdtValidation.Msgpack

/-- `map_is_key` on a parsed value. -/
def isKeyVal : MsgpackVal → Bool
  | .node t _ d _ =>
    match t with
    | .negint | .int | .string => true
    | .bytes => d.head? = some asBytesBlob
    | _ => false

/-- An ext value, which the walk takes for an ordered marker when it leads a list or map. -/
def isExtVal : MsgpackVal → Bool
  | .node t _ _ _ => t = .ext

/-- A value without elements. -/
def isScalarVal : MsgpackVal → Bool
  | .node _ _ _ kids => kids.isEmpty

mutual
/-- The validator's law on a parsed value: every map at every depth has only keys
`map_is_key` accepts. A list's leading ext element and a map's leading ext key with its
value, the ordered markers, are exempt. -/
def keysOk : MsgpackVal → Bool
  | .node .list _ _ (k :: ks) => if isExtVal k then allKeysOk ks else keysOk k && allKeysOk ks
  | .node .map _ _ (k :: v :: rest) =>
    if isExtVal k then pairsOk rest else isKeyVal k && keysOk k && keysOk v && pairsOk rest
  | _ => true
/-- `keysOk` of each value. -/
def allKeysOk : List MsgpackVal → Bool
  | [] => true
  | v :: vs => keysOk v && allKeysOk vs
/-- Consecutive pairs: each key accepted by `map_is_key`, and key and value valid. -/
def pairsOk : List MsgpackVal → Bool
  | k :: v :: kvs => isKeyVal k && keysOk k && keysOk v && pairsOk kvs
  | _ => true
end

mutual
/-- What the walk needs of a value to read it whole: no list or map it visits counts
`2 ^ 32 - 1` elements or more, where the `uint32_t` count wraps, and the value of an ordered
map's marker is a scalar. -/
def walkable : MsgpackVal → Bool
  | .node .list _ _ (k :: ks) =>
    decide (ks.length + 2 < 2 ^ 32) &&
      if isExtVal k then allWalkable ks else walkable k && allWalkable ks
  | .node .map _ _ (k :: v :: rest) =>
    decide (rest.length + 3 < 2 ^ 32) &&
      if isExtVal k then isScalarVal v && allWalkable rest
      else walkable k && walkable v && allWalkable rest
  | _ => true
/-- `walkable` of each value. -/
def allWalkable : List MsgpackVal → Bool
  | [] => true
  | v :: vs => walkable v && allWalkable vs
end

section Walk

variable {buf : List UInt8}

theorem mapIsKey_drop {o m : Nat} {k : MsgpackVal} (hp : parseOne buf o = some (k, m)) :
    mapIsKey (buf.drop o) = isKeyVal k := by
  obtain ⟨h, kids, hh, -, rfl⟩ := parseOne_node hp
  have hd : msgpackParse (buf.drop o) 0 = some { h with next := h.next - o } := by
    simp [msgpackParse_drop, hh]
  cases ht : h.type <;>
    simp only [mapIsKey, msgpackPeekType, msgpackGetBin, MsgpackIn.init, hd, Option.map_some',
      isKeyVal, ht]

/-! ### The walk terminates within `end - b` levels -/

/-- The walk at `fuel` on one value: it accepts the value, landing at its end, exactly when
its keys are valid. -/
abbrev WalksAt (buf : List UInt8) (fuel : Nat) : Prop :=
  ∀ {b e : Nat} {v : MsgpackVal}, parseOne buf b = some (v, e) → walkable v = true →
    buf.length < fuel + b → checkMapKeysInternal buf fuel b = if keysOk v then some e else none

theorem iterate_values {fuel : Nat} (ih : WalksAt buf fuel) :
    ∀ {n o e : Nat} {vs : List MsgpackVal}, parseVals buf (buf.length + 1) n o = some (vs, e) →
      allWalkable vs = true → buf.length < fuel + o →
      iterateOpt (checkMapKeysInternal buf fuel) n o = if allKeysOk vs then some e else none
  | 0, o, e, vs, hp, _, _ => by
    simp only [parseVals, Option.some.injEq, Prod.mk.injEq] at hp
    obtain ⟨rfl, rfl⟩ := hp
    rfl
  | n + 1, o, e, vs, hp, hw, hf => by
    obtain ⟨v, m, rest, hv, hr, rfl⟩ := parseVals_succ_cons hp
    simp only [allWalkable, Bool.and_eq_true] at hw
    have hm : o < m := (parseOne_bounds hv).1
    rw [iterateOpt, ih hv hw.1 hf]
    cases hk : keysOk v
    · simp [allKeysOk, hk]
    · simp only [allKeysOk, hk, Bool.true_and, ite_true, Option.some_bind]
      exact iterate_values ih hr hw.2 (by omega)

theorem iterate_pairs {fuel : Nat} (ih : WalksAt buf fuel) :
    ∀ {n o e : Nat} {kvs : List MsgpackVal},
      parseVals buf (buf.length + 1) (2 * n) o = some (kvs, e) → allWalkable kvs = true →
      buf.length < fuel + o →
      iterateOpt (fun nb => if mapIsKey (buf.drop nb) then
          (checkMapKeysInternal buf fuel nb).bind (checkMapKeysInternal buf fuel) else none) n o =
        if pairsOk kvs then some e else none
  | 0, o, e, kvs, hp, _, _ => by
    simp only [Nat.mul_zero, parseVals, Option.some.injEq, Prod.mk.injEq] at hp
    obtain ⟨rfl, rfl⟩ := hp
    rfl
  | n + 1, o, e, kvs, hp, hw, hf => by
    have hp2 : parseVals buf (buf.length + 1) (2 * n + 1 + 1) o = some (kvs, e) := by
      rwa [show 2 * n + 1 + 1 = 2 * (n + 1) by omega]
    obtain ⟨k, m, kvs', hk, hr, rfl⟩ := parseVals_succ_cons hp2
    obtain ⟨v, m', rest, hv, hr', rfl⟩ := parseVals_succ_cons hr
    simp only [allWalkable, Bool.and_eq_true] at hw
    have hm : o < m := (parseOne_bounds hk).1
    have hm' : m < m' := (parseOne_bounds hv).1
    have hval := ih hv hw.2.1 (by omega)
    rw [iterateOpt, mapIsKey_drop hk, ih hk hw.1 hf]
    cases hkey : isKeyVal k <;> cases hok : keysOk k <;> cases hvok : keysOk v <;>
      simp only [pairsOk, hkey, hok, hvok, hval, Bool.false_and, Bool.and_false, Bool.true_and,
        ite_true, ite_false, Bool.false_eq_true, Option.some_bind, Option.none_bind]
    exact iterate_pairs ih hr' hw.2.2 (by omega)

@[simp] theorem keysOk_scalar (t : MsgpackType) (n : Int) (d : List UInt8) : keysOk (.node t n d []) = true := by
  cases t <;> rfl

theorem eleCount_eq {c : Nat} (hc : c + 1 < 2 ^ 32) : ((1 + c) % 2 ^ 32 + (2 ^ 32 - 1)) % 2 ^ 32 = c := by
  simp only [Nat.reducePow] at hc ⊢
  omega

theorem walk_list {fuel b e : Nat} {h : MsgpackHeader} {k : MsgpackVal} {ks : List MsgpackVal}
    (ih : WalksAt buf fuel) (hh : msgpackParse buf b = some h) (ht : h.type = .list)
    (hc : h.children = ks.length + 1)
    (hk : parseVals buf (buf.length + 1) (ks.length + 1) h.next = some (k :: ks, e))
    (hw : walkable (.node .list h.num h.data (k :: ks)) = true) (hf : buf.length < fuel + 1 + b) :
    checkMapKeysInternal buf (fuel + 1) b =
      if keysOk (.node .list h.num h.data (k :: ks)) then some e else none := by
  have hn : b < h.next := (msgpackParse_next hh).1
  simp only [walkable, Bool.and_eq_true, decide_eq_true_eq] at hw
  obtain ⟨hb, hw⟩ := hw
  obtain ⟨_, m, _, hk1, hks, hcons⟩ := parseVals_succ_cons hk
  obtain ⟨rfl, rfl⟩ := List.cons.inj hcons
  obtain ⟨hd, kk, hhd, -, rfl⟩ := parseOne_node hk1
  have hm : h.next < m := (parseOne_bounds hk1).1
  simp only [checkMapKeysInternal, hh, ht, hc, eleCount_eq (by omega : ks.length + 1 + 1 < 2 ^ 32),
    msgpackPeekType, hhd, Option.bind_eq_bind, Option.some_bind, ne_eq, not_true_eq_false,
    false_and, if_false, Nat.add_one_ne_zero, reduceCtorEq, if_true, Option.pure_def,
    Nat.add_sub_cancel]
  by_cases hext : hd.type = .ext
  · have h0 : hd.children = 0 := (msgpackParse_children hhd).1 (by simp [hext]) (by simp [hext])
    obtain ⟨rfl, hkk⟩ := parseOne_header_end hk1 hhd h0
    simp only [MsgpackVal.node.injEq] at hkk
    obtain ⟨-, -, -, rfl⟩ := hkk
    simp only [keysOk, isExtVal, hext, decide_True, if_true] at hw ⊢
    exact iterate_values ih hks hw (by omega)
  · simp only [keysOk, isExtVal, hext, decide_False, Bool.false_eq_true, if_false] at hw ⊢
    exact iterate_values ih hk hw (by omega)

theorem walk_map {fuel b e : Nat} {h : MsgpackHeader} {k v : MsgpackVal} {rest : List MsgpackVal}
    (ih : WalksAt buf fuel) (hh : msgpackParse buf b = some h) (ht : h.type = .map)
    (hc : h.children = rest.length + 2) (heven : rest.length % 2 = 0)
    (hk : parseVals buf (buf.length + 1) (rest.length + 2) h.next = some (k :: v :: rest, e))
    (hw : walkable (.node .map h.num h.data (k :: v :: rest)) = true) (hf : buf.length < fuel + 1 + b) :
    checkMapKeysInternal buf (fuel + 1) b =
      if keysOk (.node .map h.num h.data (k :: v :: rest)) then some e else none := by
  have hn : b < h.next := (msgpackParse_next hh).1
  simp only [walkable, Bool.and_eq_true, decide_eq_true_eq] at hw
  obtain ⟨hb, hw⟩ := hw
  obtain ⟨_, m, _, hk1, hvs, hcons⟩ := parseVals_succ_cons hk
  obtain ⟨rfl, rfl⟩ := List.cons.inj hcons
  obtain ⟨_, m', _, hv1, hrest, hcons'⟩ := parseVals_succ_cons hvs
  obtain ⟨rfl, rfl⟩ := List.cons.inj hcons'
  obtain ⟨hd, kk, hhd, -, rfl⟩ := parseOne_node hk1
  have hm : h.next < m := (parseOne_bounds hk1).1
  have hm' : m < m' := (parseOne_bounds hv1).1
  simp only [checkMapKeysInternal, hh, ht, hc, eleCount_eq (by omega : rest.length + 2 + 1 < 2 ^ 32),
    msgpackPeekType, hhd, Option.bind_eq_bind, Option.some_bind, ne_eq, not_true_eq_false,
    and_false, if_false, Nat.add_eq_zero, reduceCtorEq, if_true,
    Option.pure_def, Nat.add_sub_cancel, and_false]
  by_cases hext : hd.type = .ext
  · have h0 : hd.children = 0 := (msgpackParse_children hhd).1 (by simp [hext]) (by simp [hext])
    obtain ⟨rfl, -⟩ := parseOne_header_end hk1 hhd h0
    simp only [keysOk, isExtVal, hext, decide_True, if_true, Bool.and_eq_true] at hw ⊢
    obtain ⟨hsc, hw⟩ := hw
    obtain ⟨hv, kv, hhv, hkv, rfl⟩ := parseOne_node hv1
    simp only [isScalarVal, List.isEmpty_iff] at hsc
    subst hsc
    obtain ⟨rfl, -⟩ := parseOne_header_end hv1 hhv (parseVals_length hkv).symm
    have hrest2 : parseVals buf (buf.length + 1) (2 * (rest.length / 2)) hv.next = some (rest, e) := by
      rwa [show 2 * (rest.length / 2) = rest.length by omega]
    rw [hhv, Option.some_bind, iterate_pairs ih hrest2 hw (by omega)]
  · simp only [keysOk, isExtVal, hext, decide_False, Bool.false_eq_true, if_false] at hw ⊢
    have hk2 : parseVals buf (buf.length + 1) (2 * ((rest.length + 2) / 2)) h.next =
        some (.node hd.type hd.num hd.data kk :: v :: rest, e) := by
      rwa [show 2 * ((rest.length + 2) / 2) = rest.length + 2 by omega]
    rw [iterate_pairs ih hk2 (by simpa [allWalkable, and_assoc] using hw) (by omega)]
    simp only [pairsOk]

/-- With enough fuel, the walk of a value it reads whole lands at its end exactly when `keysOk` holds. -/
theorem checkMapKeysInternal_walk : ∀ {fuel b e : Nat} {v : MsgpackVal},
    parseOne buf b = some (v, e) → walkable v = true → buf.length < fuel + b →
      checkMapKeysInternal buf fuel b = if keysOk v then some e else none
  | 0, _, _, _, hp, _, hf => by have := parseOne_bounds hp; omega
  | fuel + 1, b, e, v, hp, hw, hf => by
    have ih : WalksAt buf fuel := checkMapKeysInternal_walk
    obtain ⟨h, kids, hh, hk, rfl⟩ := parseOne_node hp
    have hlen : kids.length = h.children := parseVals_length hk
    obtain ⟨hscalar, heven⟩ := msgpackParse_children hh
    match kids, hk, hw, hlen with
    | [], _, _, hlen =>
      obtain ⟨rfl, -⟩ := parseOne_header_end hp hh hlen.symm
      simp [checkMapKeysInternal, hh, ← hlen, keysOk_scalar]
    | k :: ks, hk, hw, hlen =>
      have hc : h.children = ks.length + 1 := by simpa using hlen.symm
      rw [hc] at hk
      have ht : h.type = .list ∨ h.type = .map := by
        by_contra hne
        simp only [not_or] at hne
        have := hscalar hne.1 hne.2
        omega
      rcases ht with ht | ht
      · rw [ht] at hw ⊢
        exact walk_list ih hh ht hc hk hw hf
      · have := heven ht
        match ks, hk, hw, hc with
        | [], _, _, hc => simp at hc; omega
        | v :: rest, hk, hw, hc =>
          rw [ht] at hw ⊢
          exact walk_map ih hh ht (by simpa using hc) (by simp at hc; omega) hk hw hf

/-- The classifiers' key test `check_map_keys_internal(start, end) == NULL`, on a value that
`msgpack_sz` skipped from `start` to `end`: it fails exactly when some map in the value has a
key `map_is_key` rejects. -/
theorem keysInvalid_eq_not_keysOk {start e : Nat} {v : MsgpackVal}
    (hp : parseOne buf start = some (v, e)) (hw : walkable v = true) :
    keysInvalid buf start e = !keysOk v := by
  have hp' : parseOne (buf.take e) start = some (v, e) := by
    rw [parseOne_take fun p h => by rw [hp] at h; cases h; exact le_rfl, hp]
  have hl : (buf.take e).length < e + 1 + start := by
    have := List.length_take_le e buf
    omega
  rw [keysInvalid, checkMapKeysInternal_walk hp' hw hl]
  cases keysOk v <;> rfl

/-- `{nil: 1}`: a map whose key `map_is_key` rejects. -/
theorem nil_key_invalid : ∃ v, parseOne [0x81, 0xc0, 0x01] 0 = some (v, 3) ∧
    walkable v = true ∧ keysInvalid [0x81, 0xc0, 0x01] 0 3 = !keysOk v :=
  (fun (hp : _ = _) (hw : _ = _) => ⟨_, hp, hw, keysInvalid_eq_not_keysOk hp hw⟩) rfl rfl

end Walk

/-! ### Where the walk and the value part -/

/-- An ordered map whose marker value is a list, `{ext: [nil], 1: 2}` and `{ext: [1], 2: 3}`:
the walk skips the marker value by its header and takes its elements for the map's pairs, so
it rejects the first on the key `nil` and stops the second one byte short of its end. And a
`map32` header announcing `2 ^ 31` pairs, none present: the count `1 + 2 ^ 32` wraps to `1`,
and the walk accepts the five header bytes. -/
theorem checkMapKeysInternal_marker_value_and_wrap :
    (∃ v, parseOne [0x82, 0xc7, 0x00, 0x01, 0x91, 0xc0, 0x01, 0x02] 0 = some (v, 8) ∧
      keysOk v = true ∧ checkMapKeysInternal [0x82, 0xc7, 0x00, 0x01, 0x91, 0xc0, 0x01, 0x02] 9 0 = none) ∧
    (∃ v, parseOne [0x82, 0xc7, 0x00, 0x01, 0x91, 0x01, 0x02, 0x03] 0 = some (v, 8) ∧
      keysOk v = true ∧ checkMapKeysInternal [0x82, 0xc7, 0x00, 0x01, 0x91, 0x01, 0x02, 0x03] 9 0 = some 7) ∧
    parseOne [0xdf, 0x80, 0x00, 0x00, 0x00] 0 = none ∧
      checkMapKeysInternal [0xdf, 0x80, 0x00, 0x00, 0x00] 6 0 = some 5 :=
  ⟨⟨_, rfl, rfl, rfl⟩, ⟨_, rfl, rfl, rfl⟩, rfl, rfl⟩

end CdtValidation.Backup
