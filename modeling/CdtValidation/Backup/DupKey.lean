import CdtValidation.Backup.MapFix

/-! The quadratic scan of `cdt_map_dup_key_check` over a region of key/value pairs. The outer
loop re-anchors `mp` at each key by its raw offset, and the inner loop walks `rhs` over the
pairs after it. The result is that the scan compares every two keys of the region, in order,
and that the surplus of a count larger than the number of pairs only compares against the
end of the region, which `msgpack_cmp` never calls equal. -/

namespace CdtValidation.Backup
open CdtValidation.Msgpack

/-- From offset `o` the buffer holds one key/value pair at each offset of `os`, one after
the other, and the last ends at `e`. -/
inductive PairsAt (buf : List UInt8) : Nat → List Nat → Nat → Prop
  | nil (o : Nat) : PairsAt buf o [] o
  | cons {o m o' e : Nat} {os : List Nat} {k v : MsgpackVal} :
      parseOne buf o = some (k, m) → parseOne buf m = some (v, o') → PairsAt buf o' os e →
      PairsAt buf o (o :: os) e

section Scan

variable {buf : List UInt8}

/-- The verdict of `msgpack_cmp` on the keys at two raw offsets. -/
abbrev KeysDiffer (buf : List UInt8) (oa ob : Nat) : Prop :=
  (msgpackCmp buf ⟨oa, false⟩ ⟨ob, false⟩).cmp ≠ .equal

theorem keysDiffer_of_none {oa ob : Nat} (h : parseOne buf oa = none ∨ parseOne buf ob = none) :
    KeysDiffer buf oa ob := by
  rw [KeysDiffer, msgpackCmp_of_none h]
  simp

theorem dupKeyInner_of_none {cur : MsgpackIn} (hc : parseOne buf cur.offset = none) :
    ∀ (k : Nat) (rhs : MsgpackIn), dupKeyInner buf cur k rhs = false
  | 0, _ => rfl
  | k + 1, rhs => by
    simp [dupKeyInner, msgpackCmp_of_none (Or.inl hc), dupKeyInner_of_none hc k]

/-- The inner loop compares the key at `cur` with the first `k` keys of the region. -/
theorem dupKeyInner_iff {cur : MsgpackIn} : ∀ {k o : Nat} {rhs : MsgpackIn} {os : List Nat},
    rhs.offset = o → PairsAt buf o os buf.length →
    (dupKeyInner buf cur k rhs = true ↔ ∃ ob ∈ os.take k, ¬KeysDiffer buf cur.offset ob)
  | 0, _, _, _, _, _ => by simp [dupKeyInner]
  | k + 1, _, rhs, _, ho, .nil _ => by
    have hend : buf.length ≤ rhs.offset := ho.ge
    simp [dupKeyInner, msgpackCmp_of_none (Or.inr (parseOne_of_length_le hend)), msgpackSz,
      msgpackSzRep_of_length_le hend, dupKeyInner_iff ho (.nil _)]
  | k + 1, _, rhs, _, ho, @PairsAt.cons _ _ m _ _ _ kv _ hk hv hp => by
    subst ho
    cases hc : parseOne buf cur.offset with
    | none => simp [dupKeyInner_of_none hc, keysDiffer_of_none (Or.inl hc)]
    | some p0 =>
      have hcmp := msgpackCmp_of_parseOne hc hk
      have hnext : (msgpackSz buf (rhs.past kv m)).mp.offset = _ := msgpackSz_of_parseOne hv
      have hhead : (msgpackCmp buf ⟨cur.offset, false⟩ ⟨rhs.offset, false⟩).cmp = cmpVal p0.1 kv :=
        by rw [@msgpackCmp_cmp_offsets buf ⟨cur.offset, false⟩ ⟨rhs.offset, false⟩ cur rhs rfl rfl, hcmp]
      rw [dupKeyInner, hcmp, List.take_succ_cons, List.exists_mem_cons_iff,
        ← dupKeyInner_iff hnext hp, KeysDiffer, hhead]
      by_cases he : cmpVal p0.1 kv = .equal <;> simp [he]

theorem keysDiffer_pairwise_of_length_le {os : List Nat} (h : os.length ≤ 1) :
    os.Pairwise (KeysDiffer buf) :=
  List.pairwise_iff_getElem.mpr fun _ _ _ _ _ => by omega

/-- The outer loop finds two equal keys among the pairs from `mp` on. -/
theorem dupKeyOuter_iff {n : Nat} : ∀ {k i o : Nat} {mp : MsgpackIn} {os : List Nat},
    mp.offset = o → PairsAt buf o os buf.length → os.length ≤ k + 1 → i + k = n →
    (dupKeyOuter buf n k i mp = true ↔ ¬os.Pairwise (KeysDiffer buf))
  | 0, _, _, _, _, _, _, hl, _ => by simp [dupKeyOuter, keysDiffer_pairwise_of_length_le hl]
  | k + 1, i, _, mp, _, ho, .nil _, _, hi => by
    have hend : buf.length ≤ mp.offset := ho.ge
    have hstay := @msgpackSzRep_of_length_le buf mp 1 hend
    simp [dupKeyOuter, hstay, dupKeyInner_iff ho (.nil _),
      dupKeyOuter_iff ho (.nil _) (Nat.zero_le _) (by omega : i + 1 + k = n)]
  | k + 1, i, _, mp, _, ho, @PairsAt.cons _ _ m o' _ os kv _ hk hv hp, hl, hi => by
    subst ho
    have hnext : (msgpackSzRep buf mp 2).mp.offset = o' := msgpackSzRep_two hk hv
    have hlen : os.length ≤ n - i := by simp only [List.length_cons] at hl; omega
    simp only [dupKeyOuter, Bool.if_true_left, Bool.or_eq_true, decide_eq_true_eq,
      dupKeyInner_iff hnext hp, List.take_of_length_le hlen,
      dupKeyOuter_iff hnext hp (by omega) (by omega : i + 1 + k = n), List.pairwise_cons,
      not_and_or, not_forall, exists_prop]

/-- `cdt_map_dup_key_check(n, contents, content_sz)` on a region of exactly the pairs at
`os`, for any count `n` of at least that many: it reports a duplicate exactly when two
keys `a < b` of the region compare equal. The unordered-map call passes `n = |os|`, the
ordered one `n = |os| + 1`, counting the marker pair that precedes the region. -/
theorem cdtMapDupKeyCheck_iff_equal_keys {n : Nat} {contents : List UInt8} {os : List Nat}
    (hp : PairsAt contents 0 os contents.length) (hn : os.length ≤ n) :
    cdtMapDupKeyCheck n contents = true ↔ ∃ a b oa ob : Nat, a < b ∧ os[a]? = some oa ∧
      os[b]? = some ob ∧ (msgpackCmp contents ⟨oa, false⟩ ⟨ob, false⟩).cmp = .equal := by
  have hpw : cdtMapDupKeyCheck n contents = true ↔ ¬os.Pairwise (KeysDiffer contents) := by
    unfold cdtMapDupKeyCheck
    split
    · simp [keysDiffer_pairwise_of_length_le (by omega : os.length ≤ 1)]
    · exact dupKeyOuter_iff rfl hp (by omega) (by omega)
  rw [hpw, List.pairwise_iff_getElem]
  simp only [KeysDiffer, not_forall, not_not, exists_prop, List.getElem?_eq_some_iff]
  constructor
  · rintro ⟨a, b, ha, hb, hab, he⟩
    exact ⟨a, b, _, _, hab, ⟨ha, rfl⟩, ⟨hb, rfl⟩, he⟩
  · rintro ⟨a, b, _, _, hab, ⟨ha, rfl⟩, ⟨hb, rfl⟩, he⟩
    exact ⟨a, b, ha, hb, hab, he⟩

/-- The region `{1: 2, 2: 1, 1: 3}` under the ordered call's count of four. -/
theorem repeated_key_region_found :
    PairsAt [1, 1, 2, 2, 1, 3] 0 [0, 2, 4] 6 ∧ [0, 2, 4].length ≤ 4 ∧
      (cdtMapDupKeyCheck 4 [1, 1, 2, 2, 1, 3] = true ↔ ∃ a b oa ob : Nat, a < b ∧
        [0, 2, 4][a]? = some oa ∧ [0, 2, 4][b]? = some ob ∧
        (msgpackCmp [1, 1, 2, 2, 1, 3] ⟨oa, false⟩ ⟨ob, false⟩).cmp = .equal) :=
  have hp : PairsAt [1, 1, 2, 2, 1, 3] 0 [0, 2, 4] 6 :=
    .cons rfl rfl (.cons rfl rfl (.cons rfl rfl (.nil 6)))
  ⟨hp, by decide, cdtMapDupKeyCheck_iff_equal_keys hp (by decide)⟩

end Scan

end CdtValidation.Backup
