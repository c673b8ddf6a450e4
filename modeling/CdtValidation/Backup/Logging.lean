import CdtValidation.Backup.Check

/-! Every anomaly the classifier counts is logged. A verdict asks for the record to be
written (`need_fix` or `cf->need_log`) exactly when it counts a fix, an unfixable bin or an
invalid key. The two exits that count `cannot_fix` without `need_log` (`cdt_check_sz` past
the end, and the ordered-list reorder past the end) need a cursor beyond the bin, which
no cursor operation produces (`msgpackSzRep_offset`, `msgpackCmp_offset`). -/

namespace CdtValidation.Backup
open CdtValidation.Msgpack

/-- `t` counts one more fix, unfixable bin or invalid key than `s`. -/
def Grew (s t : CdtStats) : Prop :=
  s.get .needFix < t.get .needFix ∨ s.get .cannotFix < t.get .cannotFix ∨
    s.get .cfInvalidkey < t.get .cfInvalidkey

/-- The verdict asks for the record to be logged exactly when it counts an anomaly. -/
def LogAgrees (st : CdtStats) (v : Verdict) : Prop :=
  (v.needFix || v.cf.needLog) = true ↔ Grew st v.st

theorem not_grew (s : CdtStats) : ¬ Grew s s := by
  simp [Grew]

theorem grew_incr_count {s t : CdtStats} : Grew (s.incr .count) t ↔ Grew s t := by
  simp [Grew]

/-- An early exit of the classifier: it logs what it counts, and asks for a fix only with
an order flag set. -/
def EarlyExit (st : CdtStats) (v : Verdict) : Prop :=
  LogAgrees st v ∧ (v.needFix = true → (v.cf.nfListOrder || v.cf.nfMapOrder) = true)

section Exits

variable {cf : CdtFix} {st : CdtStats}

theorem cannotFix_early (c : Counter) : EarlyExit st (cannotFix c cf st) := by
  have h : st.get .cannotFix < ((st.incr .cannotFix).incr c).get .cannotFix := by
    simp only [CdtStats.get_incr, if_true]
    omega
  exact ⟨by simpa [LogAgrees, cannotFix, Grew] using Or.inr (Or.inl h), fun h => nomatch h⟩

theorem invalidKey_early : EarlyExit st (invalidKey cf st) := by
  simp [EarlyExit, LogAgrees, invalidKey, Grew]

theorem cdtCheckSetCannotfix_early (mp : MsgpackIn) :
    EarlyExit st (cdtCheckSetCannotfix mp cf st) :=
  cannotFix_early _

theorem orderFix_early {o sz : Nat} (hf : (cf.nfListOrder || cf.nfMapOrder) = true) :
    EarlyExit st (orderFix o sz cf st) := by
  unfold orderFix
  split <;> simp [EarlyExit, LogAgrees, Grew, hf]

theorem cdtCheckSz_logAgrees {mp : MsgpackIn} {sz : Nat} (h : mp.offset ≤ sz)
    (hcf : cf.needLog = false) : LogAgrees st (cdtCheckSz mp sz cf st) := by
  unfold cdtCheckSz
  split
  · simp [LogAgrees, Grew]
  · rw [if_neg (by omega)]
    simp [LogAgrees, hcf, not_grew]

theorem listOrderFix_early {sz : Nat} {mp : MsgpackIn} (h : mp.offset ≤ sz) :
    EarlyExit st (listOrderFix sz mp cf st) := by
  simp only [listOrderFix, if_pos h]
  exact orderFix_early (by simp)

theorem mapOrderFix_early {buf : List UInt8} {eleCount : Nat} {mp : MsgpackIn} :
    EarlyExit st (mapOrderFix buf eleCount mp cf st) := by
  unfold mapOrderFix
  dsimp only
  split_ifs
  · exact cannotFix_early _
  · exact orderFix_early (by simp)
  · exact cannotFix_early _

end Exits

/-- A body or loop of the classifier: an early exit agrees, and the end reached satisfies
`ok`. -/
def Exits {α : Type} (st : CdtStats) (ok : α → Prop) : Except Verdict α → Prop
  | .error v => EarlyExit st v
  | .ok a => ok a

theorem Exits.bind {α β : Type} {st : CdtStats} {ok' : α → Prop} {ok : β → Prop}
    {x : Except Verdict α} {f : α → Except Verdict β} (hx : Exits st ok' x)
    (hf : ∀ a, ok' a → Exits st ok (f a)) : Exits st ok (x >>= f) := by
  cases x with
  | error v => exact hx
  | ok a => exact hf a hx

theorem Exits.ite {α : Type} {st : CdtStats} {ok : α → Prop} {c : Prop} [Decidable c]
    {x y : Except Verdict α} (hx : Exits st ok x) (hy : Exits st ok y) :
    Exits st ok (if c then x else y) := by
  split
  · exact hx
  · exact hy

section Loops

variable {buf : List UInt8} {cf : CdtFix} {st : CdtStats} {keys : Bool}

/-- A cursor of the classifier stays in the bin. -/
abbrev InBin (buf : List UInt8) (mp : MsgpackIn) : Prop := mp.offset ≤ buf.length

/-- The end of a body: the cursor in the bin, and `need_log` and the order flags as they
were. -/
def Reached (buf : List UInt8) (cf : CdtFix) (r : MsgpackIn × CdtFix) : Prop :=
  InBin buf r.1 ∧ r.2.needLog = cf.needLog ∧ r.2.nfListOrder = cf.nfListOrder ∧
    r.2.nfMapOrder = cf.nfMapOrder

theorem listReorder_early {eleCount i : Nat} {mp : MsgpackIn} (h : InBin buf mp) :
    EarlyExit st (listReorder buf eleCount i mp cf st) := by
  unfold listReorder
  dsimp only
  split_ifs
  · exact cdtCheckSetCannotfix_early _
  · exact cdtCheckSetCannotfix_early _
  · exact listOrderFix_early (msgpackSzRep_offset.2 h)
  · exact listOrderFix_early h

theorem listWalk_exits {eleCount : Nat} :
    ∀ {k i : Nat} {prev mp : MsgpackIn}, InBin buf mp →
      Exits st (InBin buf) (listWalk buf keys eleCount cf st k i prev mp)
  | 0, _, _, _, h => h
  | k + 1, i, prev, mp, h => by
    have hr : InBin buf (msgpackCmp buf prev mp).mp1 := (msgpackCmp_offset).2.2 h
    unfold listWalk
    exact .ite (listReorder_early hr) <| .ite invalidKey_early (listWalk_exits hr)

theorem listKeysLoop_exits : ∀ {k : Nat} {mp : MsgpackIn}, InBin buf mp →
    Exits st (InBin buf) (listKeysLoop buf cf st k mp)
  | 0, _, h => h
  | k + 1, mp, h => by
    have hr : InBin buf (msgpackSzRep buf mp 1).mp := msgpackSzRep_offset.2 h
    unfold listKeysLoop
    exact .ite (cdtCheckSetCannotfix_early _) <| .ite invalidKey_early (listKeysLoop_exits hr)

theorem listSkip_exits {eleCount : Nat} {mp : MsgpackIn} (h : InBin buf mp) :
    Exits st (InBin buf) (listSkip buf cf st keys eleCount mp) := by
  unfold listSkip
  split
  · exact listKeysLoop_exits h
  · dsimp only
    split
    · exact cdtCheckSetCannotfix_early _
    · exact msgpackSzRep_offset.2 h

theorem listUnordered_exits {eleCount : Nat} {mp : MsgpackIn} (h : InBin buf mp) :
    Exits st (Reached buf cf) (listUnordered buf cf st keys eleCount mp) :=
  Exits.bind (listSkip_exits h) fun _ ha => ⟨ha, rfl, rfl, rfl⟩

theorem listOrdered_exits {eleCount : Nat} {mp : MsgpackIn} (h : InBin buf mp) :
    Exits st (Reached buf cf) (listOrdered buf cf st keys eleCount mp) := by
  have hr : InBin buf (msgpackSzRep buf mp 1).mp := msgpackSzRep_offset.2 h
  unfold listOrdered
  exact .ite ⟨h, rfl, rfl, rfl⟩ <| .ite (cdtCheckSetCannotfix_early _) <| .ite invalidKey_early <|
    .bind (listWalk_exits hr) fun _ ha => .ite (cannotFix_early _) ⟨ha, rfl, rfl, rfl⟩

theorem listBody_exits : Exits st (Reached buf cf) (listBody buf cf st keys) := by
  unfold listBody
  split
  · exact cannotFix_early _
  · next c hc =>
    have hc' := (getEleCount_offset hc).2.1
    split_ifs
    · exact ⟨hc', rfl, rfl, rfl⟩
    · split
      · exact cannotFix_early _
      · next mp hmp => exact listOrdered_exits (msgpackGetExt_offset hmp).2.1
    · exact listUnordered_exits hc'

/-- `cdt_list_need_fix` logs exactly what it counts. -/
theorem cdtListNeedFix_logAgrees (hcf : cf.needLog = false) :
    LogAgrees st (cdtListNeedFix buf cf st keys) := by
  have h : Exits st (Reached buf cf) (listBody buf cf st keys) := listBody_exits
  unfold cdtListNeedFix
  split
  · next v hv => rw [hv] at h; exact h.1
  · next r hr =>
    rw [hr] at h
    exact cdtCheckSz_logAgrees h.1 (h.2.1.trans hcf)

theorem mapReorder_early {eleCount i : Nat} {mp : MsgpackIn} :
    EarlyExit st (mapReorder buf eleCount i mp cf st) := by
  unfold mapReorder
  dsimp only
  split_ifs
  · exact cdtCheckSetCannotfix_early _
  · exact cdtCheckSetCannotfix_early _
  · exact mapOrderFix_early
  · exact mapOrderFix_early

theorem mapWalk_exits {eleCount : Nat} :
    ∀ {k i : Nat} {prev mp : MsgpackIn}, InBin buf mp →
      Exits st (InBin buf) (mapWalk buf keys eleCount cf st k i prev mp)
  | 0, _, _, _, h => h
  | k + 1, i, prev, mp, h => by
    have hr : InBin buf (msgpackSz buf (msgpackCmp buf prev mp).mp1).mp :=
      msgpackSzRep_offset.2 ((msgpackCmp_offset).2.2 h)
    unfold mapWalk
    exact .ite invalidKey_early <| .ite (cdtCheckSetCannotfix_early _) <|
      .ite (cdtCheckSetCannotfix_early _) <| .ite mapReorder_early <|
      .ite invalidKey_early (mapWalk_exits hr)

theorem mapKeysLoop_exits : ∀ {k : Nat} {mp : MsgpackIn}, InBin buf mp →
    Exits st (InBin buf) (mapKeysLoop buf cf st k mp)
  | 0, _, h => h
  | k + 1, mp, h => by
    have hr : InBin buf (msgpackSzRep buf (msgpackSzRep buf mp 1).mp 1).mp :=
      msgpackSzRep_offset.2 (msgpackSzRep_offset.2 h)
    unfold mapKeysLoop
    exact .ite (cdtCheckSetCannotfix_early _) <| .ite invalidKey_early <|
      .ite (cdtCheckSetCannotfix_early _) <| .ite invalidKey_early (mapKeysLoop_exits hr)

theorem mapSkip_exits {eleCount : Nat} {mp : MsgpackIn} (h : InBin buf mp) :
    Exits st (InBin buf) (mapSkip buf cf st keys eleCount mp) := by
  unfold mapSkip
  split
  · exact mapKeysLoop_exits h
  · dsimp only
    split
    · exact cdtCheckSetCannotfix_early _
    · exact msgpackSzRep_offset.2 h

theorem mapUnordered_exits {eleCount : Nat} {mp : MsgpackIn} (h : InBin buf mp) :
    Exits st (Reached buf cf) (mapUnordered buf cf st keys eleCount mp) := by
  refine Exits.bind (mapSkip_exits h) fun _ ha => ?_
  dsimp only
  split
  · exact cannotFix_early _
  · exact ⟨ha, rfl, rfl, rfl⟩

theorem mapOrdered_exits {eleCount : Nat} {mp : MsgpackIn} (h : InBin buf mp) :
    Exits st (Reached buf cf) (mapOrdered buf cf st keys eleCount mp) := by
  have hr : InBin buf (msgpackSzRep buf (msgpackSzRep buf mp 1).mp 1).mp :=
    msgpackSzRep_offset.2 (msgpackSzRep_offset.2 h)
  unfold mapOrdered
  exact .ite ⟨h, rfl, rfl, rfl⟩ <| .ite (cdtCheckSetCannotfix_early _) <| .ite invalidKey_early <|
    .ite (cdtCheckSetCannotfix_early _) <| .ite invalidKey_early <|
    .bind (mapWalk_exits hr) fun _ ha => ⟨ha, rfl, rfl, rfl⟩

theorem mapBody_exits : Exits st (Reached buf cf) (mapBody buf cf st keys) := by
  unfold mapBody
  split
  · exact cannotFix_early _
  · next c hc =>
    have hc' := (getEleCount_offset hc).2.1
    split_ifs
    · exact ⟨hc', rfl, rfl, rfl⟩
    · split
      · exact cannotFix_early _
      · next mp hmp =>
        dsimp only
        split
        · exact cannotFix_early _
        · exact mapOrdered_exits (msgpackSzRep_offset.2 (msgpackGetExt_offset hmp).2.1)
    · exact mapUnordered_exits hc'

/-- `cdt_map_need_fix` logs exactly what it counts. -/
theorem cdtMapNeedFix_logAgrees (hcf : cf.needLog = false) :
    LogAgrees st (cdtMapNeedFix buf cf st keys) := by
  have h : Exits st (Reached buf cf) (mapBody buf cf st keys) := mapBody_exits
  unfold cdtMapNeedFix
  split
  · next v hv => rw [hv] at h; exact h.1
  · next r hr =>
    rw [hr] at h
    exact cdtCheckSz_logAgrees h.1 (h.2.1.trans hcf)

end Loops

/-- `cdt_need_fix` counted a fix, an unfixable bin or an invalid key, in either stats
object. -/
def Flagged (bc : BackupConfig) (r : NeedFix) : Prop :=
  Grew bc.cdtList r.bc.cdtList ∨ Grew bc.cdtMap r.bc.cdtMap

theorem cdtNeedFix_logged (buf : List UInt8) (bc : BackupConfig) :
    ((cdtNeedFix buf .init bc).needFix || (cdtNeedFix buf .init bc).cf.needLog) = true ↔
      Flagged bc (cdtNeedFix buf .init bc) := by
  unfold cdtNeedFix
  split
  · simp only [Flagged, not_grew, or_false]
    exact (cdtListNeedFix_logAgrees rfl).trans grew_incr_count
  · simp only [Flagged, not_grew, false_or]
    exact (cdtMapNeedFix_logAgrees rfl).trans grew_incr_count
  · simp [Flagged, not_grew, CdtFix.init]

/-- A list or map bin whose `cdt_need_fix`, run on the configuration `bc`, counted an
anomaly. -/
def FlaggedBin (bc : BackupConfig) : AsVal → Prop
  | .bytes t buf => (t = asBytesList ∨ t = asBytesMap) ∧ Flagged bc (cdtNeedFix buf .init bc)
  | .other => False

theorem cdtCheckBin_needLog (put : CdtRepair → Bool) (c : Checked) (v : AsVal) :
    (cdtCheckBin put c v).needLog = true ↔ c.needLog = true ∨ FlaggedBin c.bc v := by
  cases v with
  | other => simp [cdtCheckBin, FlaggedBin]
  | bytes t buf =>
    simp only [cdtCheckBin, FlaggedBin]
    by_cases ht : t = asBytesList ∨ t = asBytesMap
    · have h := cdtNeedFix_logged buf c.bc
      rw [if_neg (by tauto)]
      split_ifs <;> simp_all
    · rw [if_pos (by tauto)]
      simp [ht]

theorem foldl_cdtCheckBin_needLog (put : CdtRepair → Bool) : ∀ (bins : List AsVal) (c : Checked),
    (bins.foldl (cdtCheckBin put) c).needLog = true ↔ c.needLog = true ∨
      ∃ pre v post, bins = pre ++ v :: post ∧ FlaggedBin (pre.foldl (cdtCheckBin put) c).bc v
  | [], c => by simp
  | v :: bins, c => by
    rw [List.foldl_cons, foldl_cdtCheckBin_needLog put bins, cdtCheckBin_needLog, or_assoc]
    apply or_congr_right
    constructor
    · rintro (h | ⟨pre, w, post, rfl, h⟩)
      · exact ⟨[], v, bins, rfl, h⟩
      · exact ⟨v :: pre, w, post, rfl, h⟩
    · rintro ⟨_ | ⟨u, pre⟩, w, post, he, h⟩
      · obtain ⟨rfl, rfl⟩ := List.cons_eq_cons.mp he
        exact Or.inl h
      · obtain ⟨rfl, rfl⟩ := List.cons_eq_cons.mp he
        exact Or.inr ⟨pre, w, post, rfl, h⟩

/-- `cdt_check` asks for the record to be written exactly when one of its list or map
bins made `cdt_need_fix` count a fix, an unfixable bin or an invalid key, on the
configuration the bins before it left. -/
theorem cdtCheck_needLog_iff (put : CdtRepair → Bool) (bc : BackupConfig) (bins : List AsVal) :
    (cdtCheck put bc bins).needLog = true ↔
      ∃ pre v post, bins = pre ++ v :: post ∧ FlaggedBin (cdtCheck put bc pre).bc v := by
  simp [cdtCheck, foldl_cdtCheckBin_needLog]

end CdtValidation.Backup
