import Mathlib.Data.List.Basic
import Mathlib.Algebra.Group.Int

/-! The per-record write loop of `restore_thread_func`. The results `aerospike_key_put`
returns, and the value of `stop` the loop reads before each attempt (other threads may set
it), are arguments. `MAX_TRIES` and `INITIAL_BACKOFF` come from a header that is not
part of the sources and are parameters. -/

namespace CdtValidation.Restore

/-- The results of `aerospike_key_put` the loop tells apart; `other` is any other status. -/
inductive AsStatus where
  | ok | errRecordExists | errRecordGeneration | errServerFull | roleViolation
  | errRecordTooBig | errRecordKeyMismatch | errBinName | errAlwaysForbidden
  | errDeviceOverload
  | other (code : Int)
deriving DecidableEq, Repr

namespace AsStatus

/-- System-level errors: the run stops at once. -/
def fatal : AsStatus → Bool
  | .errServerFull | .roleViolation => true
  | _ => false

/-- Record-specific errors: counted ignored, and fatal unless `--ignore-record-error`. -/
def recordSpecific : AsStatus → Bool
  | .errRecordTooBig | .errRecordKeyMismatch | .errBinName | .errAlwaysForbidden => true
  | _ => false

/-- The results of the `default` case, which are retried. -/
def retried : AsStatus → Bool
  | .errDeviceOverload | .other _ => true
  | _ => false

end AsStatus

/-- The counters of `restore_config` a decoded record moves. -/
structure RestoreCounters where
  insertedRecords : Nat
  existedRecords : Nat
  fresherRecords : Nat
  ignoredRecords : Nat
  backoffCount : Nat
  expiredRecords : Nat
  skippedRecords : Nat
  totalRecords : Nat
deriving DecidableEq, Repr

/-- The state of the loop: `tries`, `backoff` (a `useconds_t`), whether the loop set
`stop`, the counters, and the sleeps so far in microseconds. `attempts` counts the calls of
`aerospike_key_put`. -/
structure WriteLoop where
  tries : Nat
  attempts : Nat
  backoff : Nat
  stop : Bool
  conf : RestoreCounters
  sleeps : List Nat
deriving DecidableEq, Repr

section Loop

variable (maxTries initialBackoff : Nat) (ignore : Bool) (put : Nat → AsStatus)
  (stop : Nat → Bool)

/-- The `switch (put)` on the result `r` of attempt `w.tries`, and whether to retry. -/
def writeBody (r : AsStatus) (w : WriteLoop) : WriteLoop × Bool :=
  let w := { w with attempts := w.attempts + 1 }
  match r with
  | .errServerFull | .roleViolation => ({ w with stop := true }, false)
  | .errRecordTooBig | .errRecordKeyMismatch | .errBinName | .errAlwaysForbidden =>
    ({ w with stop := w.stop || !ignore,
               conf := { w.conf with ignoredRecords := w.conf.ignoredRecords + 1 } }, false)
  | .errRecordGeneration =>
    ({ w with conf := { w.conf with fresherRecords := w.conf.fresherRecords + 1 } }, false)
  | .errRecordExists =>
    ({ w with conf := { w.conf with existedRecords := w.conf.existedRecords + 1 } }, false)
  | .ok => ({ w with conf := { w.conf with insertedRecords := w.conf.insertedRecords + 1 } }, false)
  | r =>
    if w.tries = maxTries - 1 then ({ w with stop := true }, false)
    else if r = .errDeviceOverload then
      ({ w with sleeps := w.sleeps ++ [w.backoff], backoff := w.backoff * 2 % 2 ^ 32,
                conf := { w.conf with backoffCount := w.conf.backoffCount + 1 } }, true)
    else ({ w with backoff := initialBackoff * 1000 % 2 ^ 32, sleeps := w.sleeps ++ [1000000] }, true)

/-- `for (tries = 0; tries < MAX_TRIES && !stop; ++tries)`, `k` rounds of fuel left. -/
def writeLoop : Nat → WriteLoop → WriteLoop
  | 0, w => w
  | k + 1, w =>
    if w.tries < maxTries ∧ stop w.tries = false then
      let b := writeBody maxTries initialBackoff ignore (put w.tries) w
      if b.2 then writeLoop k { b.1 with tries := w.tries + 1 } else b.1
    else w

/-- The write loop of one decoded record, from the counters `c`. -/
def writeRecord (c : RestoreCounters) : WriteLoop :=
  writeLoop maxTries initialBackoff ignore put stop maxTries
    ⟨0, 0, initialBackoff * 1000 % 2 ^ 32, false, c, []⟩

/-- The `DECODER_RECORD` branch of `restore_thread_func`: a record is printed, counted
expired, counted skipped (no bins, or a set not asked for), or written; then counted in
`total_records`. Returns the counters and whether the write loop set `stop`. -/
def decodedRecord (cdtPrint expired skipped : Bool) (c : RestoreCounters) :
    RestoreCounters × Bool :=
  let r : RestoreCounters × Bool :=
    if cdtPrint then (c, false)
    else if expired then ({ c with expiredRecords := c.expiredRecords + 1 }, false)
    else if skipped then ({ c with skippedRecords := c.skippedRecords + 1 }, false)
    else
      let w := writeRecord maxTries initialBackoff ignore put stop c
      (w.conf, w.stop)
  ({ r.1 with totalRecords := r.1.totalRecords + 1 }, r.2)

end Loop

theorem AsStatus.not_final_of_retried {r : AsStatus} (h : r.retried = true) :
    r.fatal = false ∧ r.recordSpecific = false := by
  cases r <;> simp_all [AsStatus.retried, AsStatus.fatal, AsStatus.recordSpecific]

/-- The number of `DEVICE_OVERLOAD` results just before attempt `j`. -/
def overloadRun (put : Nat → AsStatus) : Nat → Nat
  | 0 => 0
  | j + 1 => if put j = .errDeviceOverload then overloadRun put j + 1 else 0

theorem overloadRun_le (put : Nat → AsStatus) : ∀ j, overloadRun put j ≤ j
  | 0 => le_rfl
  | j + 1 => by
    have := overloadRun_le put j
    unfold overloadRun
    split <;> omega

/-- The backoff schedule, in microseconds: `INITIAL_BACKOFF * 2^m` ms after an overload that
`m` overloads preceded, one second after any other retried result. -/
def retrySleep (initialBackoff : Nat) (put : Nat → AsStatus) (i : Nat) : Nat :=
  if put i = .errDeviceOverload then initialBackoff * 1000 * 2 ^ overloadRun put i else 1000000

/-- The result of the last attempt, if there was one. -/
def WriteLoop.last (put : Nat → AsStatus) (w : WriteLoop) : Option AsStatus :=
  if w.attempts = 0 then none else some (put (w.attempts - 1))

section Outcome

variable {maxTries initialBackoff : Nat} {ignore : Bool} {put : Nat → AsStatus}
  {stop : Nat → Bool} {c : RestoreCounters}

variable (maxTries initialBackoff ignore put stop) in
/-- What the loop has done when it ends: an attempt for each `stop` read clear until its exit,
the retries and sleeps before the last, one counter for the last result, and `stop` set
exactly on a fatal end. -/
structure WriteOutcome (c : RestoreCounters) (w : WriteLoop) : Prop where
  attempts_le : w.attempts ≤ maxTries
  stop_clear : ∀ i < w.attempts, stop i = false
  ends : w.attempts = maxTries ∨ (∃ r, w.last put = some r ∧ r.retried = false) ∨
    stop w.attempts = true
  retried_before : ∀ i, i + 1 < w.attempts → (put i).retried = true
  sleeps_between : w.sleeps.length ≤ w.attempts ∧ w.attempts ≤ w.sleeps.length + 1
  sleeps_eq : w.sleeps = (List.range w.sleeps.length).map (retrySleep initialBackoff put)
  inserted : w.conf.insertedRecords =
    c.insertedRecords + if w.last put = some .ok then 1 else 0
  existed : w.conf.existedRecords =
    c.existedRecords + if w.last put = some .errRecordExists then 1 else 0
  fresher : w.conf.fresherRecords =
    c.fresherRecords + if w.last put = some .errRecordGeneration then 1 else 0
  ignored : w.conf.ignoredRecords =
    c.ignoredRecords + if (w.last put).any AsStatus.recordSpecific then 1 else 0
  stop_iff : w.stop = true ↔ ∃ r, w.last put = some r ∧
    (r.fatal = true ∨ (r.recordSpecific = true ∧ ignore = false) ∨
      (r.retried = true ∧ w.attempts = maxTries))

variable (maxTries initialBackoff put stop) in
/-- The loop at the top of attempt `w.tries`, every attempt before made with `stop` clear
and retried. -/
structure Running (c : RestoreCounters) (w : WriteLoop) : Prop where
  attempts : w.attempts = w.tries
  stop_clear : ∀ i < w.tries, stop i = false
  stop : w.stop = false
  inserted : w.conf.insertedRecords = c.insertedRecords
  existed : w.conf.existedRecords = c.existedRecords
  fresher : w.conf.fresherRecords = c.fresherRecords
  ignored : w.conf.ignoredRecords = c.ignoredRecords
  backoff : w.backoff = initialBackoff * 1000 * 2 ^ overloadRun put w.tries % 2 ^ 32
  sleeps : w.sleeps = (List.range w.tries).map (retrySleep initialBackoff put)
  retried : ∀ i < w.tries, (put i).retried = true
  tries_lt : w.tries = 0 ∨ w.tries < maxTries

end Outcome

section Body

variable {maxTries initialBackoff : Nat} {ignore : Bool} {r : AsStatus} {w : WriteLoop}

theorem writeBody_done (hr : r.retried = false) :
    writeBody maxTries initialBackoff ignore r w =
      ({ w with
          attempts := w.attempts + 1,
          stop := w.stop || r.fatal || (r.recordSpecific && !ignore),
          conf := { w.conf with
            insertedRecords := w.conf.insertedRecords + (if r = .ok then 1 else 0),
            existedRecords := w.conf.existedRecords + (if r = .errRecordExists then 1 else 0),
            fresherRecords := w.conf.fresherRecords + (if r = .errRecordGeneration then 1 else 0),
            ignoredRecords := w.conf.ignoredRecords + (if r.recordSpecific then 1 else 0) } },
        false) := by
  cases r <;> simp_all [writeBody, AsStatus.retried, AsStatus.fatal, AsStatus.recordSpecific]

theorem writeBody_last (hr : r.retried = true) (ht : w.tries = maxTries - 1) :
    writeBody maxTries initialBackoff ignore r w =
      ({ w with attempts := w.attempts + 1, stop := true }, false) := by
  cases r <;> simp_all [writeBody, AsStatus.retried]

theorem writeBody_retry (hr : r.retried = true) (ht : w.tries ≠ maxTries - 1) :
    writeBody maxTries initialBackoff ignore r w =
      ({ w with
          attempts := w.attempts + 1,
          sleeps := w.sleeps ++ [if r = .errDeviceOverload then w.backoff else 1000000],
          backoff := if r = .errDeviceOverload then w.backoff * 2 % 2 ^ 32
            else initialBackoff * 1000 % 2 ^ 32,
          conf := { w.conf with
            backoffCount := w.conf.backoffCount + (if r = .errDeviceOverload then 1 else 0) } },
        true) := by
  cases r <;> simp_all [writeBody, AsStatus.retried]

end Body

theorem AsStatus.retried_eq_true {r : AsStatus} :
    r.retried = true ↔ r = .errDeviceOverload ∨ ∃ code, r = .other code := by
  cases r <;> simp [AsStatus.retried]

section Proofs

variable {maxTries initialBackoff : Nat} {ignore : Bool} {put : Nat → AsStatus}
  {stop : Nat → Bool} {c : RestoreCounters} {w : WriteLoop}

theorem Running.sleeps_length (h : Running maxTries initialBackoff put stop c w) :
    w.sleeps.length = w.tries := by
  rw [h.sleeps, List.length_map, List.length_range]

theorem Running.stop_clear_succ (h : Running maxTries initialBackoff put stop c w)
    (hs : stop w.tries = false) : ∀ i < w.tries + 1, stop i = false := fun i hi =>
  (Nat.lt_succ_iff_lt_or_eq.mp hi).elim (h.stop_clear i) fun h => h ▸ hs

/-- A loop that ends at the top of an attempt has made retried attempts only. -/
theorem Running.outcome (h : Running maxTries initialBackoff put stop c w)
    (hend : w.tries = maxTries ∨ stop w.tries = true) :
    WriteOutcome maxTries initialBackoff ignore put stop c w := by
  have hlen := h.sleeps_length
  have hat := h.attempts
  have hsl : w.sleeps = (List.range w.sleeps.length).map (retrySleep initialBackoff put) := by
    rw [hlen]; exact h.sleeps
  have hends : w.attempts = maxTries ∨ (∃ r, w.last put = some r ∧ r.retried = false) ∨
      stop w.attempts = true := by
    rw [hat]; exact hend.imp_right .inr
  by_cases ht : w.tries = 0
  · have hl : w.last put = none := by simp [WriteLoop.last, hat, ht]
    exact ⟨by omega, fun i hi => h.stop_clear i (by omega), hends, fun i hi => by omega,
      by omega, hsl, by simp [hl, h.inserted], by simp [hl, h.existed], by simp [hl, h.fresher],
      by simp [hl, h.ignored], by simp [hl, h.stop]⟩
  · have hl : w.last put = some (put (w.tries - 1)) := by simp [WriteLoop.last, hat, ht]
    have hr := h.retried (w.tries - 1) (by omega)
    have hlt : w.tries < maxTries := h.tries_lt.resolve_left ht
    refine ⟨by omega, fun i hi => h.stop_clear i (by omega), hends,
      fun i hi => h.retried i (by omega), by omega, hsl, ?_, ?_, ?_, ?_, ?_⟩ <;>
      rcases AsStatus.retried_eq_true.mp hr with he | ⟨code, he⟩ <;>
      simp [hl, he, h.inserted, h.existed, h.fresher, h.ignored, h.stop, AsStatus.fatal,
        AsStatus.recordSpecific, AsStatus.retried, hat] <;> omega

theorem Running.outcome_done (h : Running maxTries initialBackoff put stop c w)
    (hlt : w.tries < maxTries) (hs : stop w.tries = false) (hr : (put w.tries).retried = false) :
    WriteOutcome maxTries initialBackoff ignore put stop c
      (writeBody maxTries initialBackoff ignore (put w.tries) w).1 := by
  have hlen := h.sleeps_length
  have hat := h.attempts
  rw [writeBody_done hr]
  have hl : WriteLoop.last put { w with attempts := w.attempts + 1 } = some (put w.tries) := by
    simp [WriteLoop.last, hat]
  refine ⟨by dsimp only; omega, fun i hi => h.stop_clear_succ hs i (by dsimp only at hi; omega),
    .inr (.inl ⟨_, hl, hr⟩), fun i hi => h.retried i (by dsimp only at hi; omega),
    by dsimp only; omega, by dsimp only; rw [hlen]; exact h.sleeps, ?_, ?_, ?_, ?_, ?_⟩ <;>
    simp only [WriteLoop.last] at hl ⊢ <;>
    simp [hat, h.inserted, h.existed, h.fresher, h.ignored, h.stop, hr]

theorem Running.outcome_last (h : Running maxTries initialBackoff put stop c w)
    (hlt : w.tries < maxTries) (hs : stop w.tries = false) (hr : (put w.tries).retried = true)
    (ht : w.tries = maxTries - 1) :
    WriteOutcome maxTries initialBackoff ignore put stop c
      (writeBody maxTries initialBackoff ignore (put w.tries) w).1 := by
  have hlen := h.sleeps_length
  have hat := h.attempts
  rw [writeBody_last hr ht]
  refine ⟨by dsimp only; omega, fun i hi => h.stop_clear_succ hs i (by dsimp only at hi; omega),
    .inl (by dsimp only; omega), fun i hi => ?_, by dsimp only; omega,
    by dsimp only; rw [hlen]; exact h.sleeps, ?_, ?_, ?_, ?_, ?_⟩
  · dsimp only at hi
    rcases Nat.lt_or_ge i w.tries with hi' | hi'
    · exact h.retried i hi'
    · omega
  all_goals
    rcases AsStatus.retried_eq_true.mp hr with he | ⟨code, he⟩ <;>
    simp [WriteLoop.last, hat, he, h.inserted, h.existed, h.fresher, h.ignored,
      AsStatus.fatal, AsStatus.recordSpecific, AsStatus.retried] <;> omega

/-- The backoff before a retry fits its `useconds_t`: it has doubled at most
`MAX_TRIES - 2` times. -/
theorem backoff_lt (hwrap : initialBackoff * 1000 * 2 ^ (maxTries - 2) < 2 ^ 32) {j : Nat}
    (hj : j + 1 < maxTries) : initialBackoff * 1000 * 2 ^ overloadRun put j < 2 ^ 32 :=
  lt_of_le_of_lt (Nat.mul_le_mul_left _
    (Nat.pow_le_pow_right Nat.two_pos ((overloadRun_le put j).trans (by omega)))) hwrap

theorem Running.retry (hwrap : initialBackoff * 1000 * 2 ^ (maxTries - 2) < 2 ^ 32)
    (h : Running maxTries initialBackoff put stop c w) (hlt : w.tries < maxTries)
    (hs : stop w.tries = false) (hr : (put w.tries).retried = true) (ht : w.tries ≠ maxTries - 1) :
    Running maxTries initialBackoff put stop c
      { (writeBody maxTries initialBackoff ignore (put w.tries) w).1 with tries := w.tries + 1 } := by
  have hb : initialBackoff * 1000 * 2 ^ overloadRun put w.tries < 2 ^ 32 :=
    backoff_lt hwrap (by omega)
  rw [writeBody_retry hr ht]
  refine ⟨by simp [h.attempts], h.stop_clear_succ hs, h.stop, h.inserted, h.existed, h.fresher,
    h.ignored, ?_, ?_, fun i hi => ?_, Or.inr (show w.tries + 1 < maxTries by omega)⟩
  · dsimp only
    split
    · next ho =>
      rw [h.backoff, overloadRun, if_pos ho, Nat.mod_mul_mod, Nat.mul_assoc, ← Nat.pow_succ]
    · next ho => rw [overloadRun, if_neg ho, Nat.pow_zero, Nat.mul_one]
  · dsimp only
    rw [h.sleeps, List.range_succ, List.map_append, List.map_singleton, retrySleep, h.backoff,
      Nat.mod_eq_of_lt hb]
  · rcases Nat.lt_succ_iff_lt_or_eq.mp hi with hi | rfl
    · exact h.retried i hi
    · exact hr

theorem writeLoop_outcome (hwrap : initialBackoff * 1000 * 2 ^ (maxTries - 2) < 2 ^ 32) :
    ∀ k w, Running maxTries initialBackoff put stop c w → w.tries + k = maxTries →
      WriteOutcome maxTries initialBackoff ignore put stop c
        (writeLoop maxTries initialBackoff ignore put stop k w)
  | 0, w, h, hk => h.outcome (.inl hk)
  | k + 1, w, h, hk => by
    unfold writeLoop
    split
    · next hg =>
      dsimp only
      cases hr : (put w.tries).retried
      · have hb : (writeBody maxTries initialBackoff ignore (put w.tries) w).2 = false := by
          rw [writeBody_done hr]
        rw [if_neg (by simp [hb])]
        exact h.outcome_done hg.1 hg.2 hr
      · by_cases ht : w.tries = maxTries - 1
        · have hb : (writeBody maxTries initialBackoff ignore (put w.tries) w).2 = false := by
            rw [writeBody_last hr ht]
          rw [if_neg (by simp [hb])]
          exact h.outcome_last hg.1 hg.2 hr ht
        · have hb : (writeBody maxTries initialBackoff ignore (put w.tries) w).2 = true := by
            rw [writeBody_retry hr ht]
          rw [if_pos hb]
          exact writeLoop_outcome hwrap k _ (h.retry hwrap hg.1 hg.2 hr ht) (by dsimp only; omega)
    · next hg =>
      exact h.outcome (.inr (by simpa [show w.tries < maxTries by omega] using hg))

theorem writeBody_totalRecords {r : AsStatus} :
    (writeBody maxTries initialBackoff ignore r w).1.conf.totalRecords = w.conf.totalRecords := by
  cases hr : r.retried
  · rw [writeBody_done hr]
  · by_cases ht : w.tries = maxTries - 1
    · rw [writeBody_last hr ht]
    · rw [writeBody_retry hr ht]

theorem writeLoop_totalRecords :
    ∀ k w, (writeLoop maxTries initialBackoff ignore put stop k w).conf.totalRecords =
      w.conf.totalRecords
  | 0, _ => rfl
  | k + 1, w => by
    unfold writeLoop
    split
    · dsimp only
      split
      · rw [writeLoop_totalRecords k]
        exact writeBody_totalRecords
      · exact writeBody_totalRecords
    · rfl

end Proofs

/-- The write loop of a decoded record: an attempt for each `stop` read clear, ending at
`MAX_TRIES`, at a result outside the `default` case or at `stop` read set; a retry only
after a result of the `default` case, the sleeps before retries as the backoff schedule
says, exactly the counter of the last result moved, and `stop` set exactly on a fatal end;
and the record counted once in `total_records`. The condition on the two constants says the
backoff never wraps its `useconds_t`. -/
theorem writeRecord_outcome (maxTries initialBackoff : Nat) (ignore : Bool)
    (put : Nat → AsStatus) (stop : Nat → Bool) (c : RestoreCounters)
    (hwrap : initialBackoff * 1000 * 2 ^ (maxTries - 2) < 2 ^ 32) :
    WriteOutcome maxTries initialBackoff ignore put stop c
        (writeRecord maxTries initialBackoff ignore put stop c) ∧
      ∀ cdtPrint expired skipped,
        (decodedRecord maxTries initialBackoff ignore put stop cdtPrint expired skipped c).1.totalRecords =
          c.totalRecords + 1 := by
  refine ⟨writeLoop_outcome hwrap _ _ ⟨rfl, nofun, rfl, rfl, rfl, rfl, rfl, ?_, rfl, nofun, .inl rfl⟩
    (Nat.zero_add _),
    fun cdtPrint expired skipped => ?_⟩
  · simp [overloadRun]
  · unfold decodedRecord
    split_ifs <;> simp [writeRecord, writeLoop_totalRecords]

/-- `MAX_TRIES = 10` and `INITIAL_BACKOFF = 10`, three overloads then success. -/
theorem writeRecord_outcome_overloads :
    10 * 1000 * 2 ^ (10 - 2) < 2 ^ 32 ∧
      (WriteOutcome 10 10 false (fun i => if i < 3 then .errDeviceOverload else .ok)
          (fun _ => false) ⟨0, 0, 0, 0, 0, 0, 0, 0⟩
          (writeRecord 10 10 false (fun i => if i < 3 then .errDeviceOverload else .ok)
            (fun _ => false) ⟨0, 0, 0, 0, 0, 0, 0, 0⟩) ∧
        ∀ cdtPrint expired skipped,
          (decodedRecord 10 10 false (fun i => if i < 3 then .errDeviceOverload else .ok)
            (fun _ => false) cdtPrint expired skipped ⟨0, 0, 0, 0, 0, 0, 0, 0⟩).1.totalRecords =
            0 + 1) :=
  ⟨by decide, writeRecord_outcome 10 10 false _ _ _ (by decide)⟩

end CdtValidation.Restore
