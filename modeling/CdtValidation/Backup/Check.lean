import CdtValidation.Backup.ListFix
import CdtValidation.Backup.MapFix

/-! `cdt_need_fix`, the list repair `cdt_fix_list` and the per-record `cdt_check` of
`backup.c`. The server's reply to a repair is an argument: `put w` says whether the write
`w` was answered `AEROSPIKE_OK`. -/

namespace CdtValidation.Backup
open CdtValidation.Msgpack

/-- The fields of `backup_config` the CDT check reads and writes. -/
structure BackupConfig where
  cdtFix : Bool
  checkMapKeys : Bool
  cdtList : CdtStats
  cdtMap : CdtStats
deriving DecidableEq, Repr

/-- What `cdt_need_fix` returns, and the `cdt_fix` and configuration it wrote. -/
structure NeedFix where
  needFix : Bool
  cf : CdtFix
  bc : BackupConfig
deriving DecidableEq, Repr

/-- `cdt_need_fix(buf, sz, cf, bc)` on a bin of `sz = buf.length` bytes: the header picks
the stats object; any other header is left alone. -/
def cdtNeedFix (buf : List UInt8) (cf : CdtFix) (bc : BackupConfig) : NeedFix :=
  match msgpackBufPeekType buf with
  | .list =>
    let v := cdtListNeedFix buf cf (bc.cdtList.incr .count) bc.checkMapKeys
    ⟨v.needFix, v.cf, { bc with cdtList := v.st }⟩
  | .map =>
    let v := cdtMapNeedFix buf cf (bc.cdtMap.incr .count) bc.checkMapKeys
    ⟨v.needFix, v.cf, { bc with cdtMap := v.st }⟩
  | _ => ⟨false, cf, bc⟩

/-- An ordered list whose second element is a truncated string: the failed comparison is
taken for an order defect, and the bin is reported fixable. -/
theorem cdtNeedFix_truncated_ordered_list :
    (parseOne [0x93, 0xc7, 0x00, 0x01, 0x01, 0xa2, 0x03] 0).isNone ∧
      cdtNeedFix [0x93, 0xc7, 0x00, 0x01, 0x01, 0xa2, 0x03] .init ⟨false, false, .zero, .zero⟩ =
        ⟨true, ⟨4, 1, 2, 2, true, false, false⟩,
          ⟨false, false, ⟨1, 0, 1, 0, 1, 1, 0, 0, 0, 0, 0⟩, .zero⟩⟩ :=
  ⟨rfl, rfl⟩

/-- An ordered map whose last pair is out of order: the skip of the `0` pairs after it
returns `0`, and the bin is counted corrupt. -/
theorem cdtNeedFix_ordered_map_last_pair :
    (parseOne [0x83, 0xc7, 0x00, 0x01, 0xc0, 0x02, 0x01, 0x01, 0x01] 0).map (·.2) = some 9 ∧
      cdtNeedFix [0x83, 0xc7, 0x00, 0x01, 0xc0, 0x02, 0x01, 0x01, 0x01] .init
          ⟨false, false, .zero, .zero⟩ =
        ⟨false, ⟨5, 0, 2, 0, false, false, true⟩,
          ⟨false, false, .zero, ⟨1, 0, 0, 0, 0, 0, 1, 0, 0, 1, 0⟩⟩⟩ :=
  ⟨rfl, rfl⟩

/-! The packer of the client library, on the values `cdt_fix_list` gives it. -/

/-- Big-endian bytes of `v` in `w` bytes. -/
def beBytes (w v : Nat) : List UInt8 :=
  (List.range w).reverse.map fun i => UInt8.ofNat (v / 256 ^ i)

/-- `as_pack_list_header_get_size`. -/
def asPackListHeaderGetSize (n : Nat) : Nat :=
  if n < 16 then 1 else if n < 65536 then 3 else 5

/-- `as_pack_list_header`. -/
def asPackListHeader (n : Nat) : List UInt8 :=
  if n < 16 then [UInt8.ofNat (0x90 + n)]
  else if n < 65536 then 0xdc :: beBytes 2 n else 0xdd :: beBytes 4 n

/-- `as_pack_uint64`. -/
def asPackUint64 (v : Nat) : List UInt8 :=
  if v < 128 then [UInt8.ofNat v]
  else if v < 256 then 0xcc :: beBytes 1 v
  else if v < 65536 then 0xcd :: beBytes 2 v
  else if v < 2 ^ 32 then 0xce :: beBytes 4 v
  else 0xcf :: beBytes 8 v

/-- `AS_LIST_ORDERED`. -/
def asListOrdered : Nat := 1

/-- `AS_LIST_WRITE_ADD_UNIQUE | AS_LIST_WRITE_NO_FAIL | AS_LIST_WRITE_PARTIAL`. -/
def asListWriteFlags : Nat := 1 ||| 4 ||| 8

/-- `new_buf_sz` of `cdt_fix_list`, a `uint32_t`. -/
def newBufSz (cf : CdtFix) : Nat :=
  (asPackListHeaderGetSize 4 + 1 + asPackListHeaderGetSize cf.eleCount + cf.contentSz + 1 + 1)
    % 2 ^ 32

/-- The bytes `cdt_fix_list` packs for the list-append-items operation. -/
def cdtFixListPack (buf : List UInt8) (cf : CdtFix) : List UInt8 :=
  asPackListHeader 4 ++ asPackUint64 2 ++ asPackListHeader cf.eleCount ++
    contentRegion buf cf ++ asPackUint64 asListOrdered ++ asPackUint64 asListWriteFlags

/-- A write `cdt_fix_list` sends: the bin truncated, or the clear-and-append operation. -/
inductive CdtRepair where
  | put (bytes : List UInt8)
  | operate (pk : List UInt8)
deriving DecidableEq, Repr

/-- The write of `cdt_fix_list`: padding only truncates `nf_padding` bytes
(`as_bytes_truncate`), otherwise the list is rewritten in order. -/
def cdtFixListWrite (buf : List UInt8) (cf : CdtFix) : CdtRepair :=
  if !cf.nfListOrder ∧ cf.nfPadding ≠ 0 then .put (buf.take (buf.length - cf.nfPadding))
  else .operate (cdtFixListPack buf cf)

/-- `cdt_fix_list`: `fixed` when the server accepts the write, `nf_failed` otherwise. -/
def cdtFixList (put : CdtRepair → Bool) (buf : List UInt8) (cf : CdtFix) (stat : CdtStats) :
    CdtStats :=
  stat.incr (if put (cdtFixListWrite buf cf) then .fixed else .nfFailed)

/-- `AS_BYTES_MAP` and `AS_BYTES_LIST`, the client library's `as_bytes_type` values. -/
def asBytesMap : Nat := 19
def asBytesList : Nat := 20

/-- The value of a bin: bytes with their `as_bytes_type`, or any other `as_val`. -/
inductive AsVal where
  | bytes (type : Nat) (data : List UInt8)
  | other
deriving DecidableEq, Repr

/-- What `cdt_check` returns, the configuration it leaves and the writes it sent. -/
structure Checked where
  needLog : Bool
  bc : BackupConfig
  writes : List CdtRepair
deriving DecidableEq, Repr

/-- One bin of the loop of `cdt_check`. -/
def cdtCheckBin (put : CdtRepair → Bool) (c : Checked) : AsVal → Checked
  | .other => c
  | .bytes t buf =>
    if t ≠ asBytesList ∧ t ≠ asBytesMap then c
    else
      let r := cdtNeedFix buf .init c.bc
      let needLog := c.needLog || r.cf.needLog
      if !r.needFix then { c with needLog := needLog, bc := r.bc }
      else if !r.bc.cdtFix then { c with needLog := true, bc := r.bc }
      else if t = asBytesList then
        ⟨true, { r.bc with cdtList := cdtFixList put buf r.cf r.bc.cdtList },
          c.writes ++ [cdtFixListWrite buf r.cf]⟩
      else { c with needLog := true, bc := r.bc }

/-- `cdt_check(as, rec, bc)` on the values of the record's bins. -/
def cdtCheck (put : CdtRepair → Bool) (bc : BackupConfig) (bins : List AsVal) : Checked :=
  bins.foldl (cdtCheckBin put) ⟨false, bc, []⟩

/-- The truncated ordered list `[0x93, 0xc7, 0x00, 0x01, 0x01, 0xa2, 0x03]`, with `cdt_fix`
on, is rewritten by a packed operation that does not parse: its value list declares two
elements and holds one. -/
theorem cdtCheck_truncated_list_repair :
    (cdtCheck (fun _ => true) ⟨true, false, .zero, .zero⟩
        [.bytes asBytesList [0x93, 0xc7, 0x00, 0x01, 0x01, 0xa2, 0x03]]).writes =
        [.operate [0x94, 0x02, 0x92, 0x01, 0x01, 0x0d]] ∧
      (parseOne [0x94, 0x02, 0x92, 0x01, 0x01, 0x0d] 0).isNone :=
  ⟨rfl, rfl⟩

/-- A map with a `nil` key, under `check_map_keys`: `cf_invalidkey` is counted without
`cannot_fix`. -/
theorem cdtCheck_invalid_key_totals :
    (cdtCheck (fun _ => true) ⟨false, true, .zero, .zero⟩
        [.bytes asBytesMap [0x81, 0xc0, 0x01]]).bc.cdtMap.cannotFix = 0 ∧
      (cdtCheck (fun _ => true) ⟨false, true, .zero, .zero⟩
        [.bytes asBytesMap [0x81, 0xc0, 0x01]]).bc.cdtMap.cfInvalidkey = 1 :=
  ⟨rfl, rfl⟩

end CdtValidation.Backup
