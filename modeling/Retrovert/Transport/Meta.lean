import Retrovert.Library.Disk
import Retrovert.Library.LittleEndian
import Retrovert.Library.Utf8

/-!
# The sidecar that makes an interrupted transfer resumable

A sidecar is one fixed record: a magic, a version, two sizes that are `i64` on
the wire, and the raw NUL-padded etag field. Reading back what was written gives
the same record, provided both sizes are non-negative as `i64`
(`deserialize_serialize`); a record with a larger size is not read back at all.
Whatever is read as a record is the record's own bytes and nothing else
(`serialize_of_deserialize`). An etag is cut to its field: a NUL-free text that
fits is unpacked as it was packed, and a longer one leaves its first bytes
(`unpack_pack`, `pack_of_long`).
-/

set_option autoImplicit false

namespace Retrovert.Transport

/-- `DLMT`. -/
def magic : Bytes := [0x44, 0x4C, 0x4D, 0x54]

def metaVersion : Nat := 1

/-- The record's size: four bytes of magic, four of version, eight for each
size, and the etag field. -/
def metaSize : Nat := 280

def etagLen : Nat := 256

/-- What a partial transfer needs to pick up where it left off. -/
structure Meta where
  /-- Length the completed file will have, as the server reported it. -/
  fileSize : UInt64
  /-- Bytes already on disk. -/
  bytesWritten : UInt64
  /-- The etag the partial bytes came from, as the raw field. -/
  etag : Vector UInt8 etagLen
deriving DecidableEq

/-- The record as it is written. -/
def serialize (record : Meta) : Bytes :=
  magic ++ LittleEndian.field 4 metaVersion ++ LittleEndian.field 8 record.fileSize.toNat ++
    LittleEndian.field 8 record.bytesWritten.toNat ++ record.etag.toList

/-- Read a size field, which is an `i64` on the wire: a negative is garbage. -/
def readSize (bytes : Bytes) : Option UInt64 :=
  if LittleEndian.value bytes < 2 ^ 63 then some (UInt64.ofNat (LittleEndian.value bytes)) else none

/-- The etag field of a record that is long enough to hold one. -/
def etagField (data : Bytes) (long : metaSize ≤ data.length) : Vector UInt8 etagLen :=
  ⟨((data.drop 24).take etagLen).toArray, by
    simp only [List.size_toArray, List.length_take, List.length_drop, etagLen]
    simp only [metaSize] at long
    omega⟩

/-- Read a record. Shorter than one record is truncated or garbage. -/
def deserialize (data : Bytes) : Option Meta :=
  if long : metaSize ≤ data.length then
    if data.take 4 = magic ∧ LittleEndian.value ((data.drop 4).take 4) = metaVersion then
      match readSize ((data.drop 8).take 8), readSize ((data.drop 16).take 8) with
      | some fileSize, some bytesWritten =>
          some { fileSize, bytesWritten, etag := etagField data long }
      | _, _ => none
    else none
  else none

/-- Pack an etag into its field, cut to leave room for a NUL. -/
def packEtag (etag : Bytes) : Vector UInt8 etagLen :=
  ⟨(etag.take (etagLen - 1) ++
      List.replicate (etagLen - (etag.take (etagLen - 1)).length) 0).toArray, by
    simp only [List.size_toArray, List.length_append, List.length_take, List.length_replicate,
      etagLen]
    omega⟩

/-- The etag a field holds: everything before its first NUL. -/
def unpackEtag (field : Vector UInt8 etagLen) : Bytes :=
  field.toList.takeWhile (· ≠ 0)

/-- `pack_etag`: the field of an etag given as text. -/
def pack (etag : String) : Vector UInt8 etagLen :=
  packEtag (Utf8.encode etag)

/-- `unpack_etag`: the field read as text, with malformed bytes replaced. -/
def unpack (field : Vector UInt8 etagLen) : String :=
  Utf8.lossy (unpackEtag field)

/-! ## Reading back what was written -/

@[simp] theorem length_serialize (record : Meta) : (serialize record).length = metaSize := by
  simp [serialize, magic, metaSize]
  rfl

/-- A size field reads back as the size it was written from, unless that is
negative as an `i64`. -/
theorem readSize_field (size : UInt64) :
    readSize (LittleEndian.field 8 size.toNat) =
      if size.toNat < 2 ^ 63 then some size else none := by
  have fits : size.toNat < 256 ^ 8 := by
    have := size.toNat_lt
    omega
  simp [readSize, LittleEndian.value_field_of_lt fits]

section Fields

variable (record : Meta)

theorem take_serialize_magic : (serialize record).take 4 = magic := by
  simp [serialize, magic]

theorem serialize_version : ((serialize record).drop 4).take 4 =
    LittleEndian.field 4 metaVersion := by
  simp [serialize, magic]

theorem serialize_fileSize : ((serialize record).drop 8).take 8 =
    LittleEndian.field 8 record.fileSize.toNat := by
  simp [serialize, magic]

theorem serialize_bytesWritten : ((serialize record).drop 16).take 8 =
    LittleEndian.field 8 record.bytesWritten.toNat := by
  have past : (LittleEndian.field 4 metaVersion).drop 12 = [] :=
    List.drop_of_length_le (by simp)
  simp [serialize, magic, List.drop_append, past]

theorem serialize_etag : ((serialize record).drop 24).take etagLen = record.etag.toList := by
  have past : (LittleEndian.field 4 metaVersion).drop 20 = [] :=
    List.drop_of_length_le (by simp)
  have past' : (LittleEndian.field 8 record.fileSize.toNat).drop 16 = [] :=
    List.drop_of_length_le (by simp)
  have whole : record.etag.toList.take etagLen = record.etag.toList :=
    List.take_of_length_le (by simp)
  simp [serialize, magic, List.drop_append, past, past', whole]

theorem etagField_serialize (long : metaSize ≤ (serialize record).length) :
    etagField (serialize record) long = record.etag := by
  apply Vector.toList_inj.mp
  simp only [etagField, serialize_etag]
  rfl

/-- **A record is read back exactly when both of its sizes fit an `i64`**, and
then it is the record written. -/
theorem deserialize_serialize :
    deserialize (serialize record) =
      if record.fileSize.toNat < 2 ^ 63 ∧ record.bytesWritten.toNat < 2 ^ 63 then some record
      else none := by
  have version : LittleEndian.value (LittleEndian.field 4 metaVersion) = metaVersion :=
    LittleEndian.value_field_of_lt (by decide)
  simp only [deserialize, length_serialize, le_refl, ↓reduceDIte, take_serialize_magic,
    serialize_version, version, and_self, ↓reduceIte, serialize_fileSize, serialize_bytesWritten,
    readSize_field, etagField_serialize]
  by_cases first : record.fileSize.toNat < 2 ^ 63 <;>
    by_cases second : record.bytesWritten.toNat < 2 ^ 63 <;>
      simp only [first, second, ↓reduceIte, and_self, and_true, and_false]

end Fields

/-! ## Writing what was read -/

/-- A size that is read is the number its field holds. -/
theorem readSize_eq_some {bytes : Bytes} {size : UInt64} (read : readSize bytes = some size) :
    size.toNat = LittleEndian.value bytes := by
  unfold readSize at read
  split at read
  case isTrue fits =>
      obtain rfl := Option.some_inj.mp read
      simp only [UInt64.toNat_ofNat']
      omega
  case isFalse => cases read

/-- What a record was read from, field by field. -/
theorem deserialize_eq_some {data : Bytes} {record : Meta} (read : deserialize data = some record) :
    metaSize ≤ data.length ∧ data.take 4 = magic ∧
      LittleEndian.value ((data.drop 4).take 4) = metaVersion ∧
      record.fileSize.toNat = LittleEndian.value ((data.drop 8).take 8) ∧
      record.bytesWritten.toNat = LittleEndian.value ((data.drop 16).take 8) ∧
      record.etag.toList = (data.drop 24).take etagLen := by
  unfold deserialize at read
  split at read
  case isFalse => cases read
  case isTrue long =>
      split at read
      case isFalse => cases read
      case isTrue header =>
          split at read
          case h_2 => cases read
          case h_1 fileSize bytesWritten sized written =>
              obtain rfl := Option.some_inj.mp read
              exact ⟨long, header.1, header.2, readSize_eq_some sized, readSize_eq_some written, rfl⟩

/-- Writing the number a whole field holds gives back its bytes. -/
theorem field_slice (data : Bytes) (start : Nat) {width : Nat}
    (long : start + width ≤ data.length) :
    LittleEndian.field width (LittleEndian.value ((data.drop start).take width)) =
      (data.drop start).take width := by
  have size : ((data.drop start).take width).length = width := by
    simp only [List.length_take, List.length_drop]
    omega
  have written := LittleEndian.field_value ((data.drop start).take width)
  rwa [size] at written

/-- **What is read as a record is the record's own bytes**, whatever follows
them. -/
theorem serialize_of_deserialize {data : Bytes} {record : Meta}
    (read : deserialize data = some record) : serialize record = data.take metaSize := by
  obtain ⟨long, magical, version, sized, written, tagged⟩ := deserialize_eq_some read
  have enough : 280 ≤ data.length := long
  have slices : data.take metaSize = data.take 4 ++ (data.drop 4).take 4 ++ (data.drop 8).take 8 ++
      (data.drop 16).take 8 ++ (data.drop 24).take etagLen := by
    have first : data.take 8 = data.take 4 ++ (data.drop 4).take 4 := List.take_add (j := 4)
    have second : data.take 16 = data.take 8 ++ (data.drop 8).take 8 := List.take_add (j := 8)
    have third : data.take 24 = data.take 16 ++ (data.drop 16).take 8 := List.take_add (j := 8)
    have last : data.take metaSize = data.take 24 ++ (data.drop 24).take etagLen :=
      List.take_add (j := etagLen)
    rw [last, third, second, first]
  rw [slices, serialize, sized, written, tagged, ← version, magical,
    field_slice data 4 (by omega), field_slice data 8 (by omega), field_slice data 16 (by omega)]

/-! ## The etag field -/

/-- The field an etag is packed into: as much of it as leaves room for a NUL,
then NULs. -/
theorem toList_packEtag (etag : Bytes) :
    (packEtag etag).toList = etag.take (etagLen - 1) ++
      List.replicate (etagLen - (etag.take (etagLen - 1)).length) 0 := rfl

theorem takeWhile_packed {etag : Bytes} (free : (0 : UInt8) ∉ etag) (count : Nat) :
    (etag ++ List.replicate count 0).takeWhile (· ≠ 0) = etag := by
  rw [List.takeWhile_append_of_pos]
  · cases count <;> simp [List.replicate]
  · intro byte mem
    exact decide_eq_true fun nul : byte = 0 => free (nul ▸ mem)

/-- **A NUL-free etag that fits is unpacked as it was packed.** -/
theorem unpackEtag_packEtag {etag : Bytes} (free : (0 : UInt8) ∉ etag)
    (fits : etag.length ≤ etagLen - 1) : unpackEtag (packEtag etag) = etag := by
  rw [unpackEtag, toList_packEtag, List.take_of_length_le fits, takeWhile_packed free]

theorem unpack_pack {etag : String} (free : '\x00' ∉ etag.toList)
    (fits : (Utf8.encode etag).length ≤ etagLen - 1) : unpack (pack etag) = etag := by
  rw [unpack, pack, unpackEtag_packEtag (mt (Utf8.zero_mem_encode etag).mp free) fits,
    Utf8.lossy_encode]

/-- An etag that does not fit leaves its first bytes and one NUL. -/
theorem pack_of_long {etag : String} (long : etagLen - 1 < (Utf8.encode etag).length) :
    (pack etag).toList = (Utf8.encode etag).take (etagLen - 1) ++ [0] := by
  have cut : ((Utf8.encode etag).take (etagLen - 1)).length = etagLen - 1 := by
    rw [List.length_take]
    omega
  rw [pack, toList_packEtag, cut]
  rfl

/-- **The sidecar codec is exact both ways.** A record is read back exactly when
both its sizes fit an `i64`; bytes that are read as a record are what it is
written as; and the etag field keeps a NUL-free text that fits, and the first
bytes of one that does not. -/
theorem sidecar_codec_exact :
    (∀ record : Meta, deserialize (serialize record) =
      if record.fileSize.toNat < 2 ^ 63 ∧ record.bytesWritten.toNat < 2 ^ 63 then some record
      else none) ∧
    (∀ (data : Bytes) (record : Meta), deserialize data = some record →
      serialize record = data.take 280) ∧
    (∀ etag : String, '\x00' ∉ etag.toList → (Utf8.encode etag).length ≤ 255 →
      unpack (pack etag) = etag) ∧
    (∀ etag : String, 255 < (Utf8.encode etag).length →
      (pack etag).toList = (Utf8.encode etag).take 255 ++ [0]) ∧
    (∀ etag : String, (pack etag).toList.length = 256) :=
  ⟨deserialize_serialize, fun _ _ read => serialize_of_deserialize read,
    fun _ free fits => unpack_pack free fits, fun _ long => pack_of_long long,
    fun etag => (pack etag).length_toList⟩

/-- A record with a quoted etag, followed by bytes that are not its own, and an
etag of three hundred letters. -/
theorem sidecar_codec_exact_tagged :
    let record : Meta := ⟨123456, 65536, pack "\"abc-123\""⟩
    let long := String.ofList (List.replicate 300 'a')
    deserialize (serialize record) = some record ∧
      (∀ data, deserialize data = some record → serialize record = data.take 280) ∧
      unpack record.etag = "\"abc-123\"" ∧
      (pack long).toList = (Utf8.encode long).take 255 ++ [0] ∧
      (pack long).toList.length = 256 := by
  intro record long
  obtain ⟨back, forth, kept, cut, whole⟩ := sidecar_codec_exact
  refine ⟨?_, fun data => forth data record, kept _ (by decide) (by decide), cut long ?_, whole long⟩
  · rw [back record]
    exact if_pos ⟨by decide, by decide⟩
  · have size : (Utf8.encode long).length = 300 := by
      rw [Utf8.encode, String.toList_ofList, List.length_flatMap, List.map_replicate,
        List.sum_replicate_nat]
      rfl
    omega

end Retrovert.Transport
