import Retrovert.Library.Disk

/-!
# Artifact digests

The expected SHA-256 of an artifact, and its spelling: 64 hex characters, of
either case when read and in lower case when written.
-/

set_option autoImplicit false

namespace Retrovert.Transport

/-- The expected SHA-256 of an artifact's bytes, and the key of its cache entry. -/
structure ArtifactDigest where
  bytes : Vector UInt8 32
deriving DecidableEq

/-- What a hex character of either case stands for. -/
def hexValue (char : Char) : Option UInt8 :=
  if '0' ≤ char ∧ char ≤ '9' then some (char.toNat - '0'.toNat).toUInt8
  else if 'a' ≤ char ∧ char ≤ 'f' then some (char.toNat - 'a'.toNat + 10).toUInt8
  else if 'A' ≤ char ∧ char ≤ 'F' then some (char.toNat - 'A'.toNat + 10).toUInt8
  else none

/-- The bytes that pairs of hex characters stand for. -/
def decodeHex : List Char → Option (List UInt8)
  | [] => some []
  | [_] => none
  | high :: low :: rest => do
      let high ← hexValue high
      let low ← hexValue low
      let bytes ← decodeHex rest
      some ((16 * high + low) :: bytes)

/-- The lower-case hex character of a value below sixteen. -/
def hexDigit (value : UInt8) : Char :=
  if value < 10 then Char.ofNat ('0'.toNat + value.toNat)
  else Char.ofNat ('a'.toNat + value.toNat - 10)

namespace ArtifactDigest

/-- Parse 64 hex characters of either case. -/
def fromHex (text : String) : Option ArtifactDigest :=
  (decodeHex text.toList).bind fun bytes =>
    if fits : bytes.length = 32 then some ⟨⟨bytes.toArray, fits⟩⟩ else none

def toHex (digest : ArtifactDigest) : String :=
  String.ofList (digest.bytes.toList.flatMap fun byte => [hexDigit (byte / 16), hexDigit (byte % 16)])

/-- The first bytes of the content, in the place of its SHA-256 where a run on fixed
inputs needs a digest that computes. -/
def leading (content : Bytes) : ArtifactDigest := ⟨Vector.ofFn fun index => content.getD index 0⟩

end ArtifactDigest

theorem hexValue_hexDigit {value : UInt8} (small : value < 16) :
    hexValue (hexDigit value) = some value := by
  have every : ∀ value : Fin 16,
      hexValue (hexDigit (UInt8.ofNat value)) = some (UInt8.ofNat value) := by decide
  have found := every ⟨value.toNat, small⟩
  simpa using found

/-- Hex read back is the bytes it was written for. -/
theorem decodeHex_encoded (bytes : List UInt8) :
    decodeHex (bytes.flatMap fun byte => [hexDigit (byte / 16), hexDigit (byte % 16)]) =
      some bytes := by
  induction bytes with
  | nil => rfl
  | cons byte rest ih =>
      have high : hexValue (hexDigit (byte / 16)) = some (byte / 16) :=
        hexValue_hexDigit (by
          rw [UInt8.lt_iff_toNat_lt, UInt8.toNat_div]
          have := byte.toNat_lt
          show byte.toNat / 16 < 16
          omega)
      have low : hexValue (hexDigit (byte % 16)) = some (byte % 16) :=
        hexValue_hexDigit (UInt8.mod_lt _ (by decide))
      have whole : 16 * (byte / 16) + byte % 16 = byte := by
        apply UInt8.toNat_inj.mp
        have bound := byte.toNat_lt
        simp only [UInt8.toNat_add, UInt8.toNat_mul, UInt8.toNat_div, UInt8.toNat_mod,
          UInt8.reduceToNat]
        omega
      simp only [List.flatMap_cons, List.cons_append, List.nil_append, decodeHex, high, low, ih,
        Option.bind_eq_bind, Option.bind_some, whole]

/-- A digest round trips through lower-case hex. -/
theorem ArtifactDigest.fromHex_toHex (digest : ArtifactDigest) :
    ArtifactDigest.fromHex digest.toHex = some digest := by
  obtain ⟨⟨bytes, size⟩⟩ := digest
  simp [fromHex, toHex, decodeHex_encoded, size]

end Retrovert.Transport
