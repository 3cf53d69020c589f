import Mathlib.Data.List.Basic

/-!
# Text as UTF-8 bytes, and bytes read as text at any cost

A text is encoded character by character. Bytes that may be anything are read
*lossily*: a character where one starts, and the replacement character for every
malformed sequence, which is as long as the bytes at the front that could still
have begun a character. Reading an encoded text lossily gives back the text
(`lossy_encode`), and its bytes hold a NUL only where the text does
(`zero_mem_encode`).
-/

set_option autoImplicit false

namespace Retrovert.Utf8

/-- The bytes of a text. -/
def encode (text : String) : List UInt8 :=
  text.toList.flatMap String.utf8EncodeChar

/-- The character the bytes begin with, if they begin with one. -/
def first? (bytes : List UInt8) : Option Char :=
  bytes.toByteArray.utf8DecodeChar? 0

def isContinuation (byte : UInt8) : Bool :=
  0x80 ≤ byte && byte ≤ 0xBF

/-- How many bytes a sequence with this first byte has; zero for a byte that
begins none. -/
def width (lead : UInt8) : Nat :=
  if lead < 0x80 then 1
  else if 0xC2 ≤ lead && lead ≤ 0xDF then 2
  else if 0xE0 ≤ lead && lead ≤ 0xEF then 3
  else if 0xF0 ≤ lead && lead ≤ 0xF4 then 4
  else 0

/-- Whether the second byte may follow the first: no overlong form, no
surrogate, nothing past the last code point. -/
def admitsSecond (lead second : UInt8) : Bool :=
  if lead = 0xE0 then 0xA0 ≤ second && second ≤ 0xBF
  else if lead = 0xED then 0x80 ≤ second && second ≤ 0x9F
  else if lead = 0xF0 then 0x90 ≤ second && second ≤ 0xBF
  else if lead = 0xF4 then 0x80 ≤ second && second ≤ 0x8F
  else isContinuation second

/-- The length of a malformed sequence at the front: its first byte, and the
bytes after it that could still have belonged to one character. -/
def malformed : List UInt8 → Nat
  | lead :: second :: rest =>
      if 2 ≤ width lead && admitsSecond lead second then
        2 + ((rest.take (width lead - 2)).takeWhile isContinuation).length
      else 1
  | _ => 1

/-- Read at most so many characters, malformed sequences replaced. -/
def lossyFrom : Nat → List UInt8 → List Char
  | 0, _ => []
  | _ + 1, [] => []
  | count + 1, byte :: rest =>
      match first? (byte :: rest) with
      | some char => char :: lossyFrom count ((byte :: rest).drop char.utf8Size)
      | none => '\uFFFD' :: lossyFrom count ((byte :: rest).drop (malformed (byte :: rest)))

/-- The bytes as text, malformed sequences replaced. -/
def lossy (bytes : List UInt8) : String :=
  String.ofList (lossyFrom bytes.length bytes)

/-! ## Reading what was encoded -/

@[simp] theorem first?_encodeChar (char : Char) (rest : List UInt8) :
    first? (String.utf8EncodeChar char ++ rest) = some char := by
  rw [first?, List.toByteArray_append]
  exact ByteArray.utf8DecodeChar?_utf8EncodeChar_append

theorem drop_encodeChar (char : Char) (rest : List UInt8) :
    (String.utf8EncodeChar char ++ rest).drop char.utf8Size = rest := by
  rw [← String.length_utf8EncodeChar char, List.drop_left]

/-- One character is read off the front, and the rest is left. -/
theorem lossyFrom_encodeChar (char : Char) (rest : List UInt8) (count : Nat) :
    lossyFrom (count + 1) (String.utf8EncodeChar char ++ rest) = char :: lossyFrom count rest := by
  cases shape : String.utf8EncodeChar char ++ rest with
  | nil => exact absurd (List.append_eq_nil_iff.mp shape).1 String.utf8EncodeChar_ne_nil
  | cons byte tail =>
      rw [lossyFrom, ← shape, first?_encodeChar]
      exact congrArg (char :: lossyFrom count ·) (drop_encodeChar char rest)

theorem lossyFrom_encode (chars : List Char) :
    ∀ count, (chars.flatMap String.utf8EncodeChar).length ≤ count →
      lossyFrom count (chars.flatMap String.utf8EncodeChar) = chars := by
  induction chars with
  | nil =>
      intro count _
      cases count <;> rfl
  | cons char chars ih =>
      intro count enough
      have positive := char.utf8Size_pos
      rw [List.flatMap_cons, List.length_append, String.length_utf8EncodeChar] at enough
      obtain ⟨count, rfl⟩ : ∃ fewer, count = fewer + 1 := ⟨count - 1, by omega⟩
      rw [List.flatMap_cons, lossyFrom_encodeChar, ih count (by omega)]

/-- **An encoded text is read back as itself.** -/
theorem lossy_encode (text : String) : lossy (encode text) = text := by
  rw [lossy, encode, lossyFrom_encode _ _ (Nat.le_refl _), String.ofList_toList]

/-- A character cut in its middle is read as one replacement. -/
example : lossyFrom 3 [0xE2, 0x82, 0x41] = ['\uFFFD', 'A'] := by decide

/-! ## Where a NUL can come from -/

/-- Only the NUL character is encoded with a NUL byte. -/
theorem zero_mem_encodeChar (char : Char) :
    (0 : UInt8) ∈ String.utf8EncodeChar char ↔ char = '\x00' := by
  have zero : ∀ number, (0 : UInt8) = UInt8.ofNat number ↔ number % 256 = 0 := by
    intro number
    rw [← UInt8.toNat_inj]
    simp [eq_comm]
  have isNul : char = '\x00' ↔ char.val.toNat = 0 := by
    rw [Char.ext_iff, ← UInt32.toNat_inj]
    rfl
  rw [isNul]
  unfold String.utf8EncodeChar
  dsimp only
  split
  · simp only [List.mem_singleton, zero]
    omega
  split
  · simp only [List.mem_cons, List.not_mem_nil, or_false, zero]
    omega
  split
  · simp only [List.mem_cons, List.not_mem_nil, or_false, zero]
    omega
  · simp only [List.mem_cons, List.not_mem_nil, or_false, zero]
    omega

theorem zero_mem_encode (text : String) : (0 : UInt8) ∈ encode text ↔ '\x00' ∈ text.toList := by
  rw [encode, List.mem_flatMap]
  constructor
  · rintro ⟨char, mem, nul⟩
    exact (zero_mem_encodeChar char).mp nul ▸ mem
  · intro mem
    exact ⟨_, mem, (zero_mem_encodeChar _).mpr rfl⟩

end Retrovert.Utf8
