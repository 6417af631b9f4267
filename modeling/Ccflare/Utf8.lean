import Mathlib.Data.List.Infix
import Mathlib.Tactic.Common

/-!
The UTF-8 encoding of a text as a list of bytes. No encoding of a character begins another, so a
text whose bytes begin those of another begins it; a byte below 128 stands for itself only.
-/

namespace Ccflare.Utf8

def encode (text : List Char) : List UInt8 := text.flatMap String.utf8EncodeChar

@[simp]
theorem encode_nil : encode [] = [] := rfl

@[simp]
theorem encode_append (left right : List Char) :
    encode (left ++ right) = encode left ++ encode right :=
  List.flatMap_append

theorem encode_cons (c : Char) (rest : List Char) :
    encode (c :: rest) = String.utf8EncodeChar c ++ encode rest := rfl

theorem byte_array_list (bytes : List UInt8) : (⟨bytes.toArray⟩ : ByteArray) = bytes.toByteArray :=
  ByteArray.ext List.data_toByteArray.symm

theorem utf8_bytes (text : String) : text.toUTF8 = ⟨(encode text.toList).toArray⟩ := by
  have whole : text.toList.utf8Encode = text.toByteArray := by simp
  rw [String.toUTF8_eq_toByteArray, ← whole, List.utf8Encode, byte_array_list]
  rfl

theorem decode_some (bytes : List UInt8) (text : String)
    (decoded : String.fromUTF8? ⟨bytes.toArray⟩ = some text) : bytes = encode text.toList := by
  unfold String.fromUTF8? at decoded
  split at decoded
  · rename_i valid
    have same : text.toUTF8 = ⟨bytes.toArray⟩ := by
      rw [← Option.some.inj decoded]
      rfl
    rw [utf8_bytes, ByteArray.mk.injEq] at same
    exact (congrArg Array.toList same).symm
  · cases decoded

theorem decode_text (text : String) : String.fromUTF8? text.toUTF8 = some text := by
  rw [String.toUTF8_eq_toByteArray, String.fromUTF8?, dif_pos text.isValidUTF8]
  rfl

theorem decode_encode (text : String) :
    String.fromUTF8? ⟨(encode text.toList).toArray⟩ = some text := by
  rw [← utf8_bytes]
  exact decode_text text

theorem char_first (c : Char) (bytes : List UInt8) :
    ByteArray.utf8DecodeChar? ⟨(String.utf8EncodeChar c ++ bytes).toArray⟩ 0 = some c := by
  rw [byte_array_list, List.toByteArray_append]
  exact ByteArray.utf8DecodeChar?_utf8EncodeChar_append

theorem encode_ne_nil (c : Char) : String.utf8EncodeChar c ≠ [] := String.utf8EncodeChar_ne_nil

/-- Bytes that begin a text's are those of a text that begins it. -/
theorem encode_prefix (left right : List Char) (start : encode left <+: encode right) :
    left <+: right := by
  induction left generalizing right with
  | nil => exact List.nil_prefix
  | cons c rest ih =>
      obtain ⟨more, whole⟩ := start
      rw [encode_cons, List.append_assoc] at whole
      cases right with
      | nil =>
          have empty := List.append_eq_nil_iff.mp whole
          exact absurd empty.1 (encode_ne_nil c)
      | cons d later =>
          have first := char_first c (encode rest ++ more)
          rw [whole, encode_cons, char_first] at first
          obtain rfl := Option.some.inj first
          rw [encode_cons, List.append_cancel_left_eq] at whole
          exact (List.prefix_cons_inj d).mpr (ih later ⟨more, whole⟩)

/-- A byte of the ASCII range is the character of that code. -/
theorem ascii_byte (c : Char) (byte : UInt8) (member : byte ∈ String.utf8EncodeChar c)
    (ascii : byte.toNat < 128) : c.toNat = byte.toNat := by
  unfold String.utf8EncodeChar at member
  dsimp only at member
  change c.val.toNat = _
  split at member
  · rename_i small
    rw [List.mem_singleton.mp member, UInt8.toNat_ofNat']
    omega
  · -- Every byte of a longer encoding has its highest bit set.
    split at member
    · simp only [List.mem_cons, List.not_mem_nil, or_false] at member
      rcases member with rfl | rfl <;> rw [UInt8.toNat_ofNat'] at ascii <;> omega
    · split at member
      · simp only [List.mem_cons, List.not_mem_nil, or_false] at member
        rcases member with rfl | rfl | rfl <;> rw [UInt8.toNat_ofNat'] at ascii <;> omega
      · simp only [List.mem_cons, List.not_mem_nil, or_false] at member
        rcases member with rfl | rfl | rfl | rfl <;> rw [UInt8.toNat_ofNat'] at ascii <;> omega

/-- A character of the ASCII range is one byte. -/
theorem char_ascii (c : Char) (ascii : c.toNat < 128) :
    String.utf8EncodeChar c = [UInt8.ofNat c.toNat] := by
  have small : c.val.toNat ≤ 0x7f := Nat.le_of_lt_succ ascii
  rw [String.utf8EncodeChar]
  exact if_pos small

theorem encode_all_ascii (text : List Char) (ascii : ∀ c ∈ text, c.toNat < 128) :
    encode text = text.map fun c => UInt8.ofNat c.toNat := by
  induction text with
  | nil => rfl
  | cons c rest ih =>
      rw [encode_cons, char_ascii c (ascii c List.mem_cons_self),
        ih fun d member => ascii d (List.mem_cons_of_mem c member)]
      rfl

theorem ascii_injective (c d : Char) (left : c.toNat < 128) (right : d.toNat < 128)
    (same : UInt8.ofNat c.toNat = UInt8.ofNat d.toNat) : c = d := by
  have codes := congrArg UInt8.toNat same
  rw [UInt8.toNat_ofNat', UInt8.toNat_ofNat'] at codes
  rw [← Char.ofNat_toNat c, ← Char.ofNat_toNat d]
  congr 1
  omega

/-- A byte of the ASCII range at the beginning is a character there. -/
theorem encode_ascii (text : List Char) (byte : UInt8) (more : List UInt8)
    (whole : encode text = byte :: more) (ascii : byte.toNat < 128) :
    ∃ c rest, text = c :: rest ∧ c.toNat = byte.toNat ∧ encode rest = more := by
  cases text with
  | nil => cases whole
  | cons c rest =>
      rw [encode_cons] at whole
      have code : c.toNat = byte.toNat := by
        apply ascii_byte c byte _ ascii
        cases shape : String.utf8EncodeChar c with
        | nil => exact absurd shape (encode_ne_nil c)
        | cons b bytes =>
            rw [shape] at whole
            rw [← List.head_eq_of_cons_eq whole]
            exact List.mem_cons_self
      rw [char_ascii c (by omega)] at whole
      exact ⟨c, rest, rfl, code, List.tail_eq_of_cons_eq whole⟩

end Ccflare.Utf8
