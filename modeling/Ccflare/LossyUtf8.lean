import Ccflare.Transducer
import Ccflare.Utf8

/-!
Bytes read as UTF-8 text where every broken piece becomes one replacement character. A text
that was encoded is read as it was, also behind a character that was left unfinished.
-/

namespace Ccflare.LossyUtf8

open Transducer Utf8

def replacement : Char := Char.ofNat 0xFFFD

/-- A character of which the last bytes are missing: how many there are after the next one, what
that one may be, and the code so far. -/
structure Unfinished where
  after : Nat
  low : Nat
  high : Nat
  code : Nat
  above : 0x80 ≤ low
  below : high ≤ 0xBF

def first (byte : Nat) : List Char × Option Unfinished :=
  if byte < 0x80 then ([Char.ofNat byte], none)
  else if 0xC2 ≤ byte ∧ byte ≤ 0xDF then
    ([], some ⟨0, 0x80, 0xBF, byte - 0xC0, by decide, by decide⟩)
  else if byte = 0xE0 then
    ([], some ⟨1, 0xA0, 0xBF, 0, by decide, by decide⟩)
  else if byte = 0xED then
    ([], some ⟨1, 0x80, 0x9F, 0xD, by decide, by decide⟩)
  else if 0xE1 ≤ byte ∧ byte ≤ 0xEF then
    ([], some ⟨1, 0x80, 0xBF, byte - 0xE0, by decide, by decide⟩)
  else if byte = 0xF0 then
    ([], some ⟨2, 0x90, 0xBF, 0, by decide, by decide⟩)
  else if 0xF1 ≤ byte ∧ byte ≤ 0xF3 then
    ([], some ⟨2, 0x80, 0xBF, byte - 0xF0, by decide, by decide⟩)
  else if byte = 0xF4 then
    ([], some ⟨2, 0x80, 0x8F, 4, by decide, by decide⟩)
  else ([replacement], none)

def Unfinished.next (unfinished : Unfinished) (byte : Nat) : List Char × Option Unfinished :=
  let code := unfinished.code * 64 + (byte - 0x80)
  match unfinished.after with
  | 0 => ([Char.ofNat code], none)
  | after + 1 => ([], some ⟨after, 0x80, 0xBF, code, by decide, by decide⟩)

/-- A byte that does not go on with the unfinished character is read as the first of another. -/
def step (progress : Option Unfinished) (byte : UInt8) : List Char × Option Unfinished :=
  match progress with
  | none => first byte.toNat
  | some unfinished =>
      if unfinished.low ≤ byte.toNat ∧ byte.toNat ≤ unfinished.high then
        unfinished.next byte.toNat
      else (replacement :: (first byte.toNat).1, (first byte.toNat).2)

def finish : Option Unfinished → List Char
  | none => []
  | some _ => [replacement]

def readFrom (progress : Option Unfinished) (bytes : List UInt8) : List Char :=
  (run step progress bytes).1 ++ finish (run step progress bytes).2

def fromUtf8Lossy (bytes : List UInt8) : String := String.ofList (readFrom none bytes)

theorem read_cons (progress : Option Unfinished) (byte : UInt8) (rest : List UInt8) :
    readFrom progress (byte :: rest) =
      (step progress byte).1 ++ readFrom (step progress byte).2 rest := by
  rw [readFrom, run_cons, List.append_assoc]
  rfl

theorem read_append (progress : Option Unfinished) (left right : List UInt8) :
    readFrom progress (left ++ right) =
      (run step progress left).1 ++ readFrom (run step progress left).2 right := by
  rw [readFrom, run_append, List.append_assoc]
  rfl

theorem first_length (byte : Nat) :
    (first byte).1.length + (finish (first byte).2).length = 1 := by
  unfold first
  split_ifs <;> rfl

/-- A byte puts out one character at most, counting that of an unfinished one. -/
theorem step_length (progress : Option Unfinished) (byte : UInt8) :
    (step progress byte).1.length + (finish (step progress byte).2).length ≤
      (finish progress).length + 1 := by
  have fresh := first_length byte.toNat
  cases progress with
  | none => exact fresh.le
  | some unfinished =>
      rw [step]
      split
      · rw [Unfinished.next]
        split <;> simp [finish]
      · have waiting : (finish (some unfinished)).length = 1 := rfl
        dsimp only
        rw [waiting, List.length_cons]
        omega

/-- What a byte below the continuations, or above them, does to an unfinished character. -/
theorem step_first (progress : Option Unfinished) (byte : UInt8)
    (fresh : byte.toNat < 0x80 ∨ 0xBF < byte.toNat) :
    step progress byte = (finish progress ++ (first byte.toNat).1, (first byte.toNat).2) := by
  cases progress with
  | none => rfl
  | some unfinished =>
      have above := unfinished.above
      have below := unfinished.below
      rw [step, if_neg (by omega)]
      rfl

theorem first_ascii (code : Nat) (small : code < 0x80) : first code = ([Char.ofNat code], none) :=
  if_pos small

theorem first_two (code : Nat) (least : 0x80 ≤ code) (most : code < 0x800) :
    first (code / 64 % 32 + 0xC0) =
      ([], some ⟨0, 0x80, 0xBF, code / 64, by decide, by decide⟩) := by
  rw [first, if_neg (by omega), if_pos (by omega)]
  have bits : code / 64 % 32 + 0xC0 - 0xC0 = code / 64 := by omega
  simp only [bits]

theorem first_three (code : Nat) (least : 0x800 ≤ code) (most : code < 0x10000)
    (scalar : code < 0xD800 ∨ 0xDFFF < code) :
    ∃ unfinished, first (code / 4096 % 16 + 0xE0) = ([], some unfinished) ∧
      unfinished.after = 1 ∧ unfinished.code = code / 4096 ∧
      unfinished.low ≤ code / 64 % 64 + 0x80 ∧ code / 64 % 64 + 0x80 ≤ unfinished.high := by
  rw [first, if_neg (by omega), if_neg (by omega)]
  split_ifs with zero thirteen other
  all_goals first
    | omega
    | exact ⟨_, rfl, rfl, by dsimp only; omega, by dsimp only; omega, by dsimp only; omega⟩

theorem first_four (code : Nat) (least : 0x10000 ≤ code) (most : code < 0x110000) :
    ∃ unfinished, first (code / 262144 % 8 + 0xF0) = ([], some unfinished) ∧
      unfinished.after = 2 ∧ unfinished.code = code / 262144 ∧
      unfinished.low ≤ code / 4096 % 64 + 0x80 ∧ code / 4096 % 64 + 0x80 ≤ unfinished.high := by
  rw [first, if_neg (by omega), if_neg (by omega), if_neg (by omega), if_neg (by omega),
    if_neg (by omega)]
  split_ifs with zero middle four
  all_goals first
    | omega
    | exact ⟨_, rfl, rfl, by dsimp only; omega, by dsimp only; omega, by dsimp only; omega⟩

theorem byte_code (code : Nat) (small : code < 256) : (UInt8.ofNat code).toNat = code := by
  rw [UInt8.toNat_ofNat', Nat.mod_eq_of_lt small]

theorem step_next (unfinished : Unfinished) (code : Nat) (least : unfinished.low ≤ code)
    (most : code ≤ unfinished.high) :
    step (some unfinished) (UInt8.ofNat code) = unfinished.next code := by
  have below := unfinished.below
  rw [step, byte_code code (by omega), if_pos ⟨least, most⟩]

/-- The last byte of a character. -/
theorem next_last (unfinished : Unfinished) (code : Nat) (last : unfinished.after = 0)
    (read : unfinished.code = code / 64) :
    unfinished.next (code % 64 + 0x80) = ([Char.ofNat code], none) := by
  have bits : code / 64 * 64 + (code % 64 + 0x80 - 0x80) = code := by omega
  simp only [Unfinished.next, last, read, bits]

/-- A byte between the first of a character and its last one. -/
theorem next_middle (unfinished : Unfinished) (code after : Nat)
    (more : unfinished.after = after + 1) (read : unfinished.code = code / 64) :
    unfinished.next (code % 64 + 0x80) =
      ([], some ⟨after, 0x80, 0xBF, code, by decide, by decide⟩) := by
  have bits : code / 64 * 64 + (code % 64 + 0x80 - 0x80) = code := by omega
  simp only [Unfinished.next, more, read, bits]

/-- The first byte of an encoded character, whatever came before. -/
theorem step_lead (progress : Option Unfinished) (code : Nat) (small : code < 256)
    (fresh : code < 0x80 ∨ 0xBF < code) :
    step progress (UInt8.ofNat code) = (finish progress ++ (first code).1, (first code).2) := by
  have byte := byte_code code small
  rw [step_first progress (UInt8.ofNat code) (by rwa [byte]), byte]

theorem run_one (progress : Option Unfinished) (code : Nat) (small : code < 0x80) :
    run step progress [UInt8.ofNat code] = (finish progress ++ [Char.ofNat code], none) := by
  rw [run_singleton, step_lead progress code (by omega) (.inl small), first_ascii code small]

theorem run_two (progress : Option Unfinished) (code : Nat) (least : 0x80 ≤ code)
    (most : code < 0x800) :
    run step progress [UInt8.ofNat (code / 64 % 32 + 0xC0), UInt8.ofNat (code % 64 + 0x80)] =
      (finish progress ++ [Char.ofNat code], none) := by
  rw [run_cons, step_lead progress _ (by omega) (.inr (by omega)), first_two code least most,
    run_singleton, step_next _ _ (by dsimp only; omega) (by dsimp only; omega),
    next_last _ code rfl rfl, List.append_nil]

theorem run_three (progress : Option Unfinished) (code : Nat) (least : 0x800 ≤ code)
    (most : code < 0x10000) (scalar : code < 0xD800 ∨ 0xDFFF < code) :
    run step progress [UInt8.ofNat (code / 4096 % 16 + 0xE0),
        UInt8.ofNat (code / 64 % 64 + 0x80), UInt8.ofNat (code % 64 + 0x80)] =
      (finish progress ++ [Char.ofNat code], none) := by
  obtain ⟨unfinished, lead, after, read, low, high⟩ := first_three code least most scalar
  have middle := next_middle unfinished (code / 64) 0 after (by omega)
  rw [run_cons, step_lead progress _ (by omega) (.inr (by omega)), lead, run_cons,
    step_next unfinished _ low high, middle, run_singleton,
    step_next _ _ (by dsimp only; omega) (by dsimp only; omega), next_last _ code rfl rfl,
    List.append_nil, List.nil_append]

theorem run_four (progress : Option Unfinished) (code : Nat) (least : 0x10000 ≤ code)
    (most : code < 0x110000) :
    run step progress [UInt8.ofNat (code / 262144 % 8 + 0xF0),
        UInt8.ofNat (code / 4096 % 64 + 0x80), UInt8.ofNat (code / 64 % 64 + 0x80),
        UInt8.ofNat (code % 64 + 0x80)] =
      (finish progress ++ [Char.ofNat code], none) := by
  obtain ⟨unfinished, lead, after, read, low, high⟩ := first_four code least most
  have second := next_middle unfinished (code / 4096) 1 after (by omega)
  have third := next_middle ⟨1, 0x80, 0xBF, code / 4096, by decide, by decide⟩ (code / 64) 0 rfl
    (by dsimp only; omega)
  rw [run_cons, step_lead progress _ (by omega) (.inr (by omega)), lead, run_cons,
    step_next unfinished _ low high, second, run_cons,
    step_next _ _ (by dsimp only; omega) (by dsimp only; omega), third, run_singleton,
    step_next _ _ (by dsimp only; omega) (by dsimp only; omega), next_last _ code rfl rfl,
    List.append_nil, List.nil_append, List.nil_append]

/-- An encoded character is read as itself, after the sign for one that was left unfinished. -/
theorem run_char (progress : Option Unfinished) (c : Char) :
    run step progress (String.utf8EncodeChar c) = (finish progress ++ [c], none) := by
  have scalar : c.val.toNat < 0xD800 ∨ 0xDFFF < c.val.toNat ∧ c.val.toNat < 0x110000 := c.valid
  have whole : Char.ofNat c.val.toNat = c := Char.ofNat_toNat c
  unfold String.utf8EncodeChar
  dsimp only
  split_ifs with one two three
  · rw [run_one progress c.val.toNat (by omega), whole]
  · rw [run_two progress c.val.toNat (by omega) (by omega), whole]
  · rw [run_three progress c.val.toNat (by omega) (by omega) (by omega), whole]
  · rw [run_four progress c.val.toNat (by omega) (by omega), whole]

theorem read_char (progress : Option Unfinished) (c : Char) (rest : List UInt8) :
    readFrom progress (String.utf8EncodeChar c ++ rest) =
      finish progress ++ c :: readFrom none rest := by
  rw [read_append, run_char, List.append_assoc]
  rfl

theorem read_encode (progress : Option Unfinished) (text : List Char) :
    readFrom progress (encode text) = finish progress ++ text := by
  induction text generalizing progress with
  | nil => simp [readFrom]
  | cons c rest ih =>
      rw [encode_cons, read_char, ih]
      rfl

theorem lossy_encode (text : String) : fromUtf8Lossy (encode text.toList) = text := by
  rw [fromUtf8Lossy, read_encode]
  exact String.ofList_toList

end Ccflare.LossyUtf8
