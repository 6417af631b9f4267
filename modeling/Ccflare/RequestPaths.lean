import Ccflare.LossyUtf8
import Ccflare.Text
import Mathlib.Logic.Function.Iterate

/-!
Request paths, after `path_validator.rs`. A path is decoded for eight rounds or until that changes
nothing, and must not show a parent directory or a null character in any of them.
-/

namespace Ccflare.RequestPaths

open LossyUtf8 Utf8

def hexVal (byte : UInt8) : Option UInt8 :=
  if '0'.toUInt8 ≤ byte ∧ byte ≤ '9'.toUInt8 then some (byte - '0'.toUInt8)
  else if 'a'.toUInt8 ≤ byte ∧ byte ≤ 'f'.toUInt8 then some (byte - 'a'.toUInt8 + 10)
  else if 'A'.toUInt8 ≤ byte ∧ byte ≤ 'F'.toUInt8 then some (byte - 'A'.toUInt8 + 10)
  else none

/-- The loop of `simple_percent_decode`. A percent sign is looked at when two bytes follow it. -/
def decodeBytes : List UInt8 → List UInt8
  | byte :: high :: low :: later =>
      if byte = '%'.toUInt8 then
        match hexVal high, hexVal low with
        | some hi, some lo => (hi <<< 4 ||| lo) :: decodeBytes later
        | _, _ => byte :: decodeBytes (high :: low :: later)
      else byte :: decodeBytes (high :: low :: later)
  | short => short

def simplePercentDecode (input : String) : String :=
  fromUtf8Lossy (decodeBytes (encode input.toList))

def suspicious (text : String) : Bool :=
  Text.contains ".." text || text.toList.contains (Char.ofNat 0)

def checkRounds : Nat → String → Bool
  | 0, _ => true
  | rounds + 1, current =>
      let decoded := simplePercentDecode current
      if suspicious decoded then false
      else if decoded = current then true
      else checkRounds rounds decoded

def isSafeRequestPath (path : String) : Bool :=
  if suspicious path then false else checkRounds 8 path

/-- A path after a number of rounds of decoding. -/
def decoded (rounds : Nat) (path : String) : String := simplePercentDecode^[rounds] path

theorem decoded_succ (n : Nat) (path : String) :
    decoded (n + 1) path = simplePercentDecode (decoded n path) :=
  Function.iterate_succ_apply' simplePercentDecode n path

def Clean (text : String) : Prop :=
  ¬ ['.', '.'] <:+: text.toList ∧ Char.ofNat 0 ∉ text.toList

/-- Eight rounds reach a text that another one does not change. -/
def Settled (path : String) : Prop := simplePercentDecode (decoded 8 path) = decoded 8 path

theorem suspicious_iff (text : String) : suspicious text = false ↔ Clean text := by
  simp [suspicious, Clean, Text.contains]

theorem suspicious_not_clean (text : String) (found : suspicious text = true) : ¬ Clean text := by
  intro clean
  rw [(suspicious_iff text).mpr clean] at found
  cases found

theorem hex_ascii (byte : UInt8) (hex : (hexVal byte).isSome) : byte.toNat < 128 := by
  have bounds : ('9'.toUInt8).toNat < 128 ∧ ('f'.toUInt8).toNat < 128 ∧
      ('F'.toUInt8).toNat < 128 := by decide
  unfold hexVal at hex
  split at hex
  · rename_i digit
    exact Nat.lt_of_le_of_lt (UInt8.le_iff_toNat_le.mp digit.2) bounds.1
  · split at hex
    · rename_i lower
      exact Nat.lt_of_le_of_lt (UInt8.le_iff_toNat_le.mp lower.2) bounds.2.1
    · split at hex
      · rename_i upper
        exact Nat.lt_of_le_of_lt (UInt8.le_iff_toNat_le.mp upper.2) bounds.2.2
      · cases hex

/-- A byte is copied, or it begins an escape. -/
theorem decode_cases (byte : UInt8) (rest : List UInt8) :
    decodeBytes (byte :: rest) = byte :: decodeBytes rest ∨
      byte = '%'.toUInt8 ∧ ∃ high low later out, rest = high :: low :: later ∧
        (hexVal high).isSome ∧ (hexVal low).isSome ∧
        decodeBytes (byte :: rest) = out :: decodeBytes later := by
  match rest with
  | [] => exact .inl rfl
  | [_] => exact .inl rfl
  | high :: low :: later =>
      rw [decodeBytes]
      split
      · rename_i sign
        cases first : hexVal high with
        | none => exact .inl rfl
        | some hi =>
            cases second : hexVal low with
            | none => exact .inl rfl
            | some lo =>
                exact .inr ⟨sign, high, low, later, _, rfl, by simp [first], by simp [second], rfl⟩
      · exact .inl rfl

theorem decode_plain (bytes rest : List UInt8) (plain : '%'.toUInt8 ∉ bytes) :
    decodeBytes (bytes ++ rest) = bytes ++ decodeBytes rest := by
  induction bytes with
  | nil => rfl
  | cons byte more ih =>
      obtain ⟨other, others⟩ := not_or.mp (mt List.mem_cons.mpr plain)
      rcases decode_cases byte (more ++ rest) with copied | ⟨sign, _⟩
      · rw [List.cons_append, copied, ih others]
        rfl
      · exact absurd sign.symm other

theorem char_plain (c : Char) (other : c ≠ '%') : '%'.toUInt8 ∉ String.utf8EncodeChar c := by
  intro member
  have code := ascii_byte c _ member (by decide)
  apply other
  rw [← Char.ofNat_toNat c, code]
  rfl

/-- Decoding leaves a text as it is, or it costs two characters at least. What was left unfinished
before the text counts as one. -/
def Shrinks (progress : Option Unfinished) (text : List Char) : Prop :=
  decodeBytes (encode text) = encode text ∨
    (readFrom progress (decodeBytes (encode text))).length + 2 ≤
      (finish progress).length + text.length

theorem shrinks_length (progress : Option Unfinished) (text : List Char)
    (shrinks : Shrinks progress text) :
    (readFrom progress (decodeBytes (encode text))).length ≤
      (finish progress).length + text.length := by
  rcases shrinks with same | shorter
  · rw [same, read_encode, List.length_append]
  · omega

theorem copied_shrinks (progress : Option Unfinished) (c : Char) (rest : List Char)
    (copied : decodeBytes (encode (c :: rest)) =
      String.utf8EncodeChar c ++ decodeBytes (encode rest))
    (shrinks : Shrinks none rest) : Shrinks progress (c :: rest) := by
  rcases shrinks with same | shorter
  · exact .inl (by rw [copied, same, encode_cons])
  · have none_waits : (finish none).length = 0 := rfl
    refine .inr ?_
    rw [copied, read_char, List.length_append, List.length_cons, List.length_cons]
    omega

/-- The three characters of an escape become a byte, which is one character at most. -/
theorem escape_shrinks (progress : Option Unfinished) (first second : Char) (rest : List Char)
    (out : UInt8)
    (escaped : decodeBytes (encode ('%' :: first :: second :: rest)) =
      out :: decodeBytes (encode rest))
    (shrinks : Shrinks (step progress out).2 rest) :
    Shrinks progress ('%' :: first :: second :: rest) := by
  have byte := step_length progress out
  have later := shrinks_length _ rest shrinks
  refine .inr ?_
  rw [escaped, read_cons, List.length_append]
  simp only [List.length_cons]
  omega

theorem decode_shrinks (text : List Char) (progress : Option Unfinished) :
    Shrinks progress text := by
  induction size : text.length using Nat.strong_induction_on generalizing text progress with
  | _ count ih =>
      cases text with
      | nil => exact .inl rfl
      | cons c rest =>
          rw [List.length_cons] at size
          have smaller : rest.length < count := by omega
          have rest_shrinks := ih rest.length smaller rest none rfl
          by_cases sign : c = '%'
          · subst c
            rcases decode_cases '%'.toUInt8 (encode rest) with copied | escaped
            · exact copied_shrinks progress '%' rest copied rest_shrinks
            · obtain ⟨_, high, low, later, out, whole, firstHex, secondHex, decoded⟩ := escaped
              obtain ⟨first, more, rfl, _, left⟩ :=
                encode_ascii rest high _ whole (hex_ascii high firstHex)
              obtain ⟨second, text, rfl, _, rfl⟩ :=
                encode_ascii more low _ left (hex_ascii low secondHex)
              apply escape_shrinks progress first second text out decoded
              apply ih text.length _ text _ rfl
              simp only [List.length_cons] at smaller
              omega
          · apply copied_shrinks progress c rest _ rest_shrinks
            exact decode_plain _ _ (char_plain c sign)

theorem round_shrinks (path : String) :
    simplePercentDecode path = path ∨ (simplePercentDecode path).length + 2 ≤ path.length := by
  rcases decode_shrinks path.toList none with same | shorter
  · exact .inl (by rw [simplePercentDecode, same, lossy_encode])
  · refine .inr ?_
    have none_waits : (finish none).length = 0 := rfl
    rw [none_waits, Nat.zero_add, String.length_toList] at shorter
    rwa [simplePercentDecode, fromUtf8Lossy, String.length_ofList]

theorem check_rounds_iff (rounds : Nat) (current : String) :
    checkRounds rounds current = true ↔ ∀ n < rounds, Clean (decoded (n + 1) current) := by
  induction rounds generalizing current with
  | zero => simp [checkRounds]
  | succ rounds ih =>
      rw [checkRounds]
      cases found : suspicious (simplePercentDecode current) with
      | true =>
          refine iff_of_false Bool.false_ne_true fun clean => ?_
          exact suspicious_not_clean _ found (clean 0 (Nat.succ_pos rounds))
      | false =>
          have once := (suspicious_iff _).mp found
          rw [if_neg (by decide)]
          by_cases stable : simplePercentDecode current = current
          · -- Every further round gives the text that was just looked at.
            rw [if_pos stable]
            refine iff_of_true rfl fun n _ => ?_
            rw [decoded, Function.iterate_fixed stable, ← stable]
            exact once
          · rw [if_neg stable, ih]
            constructor
            · intro later n few
              cases n with
              | zero => exact once
              | succ n => exact later n (Nat.lt_of_succ_lt_succ few)
            · intro clean n few
              exact clean (n + 1) (Nat.succ_lt_succ few)

theorem is_safe_iff (path : String) :
    isSafeRequestPath path = true ↔ ∀ n ≤ 8, Clean (decoded n path) := by
  rw [isSafeRequestPath]
  cases found : suspicious path with
  | true =>
      refine iff_of_false Bool.false_ne_true fun clean => ?_
      exact suspicious_not_clean path found (clean 0 (Nat.zero_le 8))
  | false =>
      rw [if_neg (by decide), check_rounds_iff]
      constructor
      · intro later n few
        cases n with
        | zero => exact (suspicious_iff path).mp found
        | succ n => exact later n few
      · intro clean n few
        exact clean (n + 1) few

/-- A settled text stays as eight rounds have left it. -/
theorem settled_rounds (path : String) (settled : Settled path) (n : Nat) (many : 8 ≤ n) :
    decoded n path = decoded 8 path := by
  obtain ⟨more, rfl⟩ := Nat.exists_eq_add_of_le many
  rw [decoded, Nat.add_comm, Function.iterate_add_apply]
  exact Function.iterate_fixed settled more

/-- Rounds that change a text shorten it, so there are not many of them. -/
theorem rounds_shrink (path : String) (n : Nat) :
    simplePercentDecode (decoded n path) = decoded n path ∨
      (decoded (n + 1) path).length + 2 * (n + 1) ≤ path.length := by
  induction n with
  | zero => exact round_shrinks path
  | succ n ih =>
      have another := decoded_succ n path
      rcases ih with stable | shorter
      · rw [stable] at another
        exact .inl (by rw [another, stable])
      · rcases round_shrinks (decoded (n + 1) path) with stable | shortened
        · exact .inl stable
        · rw [← decoded_succ] at shortened
          exact .inr (by omega)

/-- Half as many rounds as there are characters reach the limit of any path. -/
theorem limit_reached (path : String) :
    simplePercentDecode (decoded (path.length / 2) path) = decoded (path.length / 2) path := by
  rcases rounds_shrink path (path.length / 2) with stable | shorter
  · exact stable
  · omega

theorem short_settled (path : String) (short : path.length < 18) : Settled path := by
  rcases rounds_shrink path 8 with stable | shorter
  · exact stable
  · omega

/-- The check sees through eight rounds, and through any number if eight reach the limit, as they
do for a path of fewer than eighteen characters. -/
theorem sees_eight_rounds (path : String) :
    (isSafeRequestPath path = true ↔ ∀ n ≤ 8, Clean (decoded n path)) ∧
    (Settled path → (isSafeRequestPath path = true ↔ ∀ n, Clean (decoded n path))) ∧
    (path.length < 18 → Settled path) := by
  refine ⟨is_safe_iff path, ?_, short_settled path⟩
  intro settled
  rw [is_safe_iff]
  constructor
  · intro clean n
    rcases Nat.le_total n 8 with few | many
    · exact clean n few
    · rw [settled_rounds path settled n many]
      exact clean 8 (Nat.le_refl 8)
  · intro clean n _
    exact clean n

theorem ninth_round_shows :
    ¬ ∀ path, isSafeRequestPath path = true → ∀ n, Clean (decoded n path) := by
  intro all
  have accepted : isSafeRequestPath "/%25252525252525252e./x" = true := by decide
  have shown : suspicious (decoded 9 "/%25252525252525252e./x") = true := by decide
  exact suspicious_not_clean _ shown (all _ accepted 9)

end Ccflare.RequestPaths
