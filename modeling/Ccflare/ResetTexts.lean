import Ccflare.Providers
import Mathlib.Tactic.IntervalCases

/-!
The text that tells when a usage window resets, and the number of minutes the dashboard reads
back from it to find the earliest.
-/

namespace Ccflare.ResetTexts

open MachineNumber Providers

/-- `format_reset_timestamp`; `/` and `%` are those of a positive number. -/
def formatResetTimestamp (ts now : Int) : String :=
  let remainingMs := wrappingSub ts now
  if remainingMs ≤ 0 then "resetting"
  else
    let mins := remainingMs / 60000
    let hours := mins / 60
    let m := mins % 60
    if hours > 0 then toString hours ++ "h " ++ toString m ++ "m"
    else toString mins ++ "m"

/-- `format_reset_time`, with the reader of the date as a parameter. -/
def formatResetTime (parseRfc3339 : String → Option Int) (iso : Option String) (now : Int) :
    String :=
  match iso.bind parseRfc3339 with
  | none => ""
  | some resetMs => formatResetTimestamp resetMs now

def splitWhitespace (text : List Char) : List (List Char) :=
  (text.splitOnP Text.isWhiteSpace).filter fun part => part ≠ []

/-- `part.strip_suffix(unit)` of one character. -/
def stripUnit (unit : Char) (part : List Char) : Option (List Char) :=
  if part.getLast? = some unit then some part.dropLast else none

def parseOrZero (digits : List Char) : Int := (parseI64 (String.ofList digits)).getD 0

/-- The minutes of one part of a text. -/
def partMinutes (part : List Char) : Int :=
  match stripUnit 'h' part, stripUnit 'm' part, stripUnit 'd' part with
  | some h, _, _ => wrappingMul (parseOrZero h) 60
  | none, some m, _ => parseOrZero m
  | none, none, some d => wrappingMul (parseOrZero d) 1440
  | none, none, none => 0

def parseResetMinutes (s : String) : Int :=
  if s = "resetting" then 0
  else (splitWhitespace s.toList).foldl (fun total part => wrappingAdd total (partMinutes part)) 0

section RoundTrip

theorem digits_value_append (digits : List Char) (digit : Char) :
    digitsValue (digits ++ [digit]) = 10 * digitsValue digits + (digit.toNat - '0'.toNat) := by
  simp [digitsValue]

theorem digit_char_value (digit : Nat) (small : digit < 10) :
    (Nat.digitChar digit).toNat - '0'.toNat = digit := by
  interval_cases digit <;> decide

/-- A printed number is read back. -/
theorem digits_value_print (n : Nat) : digitsValue (Nat.toDigits 10 n) = n := by
  induction n using Nat.strong_induction_on with
  | _ n ih =>
      by_cases small : n < 10
      · rw [Nat.toDigits_of_lt_base small]
        simpa [digitsValue] using digit_char_value n small
      · rw [Nat.toDigits_of_base_le (by decide) (by omega), digits_value_append,
          ih (n / 10) (by omega), digit_char_value _ (by omega)]
        omega

theorem print_digits (n : Nat) : (toString (n : Int)).toList = Nat.toDigits 10 n := by
  rw [Int.toString_eq_repr, Int.repr_eq_if]
  simp [Nat.toList_repr]

theorem digit_head (digits : List Char) (numeric : ∀ c ∈ digits, c.isDigit = true) :
    digits.head? ≠ some '-' ∧ digits.head? ≠ some '+' := by
  cases digits with
  | nil => exact ⟨nofun, nofun⟩
  | cons c rest =>
      have digit := numeric c List.mem_cons_self
      constructor <;> intro same <;> cases same <;> simp at digit

theorem parse_digits (n : Nat) (inside : InI64 n) :
    parseI64 (String.ofList (Nat.toDigits 10 n)) = some (n : Int) := by
  have numeric : ∀ c ∈ Nat.toDigits 10 n, c.isDigit = true :=
    fun c => Nat.isDigit_of_mem_toDigits (by decide) (by decide)
  have all : (Nat.toDigits 10 n).all Char.isDigit = true := List.all_eq_true.mpr numeric
  obtain ⟨notMinus, notPlus⟩ := digit_head _ numeric
  unfold parseI64
  rw [String.toList_ofList]
  split
  next negative digits same =>
    split at same
    · next rest here => simp [here] at notMinus
    · next rest here => simp [here] at notPlus
    · cases same
      simp [Nat.toDigits_ne_nil, all, digits_value_print, inside]

/-- The number of minutes a text with hours and minutes stands for. -/
theorem part_minutes_hours (n : Nat) (inside : InI64 (n * 60)) :
    partMinutes (Nat.toDigits 10 n ++ ['h']) = n * 60 := by
  have small : InI64 n := by
    unfold InI64 i64Min i64Max at inside ⊢
    omega
  simp only [partMinutes, stripUnit, List.getLast?_concat, if_true, List.dropLast_concat,
    parseOrZero, parse_digits n small, Option.getD_some]
  exact wrap_of_in_i64 _ inside

theorem part_minutes_minutes (n : Nat) (inside : InI64 n) :
    partMinutes (Nat.toDigits 10 n ++ ['m']) = n := by
  simp [partMinutes, stripUnit, parseOrZero, parse_digits n inside]

theorem digits_unbroken (n : Nat) (unit : Char) (letter : Text.isWhiteSpace unit = false) :
    ∀ c ∈ Nat.toDigits 10 n ++ [unit], Text.isWhiteSpace c = false := by
  intro c member
  rcases List.mem_append.mp member with digit | last
  · have numeric := Nat.isDigit_of_mem_toDigits (by decide) (by decide) digit
    have range : 48 ≤ c.toNat ∧ c.toNat ≤ 57 := by
      simpa [Char.isDigit, UInt32.le_iff_toNat_le] using numeric
    simp only [Text.isWhiteSpace, Bool.or_eq_false_iff, Bool.and_eq_false_iff, beq_eq_false_iff_ne,
      decide_eq_false_iff_not]
    omega
  · obtain rfl := List.mem_singleton.mp last
    exact letter

theorem split_one (n : Nat) (unit : Char) (letter : Text.isWhiteSpace unit = false) :
    splitWhitespace (Nat.toDigits 10 n ++ [unit]) = [Nat.toDigits 10 n ++ [unit]] := by
  rw [splitWhitespace, List.splitOnP_eq_singleton (digits_unbroken n unit letter)]
  simp

theorem split_two (h m : Nat) :
    splitWhitespace (Nat.toDigits 10 h ++ ['h'] ++ ' ' :: (Nat.toDigits 10 m ++ ['m'])) =
      [Nat.toDigits 10 h ++ ['h'], Nat.toDigits 10 m ++ ['m']] := by
  rw [splitWhitespace, List.splitOnP_append_cons_of_forall_mem
      (digits_unbroken h 'h' (by decide)) ' ' (by decide),
    List.splitOnP_eq_singleton (digits_unbroken m 'm' (by decide))]
  simp

theorem ends_apart (text : String) : text ++ "m" ≠ "resetting" := by
  intro same
  have last := congrArg (fun text => text.toList.getLast?) same
  simp only [String.toList_append] at last
  rw [show "m".toList = ['m'] from rfl, List.getLast?_concat] at last
  exact absurd last (by decide)

theorem added_exact (a b sum : Int) (same : a + b = sum) (inside : InI64 sum) :
    wrappingAdd a b = sum := by
  rw [wrappingAdd, same]
  exact wrap_of_in_i64 sum inside

theorem parse_minutes (mins : Nat) (inside : InI64 mins) :
    parseResetMinutes (toString (mins : Int) ++ "m") = mins := by
  have letters : (toString (mins : Int) ++ "m").toList = Nat.toDigits 10 mins ++ ['m'] := by
    simp only [String.toList_append, print_digits]
    simp
  rw [parseResetMinutes, if_neg (ends_apart _), letters, split_one mins 'm' (by decide)]
  rw [List.foldl_cons, List.foldl_nil, part_minutes_minutes mins inside]
  exact added_exact 0 mins mins (zero_add _) inside

theorem parse_hours (mins : Nat) (inside : InI64 mins) :
    parseResetMinutes (toString ((mins / 60 : Nat) : Int) ++ "h " ++
      toString ((mins % 60 : Nat) : Int) ++ "m") = mins := by
  have letters : (toString ((mins / 60 : Nat) : Int) ++ "h " ++
      toString ((mins % 60 : Nat) : Int) ++ "m").toList =
        Nat.toDigits 10 (mins / 60) ++ ['h'] ++ ' ' :: (Nat.toDigits 10 (mins % 60) ++ ['m']) := by
    simp only [String.toList_append, print_digits]
    simp
  have parts : ((mins / 60 : Nat) : Int) * 60 + ((mins % 60 : Nat) : Int) = mins := by omega
  have hours : InI64 ((mins / 60 : Nat) * 60) := by
    unfold InI64 i64Min i64Max at inside ⊢
    omega
  have rest : InI64 (mins % 60 : Nat) := by
    unfold InI64 i64Min i64Max at inside ⊢
    omega
  rw [parseResetMinutes, if_neg (ends_apart _), letters, split_two]
  rw [List.foldl_cons, List.foldl_cons, List.foldl_nil, part_minutes_hours _ hours,
    part_minutes_minutes _ rest, added_exact 0 _ _ (zero_add _) hours]
  exact added_exact _ _ _ parts inside

/-- The minutes that are read back are the whole minutes that were left, or none. -/
theorem parse_format (ts now : Int) :
    parseResetMinutes (formatResetTimestamp ts now) = max 0 (wrappingSub ts now / 60000) := by
  unfold formatResetTimestamp
  have inside : InI64 (wrappingSub ts now) := wrap_in_i64 _
  generalize wrappingSub ts now = left at inside ⊢
  by_cases due : left ≤ 0
  · simp only [if_pos due, parseResetMinutes, if_true]
    omega
  · obtain ⟨mins, same⟩ := Int.eq_ofNat_of_zero_le (by omega : 0 ≤ left / 60000)
    have least : max 0 (mins : Int) = mins := by omega
    have small : InI64 mins := by
      unfold InI64 i64Min i64Max at inside ⊢
      omega
    have hours : (mins : Int) / 60 = ((mins / 60 : Nat) : Int) := by simp
    have rest : (mins : Int) % 60 = ((mins % 60 : Nat) : Int) := by simp
    simp only [if_neg due, same, least, hours, rest]
    split
    · exact parse_hours mins small
    · exact parse_minutes mins small

end RoundTrip

end Ccflare.ResetTexts
