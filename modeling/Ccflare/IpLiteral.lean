import Ccflare.Text
import Mathlib

/-!
IP addresses in text, as the standard library of the source language reads them: readers
that take what they can from the front of the text and leave the rest, four decimal octets
without leading zeros, and hexadecimal groups with at most one `::` and perhaps an IPv4
address at the end. The letter case of the digits does not matter, and no text is an
address of both families.
-/

namespace Ccflare.IpLiteral

structure Ipv4Addr where
  a : UInt8
  b : UInt8
  c : UInt8
  d : UInt8
  deriving DecidableEq

abbrev Ipv6Addr := Fin 8 → UInt16

namespace Ipv4Addr

def isLoopback (addr : Ipv4Addr) : Bool := addr.a == 127

def isUnspecified (addr : Ipv4Addr) : Bool := addr == ⟨0, 0, 0, 0⟩

def isPrivate (addr : Ipv4Addr) : Bool :=
  addr.a == 10 || (addr.a == 172 && (16 ≤ addr.b && addr.b ≤ 31)) ||
    (addr.a == 192 && addr.b == 168)

def isLinkLocal (addr : Ipv4Addr) : Bool := addr.a == 169 && addr.b == 254

end Ipv4Addr

namespace Ipv6Addr

def isLoopback (addr : Ipv6Addr) : Bool := List.ofFn addr == [0, 0, 0, 0, 0, 0, 0, 1]

def isUnspecified (addr : Ipv6Addr) : Bool := List.ofFn addr == [0, 0, 0, 0, 0, 0, 0, 0]

def isUniqueLocal (addr : Ipv6Addr) : Bool := addr 0 &&& 0xfe00 == 0xfc00

def isUnicastLinkLocal (addr : Ipv6Addr) : Bool := addr 0 &&& 0xffc0 == 0xfe80

def toIpv4Mapped (addr : Ipv6Addr) : Option Ipv4Addr :=
  if addr 0 = 0 ∧ addr 1 = 0 ∧ addr 2 = 0 ∧ addr 3 = 0 ∧ addr 4 = 0 ∧ addr 5 = 0xffff then
    some ⟨(addr 6 / 256).toUInt8, (addr 6 % 256).toUInt8, (addr 7 / 256).toUInt8,
      (addr 7 % 256).toUInt8⟩
  else none

end Ipv6Addr

abbrev Reader (α : Type) := List Char → Option (α × List Char)

def andThen {α β : Type} (read : Reader α) (next : α → Reader β) : Reader β := fun text =>
  (read text).bind fun taken => next taken.1 taken.2

def digitValue (radix : Nat) (c : Char) : Option Nat :=
  let value :=
    if c.isDigit then some (c.toNat - 48)
    else if c.isLower then some (c.toNat - 87)
    else if c.isUpper then some (c.toNat - 55)
    else none
  value.filter fun digit => decide (digit < radix)

def readChar (target : Char) : List Char → Option (List Char)
  | [] => none
  | c :: rest => if c = target then some rest else none

def readDigits (radix : Nat) : List Char → List Nat × List Char
  | [] => ([], [])
  | c :: rest =>
      match digitValue radix c with
      | some digit => (digit :: (readDigits radix rest).1, (readDigits radix rest).2)
      | none => ([], c :: rest)

/-- A number below `limit` with at most `maxDigits` digits. -/
def readNumber (radix maxDigits : Nat) (allowZeroPrefix : Bool) (limit : Nat) : Reader Nat :=
  fun text =>
    let digits := (readDigits radix text).1
    let value := digits.foldl (fun value digit => value * radix + digit) 0
    if digits.length = 0 ∨ maxDigits < digits.length then none
    else if ¬ allowZeroPrefix ∧ text.head? = some '0' ∧ 1 < digits.length then none
    else if value < limit then some (value, (readDigits radix text).2)
    else none

/-- The separator comes before every item but the first. -/
def readSeparated {α : Type} (separator : Char) (first : Bool) (inner : Reader α) : Reader α :=
  fun text => if first then inner text else (readChar separator text).bind inner

def readOctet (first : Bool) : Reader Nat := readSeparated '.' first (readNumber 10 3 false 256)

def readIpv4Addr : Reader Ipv4Addr :=
  andThen (readOctet true) fun a => andThen (readOctet false) fun b =>
    andThen (readOctet false) fun c => andThen (readOctet false) fun d text =>
      some (⟨a.toUInt8, b.toUInt8, c.toUInt8, d.toUInt8⟩, text)

def readGroup (first : Bool) : Reader Nat := readSeparated ':' first (readNumber 16 4 true 65536)

/-- An IPv4 address fills two slots. -/
def readEmbedded (slots : Nat) (first : Bool) : Reader Ipv4Addr := fun text =>
  if slots < 2 then none else readSeparated ':' first readIpv4Addr text

/-- The groups for the slots that are left, and whether an IPv4 address ended them. -/
def readGroups : Nat → Bool → List Char → List UInt16 × Bool × List Char
  | 0, _, text => ([], false, text)
  | slots + 1, first, text =>
      match readEmbedded (slots + 1) first text with
      | some (addr, rest) =>
          ([addr.a.toUInt16 * 256 + addr.b.toUInt16, addr.c.toUInt16 * 256 + addr.d.toUInt16],
            true, rest)
      | none =>
          match readGroup first text with
          | some (group, rest) =>
              let next := readGroups slots false rest
              (group.toUInt16 :: next.1, next.2)
          | none => ([], false, text)

/-- Zeros stand between the groups before `::` and those after it. -/
def fill (head tail : List UInt16) : Ipv6Addr := fun slot =>
  (head ++ List.replicate (8 - head.length - tail.length) 0 ++ tail).getD slot 0

def readIpv6Addr : Reader Ipv6Addr := fun text =>
  let front := readGroups 8 true text
  if front.1.length = 8 then some (fill front.1 [], front.2.2)
  else if front.2.1 then none
  else
    ((readChar ':' front.2.2).bind (readChar ':')).map fun rest =>
      let back := readGroups (7 - front.1.length) true rest
      (fill front.1 back.1, back.2.2)

/-- The reader takes the whole text. -/
def parseWith {α : Type} (read : Reader α) (text : String) : Option α :=
  match read text.toList with
  | some (value, []) => some value
  | _ => none

def parseIpv4 (text : String) : Option Ipv4Addr := parseWith readIpv4Addr text

def parseIpv6 (text : String) : Option Ipv6Addr := parseWith readIpv6Addr text

section LetterCase

theorem upper_iff (c : Char) : c.isUpper = true ↔ 65 ≤ c.toNat ∧ c.toNat ≤ 90 := by
  simp [Char.isUpper, UInt32.le_iff_toNat_le, ← Char.toNat_val]

theorem lower_iff (c : Char) : c.isLower = true ↔ 97 ≤ c.toNat ∧ c.toNat ≤ 122 := by
  simp [Char.isLower, UInt32.le_iff_toNat_le, ← Char.toNat_val]

theorem digit_iff (c : Char) : c.isDigit = true ↔ 48 ≤ c.toNat ∧ c.toNat ≤ 57 := by
  simp [Char.isDigit, UInt32.le_iff_toNat_le, ← Char.toNat_val]

theorem to_lower_upper (c : Char) (upper : c.isUpper = true) :
    c.toLower.toNat = c.toNat + 32 := by
  have bounds := (upper_iff c).mp upper
  have within : c.val ≥ 'A'.val ∧ c.val ≤ 'Z'.val := by
    simpa [UInt32.le_iff_toNat_le] using bounds
  simp only [Char.toLower, dif_pos within]
  change (c.val + ('a'.val - 'A'.val)).toNat = c.val.toNat + 32
  rw [UInt32.toNat_add]
  exact Nat.mod_eq_of_lt (by simp; omega)

theorem to_lower_other (c : Char) (other : c.isUpper = false) : c.toLower = c := by
  simp only [Char.toLower]
  rw [dif_neg]
  simpa [Char.isUpper] using other

theorem digit_value_lower (radix : Nat) (c : Char) :
    digitValue radix c.toLower = digitValue radix c := by
  cases upper : c.isUpper with
  | false => rw [to_lower_other c upper]
  | true =>
      have lowered := to_lower_upper c upper
      have bounds := (upper_iff c).mp upper
      have lower : c.toLower.isLower = true := (lower_iff _).mpr (by omega)
      have digit : c.isDigit = false := by
        rw [← Bool.not_eq_true, digit_iff]
        omega
      have loweredDigit : c.toLower.isDigit = false := by
        rw [← Bool.not_eq_true, digit_iff]
        omega
      have unlowered : c.isLower = false := by
        rw [← Bool.not_eq_true, lower_iff]
        omega
      have same : c.toNat + 32 - 87 = c.toNat - 55 := by omega
      simp [digitValue, upper, lower, digit, loweredDigit, unlowered, lowered, same]

theorem to_lower_eq_iff (c target : Char) (mark : target.isAlpha = false) :
    c.toLower = target ↔ c = target := by
  have fixed : target.toLower = target := to_lower_other target (by
    simp only [Char.isAlpha, Bool.or_eq_false_iff] at mark
    exact mark.1)
  constructor
  · intro same
    cases upper : c.isUpper with
    | false => rwa [to_lower_other c upper] at same
    | true =>
        have lowered := to_lower_upper c upper
        have bounds := (upper_iff c).mp upper
        have lower : c.toLower.isLower = true := (lower_iff _).mpr (by omega)
        rw [same] at lower
        simp [Char.isAlpha, lower] at mark
  · rintro rfl
    exact fixed

/-- A reader that takes no notice of the case of letters. -/
def Caseless {α : Type} (read : Reader α) : Prop :=
  ∀ text, read (text.map Char.toLower) =
    (read text).map fun taken => (taken.1, taken.2.map Char.toLower)

theorem and_then_caseless {α β : Type} {read : Reader α} {next : α → Reader β}
    (first : Caseless read) (second : ∀ value, Caseless (next value)) :
    Caseless (andThen read next) := by
  intro text
  rw [andThen, first text, andThen]
  cases read text with
  | none => rfl
  | some taken => exact second taken.1 taken.2

theorem read_char_lower (target : Char) (mark : target.isAlpha = false) (text : List Char) :
    readChar target (text.map Char.toLower) =
      (readChar target text).map fun rest => rest.map Char.toLower := by
  cases text with
  | nil => rfl
  | cons c rest =>
      simp only [List.map_cons, readChar, to_lower_eq_iff c target mark]
      split
      · rfl
      · rfl

theorem read_digits_lower (radix : Nat) (text : List Char) :
    readDigits radix (text.map Char.toLower) =
      ((readDigits radix text).1, (readDigits radix text).2.map Char.toLower) := by
  induction text with
  | nil => rfl
  | cons c rest ih =>
      simp only [List.map_cons, readDigits, digit_value_lower]
      cases digitValue radix c with
      | none => rfl
      | some digit => simp only [ih]

theorem read_number_caseless (radix maxDigits : Nat) (allowZeroPrefix : Bool) (limit : Nat) :
    Caseless (readNumber radix maxDigits allowZeroPrefix limit) := by
  intro text
  have zero : (text.map Char.toLower).head? = some '0' ↔ text.head? = some '0' := by
    cases text with
    | nil => simp
    | cons c rest => simpa using to_lower_eq_iff c '0' (by decide)
  simp only [readNumber, read_digits_lower, zero]
  split
  · rfl
  · split
    · rfl
    · split
      · rfl
      · rfl

theorem read_separated_caseless {α : Type} (separator : Char) (mark : separator.isAlpha = false)
    (first : Bool) {inner : Reader α} (caseless : Caseless inner) :
    Caseless (readSeparated separator first inner) := by
  intro text
  simp only [readSeparated]
  split
  · exact caseless text
  · rw [read_char_lower separator mark]
    cases readChar separator text with
    | none => rfl
    | some rest => exact caseless rest

theorem read_octet_caseless (first : Bool) : Caseless (readOctet first) :=
  read_separated_caseless '.' (by decide) first (read_number_caseless 10 3 false 256)

theorem read_ipv4_caseless : Caseless readIpv4Addr := by
  apply and_then_caseless (read_octet_caseless true)
  intro a
  apply and_then_caseless (read_octet_caseless false)
  intro b
  apply and_then_caseless (read_octet_caseless false)
  intro c
  apply and_then_caseless (read_octet_caseless false)
  intro d text
  rfl

theorem read_group_caseless (first : Bool) : Caseless (readGroup first) :=
  read_separated_caseless ':' (by decide) first (read_number_caseless 16 4 true 65536)

theorem read_embedded_caseless (slots : Nat) (first : Bool) :
    Caseless (readEmbedded slots first) := by
  intro text
  simp only [readEmbedded]
  split
  · rfl
  · exact read_separated_caseless ':' (by decide) first read_ipv4_caseless text

theorem read_groups_lower (slots : Nat) (first : Bool) (text : List Char) :
    readGroups slots first (text.map Char.toLower) =
      ((readGroups slots first text).1, (readGroups slots first text).2.1,
        (readGroups slots first text).2.2.map Char.toLower) := by
  induction slots generalizing first text with
  | zero => rfl
  | succ slots ih =>
      rw [readGroups, readGroups, read_embedded_caseless, read_group_caseless]
      cases readEmbedded (slots + 1) first text with
      | some taken => rfl
      | none =>
          cases readGroup first text with
          | none => rfl
          | some taken => simp only [Option.map_some, Option.map_none, ih]

theorem read_ipv6_caseless : Caseless readIpv6Addr := by
  intro text
  simp only [readIpv6Addr, read_groups_lower]
  split
  · rfl
  · split
    · rfl
    · rw [read_char_lower ':' (by decide)]
      cases readChar ':' (readGroups 8 true text).2.2 with
      | none => rfl
      | some rest =>
          simp only [Option.map_some, Option.bind_some, read_char_lower ':' (by decide)]
          cases readChar ':' rest with
          | none => rfl
          | some rest => simp only [Option.map_some, read_groups_lower]

theorem parse_with_lower {α : Type} {read : Reader α} (caseless : Caseless read) (text : String) :
    parseWith read (Text.toAsciiLowercase text) = parseWith read text := by
  simp only [parseWith, Text.toAsciiLowercase, String.toList_ofList, caseless text.toList]
  cases read text.toList with
  | none => rfl
  | some taken =>
      obtain ⟨value, rest⟩ := taken
      cases rest with
      | nil => rfl
      | cons c rest => rfl

theorem parse_ipv4_lower (text : String) :
    parseIpv4 (Text.toAsciiLowercase text) = parseIpv4 text :=
  parse_with_lower read_ipv4_caseless text

theorem parse_ipv6_lower (text : String) :
    parseIpv6 (Text.toAsciiLowercase text) = parseIpv6 text :=
  parse_with_lower read_ipv6_caseless text

end LetterCase

section Families

/-- What a reader takes from the front of a text is of one kind of characters. -/
def Takes {α : Type} (kind : Char → Prop) (read : Reader α) : Prop :=
  ∀ text value rest, read text = some (value, rest) →
    ∃ taken, text = taken ++ rest ∧ ∀ c ∈ taken, kind c

variable {kind : Char → Prop}

theorem and_then_takes {α β : Type} {read : Reader α} {next : α → Reader β}
    (first : Takes kind read) (second : ∀ value, Takes kind (next value)) :
    Takes kind (andThen read next) := by
  intro text value rest done
  obtain ⟨⟨middle, left⟩, here, later⟩ := Option.bind_eq_some_iff.mp done
  obtain ⟨front, rfl, fronts⟩ := first text middle left here
  obtain ⟨back, rfl, backs⟩ := second middle left value rest later
  refine ⟨front ++ back, by rw [List.append_assoc], ?_⟩
  intro c member
  rcases List.mem_append.mp member with early | late
  · exact fronts c early
  · exact backs c late

theorem read_char_taken {target : Char} {text rest : List Char}
    (done : readChar target text = some rest) : text = target :: rest := by
  cases text with
  | nil => cases done
  | cons c left =>
      simp only [readChar] at done
      split at done
      · rename_i same
        rw [same, Option.some.inj done]
      · cases done

theorem read_digits_takes (radix : Nat) (digits : ∀ c, digitValue radix c ≠ none → kind c)
    (text : List Char) :
    ∃ taken, text = taken ++ (readDigits radix text).2 ∧ ∀ c ∈ taken, kind c := by
  induction text with
  | nil => exact ⟨[], rfl, by simp⟩
  | cons c rest ih =>
      obtain ⟨taken, split, all⟩ := ih
      cases digit : digitValue radix c with
      | none => exact ⟨[], by simp [readDigits, digit], by simp⟩
      | some value =>
          refine ⟨c :: taken, ?_, ?_⟩
          · simp only [readDigits, digit, List.cons_append]
            rw [← split]
          · intro other member
            rcases List.mem_cons.mp member with rfl | later
            · exact digits other (by simp [digit])
            · exact all other later

theorem read_number_takes (radix maxDigits : Nat) (allowZeroPrefix : Bool) (limit : Nat)
    (digits : ∀ c, digitValue radix c ≠ none → kind c) :
    Takes kind (readNumber radix maxDigits allowZeroPrefix limit) := by
  intro text value rest done
  simp only [readNumber] at done
  split at done
  · cases done
  · split at done
    · cases done
    · split at done
      · obtain ⟨-, rfl⟩ := Prod.mk.inj (Option.some.inj done)
        exact read_digits_takes radix digits text
      · cases done

theorem read_separated_takes {α : Type} (separator : Char) (first : Bool) {inner : Reader α}
    (mark : kind separator) (takes : Takes kind inner) :
    Takes kind (readSeparated separator first inner) := by
  intro text value rest done
  simp only [readSeparated] at done
  split at done
  · exact takes text value rest done
  · obtain ⟨left, here, later⟩ := Option.bind_eq_some_iff.mp done
    obtain ⟨taken, rfl, all⟩ := takes left value rest later
    refine ⟨separator :: taken, read_char_taken here, ?_⟩
    intro c member
    rcases List.mem_cons.mp member with rfl | inside
    · exact mark
    · exact all c inside

theorem read_ipv4_takes (mark : kind '.') (digits : ∀ c, digitValue 10 c ≠ none → kind c) :
    Takes kind readIpv4Addr := by
  have octet : ∀ first, Takes kind (readOctet first) := fun first =>
    read_separated_takes '.' first mark (read_number_takes 10 3 false 256 digits)
  apply and_then_takes (octet true)
  intro a
  apply and_then_takes (octet false)
  intro b
  apply and_then_takes (octet false)
  intro c
  apply and_then_takes (octet false)
  intro d text value rest done
  obtain ⟨-, rfl⟩ := Prod.mk.inj (Option.some.inj done)
  exact ⟨[], rfl, by simp⟩

theorem ipv4_no_colon (text : String) (addr : Ipv4Addr) (parsed : parseIpv4 text = some addr) :
    ':' ∉ text.toList := by
  have takes : Takes (fun c => c ≠ ':') readIpv4Addr := by
    apply read_ipv4_takes (by decide)
    rintro c digit rfl
    exact digit (by decide)
  simp only [parseIpv4, parseWith] at parsed
  split at parsed
  · rename_i value read
    obtain ⟨taken, whole, all⟩ := takes _ _ _ read
    rw [whole, List.append_nil]
    intro member
    exact all ':' member rfl
  · cases parsed

theorem separated_mem {α : Type} {separator : Char} {inner : Reader α} {text : List Char}
    {taken : α × List Char} (done : readSeparated separator false inner text = some taken) :
    separator ∈ text := by
  obtain ⟨left, here, _⟩ := Option.bind_eq_some_iff.mp done
  rw [read_char_taken here]
  exact List.mem_cons_self

theorem embedded_separated {slots : Nat} {first : Bool} {text : List Char}
    {taken : Ipv4Addr × List Char} (done : readEmbedded slots first text = some taken) :
    readSeparated ':' first readIpv4Addr text = some taken := by
  simp only [readEmbedded] at done
  split at done
  · cases done
  · exact done

/-- The groups after a first one begin with their separator. -/
theorem later_groups (slots : Nat) (text : List Char) :
    (readGroups slots false text).1 = [] ∨ ':' ∈ text := by
  cases slots with
  | zero => exact .inl rfl
  | succ slots =>
      rw [readGroups]
      cases embedded : readEmbedded (slots + 1) false text with
      | some taken => exact .inr (separated_mem (embedded_separated embedded))
      | none =>
          cases group : readGroup false text with
          | some taken => exact .inr (separated_mem group)
          | none => exact .inl rfl

theorem read_group_suffix {first : Bool} {text rest : List Char} {group : Nat}
    (done : readGroup first text = some (group, rest)) : rest <:+ text := by
  have takes : Takes (fun _ => True) (readGroup first) :=
    read_separated_takes ':' first trivial (read_number_takes 16 4 true 65536 (by simp))
  obtain ⟨taken, rfl, _⟩ := takes text group rest done
  exact List.suffix_append taken rest

theorem read_embedded_suffix {slots : Nat} {first : Bool} {text rest : List Char} {addr : Ipv4Addr}
    (done : readEmbedded slots first text = some (addr, rest)) : rest <:+ text := by
  have takes : Takes (fun _ => True) (readSeparated ':' first readIpv4Addr) :=
    read_separated_takes ':' first trivial (read_ipv4_takes trivial (by simp))
  obtain ⟨taken, rfl, _⟩ := takes text addr rest (embedded_separated done)
  exact List.suffix_append taken rest

theorem read_groups_suffix (slots : Nat) (first : Bool) (text : List Char) :
    (readGroups slots first text).2.2 <:+ text := by
  induction slots generalizing first text with
  | zero => exact List.suffix_refl text
  | succ slots ih =>
      rw [readGroups]
      cases embedded : readEmbedded (slots + 1) first text with
      | some taken => exact read_embedded_suffix embedded
      | none =>
          cases group : readGroup first text with
          | some taken => exact (ih false taken.2).trans (read_group_suffix group)
          | none => exact List.suffix_refl text

theorem eight_groups_colon (text : List Char)
    (eight : (readGroups 8 true text).1.length = 8) : ':' ∈ text := by
  rw [readGroups] at eight
  cases embedded : readEmbedded (7 + 1) true text with
  | some taken => simp [embedded] at eight
  | none =>
      cases group : readGroup true text with
      | none => simp [embedded, group] at eight
      | some taken =>
          rcases later_groups 7 taken.2 with none | colon
          · simp [embedded, group, none] at eight
          · exact (read_group_suffix group).mem colon

theorem ipv6_colon (text : String) (addr : Ipv6Addr) (parsed : parseIpv6 text = some addr) :
    ':' ∈ text.toList := by
  simp only [parseIpv6, parseWith] at parsed
  split at parsed
  · rename_i value read
    simp only [readIpv6Addr] at read
    split at read
    · rename_i eight
      exact eight_groups_colon text.toList eight
    · split at read
      · cases read
      · obtain ⟨rest, colons, _⟩ := Option.map_eq_some_iff.mp read
        obtain ⟨left, here, _⟩ := Option.bind_eq_some_iff.mp colons
        apply (read_groups_suffix 8 true text.toList).mem
        rw [read_char_taken here]
        exact List.mem_cons_self
  · cases parsed

/-- No text is an address of both families. -/
theorem ipv4_not_ipv6 (text : String) (addr : Ipv4Addr) (parsed : parseIpv4 text = some addr) :
    parseIpv6 text = none := by
  cases other : parseIpv6 text with
  | none => rfl
  | some address => exact absurd (ipv6_colon text address other) (ipv4_no_colon text addr parsed)

end Families

end Ccflare.IpLiteral
