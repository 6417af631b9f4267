import Mathlib

/-!
JSON documents as a `Value` with the ordered map of the default build: fields
are sorted by key and hold one value each. Numbers keep the three classes the
parser makes: an unsigned, a negative signed or a floating-point value. Parsing
and printing stay abstract; a codec is what the programs that use one rely on.
-/

namespace Ccflare.JsonValue

inductive Number where
  | posInt (value : Nat)
  | negInt (value : Int)
  | float (value : Rat)
  deriving DecidableEq

inductive Json where
  | null
  | bool (value : Bool)
  | number (value : Number)
  | string (value : String)
  | array (items : List Json)
  | object (fields : List (String × Json))

namespace Json

mutual

def decEq : (a b : Json) → Decidable (a = b)
  | .null, .null => isTrue rfl
  | .bool a, .bool b => decidable_of_iff (a = b) (by simp)
  | .number a, .number b => decidable_of_iff (a = b) (by simp)
  | .string a, .string b => decidable_of_iff (a = b) (by simp)
  | .array a, .array b =>
      match decEqItems a b with
      | isTrue same => isTrue (congrArg _ same)
      | isFalse differ => isFalse fun same => differ (Json.array.inj same)
  | .object a, .object b =>
      match decEqFields a b with
      | isTrue same => isTrue (congrArg _ same)
      | isFalse differ => isFalse fun same => differ (Json.object.inj same)
  | .null, .bool _ | .null, .number _ | .null, .string _ | .null, .array _ | .null, .object _
  | .bool _, .null | .bool _, .number _ | .bool _, .string _ | .bool _, .array _
  | .bool _, .object _ | .number _, .null | .number _, .bool _ | .number _, .string _
  | .number _, .array _ | .number _, .object _ | .string _, .null | .string _, .bool _
  | .string _, .number _ | .string _, .array _ | .string _, .object _ | .array _, .null
  | .array _, .bool _ | .array _, .number _ | .array _, .string _ | .array _, .object _
  | .object _, .null | .object _, .bool _ | .object _, .number _ | .object _, .string _
  | .object _, .array _ => isFalse fun same => nomatch same

def decEqItems : (a b : List Json) → Decidable (a = b)
  | [], [] => isTrue rfl
  | [], _ :: _ | _ :: _, [] => isFalse fun same => nomatch same
  | a :: as, b :: bs =>
      match decEq a b, decEqItems as bs with
      | isTrue head, isTrue tail => isTrue (by rw [head, tail])
      | isFalse differ, _ => isFalse fun same => differ (List.cons.inj same).1
      | _, isFalse differ => isFalse fun same => differ (List.cons.inj same).2

def decEqFields : (a b : List (String × Json)) → Decidable (a = b)
  | [], [] => isTrue rfl
  | [], _ :: _ | _ :: _, [] => isFalse fun same => nomatch same
  | (key, a) :: as, (other, b) :: bs =>
      match decEq a b, decEqFields as bs with
      | isTrue head, isTrue tail => decidable_of_iff (key = other) (by simp [head, tail])
      | isFalse differ, _ => isFalse fun same =>
          differ (Prod.mk.inj (List.cons.inj same).1).2
      | _, isFalse differ => isFalse fun same => differ (List.cons.inj same).2

end

instance : DecidableEq Json := decEq

def field (key : String) : List (String × Json) → Option Json
  | [] => none
  | (other, value) :: rest => if key = other then some value else field key rest

def insert (key : String) (value : Json) : List (String × Json) → List (String × Json)
  | [] => [(key, value)]
  | (other, held) :: rest =>
      if key < other then (key, value) :: (other, held) :: rest
      else if key = other then (key, value) :: rest
      else (other, held) :: insert key value rest

def remove (key : String) (fields : List (String × Json)) : List (String × Json) :=
  fields.filter fun entry => entry.1 ≠ key

/-- `json!` with a literal object: the fields go into a map one by one. -/
def make (fields : List (String × Json)) : Json :=
  .object (fields.foldl (fun held entry => insert entry.1 entry.2 held) [])

def get (key : String) : Json → Option Json
  | .object fields => field key fields
  | .null | .bool _ | .number _ | .string _ | .array _ => none

def asStr : Json → Option String
  | .string value => some value
  | .null | .bool _ | .number _ | .array _ | .object _ => none

def asBool : Json → Option Bool
  | .bool value => some value
  | .null | .number _ | .string _ | .array _ | .object _ => none

def asArray : Json → Option (List Json)
  | .array items => some items
  | .null | .bool _ | .number _ | .string _ | .object _ => none

def asObject : Json → Option (List (String × Json))
  | .object fields => some fields
  | .null | .bool _ | .number _ | .string _ | .array _ => none

def asI64 : Json → Option Int
  | .number (.posInt value) => if value ≤ 9223372036854775807 then some value else none
  | .number (.negInt value) => some value
  | .number (.float _) | .null | .bool _ | .string _ | .array _ | .object _ => none

def asU64 : Json → Option Nat
  | .number (.posInt value) => some value
  | .number (.negInt _) | .number (.float _) | .null | .bool _ | .string _ | .array _
  | .object _ => none

def getStr (key : String) (value : Json) : Option String := (value.get key).bind asStr

def ofInt (value : Int) : Json :=
  .number (if value < 0 then .negInt value else .posInt value.toNat)

theorem field_insert (key other : String) (value : Json) (fields : List (String × Json)) :
    field key (insert other value fields) =
      if key = other then some value else field key fields := by
  induction fields with
  | nil => simp [insert, field]
  | cons entry rest ih =>
      obtain ⟨held, inner⟩ := entry
      by_cases before : other < held
      · simp [insert, before, field]
      · by_cases same : other = held
        · subst same
          by_cases here : key = other <;> simp [insert, field, here]
        · by_cases here : key = held
          · subst here
            simp [insert, before, same, field, Ne.symm same]
          · simp [insert, before, same, field, here, ih]

theorem field_remove (key other : String) (fields : List (String × Json)) :
    field key (remove other fields) = if key = other then none else field key fields := by
  induction fields with
  | nil => simp [remove, field]
  | cons entry rest ih =>
      by_cases removed : entry.1 = other
      · by_cases here : key = other <;> simp_all [remove, field]
      · by_cases here : key = entry.1
        · simp [remove, field, removed, here]
        · simpa [remove, field, removed, here] using ih

theorem field_append (key : String) (left right : List (String × Json)) :
    field key (left ++ right) = (field key left).or (field key right) := by
  induction left with
  | nil => rfl
  | cons entry rest ih =>
      by_cases here : key = entry.1 <;> simp [field, here, ih]

theorem field_mem (key : String) (value : Json) (fields : List (String × Json))
    (found : Json.field key fields = some value) : (key, value) ∈ fields := by
  induction fields with
  | nil => cases found
  | cons entry rest ih =>
      obtain ⟨other, held⟩ := entry
      rw [Json.field] at found
      split at found
      · next same => simp_all
      · exact List.mem_cons_of_mem _ (ih found)

/-- A literal object holds the last value given for a key. -/
theorem get_make (key : String) (fields : List (String × Json)) :
    (make fields).get key = field key fields.reverse := by
  induction fields using List.reverseRecOn with
  | nil => rfl
  | append_singleton fields entry ih =>
      rw [List.reverse_append, List.reverse_singleton, List.singleton_append]
      simp only [make, get, List.foldl_append, List.foldl_cons, List.foldl_nil, field_insert,
        field] at ih ⊢
      rw [ih]

theorem as_i64_of_int (value : Int) (low : -9223372036854775808 ≤ value)
    (high : value ≤ 9223372036854775807) : (ofInt value).asI64 = some value := by
  unfold ofInt
  by_cases negative : value < 0
  · simp [negative, asI64]
  · have positive : (value.toNat : Int) = value := Int.toNat_of_nonneg (by omega)
    have bound : value.toNat ≤ 9223372036854775807 := by omega
    simp [negative, asI64, bound, positive]

theorem of_int_injective : Function.Injective ofInt := by
  intro left right same
  unfold ofInt at same
  split at same <;> split at same
  · exact Number.negInt.inj (Json.number.inj same)
  · cases same
  · cases same
  · have values := Number.posInt.inj (Json.number.inj same)
    omega

end Json

/-- Parsing and printing of documents: `from_slice` and `to_string`. A text is
parsed as its UTF-8 bytes, and printed documents are written as theirs. -/
structure Codec where
  fromSlice : ByteArray → Option Json
  toString : Json → String

def Codec.fromStr (codec : Codec) (text : String) : Option Json := codec.fromSlice text.toUTF8

def Codec.toVec (codec : Codec) (value : Json) : ByteArray := (codec.toString value).toUTF8

/-- What printed documents promise: one line, never the end mark of a stream, and
a document that is parsed again has the keys it was printed with. -/
structure Codec.Lawful (codec : Codec) : Prop where
  oneLine : ∀ value, '\n' ∉ (codec.toString value).toList ∧ '\r' ∉ (codec.toString value).toList
  notDone : ∀ value, codec.toString value ≠ "[DONE]"
  keys : ∀ value again, codec.fromStr (codec.toString value) = some again →
    ∀ key, (again.get key).isSome = (value.get key).isSome

/-- A codec that knows the documents of a table, each by its text. -/
def Codec.ofTable (table : List (String × Json)) : Codec where
  fromSlice bytes := (table.find? fun entry => entry.1.toUTF8 = bytes).map Prod.snd
  toString value := ((table.find? fun entry => entry.2 = value).map Prod.fst).getD ""

/-- The texts of a table that tell its documents apart and fit on a line. -/
def WellPrinted (table : List (String × Json)) : Prop :=
  (table.map Prod.fst).Nodup ∧ ∀ entry ∈ table, entry.1 ≠ "" ∧ entry.1 ≠ "[DONE]" ∧
    '\n' ∉ entry.1.toList ∧ '\r' ∉ entry.1.toList

instance (table : List (String × Json)) : Decidable (WellPrinted table) :=
  inferInstanceAs (Decidable (_ ∧ _))

theorem Codec.printed_cases (table : List (String × Json)) (value : Json) :
    (∃ entry ∈ table, entry.2 = value ∧ (ofTable table).toString value = entry.1) ∨
      (ofTable table).toString value = "" := by
  cases found : table.find? fun entry => entry.2 = value with
  | none => exact Or.inr (by simp [ofTable, found])
  | some entry =>
      refine Or.inl ⟨entry, List.mem_of_find?_eq_some found, ?_, by simp [ofTable, found]⟩
      simpa using List.find?_some found

theorem Codec.parsed_entry (table : List (String × Json)) (text : String) (value : Json)
    (parsed : (ofTable table).fromStr text = some value) :
    ∃ entry ∈ table, entry.1 = text ∧ entry.2 = value := by
  simp only [fromStr, ofTable, Option.map_eq_some_iff] at parsed
  obtain ⟨entry, found, same⟩ := parsed
  have bytes := List.find?_some found
  rw [decide_eq_true_eq] at bytes
  exact ⟨entry, List.mem_of_find?_eq_some found, String.toByteArray_inj.mp bytes, same⟩

/-- The documents of a table are read back from their texts. -/
theorem Codec.of_table_reads (table : List (String × Json)) (distinct : (table.map Prod.fst).Nodup)
    (text : String) (value : Json) (listed : (text, value) ∈ table) :
    (ofTable table).fromStr text = some value := by
  cases parsed : (ofTable table).fromStr text with
  | none =>
      simp only [fromStr, ofTable, Option.map_eq_none_iff] at parsed
      have missed := List.find?_eq_none.mp parsed (text, value) listed
      simp at missed
  | some other =>
      obtain ⟨entry, member, sameText, held⟩ := parsed_entry table text other parsed
      obtain rfl := List.inj_on_of_nodup_map distinct member listed sameText
      exact congrArg some held.symm

/-- A document that is printed by a table and read back is the same document. -/
theorem Codec.of_table_reread (table : List (String × Json)) (distinct : (table.map Prod.fst).Nodup)
    (printed : ∀ entry ∈ table, entry.1 ≠ "") (value again : Json)
    (parsed : (ofTable table).fromStr ((ofTable table).toString value) = some again) :
    again = value := by
  obtain ⟨other, listed, sameText, held⟩ := parsed_entry table _ again parsed
  rcases printed_cases table value with ⟨entry, member, same, text⟩ | blank
  · rw [text] at sameText
    have one := List.inj_on_of_nodup_map distinct listed member sameText
    rw [← held, ← same, one]
  · exact absurd (sameText.trans blank) (printed other listed)

theorem Codec.of_table_lawful (table : List (String × Json)) (printed : WellPrinted table) :
    (ofTable table).Lawful := by
  refine ⟨fun value => ?_, fun value => ?_, fun value again parsed key => ?_⟩
  · rcases printed_cases table value with ⟨entry, member, -, text⟩ | blank
    · rw [text]
      exact (printed.2 entry member).2.2
    · simp [blank]
  · rcases printed_cases table value with ⟨entry, member, -, text⟩ | blank
    · rw [text]
      exact (printed.2 entry member).2.1
    · rw [blank]
      decide
  · rw [of_table_reread table printed.1 (fun entry member => (printed.2 entry member).1) value
      again parsed]

example : (Json.make [("type", .string "ping"), ("index", .ofInt 3)]).get "index" =
    some (.number (.posInt 3)) := by
  decide

end Ccflare.JsonValue
