import Ccflare.JsonText

/-!
The text of a value on one line, and that it is read back. Strings are written with the short
escapes and control characters with their code; how a number is written is left open. What is
read is the value with each number as it comes back.
-/

namespace Ccflare.JsonPrinting

open JsonValue JsonText Transducer

def hexDigit (digit : Nat) : Char := "0123456789abcdef".toList.getD digit '0'

def escapeChar (c : Char) : List Char :=
  match c with
  | '"' => ['\\', '"']
  | '\\' => ['\\', '\\']
  | '\x08' => ['\\', 'b']
  | '\x0c' => ['\\', 'f']
  | '\n' => ['\\', 'n']
  | '\r' => ['\\', 'r']
  | '\t' => ['\\', 't']
  | c =>
      if c.toNat < 32 then ['\\', 'u', '0', '0', hexDigit (c.toNat / 16), hexDigit (c.toNat % 16)]
      else [c]

def quoted (text : List Char) : List Char := '"' :: (text.flatMap escapeChar ++ ['"'])

section Printer
variable (digits : Number → List Char)

mutual

def print : Json → List Char
  | .null => ['n', 'u', 'l', 'l']
  | .bool true => ['t', 'r', 'u', 'e']
  | .bool false => ['f', 'a', 'l', 's', 'e']
  | .number number => digits number
  | .string text => quoted text.toList
  | .array items => '[' :: printItems items
  | .object fields => '{' :: printFields fields

def printItems : List Json → List Char
  | [] => [']']
  | item :: rest => print item ++ printMoreItems rest

def printMoreItems : List Json → List Char
  | [] => [']']
  | item :: rest => ',' :: (print item ++ printMoreItems rest)

def printFields : List (String × Json) → List Char
  | [] => ['}']
  | (key, value) :: rest => quoted key.toList ++ ':' :: (print value ++ printMoreFields rest)

def printMoreFields : List (String × Json) → List Char
  | [] => ['}']
  | (key, value) :: rest =>
      ',' :: (quoted key.toList ++ ':' :: (print value ++ printMoreFields rest))

end

end Printer

mutual

/-- The tokens of a value. -/
def tokens : Json → List Token
  | .null => [.scalar .null]
  | .bool value => [.scalar (.bool value)]
  | .number number => [.scalar (.number number)]
  | .string text => [.text text.toList]
  | .array items => .openArray :: itemTokens items
  | .object fields => .openObject :: fieldTokens fields

def itemTokens : List Json → List Token
  | [] => [.closeArray]
  | item :: rest => tokens item ++ moreItemTokens rest

def moreItemTokens : List Json → List Token
  | [] => [.closeArray]
  | item :: rest => .comma :: (tokens item ++ moreItemTokens rest)

def fieldTokens : List (String × Json) → List Token
  | [] => [.closeObject]
  | (key, value) :: rest => .text key.toList :: .colon :: (tokens value ++ moreFieldTokens rest)

def moreFieldTokens : List (String × Json) → List Token
  | [] => [.closeObject]
  | (key, value) :: rest =>
      .comma :: .text key.toList :: .colon :: (tokens value ++ moreFieldTokens rest)

end

section Renumbering
variable (change : Number → Number)

mutual

/-- The value with each of its numbers changed. -/
def renumber : Json → Json
  | .null => .null
  | .bool value => .bool value
  | .number number => .number (change number)
  | .string text => .string text
  | .array items => .array (renumberItems items)
  | .object fields => .object (renumberFields fields)

def renumberItems : List Json → List Json
  | [] => []
  | item :: rest => renumber item :: renumberItems rest

def renumberFields : List (String × Json) → List (String × Json)
  | [] => []
  | (key, value) :: rest => (key, renumber value) :: renumberFields rest

end

end Renumbering

mutual

def numbersOf : Json → List Number
  | .number number => [number]
  | .array items => numbersOfItems items
  | .object fields => numbersOfFields fields
  | .null | .bool _ | .string _ => []

def numbersOfItems : List Json → List Number
  | [] => []
  | item :: rest => numbersOf item ++ numbersOfItems rest

def numbersOfFields : List (String × Json) → List Number
  | [] => []
  | (_, value) :: rest => numbersOf value ++ numbersOfFields rest

end

section Fixed
variable (change : Number → Number)

mutual

/-- A value stays as it is exactly if each of its numbers does. -/
theorem renumber_fixed_iff : (value : Json) →
    (renumber change value = value ↔ ∀ number ∈ numbersOf value, change number = number)
  | .null | .bool _ | .string _ => by simp [renumber, numbersOf]
  | .number number => by simp [renumber, numbersOf]
  | .array items => by simpa [renumber, numbersOf] using items_fixed_iff items
  | .object fields => by simpa [renumber, numbersOf] using fields_fixed_iff fields

theorem items_fixed_iff : (items : List Json) → (renumberItems change items = items ↔
    ∀ number ∈ numbersOfItems items, change number = number)
  | [] => by simp [renumberItems, numbersOfItems]
  | item :: rest => by
      simp only [renumberItems, numbersOfItems, List.cons.injEq, List.forall_mem_append,
        renumber_fixed_iff item, items_fixed_iff rest]

theorem fields_fixed_iff : (fields : List (String × Json)) →
    (renumberFields change fields = fields ↔
      ∀ number ∈ numbersOfFields fields, change number = number)
  | [] => by simp [renumberFields, numbersOfFields]
  | (key, value) :: rest => by
      simp only [renumberFields, numbersOfFields, List.cons.injEq, Prod.mk.injEq, true_and,
        List.forall_mem_append, renumber_fixed_iff value, fields_fixed_iff rest]

end

theorem renumber_fields_map (fields : List (String × Json)) :
    renumberFields change fields = fields.map fun entry => (entry.1, renumber change entry.2) := by
  induction fields with
  | nil => rfl
  | cons entry rest ih =>
      obtain ⟨key, value⟩ := entry
      rw [renumberFields, ih, List.map_cons]

end Fixed

section Scanner
variable (numbers : NumberReader)

theorem control_escaped (content : List Char) (code : Nat) (control : code < 32) :
    run (lexStep numbers) (.inText content) (escapeChar (Char.ofNat code)) =
      ([], .inText (content ++ [Char.ofNat code])) := by
  interval_cases code <;> rfl

theorem escape_run (content : List Char) (c : Char) :
    run (lexStep numbers) (.inText content) (escapeChar c) = ([], .inText (content ++ [c])) := by
  by_cases control : c.toNat < 32
  -- The control characters are finitely many, and each is read back by computation.
  · have escaped := control_escaped numbers content c.toNat control
    rwa [Char.ofNat_toNat] at escaped
  · unfold escapeChar
    split
    · rfl
    · rfl
    · rfl
    · rfl
    · rfl
    · rfl
    · rfl
    · next quote escape _ _ _ _ _ =>
        rw [if_neg control, run_singleton]
        apply plain_step
        simp only [isPlainChar, Bool.and_eq_true, bne_iff_ne, decide_eq_true_eq]
        exact ⟨⟨quote, escape⟩, Nat.not_lt.mp control⟩

theorem escaped_run (content text : List Char) :
    run (lexStep numbers) (.inText content) (text.flatMap escapeChar) =
      ([], .inText (content ++ text)) := by
  induction text generalizing content with
  | nil => simp
  | cons c rest ih =>
      rw [List.flatMap_cons, run_append, escape_run, ih]
      simp

theorem quoted_run (text : List Char) :
    run (lexStep numbers) .outside (quoted text) = ([.text text], .outside) := by
  have opens : lexStep numbers .outside '"' = ([], .inText []) := rfl
  have closes : lexStep numbers (.inText text) '"' = ([.text text], .outside) := rfl
  rw [quoted, run_cons, opens, run_append, escaped_run, List.nil_append, run_singleton]
  simp [closes]

/-- Nothing follows, or a character that ends a scalar. -/
def Ends (rest : List Char) : Prop := ∀ c, rest.head? = some c → endsScalar c = true

theorem lex_mark (c : Char) (token : Token) (rest : List Char) (mark : punctuation c = some token)
    (visible : isSpace c = false) :
    lexFrom numbers .outside (c :: rest) = (lexFrom numbers .outside rest).map (token :: ·) := by
  have stepped : run (lexStep numbers) .outside [c] = ([token], .outside) := by
    rw [run_singleton]
    simp [lexStep, startToken, visible, mark]
  have split := lex_append numbers .outside [c] rest
  rw [stepped] at split
  exact split

theorem lex_quoted (text rest : List Char) :
    lexFrom numbers .outside (quoted text ++ rest) =
      (lexFrom numbers .outside rest).map (.text text :: ·) := by
  rw [lex_append, quoted_run]
  rfl

/-- A scalar that is complete is read when it ends. -/
theorem lex_scalar (word rest : List Char) (value : Json)
    (read : scalarValue numbers word = some value) (ends : Ends rest) :
    lexFrom numbers (.scalar word) rest =
      (lexFrom numbers .outside rest).map (.scalar value :: ·) := by
  cases rest with
  | nil => simp [lexFrom, finish, read]
  | cons c rest =>
      have stops := ends c rfl
      simp only [lexFrom, run_cons, lexStep, if_pos stops, read, Option.map_map]
      congr 1

theorem scalar_run (first : Char) (rest : List Char)
    (plain : ∀ c ∈ first :: rest, endsScalar c = false) :
    run (lexStep numbers) .outside (first :: rest) = ([], .scalar (first :: rest)) := by
  have begun : lexStep numbers .outside first = ([], .scalar [first]) := by
    have here := plain first List.mem_cons_self
    simp only [endsScalar, Bool.or_eq_false_iff, beq_eq_false_iff_ne, Option.isSome_eq_false_iff,
      Option.isNone_iff_eq_none] at here
    simp [lexStep, startToken, here]
  have goes : ∀ (word tail : List Char), (∀ c ∈ tail, endsScalar c = false) →
      run (lexStep numbers) (.scalar word) tail = ([], .scalar (word ++ tail)) := by
    intro word tail plain
    induction tail generalizing word with
    | nil => simp
    | cons c tail ih =>
        have here := plain c List.mem_cons_self
        rw [run_cons, lexStep, if_neg (by simp [here]),
          ih _ fun other member => plain other (List.mem_cons_of_mem _ member)]
        simp
  rw [run_cons, begun, goes [first] rest fun c member => plain c (List.mem_cons_of_mem _ member)]
  rfl

theorem lex_word (word rest : List Char) (value : Json) (filled : word ≠ [])
    (plain : ∀ c ∈ word, endsScalar c = false) (read : scalarValue numbers word = some value)
    (ends : Ends rest) :
    lexFrom numbers .outside (word ++ rest) =
      (lexFrom numbers .outside rest).map (.scalar value :: ·) := by
  obtain ⟨first, tail, rfl⟩ := List.exists_cons_of_ne_nil filled
  rw [lex_append, scalar_run numbers first tail plain, lex_scalar numbers _ rest value read ends,
    Option.map_map]
  rfl

end Scanner

/-- How numbers are written: each is read, as itself or as another one. -/
structure Readable (numbers : NumberReader) (digits : Number → List Char)
    (change : Number → Number) : Prop where
  filled : ∀ number, digits number ≠ []
  read : ∀ number, numbers.read (digits number) = some (change number)

section Printed
variable (numbers : NumberReader) (digits : Number → List Char) (change : Number → Number)

theorem number_char_inside (c : Char) (shown : isNumberChar c = true) :
    endsScalar c = false ∧ c ≠ 't' ∧ c ≠ 'f' ∧ c ≠ 'n' := by
  simp only [isNumberChar, Bool.or_eq_true, beq_iff_eq] at shown
  have other (mark : Char) (away : mark.isDigit = false) (apart : mark ≠ '-' ∧ mark ≠ '+' ∧
      mark ≠ '.' ∧ mark ≠ 'e' ∧ mark ≠ 'E') : c ≠ mark := by
    rintro rfl
    simp [away, apart] at shown
  refine ⟨?_, other 't' (by decide) (by decide), other 'f' (by decide) (by decide),
    other 'n' (by decide) (by decide)⟩
  have space : isSpace c = false := by
    simp [isSpace, other ' ' (by decide) (by decide), other '\t' (by decide) (by decide),
      other '\n' (by decide) (by decide), other '\r' (by decide) (by decide)]
  have mark : punctuation c = none := by
    unfold punctuation
    split
    · exact absurd rfl (other '{' (by decide) (by decide))
    · exact absurd rfl (other '}' (by decide) (by decide))
    · exact absurd rfl (other '[' (by decide) (by decide))
    · exact absurd rfl (other ']' (by decide) (by decide))
    · exact absurd rfl (other ':' (by decide) (by decide))
    · exact absurd rfl (other ',' (by decide) (by decide))
    · rfl
  simp [endsScalar, space, mark, other '"' (by decide) (by decide)]

theorem lex_number (readable : Readable numbers digits change) (number : Number)
    (rest : List Char) (ends : Ends rest) :
    lexFrom numbers .outside (digits number ++ rest) =
      (lexFrom numbers .outside rest).map (.scalar (.number (change number)) :: ·) := by
  have inside : ∀ c ∈ digits number, endsScalar c = false ∧ c ≠ 't' ∧ c ≠ 'f' ∧ c ≠ 'n' :=
    fun c member => number_char_inside c (numbers.written _ _ (readable.read number) c member)
  have word (first : Char) (tail : List Char) (letter : first = 't' ∨ first = 'f' ∨ first = 'n') :
      digits number ≠ first :: tail := by
    intro same
    have apart := (inside first (by simp [same])).2
    rcases letter with rfl | rfl | rfl
    · exact apart.1 rfl
    · exact apart.2.1 rfl
    · exact apart.2.2 rfl
  apply lex_word numbers _ rest _ (readable.filled number) fun c member => (inside c member).1
  · rw [scalarValue, if_neg (word 't' _ (by simp)), if_neg (word 'f' _ (by simp)),
      if_neg (word 'n' _ (by simp)), readable.read, Option.map_some]
  · exact ends

theorem ends_more_items (items : List Json) (rest : List Char) :
    Ends (printMoreItems digits items ++ rest) := by
  cases items <;> rintro c ⟨⟩ <;> rfl

theorem ends_more_fields (fields : List (String × Json)) (rest : List Char) :
    Ends (printMoreFields digits fields ++ rest) := by
  cases fields with
  | nil =>
      rintro c ⟨⟩
      rfl
  | cons entry _ =>
      obtain ⟨key, value⟩ := entry
      rintro c ⟨⟩
      rfl

variable {numbers digits change}

-- By recursion on the value. What follows matters to a scalar only, which has no mark of its end.
mutual

theorem lex_printed (readable : Readable numbers digits change) :
    (value : Json) → (rest : List Char) → Ends rest →
    lexFrom numbers .outside (print digits value ++ rest) =
      (lexFrom numbers .outside rest).map (tokens (renumber change value) ++ ·)
  | .null, rest, ends => by
      rw [print, lex_word numbers _ rest .null (by simp)
        (List.all_iff_forall_prop.mp rfl) (by simp [scalarValue]) ends]
      rfl
  | .bool true, rest, ends => by
      rw [print, lex_word numbers _ rest (.bool true) (by simp)
        (List.all_iff_forall_prop.mp rfl) (by simp [scalarValue]) ends]
      rfl
  | .bool false, rest, ends => by
      rw [print, lex_word numbers _ rest (.bool false) (by simp)
        (List.all_iff_forall_prop.mp rfl) (by simp [scalarValue]) ends]
      rfl
  | .number number, rest, ends => by
      rw [print, lex_number numbers digits change readable number rest ends]
      rfl
  | .string text, rest, _ => by
      rw [print, lex_quoted]
      rfl
  | .array items, rest, _ => by
      rw [print, List.cons_append, lex_mark numbers '[' .openArray _ rfl rfl,
        lex_items readable items rest, Option.map_map]
      rfl
  | .object fields, rest, _ => by
      rw [print, List.cons_append, lex_mark numbers '{' .openObject _ rfl rfl,
        lex_fields readable fields rest, Option.map_map]
      rfl

theorem lex_items (readable : Readable numbers digits change) :
    (items : List Json) → (rest : List Char) →
    lexFrom numbers .outside (printItems digits items ++ rest) =
      (lexFrom numbers .outside rest).map (itemTokens (renumberItems change items) ++ ·)
  | [], rest => by
      rw [printItems, List.singleton_append, lex_mark numbers ']' .closeArray _ rfl rfl]
      rfl
  | item :: others, rest => by
      rw [printItems, List.append_assoc,
        lex_printed readable item _ (ends_more_items digits others rest),
        lex_more_items readable others rest, Option.map_map, renumberItems, itemTokens]
      congr 1
      funext last
      simp

theorem lex_more_items (readable : Readable numbers digits change) :
    (items : List Json) → (rest : List Char) →
    lexFrom numbers .outside (printMoreItems digits items ++ rest) =
      (lexFrom numbers .outside rest).map (moreItemTokens (renumberItems change items) ++ ·)
  | [], rest => by
      rw [printMoreItems, List.singleton_append, lex_mark numbers ']' .closeArray _ rfl rfl]
      rfl
  | item :: others, rest => by
      rw [printMoreItems, List.cons_append, lex_mark numbers ',' .comma _ rfl rfl,
        List.append_assoc, lex_printed readable item _ (ends_more_items digits others rest),
        lex_more_items readable others rest, Option.map_map, Option.map_map, renumberItems,
        moreItemTokens]
      congr 1
      funext last
      simp

theorem lex_fields (readable : Readable numbers digits change) :
    (fields : List (String × Json)) → (rest : List Char) →
    lexFrom numbers .outside (printFields digits fields ++ rest) =
      (lexFrom numbers .outside rest).map (fieldTokens (renumberFields change fields) ++ ·)
  | [], rest => by
      rw [printFields, List.singleton_append, lex_mark numbers '}' .closeObject _ rfl rfl]
      rfl
  | (key, value) :: others, rest => by
      rw [printFields, List.append_assoc, lex_quoted, List.cons_append,
        lex_mark numbers ':' .colon _ rfl rfl, List.append_assoc,
        lex_printed readable value _ (ends_more_fields digits others rest),
        lex_more_fields readable others rest,
        Option.map_map, Option.map_map, Option.map_map, renumberFields, fieldTokens]
      congr 1
      funext last
      simp

theorem lex_more_fields (readable : Readable numbers digits change) :
    (fields : List (String × Json)) → (rest : List Char) →
    lexFrom numbers .outside (printMoreFields digits fields ++ rest) =
      (lexFrom numbers .outside rest).map (moreFieldTokens (renumberFields change fields) ++ ·)
  | [], rest => by
      rw [printMoreFields, List.singleton_append, lex_mark numbers '}' .closeObject _ rfl rfl]
      rfl
  | (key, value) :: others, rest => by
      rw [printMoreFields, List.cons_append, lex_mark numbers ',' .comma _ rfl rfl,
        List.append_assoc, lex_quoted, List.cons_append, lex_mark numbers ':' .colon _ rfl rfl,
        List.append_assoc, lex_printed readable value _ (ends_more_fields digits others rest),
        lex_more_fields readable others rest, Option.map_map, Option.map_map, Option.map_map,
        Option.map_map, renumberFields, moreFieldTokens]
      congr 1
      funext last
      simp

end

end Printed

section Parser

/-- What begins a value closes no array. -/
theorem first_item (value : Json) (frames : List Frame) :
    follow parseStep (.arrayStart frames) (tokens value) =
      follow parseStep (.value (.item [] :: frames)) (tokens value) := by
  cases value <;> rfl

-- The frames below a value are carried along unread.
mutual

theorem parse_value : (value : Json) → (frames : List Frame) →
    follow parseStep (.value frames) (tokens value) = some (.after value frames)
  | .null, _ | .bool _, _ | .number _, _ => rfl
  | .string text, frames => by
      have begun : follow parseStep (.value frames) [.text text.toList] =
          some (.after (.string (String.ofList text.toList)) frames) := rfl
      rwa [String.ofList_toList] at begun
  | .array items, frames => parse_items items frames
  | .object fields, frames => parse_fields fields frames

theorem parse_items : (items : List Json) → (frames : List Frame) →
    follow parseStep (.arrayStart frames) (itemTokens items) = some (.after (.array items) frames)
  | [], _ => rfl
  | item :: rest, frames => by
      rw [itemTokens, follow_append, first_item, parse_value item, Option.bind_some]
      exact parse_more_items rest [] item frames

theorem parse_more_items : (items before : List Json) → (node : Json) → (frames : List Frame) →
    follow parseStep (.after node (.item before :: frames)) (moreItemTokens items) =
      some (.after (.array (before ++ node :: items)) frames)
  | [], _, _, _ => rfl
  | item :: rest, before, node, frames => by
      have begun : parseStep (.after node (.item before :: frames)) .comma =
          some (.value (.item (before ++ [node]) :: frames)) := rfl
      rw [moreItemTokens, follow_cons, begun, Option.bind_some, follow_append, parse_value item,
        Option.bind_some, parse_more_items rest, List.append_assoc, List.singleton_append]

theorem parse_fields : (fields : List (String × Json)) → (frames : List Frame) →
    follow parseStep (.objectStart frames) (fieldTokens fields) =
      some (.after (.object fields) frames)
  | [], _ => rfl
  | (key, value) :: rest, frames => by
      have named : parseStep (.objectStart frames) (.text key.toList) =
          some (.colon [] key frames) :=
        congrArg (fun key => some (Mode.colon [] key frames)) String.ofList_toList
      have opened : parseStep (.colon [] key frames) .colon =
          some (.value (.member [] key :: frames)) := rfl
      rw [fieldTokens, follow_cons, named, Option.bind_some, follow_cons, opened, Option.bind_some,
        follow_append, parse_value value, Option.bind_some]
      exact parse_more_fields rest [] key value frames

theorem parse_more_fields : (fields before : List (String × Json)) → (key : String) →
    (node : Json) → (frames : List Frame) →
    follow parseStep (.after node (.member before key :: frames)) (moreFieldTokens fields) =
      some (.after (.object (before ++ (key, node) :: fields)) frames)
  | [], _, _, _, _ => rfl
  | (name, value) :: rest, before, key, node, frames => by
      have begun : parseStep (.after node (.member before key :: frames)) .comma =
          some (.nextKey (before ++ [(key, node)]) frames) := rfl
      have named : parseStep (.nextKey (before ++ [(key, node)]) frames) (.text name.toList) =
          some (.colon (before ++ [(key, node)]) name frames) :=
        congrArg (fun name => some (Mode.colon (before ++ [(key, node)]) name frames))
          String.ofList_toList
      have opened : parseStep (.colon (before ++ [(key, node)]) name frames) .colon =
          some (.value (.member (before ++ [(key, node)]) name :: frames)) := rfl
      rw [moreFieldTokens, follow_cons, begun, Option.bind_some, follow_cons, named,
        Option.bind_some, follow_cons, opened, Option.bind_some, follow_append, parse_value value,
        Option.bind_some, parse_more_fields rest, List.append_assoc, List.singleton_append]

end

/-- A printed value is read as itself, but for its numbers. -/
theorem document_printed {numbers : NumberReader} {digits : Number → List Char}
    {change : Number → Number} (readable : Readable numbers digits change) (value : Json) :
    document numbers (print digits value) = some (renumber change value) := by
  have lexed := lex_printed readable value [] (fun _ absent => nomatch absent)
  rw [List.append_nil] at lexed
  have nothing : lexFrom numbers .outside [] = some [] := rfl
  rw [document, lexed, nothing, Option.map_some, List.append_nil, Option.bind_some, documentFrom,
    parse_value]

end Parser

end Ccflare.JsonPrinting
