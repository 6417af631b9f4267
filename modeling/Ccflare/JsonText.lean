import Ccflare.JsonValue
import Ccflare.Transducer

/-!
The text of a JSON document: a scanner that takes one character at a time, and a reader
that takes one token at a time and keeps the containers it is in. The document is read as it
is written, members in their order and repeated names included; its value keeps the last
member of each name. How a number is rounded is left to a reader of numbers.
-/

namespace Ccflare.JsonText

open JsonValue Transducer

inductive Token where
  | openObject
  | closeObject
  | openArray
  | closeArray
  | colon
  | comma
  | text (content : List Char)
  | scalar (value : Json)
  deriving DecidableEq

def isNumberChar (c : Char) : Bool :=
  c.isDigit || c == '-' || c == '+' || c == '.' || c == 'e' || c == 'E'

/-- The value of a number, which is written with the characters of numbers. -/
structure NumberReader where
  read : List Char → Option Number
  written : ∀ run number, read run = some number → ∀ c ∈ run, isNumberChar c = true

inductive LexState where
  | outside
  | scalar (run : List Char)
  | inText (content : List Char)
  | escaped (content : List Char)
  | unicode (content : List Char) (high : Option Nat) (digits : List Nat)
  | surrogate (content : List Char) (high : Nat)
  | surrogateEscaped (content : List Char) (high : Nat)
  | failed
  deriving DecidableEq

def isSpace (c : Char) : Bool := c == ' ' || c == '\t' || c == '\n' || c == '\r'

def punctuation : Char → Option Token
  | '{' => some .openObject
  | '}' => some .closeObject
  | '[' => some .openArray
  | ']' => some .closeArray
  | ':' => some .colon
  | ',' => some .comma
  | _ => none

def endsScalar (c : Char) : Bool := isSpace c || (punctuation c).isSome || c == '"'

def hexValue (c : Char) : Option Nat :=
  if c.isDigit then some (c.toNat - 48)
  else if 'a' ≤ c ∧ c ≤ 'f' then some (c.toNat - 87)
  else if 'A' ≤ c ∧ c ≤ 'F' then some (c.toNat - 55)
  else none

/-- A code unit of four digits, after a high surrogate or by itself. -/
def finishUnicode (content : List Char) (high : Option Nat) (code : Nat) : LexState :=
  match high with
  | none =>
      if 0xD800 ≤ code ∧ code ≤ 0xDBFF then .surrogate content code
      else if 0xDC00 ≤ code ∧ code ≤ 0xDFFF then .failed
      else .inText (content ++ [Char.ofNat code])
  | some high =>
      if 0xDC00 ≤ code ∧ code ≤ 0xDFFF then
        .inText (content ++ [Char.ofNat (0x10000 + (high - 0xD800) * 0x400 + (code - 0xDC00))])
      else .failed

def readEscape (content : List Char) : Char → LexState
  | '"' => .inText (content ++ ['"'])
  | '\\' => .inText (content ++ ['\\'])
  | '/' => .inText (content ++ ['/'])
  | 'b' => .inText (content ++ ['\x08'])
  | 'f' => .inText (content ++ ['\x0c'])
  | 'n' => .inText (content ++ ['\n'])
  | 'r' => .inText (content ++ ['\r'])
  | 't' => .inText (content ++ ['\t'])
  | 'u' => .unicode content none []
  | _ => .failed

def startToken (c : Char) : List Token × LexState :=
  if isSpace c then ([], .outside)
  else
    match punctuation c with
    | some token => ([token], .outside)
    | none => if c = '"' then ([], .inText []) else ([], .scalar [c])

section Reader
variable (numbers : NumberReader)

def scalarValue (run : List Char) : Option Json :=
  if run = ['t', 'r', 'u', 'e'] then some (.bool true)
  else if run = ['f', 'a', 'l', 's', 'e'] then some (.bool false)
  else if run = ['n', 'u', 'l', 'l'] then some .null
  else (numbers.read run).map .number

def lexStep : LexState → Char → List Token × LexState
  | .outside, c => startToken c
  | .scalar run, c =>
      if endsScalar c then
        match scalarValue numbers run with
        | some value => (.scalar value :: (startToken c).1, (startToken c).2)
        | none => ([], .failed)
      else ([], .scalar (run ++ [c]))
  | .inText content, c =>
      if c = '"' then ([.text content], .outside)
      else if c = '\\' then ([], .escaped content)
      else if c.toNat < 32 then ([], .failed)
      else ([], .inText (content ++ [c]))
  | .escaped content, c => ([], readEscape content c)
  | .unicode content high digits, c =>
      match hexValue c with
      | none => ([], .failed)
      | some digit =>
          if digits.length < 3 then ([], .unicode content high (digits ++ [digit]))
          else
            let code := (digits ++ [digit]).foldl (fun value digit => 16 * value + digit) 0
            ([], finishUnicode content high code)
  | .surrogate content high, c =>
      if c = '\\' then ([], .surrogateEscaped content high) else ([], .failed)
  | .surrogateEscaped content high, c =>
      if c = 'u' then ([], .unicode content (some high) []) else ([], .failed)
  | .failed, _ => ([], .failed)

/-- What the end of the text adds; inside a string it comes too early. -/
def finish : LexState → Option (List Token)
  | .outside => some []
  | .scalar run => (scalarValue numbers run).map fun value => [.scalar value]
  | _ => none

def lexFrom (state : LexState) (text : List Char) : Option (List Token) :=
  let taken := run (lexStep numbers) state text
  (finish numbers taken.2).map fun last => taken.1 ++ last

end Reader

/-- A container that is being read: where the next value goes. -/
inductive Frame where
  | item (items : List Json)
  | member (members : List (String × Json)) (key : String)

/-- What may follow. After `after` a value is complete, and so is the document where no
container is left. -/
inductive Mode where
  | value (frames : List Frame)
  | arrayStart (frames : List Frame)
  | objectStart (frames : List Frame)
  | nextKey (members : List (String × Json)) (frames : List Frame)
  | colon (members : List (String × Json)) (key : String) (frames : List Frame)
  | after (node : Json) (frames : List Frame)

def beginValue (frames : List Frame) : Token → Option Mode
  | .text content => some (.after (.string (String.ofList content)) frames)
  | .scalar value => some (.after value frames)
  | .openObject => some (.objectStart frames)
  | .openArray => some (.arrayStart frames)
  | .closeObject | .closeArray | .colon | .comma => none

def parseStep : Mode → Token → Option Mode
  | .value frames, token => beginValue frames token
  | .arrayStart frames, .closeArray => some (.after (.array []) frames)
  | .arrayStart frames, token => beginValue (.item [] :: frames) token
  | .objectStart frames, .closeObject => some (.after (.object []) frames)
  | .objectStart frames, .text key => some (.colon [] (String.ofList key) frames)
  | .nextKey members frames, .text key => some (.colon members (String.ofList key) frames)
  | .colon members key frames, .colon => some (.value (.member members key :: frames))
  | .after node (.item items :: frames), .comma => some (.value (.item (items ++ [node]) :: frames))
  | .after node (.item items :: frames), .closeArray =>
      some (.after (.array (items ++ [node])) frames)
  | .after node (.member members key :: frames), .comma =>
      some (.nextKey (members ++ [(key, node)]) frames)
  | .after node (.member members key :: frames), .closeObject =>
      some (.after (.object (members ++ [(key, node)])) frames)
  | _, _ => none

mutual

/-- The value of a document: of the members of one name the last. -/
def canonical : Json → Json
  | .array items => .array (canonicalItems items)
  | .object fields => Json.make (canonicalFields fields)
  | .null => .null
  | .bool value => .bool value
  | .number value => .number value
  | .string value => .string value

def canonicalItems : List Json → List Json
  | [] => []
  | item :: rest => canonical item :: canonicalItems rest

def canonicalFields : List (String × Json) → List (String × Json)
  | [] => []
  | (key, value) :: rest => (key, canonical value) :: canonicalFields rest

end

/-- The document that the tokens make, from a reader that has come to `mode`. -/
def documentFrom (mode : Mode) (tokens : List Token) : Option Json :=
  match follow parseStep mode tokens with
  | some (.after node []) => some node
  | _ => none

def document (numbers : NumberReader) (text : List Char) : Option Json :=
  (lexFrom numbers .outside text).bind (documentFrom (.value []))

def read (numbers : NumberReader) (text : List Char) : Option Json :=
  (document numbers text).map canonical

/-- A character that stands in a string as it is. -/
def isPlainChar (c : Char) : Bool := c != '"' && c != '\\' && decide (32 ≤ c.toNat)

def Plain (text : List Char) : Prop := ∀ c ∈ text, isPlainChar c = true

instance (text : List Char) : Decidable (Plain text) :=
  List.decidableBAll (fun c => isPlainChar c = true) text

section Scanner
variable (numbers : NumberReader)

theorem lex_append (state : LexState) (left right : List Char) :
    lexFrom numbers state (left ++ right) =
      (lexFrom numbers (run (lexStep numbers) state left).2 right).map
        ((run (lexStep numbers) state left).1 ++ ·) := by
  simp only [lexFrom, run_append, Option.map_map]
  congr 1
  funext last
  simp

theorem run_failed (text : List Char) :
    run (lexStep numbers) .failed text = ([], .failed) := by
  induction text with
  | nil => rfl
  | cons c rest ih => simp [run_cons, lexStep, ih]

theorem lex_failed (text : List Char) : lexFrom numbers .failed text = none := by
  simp [lexFrom, run_failed, finish]

theorem plain_step (content : List Char) (c : Char) (plain : isPlainChar c = true) :
    lexStep numbers (.inText content) c = ([], .inText (content ++ [c])) := by
  simp only [isPlainChar, Bool.and_eq_true, bne_iff_ne, decide_eq_true_eq] at plain
  obtain ⟨⟨quote, escape⟩, printed⟩ := plain
  simp [lexStep, quote, escape, Nat.not_lt.mpr printed]

theorem run_plain (content text : List Char) (plain : Plain text) :
    run (lexStep numbers) (.inText content) text = ([], .inText (content ++ text)) := by
  induction text generalizing content with
  | nil => simp
  | cons c rest ih =>
      have here : isPlainChar c = true := plain c (List.mem_cons_self)
      have later : Plain rest := fun other member => plain other (List.mem_cons_of_mem c member)
      simp [run_cons, plain_step numbers content c here, ih _ later]

/-- What has a character of neither numbers nor literals is no scalar. -/
theorem scalar_unread (text : List Char) (c : Char) (member : c ∈ text)
    (other : isNumberChar c = false)
    (letter : c ∉ ['t', 'r', 'u', 'e', 'f', 'a', 'l', 's', 'n']) :
    scalarValue numbers text = none := by
  have unread : numbers.read text = none := by
    cases found : numbers.read text with
    | none => rfl
    | some number =>
        have shown := numbers.written text number found c member
        rw [other] at shown
        cases shown
  rw [scalarValue, if_neg, if_neg, if_neg, unread, Option.map_none]
  all_goals
    rintro rfl
    simp_all

theorem scalar_no_text (text : List Char) (value : Json)
    (found : scalarValue numbers text = some value) (content : String) :
    value ≠ .string content := by
  rintro rfl
  unfold scalarValue at found
  split at found
  · cases found
  · split at found
    · cases found
    · split at found
      · cases found
      · cases read : numbers.read text <;> simp [read] at found

/-- States from which no end of the text is read. -/
def Doomed : LexState → Prop
  | .failed => True
  | .scalar text => '\\' ∈ text
  | _ => False

theorem doomed_step (state : LexState) (c : Char) (doomed : Doomed state) :
    Doomed (lexStep numbers state c).2 := by
  cases state with
  | failed => exact trivial
  | scalar text =>
      have unread := scalar_unread numbers text '\\' doomed (by decide) (by decide)
      by_cases ends : endsScalar c = true
      · simp [lexStep, ends, unread, Doomed]
      · simpa [lexStep, ends, Doomed] using Or.inl doomed
  | _ => exact doomed.elim

theorem doomed_finish (state : LexState) (doomed : Doomed state) :
    finish numbers state = none := by
  cases state with
  | failed => rfl
  | scalar text =>
      simp [finish, scalar_unread numbers text '\\' doomed (by decide) (by decide)]
  | _ => exact doomed.elim

/-- One state is between strings where the other is in one. -/
inductive Opposed : LexState → LexState → Prop where
  | outside (content : List Char) : Opposed .outside (.inText content)
  | scalar (text content : List Char) : Opposed (.scalar text) (.inText content)

def Apart (left right : LexState) : Prop :=
  Opposed left right ∨ Opposed right left ∨ Doomed left ∨ Doomed right

theorem start_token_state (c : Char) (noQuote : c ≠ '"') :
    (startToken c).2 = .outside ∨ (startToken c).2 = .scalar [c] := by
  unfold startToken
  split
  · exact Or.inl rfl
  · split
    · exact Or.inl rfl
    · exact Or.inr rfl

/-- After a character that is no quote, what was outside a string is still outside. -/
theorem outside_step (state : LexState) (c : Char) (noQuote : c ≠ '"')
    (out : state = .outside ∨ ∃ text, state = .scalar text) :
    (lexStep numbers state c).2 = .outside ∨ (∃ text, (lexStep numbers state c).2 = .scalar text) ∨
      Doomed (lexStep numbers state c).2 := by
  have started := start_token_state c noQuote
  rcases out with rfl | ⟨text, rfl⟩
  · rcases started with out | run
    · exact Or.inl out
    · exact Or.inr (Or.inl ⟨[c], run⟩)
  · by_cases ends : endsScalar c = true
    · cases read : scalarValue numbers text with
      | none => exact Or.inr (Or.inr (by simp [lexStep, ends, read, Doomed]))
      | some value =>
          rw [lexStep, if_pos ends, read]
          rcases started with out | run
          · exact Or.inl out
          · exact Or.inr (Or.inl ⟨[c], run⟩)
    · rw [lexStep, if_neg ends]
      exact Or.inr (Or.inl ⟨text ++ [c], rfl⟩)

/-- A quote changes sides, and a backslash is read in a string only. -/
theorem opposed_step (left right : LexState) (c : Char) (opposed : Opposed left right) :
    Apart (lexStep numbers left c).2 (lexStep numbers right c).2 := by
  obtain ⟨content, rfl, out⟩ : ∃ content, right = .inText content ∧
      (left = .outside ∨ ∃ text, left = .scalar text) := by
    cases opposed with
    | outside content => exact ⟨content, rfl, Or.inl rfl⟩
    | scalar text content => exact ⟨content, rfl, Or.inr ⟨text, rfl⟩⟩
  by_cases quote : c = '"'
  · subst quote
    have closed : (lexStep numbers (.inText content) '"').2 = .outside := rfl
    rw [closed]
    rcases out with rfl | ⟨text, rfl⟩
    · exact Or.inr (Or.inl (.outside []))
    · cases read : scalarValue numbers text with
      | none => exact Or.inr (Or.inr (Or.inl (by simp [lexStep, read, Doomed, endsScalar])))
      | some value =>
          have opens : (lexStep numbers (.scalar text) '"').2 = .inText [] := by
            simp [lexStep, read, endsScalar, startToken, isSpace, punctuation]
          rw [opens]
          exact Or.inr (Or.inl (.outside []))
  · by_cases escape : c = '\\'
    · subst escape
      refine Or.inr (Or.inr (Or.inl ?_))
      rcases out with rfl | ⟨text, rfl⟩
      · exact List.mem_singleton_self _
      · exact List.mem_append_right text (List.mem_singleton_self _)
    · by_cases control : c.toNat < 32
      · exact Or.inr (Or.inr (Or.inr (by simp [lexStep, quote, escape, control, Doomed])))
      · have held : (lexStep numbers (.inText content) c).2 = .inText (content ++ [c]) := by
          simp [lexStep, quote, escape, control]
        rw [held]
        rcases outside_step numbers left c quote out with same | ⟨text, same⟩ | doomed
        · rw [same]
          exact Or.inl (.outside _)
        · rw [same]
          exact Or.inl (.scalar text _)
        · exact Or.inr (Or.inr (Or.inl doomed))

theorem apart_step (left right : LexState) (c : Char) (apart : Apart left right) :
    Apart (lexStep numbers left c).2 (lexStep numbers right c).2 := by
  rcases apart with opposed | opposed | doomed | doomed
  · exact opposed_step numbers left right c opposed
  · rcases opposed_step numbers right left c opposed with first | second | third | fourth
    · exact Or.inr (Or.inl first)
    · exact Or.inl second
    · exact Or.inr (Or.inr (Or.inr third))
    · exact Or.inr (Or.inr (Or.inl fourth))
  · exact Or.inr (Or.inr (Or.inl (doomed_step numbers left c doomed)))
  · exact Or.inr (Or.inr (Or.inr (doomed_step numbers right c doomed)))

theorem apart_run (left right : LexState) (text : List Char) (apart : Apart left right) :
    Apart (run (lexStep numbers) left text).2 (run (lexStep numbers) right text).2 := by
  induction text generalizing left right with
  | nil => exact apart
  | cons c rest ih => exact ih _ _ (apart_step numbers left right c apart)

theorem opposed_finish (left right : LexState) (opposed : Opposed left right) :
    finish numbers right = none := by
  cases opposed <;> rfl

/-- No text is read to its end both from outside a string and from inside one. -/
theorem quotes_paired (content text : List Char) (first second : List Token)
    (outside : lexFrom numbers .outside text = some first)
    (inside : lexFrom numbers (.inText content) text = some second) : False := by
  have apart := apart_run numbers .outside (.inText content) text (Or.inl (.outside content))
  simp only [lexFrom, Option.map_eq_some_iff] at outside inside
  obtain ⟨endOutside, readOutside, -⟩ := outside
  obtain ⟨endInside, readInside, -⟩ := inside
  rcases apart with opposed | opposed | doomed | doomed
  · rw [opposed_finish numbers _ _ opposed] at readInside
    cases readInside
  · rw [opposed_finish numbers _ _ opposed] at readOutside
    cases readOutside
  · rw [doomed_finish numbers _ doomed] at readOutside
    cases readOutside
  · rw [doomed_finish numbers _ doomed] at readInside
    cases readInside

/-- What has been read of the string the scanner is in. -/
def held : LexState → List Char
  | .inText content | .escaped content | .unicode content _ _ | .surrogate content _
  | .surrogateEscaped content _ => content
  | .outside | .scalar _ | .failed => []

/-- In a string, or past an error; nothing but the string itself can be read next. -/
def InString : LexState → Prop
  | .outside | .scalar _ => False
  | _ => True

theorem finish_unicode_in_string (content : List Char) (high : Option Nat) (code : Nat) :
    InString (finishUnicode content high code) ∧
      (held (finishUnicode content high code)).length ≤ content.length + 1 := by
  cases high with
  | none =>
      simp only [finishUnicode]
      split
      · exact ⟨trivial, Nat.le_succ _⟩
      · split
        · exact ⟨trivial, Nat.zero_le _⟩
        · exact ⟨trivial, by simp [held]⟩
  | some high =>
      simp only [finishUnicode]
      split
      · exact ⟨trivial, by simp [held]⟩
      · exact ⟨trivial, Nat.zero_le _⟩

theorem escape_in_string (content : List Char) (c : Char) :
    InString (readEscape content c) ∧
      (held (readEscape content c)).length ≤ content.length + 1 := by
  unfold readEscape
  split <;> simp [held, InString]

/-- What a character does in a string: it ends the string, or adds at most one to it. -/
theorem in_string_step (state : LexState) (c : Char) (inside : InString state) :
    (∃ content, state = .inText content ∧
      lexStep numbers state c = ([.text content], .outside)) ∨
    ∃ next, lexStep numbers state c = ([], next) ∧ InString next ∧
      (held next).length ≤ (held state).length + 1 := by
  cases state with
  | outside => exact inside.elim
  | scalar text => exact inside.elim
  | inText content =>
      simp only [lexStep]
      split
      · exact Or.inl ⟨content, rfl, rfl⟩
      · split
        · exact Or.inr ⟨_, rfl, trivial, Nat.le_succ _⟩
        · split
          · exact Or.inr ⟨_, rfl, trivial, Nat.zero_le _⟩
          · exact Or.inr ⟨_, rfl, trivial, by simp [held]⟩
  | escaped content => exact Or.inr ⟨_, rfl, escape_in_string content c⟩
  | unicode content high digits =>
      simp only [lexStep]
      split
      · exact Or.inr ⟨_, rfl, trivial, Nat.zero_le _⟩
      · split
        · exact Or.inr ⟨_, rfl, trivial, Nat.le_succ _⟩
        · exact Or.inr ⟨_, rfl, finish_unicode_in_string content high _⟩
  | surrogate content high =>
      simp only [lexStep]
      split
      · exact Or.inr ⟨_, rfl, trivial, Nat.le_succ _⟩
      · exact Or.inr ⟨_, rfl, trivial, Nat.zero_le _⟩
  | surrogateEscaped content high =>
      simp only [lexStep]
      split
      · exact Or.inr ⟨_, rfl, trivial, Nat.le_succ _⟩
      · exact Or.inr ⟨_, rfl, trivial, Nat.zero_le _⟩
  | failed => exact Or.inr ⟨_, rfl, trivial, Nat.zero_le _⟩

theorem held_start (c : Char) : held (startToken c).2 = [] := by
  by_cases quote : c = '"'
  · subst quote
    rfl
  · rcases start_token_state c quote with same | same <;> rw [same] <;> rfl

/-- A character adds at most one to the string that is being read. -/
theorem held_step (state : LexState) (c : Char) :
    (held (lexStep numbers state c).2).length ≤ (held state).length + 1 := by
  have within (inside : InString state) :
      (held (lexStep numbers state c).2).length ≤ (held state).length + 1 := by
    rcases in_string_step numbers state c inside with ⟨content, -, same⟩ | ⟨next, same, -, bound⟩
    · rw [same]
      exact Nat.zero_le _
    · rw [same]
      exact bound
  cases state with
  | outside => simp [lexStep, held_start]
  | scalar text =>
      simp only [lexStep]
      split
      · split
        · simp [held_start]
        · exact Nat.zero_le _
      · exact Nat.zero_le _
  | _ => exact within trivial

theorem start_token_emits (c : Char) (token : Token) (emitted : token ∈ (startToken c).1) :
    punctuation c = some token := by
  unfold startToken at emitted
  split at emitted
  · cases emitted
  · split at emitted
    · next other named => rw [named, List.mem_singleton.mp emitted]
    · split at emitted <;> cases emitted

theorem punctuation_mark (c : Char) (token : Token) (named : punctuation c = some token) :
    (∀ content, token ≠ .text content) ∧ ∀ value, token ≠ .scalar value := by
  unfold punctuation at named
  split at named <;> cases named <;> simp

/-- A token is a mark, the string that was being read, or the scalar that was. -/
theorem emitted_step (state : LexState) (c : Char) (token : Token)
    (emitted : token ∈ (lexStep numbers state c).1) :
    punctuation c = some token ∨ (∃ content, state = .inText content ∧ token = .text content) ∨
      ∃ text value, scalarValue numbers text = some value ∧ token = .scalar value := by
  have within (inside : InString state) :
      ∃ content, state = .inText content ∧ token = .text content := by
    rcases in_string_step numbers state c inside with ⟨content, here, same⟩ | ⟨next, same, -, -⟩
    · rw [same] at emitted
      exact ⟨content, here, List.mem_singleton.mp emitted⟩
    · rw [same] at emitted
      cases emitted
  cases state with
  | outside => exact Or.inl (start_token_emits c token emitted)
  | scalar text =>
      simp only [lexStep] at emitted
      split at emitted
      · split at emitted
        · next value read =>
            rcases List.mem_cons.mp emitted with same | later
            · exact Or.inr (Or.inr ⟨text, value, read, same⟩)
            · exact Or.inl (start_token_emits c token later)
        · cases emitted
      · cases emitted
  | _ => exact Or.inr (Or.inl (within trivial))

theorem text_emitted (state : LexState) (c : Char) (content : List Char)
    (emitted : .text content ∈ (lexStep numbers state c).1) : state = .inText content := by
  rcases emitted_step numbers state c _ emitted with mark | ⟨other, here, same⟩ | ⟨_, _, _, same⟩
  · exact absurd rfl ((punctuation_mark c _ mark).1 content)
  · rw [here, Token.text.inj same]
  · cases same

/-- Strings are not read as scalars. -/
theorem scalar_emitted (state : LexState) (c : Char) (content : String) :
    Token.scalar (.string content) ∉ (lexStep numbers state c).1 := by
  intro emitted
  rcases emitted_step numbers state c _ emitted with mark | ⟨_, _, same⟩ | ⟨text, value, read, same⟩
  · exact (punctuation_mark c _ mark).2 _ rfl
  · cases same
  · exact scalar_no_text numbers text value read content (Token.scalar.inj same).symm

theorem scalar_read (state : LexState) (text : List Char) (content : String) :
    Token.scalar (.string content) ∉ (run (lexStep numbers) state text).1 := by
  induction text generalizing state with
  | nil => exact List.not_mem_nil
  | cons c rest ih =>
      rw [run_cons]
      intro member
      rcases List.mem_append.mp member with here | later
      · exact scalar_emitted numbers state c content here
      · exact ih _ later

/-- A character that is not plain ends the string or adds nothing to it. -/
theorem special_step (content : List Char) (c : Char) (special : isPlainChar c = false) :
    (held (lexStep numbers (.inText content) c).2).length ≤ content.length := by
  simp only [lexStep]
  split
  · exact Nat.zero_le _
  · next quote =>
      split
      · exact Nat.le_refl _
      · next escape =>
          split
          · exact Nat.zero_le _
          · next printed =>
              exfalso
              simp [isPlainChar, quote, escape] at special
              omega

/-- From the start of a string on: the text is plain so far, or every string that was read
in it is shorter than the text. -/
theorem strings_shorter (text : List Char) :
    (Plain text ∧ run (lexStep numbers) (.inText []) text = ([], .inText text)) ∨
    ((∀ content, .text content ∈ (run (lexStep numbers) (.inText []) text).1 →
        content.length < text.length) ∧
      (held (run (lexStep numbers) (.inText []) text).2).length < text.length) := by
  induction text using List.reverseRecOn with
  | nil => exact Or.inl ⟨fun c member => absurd member List.not_mem_nil, rfl⟩
  | append_singleton text c ih =>
      rw [run_append, run_singleton, List.length_append, List.length_singleton]
      rcases ih with ⟨plain, here⟩ | ⟨shorter, short⟩
      · rw [here]
        cases special : isPlainChar c with
        | true =>
            left
            refine ⟨fun other member => ?_, by simp [plain_step numbers text c special]⟩
            rcases List.mem_append.mp member with before | last
            · exact plain other before
            · rw [List.mem_singleton.mp last, special]
        | false =>
            right
            refine ⟨fun content member => ?_, ?_⟩
            · have same := text_emitted numbers (.inText text) c content (by simpa using member)
              rw [LexState.inText.inj same]
              exact Nat.lt_succ_self _
            · exact Nat.lt_succ_of_le (special_step numbers text c special)
      · right
        refine ⟨fun content member => ?_, ?_⟩
        · rcases List.mem_append.mp member with before | last
          · have bound := shorter content before
            omega
          · have same := text_emitted numbers _ c content last
            rw [same] at short
            exact Nat.lt_succ_of_lt short
        · exact Nat.lt_of_le_of_lt (held_step numbers _ c) (Nat.succ_lt_succ short)

/-- A text between quotes is read as a string equal to it only where it is plain. -/
theorem plain_of_quoted (text : List Char)
    (found : .text text ∈ (run (lexStep numbers) (.inText []) (text ++ ['"'])).1) :
    Plain text := by
  rcases strings_shorter numbers text with ⟨plain, -⟩ | ⟨shorter, short⟩
  · exact plain
  · rw [run_append, run_singleton] at found
    rcases List.mem_append.mp found with before | last
    · exact absurd (shorter text before) (Nat.lt_irrefl _)
    · rw [text_emitted numbers _ '"' text last] at short
      exact absurd short (Nat.lt_irrefl _)

/-- Where a quote leaves the scanner. -/
theorem quote_step (state : LexState) :
    (∃ content, state = .inText content ∧
      lexStep numbers state '"' = ([.text content], .outside)) ∨
    (∃ content, (lexStep numbers state '"').2 = .inText content) ∨
    (lexStep numbers state '"').2 = .failed := by
  cases state with
  | outside => exact Or.inr (Or.inl ⟨[], rfl⟩)
  | inText content => exact Or.inl ⟨content, rfl, rfl⟩
  | escaped content => exact Or.inr (Or.inl ⟨content ++ ['"'], rfl⟩)
  | scalar text =>
      cases read : scalarValue numbers text with
      | none => exact Or.inr (Or.inr (by simp [lexStep, read, endsScalar]))
      | some value =>
          refine Or.inr (Or.inl ⟨[], ?_⟩)
          simp [lexStep, read, endsScalar, startToken, isSpace, punctuation]
  | unicode content high digits => exact Or.inr (Or.inr rfl)
  | surrogate content high => exact Or.inr (Or.inr rfl)
  | surrogateEscaped content high => exact Or.inr (Or.inr rfl)
  | failed => exact Or.inr (Or.inr rfl)

theorem first_token (state : LexState) (text : List Char) (inside : InString state) :
    (run (lexStep numbers) state text).1 = [] ∨
      ∃ content rest, (run (lexStep numbers) state text).1 = .text content :: rest := by
  induction text generalizing state with
  | nil => exact Or.inl rfl
  | cons c rest ih =>
      rw [run_cons]
      rcases in_string_step numbers state c inside with ⟨content, -, spoken⟩ | ⟨next, silent, still, -⟩
      · rw [spoken]
        exact Or.inr ⟨content, _, rfl⟩
      · rw [silent]
        exact ih _ still

/-- A quoted text that ends between strings is read as tokens that begin and end with a
string. -/
theorem quoted_tokens (text : List Char)
    (ended : (run (lexStep numbers) (.inText []) (text ++ ['"'])).2 = .outside) :
    ∃ content rest tokens last,
      (run (lexStep numbers) (.inText []) (text ++ ['"'])).1 = .text content :: rest ∧
      .text content :: rest = tokens ++ [.text last] := by
  have first := first_token numbers (.inText []) (text ++ ['"']) trivial
  rw [run_append, run_singleton] at ended first ⊢
  rcases quote_step numbers (run (lexStep numbers) (.inText []) text).2 with
    ⟨content, -, same⟩ | ⟨content, same⟩ | same
  · rw [same] at first ⊢
    rcases first with none | ⟨start, rest, named⟩
    · simp at none
    · exact ⟨start, rest, _, content, named, named.symm⟩
  · rw [same] at ended
    cases ended
  · rw [same] at ended
    cases ended

end Scanner

end Ccflare.JsonText
