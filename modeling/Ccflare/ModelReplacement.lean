import Ccflare.BodyRewriting
import Ccflare.JsonMaps

/-!
When the replacement of a model is the change of a field. The text that is replaced is the
first that looks like the member; it is the member where it stands at a key of the outermost
object, where no other "model" follows, and where both names stand in a string as they are.
-/

namespace Ccflare.ModelReplacement

open JsonValue JsonMaps JsonPrinting Transducer BodyRewriting
open JsonText hiding held

section Openings

variable (numbers : NumberReader)

theorem compact_chars : compactOpening.toList =
    ['"', 'm', 'o', 'd', 'e', 'l', '"', ':', '"'] := by decide

theorem spaced_chars : spacedOpening.toList =
    ['"', 'm', 'o', 'd', 'e', 'l', '"', ':', ' ', '"'] := by decide

def modelKey : List Char := ['m', 'o', 'd', 'e', 'l']

theorem model_key : String.ofList modelKey = "model" := by decide

theorem model_plain : Plain modelKey := by decide

theorem opening_chars (opening : String)
    (known : opening = compactOpening ∨ opening = spacedOpening) :
    ∃ gap, opening.toList = '"' :: (modelKey ++ '"' :: (gap ++ ['"'])) ∧
      run (lexStep numbers) .outside (gap ++ ['"']) = ([.colon], .inText []) := by
  rcases known with rfl | rfl
  · exact ⟨[':'], compact_chars, rfl⟩
  · exact ⟨[':', ' '], spaced_chars, rfl⟩

/-- What the reader makes of an opening, by the state it finds the reader in: a key, the end
of a longer key, a key right behind a scalar, or nothing. -/
def Opened (state : LexState) (taken : List Token × LexState) : Prop :=
  taken.2 = .failed ∨ taken.2 = .inText [] ∧
    ((state = .outside ∧ taken.1 = [.text modelKey, .colon]) ∨
      (∃ content, state = .escaped content ∧
        taken.1 = [.text (content ++ '"' :: modelKey), .colon]) ∨
      ∃ value, taken.1 = [.scalar value, .text modelKey, .colon])

theorem opening_run (opening : String)
    (known : opening = compactOpening ∨ opening = spacedOpening) (state : LexState) :
    Opened state (run (lexStep numbers) state opening.toList) := by
  obtain ⟨gap, chars, between⟩ := opening_chars numbers opening known
  have named : ∀ content, run (lexStep numbers) (.inText content)
      (modelKey ++ '"' :: (gap ++ ['"'])) = ([.text (content ++ modelKey), .colon], .inText []) := by
    intro content
    have closed : ∀ name, lexStep numbers (.inText name) '"' = ([.text name], .outside) :=
      fun name => rfl
    rw [run_append, run_plain numbers content modelKey model_plain, run_cons, closed, between]
    simp
  rw [chars, run_cons]
  cases state with
  | outside =>
      right
      have opens : lexStep numbers .outside '"' = ([], .inText []) := rfl
      rw [opens, named []]
      exact ⟨rfl, Or.inl ⟨rfl, rfl⟩⟩
  | escaped content =>
      right
      have quoted : lexStep numbers (.escaped content) '"' = ([], .inText (content ++ ['"'])) := rfl
      rw [quoted, named]
      exact ⟨rfl, Or.inr (Or.inl ⟨content, rfl, by simp⟩)⟩
  | scalar text =>
      cases read : scalarValue numbers text with
      | none =>
          left
          have stopped : lexStep numbers (.scalar text) '"' = ([], .failed) := by
            simp [lexStep, read, endsScalar]
          rw [stopped, run_failed]
      | some value =>
          right
          have opens : lexStep numbers (.scalar text) '"' = ([.scalar value], .inText []) := by
            simp [lexStep, read, endsScalar, startToken, isSpace, punctuation]
          rw [opens, named []]
          exact ⟨rfl, Or.inr (Or.inr ⟨value, rfl⟩)⟩
  | inText content =>
      left
      -- the quote ends the string, and the word behind it is no scalar
      have word : scalarValue numbers modelKey = none :=
        scalar_unread numbers modelKey 'm' (by decide) (by decide) (by decide)
      have closed : lexStep numbers (.inText content) '"' = ([.text content], .outside) := rfl
      have bare : run (lexStep numbers) .outside modelKey = ([], .scalar modelKey) := rfl
      have stopped : lexStep numbers (.scalar modelKey) '"' = ([], .failed) := by
        simp [lexStep, word, endsScalar]
      rw [closed, run_append, bare, run_cons, stopped, run_failed]
  | unicode content high digits =>
      left
      have stopped : lexStep numbers (.unicode content high digits) '"' = ([], .failed) := rfl
      rw [stopped, run_failed]
  | surrogate content high =>
      left
      have stopped : lexStep numbers (.surrogate content high) '"' = ([], .failed) := rfl
      rw [stopped, run_failed]
  | surrogateEscaped content high =>
      left
      have stopped : lexStep numbers (.surrogateEscaped content high) '"' = ([], .failed) := rfl
      rw [stopped, run_failed]
  | failed =>
      left
      have stopped : lexStep numbers .failed '"' = ([], .failed) := rfl
      rw [stopped, run_failed]

/-- The members before a place where a key of the outermost object comes. -/
def topMembers (before : List Char) : Option (List (String × Json)) :=
  match run (lexStep numbers) .outside before with
  | (tokens, .outside) =>
      match (follow parseStep (.value []) tokens).bind keyPlace with
      | some (members, []) => some members
      | _ => none
  | _ => none

/-- What the reader has come to in front of a match: the key that the match ends, and the
object it belongs to. -/
structure Matched (before : List Char) (opening : String) (key : List Char)
    (members : List (String × Json)) (frames : List Frame) : Prop where
  named : (run (lexStep numbers) .outside before).2 = .outside ∧ key = modelKey ∨
    (run (lexStep numbers) .outside before).2 ≠ .outside ∧ key ≠ modelKey
  placed : (follow parseStep (.value []) (run (lexStep numbers) .outside before).1).bind
    keyPlace = some (members, frames)
  lexed : ∀ model behind, lexFrom numbers .outside (before ++ needle opening model ++ behind) =
    (lexFrom numbers (run (lexStep numbers) (.inText []) (model.toList ++ ['"'])).2 behind).map
      fun rest => (run (lexStep numbers) .outside before).1 ++ .text key :: .colon ::
        ((run (lexStep numbers) (.inText []) (model.toList ++ ['"'])).1 ++ rest)

theorem lex_match (before behind : List Char) (opening model : String) (key : List Char)
    (opened : run (lexStep numbers) (run (lexStep numbers) .outside before).2 opening.toList =
      ([.text key, .colon], .inText [])) :
    lexFrom numbers .outside (before ++ needle opening model ++ behind) =
      (lexFrom numbers (run (lexStep numbers) (.inText []) (model.toList ++ ['"'])).2 behind).map
        fun rest => (run (lexStep numbers) .outside before).1 ++ .text key :: .colon ::
          ((run (lexStep numbers) (.inText []) (model.toList ++ ['"'])).1 ++ rest) := by
  have parts : before ++ needle opening model ++ behind =
      before ++ (opening.toList ++ ((model.toList ++ ['"']) ++ behind)) := by
    simp [needle]
  rw [parts, lex_append, lex_append, opened, lex_append, Option.map_map, Option.map_map]
  congr 1

/-- The reader of tokens has taken a key: it stood where one may come. -/
theorem key_taken (mode next : Mode) (key : List Char)
    (read : follow parseStep mode [.text key, .colon] = some next) :
    ∃ members frames, keyPlace mode = some (members, frames) := by
  rw [follow_cons] at read
  obtain ⟨middle, named, followed⟩ := Option.bind_eq_some_iff.mp read
  rw [follow_cons] at followed
  obtain ⟨last, colon, -⟩ := Option.bind_eq_some_iff.mp followed
  obtain ⟨members, frames, place, -⟩ := key_run mode middle last key named colon
  exact ⟨members, frames, place⟩

theorem scalar_key_refused (mode : Mode) (value : Json) (key : List Char) :
    follow parseStep mode [.scalar value, .text key, .colon] = none := by
  cases taken : parseStep mode (.scalar value) with
  | none => simp [taken]
  | some next =>
      have after : ∃ frames, next = .after value frames := by
        cases mode with
        | value frames =>
            cases taken
            exact ⟨frames, rfl⟩
        | arrayStart frames =>
            cases taken
            exact ⟨.item [] :: frames, rfl⟩
        | after node frames =>
            cases frames with
            | nil => cases taken
            | cons frame rest => cases frame <;> cases taken
        | objectStart frames => cases taken
        | nextKey members frames => cases taken
        | colon members key frames => cases taken
      obtain ⟨frames, rfl⟩ := after
      have refused : parseStep (.after value frames) (.text key) = none := by
        cases frames with
        | nil => rfl
        | cons frame rest => cases frame <;> rfl
      simp [taken, refused]

/-- A match in a document is read as a key, with its object around it. -/
theorem matched_of_document (before behind : List Char) (opening model : String)
    (known : opening = compactOpening ∨ opening = spacedOpening) (whole : Json)
    (read : document numbers (before ++ needle opening model ++ behind) = some whole) :
    ∃ key members frames, Matched numbers before opening key members frames := by
  obtain ⟨tokens, lexed, parsed⟩ := Option.bind_eq_some_iff.mp read
  have parts : before ++ needle opening model ++ behind =
      before ++ (opening.toList ++ (model.toList ++ '"' :: behind)) := by
    simp [needle]
  have opened := opening_run numbers opening known (run (lexStep numbers) .outside before).2
  rw [parts, lex_append, lex_append] at lexed
  rcases opened with failed | ⟨inside, shapes⟩
  · rw [failed, lex_failed] at lexed
    cases lexed
  · obtain ⟨later, first, rfl⟩ := Option.map_eq_some_iff.mp lexed
    obtain ⟨last, -, rfl⟩ := Option.map_eq_some_iff.mp first
    -- the reader of tokens takes what stands before the match, and then its key
    have taken : ∃ mode next,
        follow parseStep (.value []) (run (lexStep numbers) .outside before).1 = some mode ∧
        follow parseStep mode (run (lexStep numbers) (run (lexStep numbers) .outside before).2
          opening.toList).1 = some next := by
      rw [document_from_append] at parsed
      obtain ⟨mode, reached, parsed⟩ := Option.bind_eq_some_iff.mp parsed
      rw [document_from_append] at parsed
      obtain ⟨next, followed, -⟩ := Option.bind_eq_some_iff.mp parsed
      exact ⟨mode, next, reached, followed⟩
    obtain ⟨mode, next, reached, followed⟩ := taken
    rcases shapes with ⟨outside, spoken⟩ | ⟨content, escaped, spoken⟩ | ⟨value, spoken⟩
    · rw [spoken] at followed
      obtain ⟨members, frames, place⟩ := key_taken mode next _ followed
      exact ⟨modelKey, members, frames, Or.inl ⟨outside, rfl⟩, by rw [reached]; exact place,
        fun other rest => lex_match numbers before rest opening other _ (Prod.ext spoken inside)⟩
    · rw [spoken] at followed
      obtain ⟨members, frames, place⟩ := key_taken mode next _ followed
      have longer : content ++ '"' :: modelKey ≠ modelKey := by
        intro same
        have lengths := congrArg List.length same
        simp only [List.length_append, List.length_cons] at lengths
        omega
      exact ⟨_, members, frames, Or.inr ⟨by rw [escaped]; exact LexState.noConfusion, longer⟩,
        by rw [reached]; exact place,
        fun other rest => lex_match numbers before rest opening other _ (Prod.ext spoken inside)⟩
    · rw [spoken, scalar_key_refused] at followed
      cases followed

theorem key_place_bind (mode : Mode) (members : List (String × Json)) (frames : List Frame)
    (key : List Char) (place : keyPlace mode = some (members, frames)) (rest : List Token) :
    documentFrom mode ([.text key, .colon] ++ rest) =
      documentFrom (.value (.member members (String.ofList key) :: frames)) rest := by
  rw [document_from_append, key_place_run mode members frames key place, Option.bind_some]

/-- A document with a match, read on from its key. -/
theorem document_of_match (before behind : List Char) (opening : String) (key : List Char)
    (members : List (String × Json)) (frames : List Frame)
    (matched : Matched numbers before opening key members frames) (model : String) :
    document numbers (before ++ needle opening model ++ behind) =
      (lexFrom numbers (run (lexStep numbers) (.inText []) (model.toList ++ ['"'])).2 behind).bind
        fun rest => documentFrom (.value (.member members (String.ofList key) :: frames))
          ((run (lexStep numbers) (.inText []) (model.toList ++ ['"'])).1 ++ rest) := by
  obtain ⟨mode, reached, place⟩ := Option.bind_eq_some_iff.mp matched.placed
  rw [document, matched.lexed, Option.bind_map]
  congr 1
  funext rest
  rw [Function.comp_apply, document_from_append, reached, Option.bind_some,
    ← key_place_bind mode members frames key place]
  rfl

theorem quoted_plain (model : String) (plain : Plain model.toList) :
    run (lexStep numbers) (.inText []) (model.toList ++ ['"']) =
      ([.text model.toList], .outside) := by
  have closed : lexStep numbers (.inText model.toList) '"' = ([.text model.toList], .outside) := rfl
  simp [run_append, run_plain numbers [] model.toList plain, closed]

/-- With a plain name the match is one member. -/
theorem document_of_plain (before behind : List Char) (opening : String) (key : List Char)
    (members : List (String × Json)) (frames : List Frame)
    (matched : Matched numbers before opening key members frames) (model : String)
    (plain : Plain model.toList) :
    document numbers (before ++ needle opening model ++ behind) =
      (lexFrom numbers .outside behind).bind fun rest =>
        documentFrom (.after (.string model) (.member members (String.ofList key) :: frames))
          rest := by
  rw [document_of_match numbers before behind opening key members frames matched,
    quoted_plain numbers model plain]
  congr 1
  funext rest
  have begun : parseStep (.value (.member members (String.ofList key) :: frames))
      (.text model.toList) =
        some (.after (.string model) (.member members (String.ofList key) :: frames)) := by
    rw [parseStep, beginValue, String.ofList_toList]
  rw [document_from_append, follow_cons, begun]
  rfl

theorem top_members_matched (before : List Char) (opening : String) (key : List Char)
    (members found : List (String × Json)) (frames : List Frame)
    (matched : Matched numbers before opening key members frames)
    (top : topMembers numbers before = some found) :
    key = modelKey ∧ frames = [] ∧ found = members := by
  unfold topMembers at top
  split at top
  · next tokens same =>
      have placed := matched.placed
      rw [same] at placed
      rw [placed] at top
      have named : key = modelKey := by
        rcases matched.named with ⟨-, named⟩ | ⟨elsewhere, -⟩
        · exact named
        · rw [same] at elsewhere
          exact absurd rfl elsewhere
      cases frames with
      | nil => exact ⟨named, rfl, (Option.some.inj top).symm⟩
      | cons frame rest => cases top
  · cases top

theorem matched_top_members (before : List Char) (opening : String)
    (members : List (String × Json))
    (matched : Matched numbers before opening modelKey members []) :
    topMembers numbers before = some members := by
  have outside : (run (lexStep numbers) .outside before).2 = .outside := by
    rcases matched.named with ⟨outside, -⟩ | ⟨-, other⟩
    · exact outside
    · exact absurd rfl other
  have split : run (lexStep numbers) .outside before =
      ((run (lexStep numbers) .outside before).1, .outside) := Prod.ext rfl outside
  unfold topMembers
  rw [split]
  dsimp only
  rw [matched.placed]

end Openings

section Replacement

variable (numbers : NumberReader) (codec : Codec)

/-- The place before which `before` stands is the last member "model" of the outermost
object. -/
def NamesModel (text before : List Char) (model : String) : Prop :=
  ∃ members later, topMembers numbers before = some members ∧
    document numbers text = some (.object (members ++ ("model", .string model) :: later)) ∧
    ∀ entry ∈ later, entry.1 ≠ "model"

/-- A number as it comes back from its own text. -/
def reread (number : Number) : Number :=
  match read numbers (codec.toString (.number number)).toList with
  | some (.number again) => again
  | _ => number

/-- What is relied on of the parser and the printer of values: the one finds what the text
reads as, and the text of the other reads as the value, each number as it comes back alone. -/
structure Reads : Prop where
  parses : ∀ (text : String) value, codec.fromSlice text.toUTF8 = some value →
    read numbers text.toList = some value
  prints : ∀ value, canonical value = value →
    read numbers (codec.toString value).toList = some (renumber (reread numbers codec) value)

/-- When the function does what changing the field does, as far as its inputs tell. -/
def Replaceable (text oldModel newModel : String) (fields : List (String × Json)) : Prop :=
  match firstMatch text.toList oldModel with
  | none => (codec.fromSlice text.toUTF8).isSome = true ∧
      ∀ number ∈ numbersOf (.object fields), reread numbers codec number = number
  | some (_, before, _) => oldModel = newModel ∨
      Plain oldModel.toList ∧ Plain newModel.toList ∧
        NamesModel numbers text.toList before oldModel

/-- The result reads as the document with its field changed. -/
def ChangesField (text oldModel newModel : String) (fields : List (String × Json)) : Prop :=
  ∃ out : String, replaceModelInBody codec text.toUTF8 oldModel newModel = some (some out.toUTF8) ∧
    read numbers out.toList = some (.object (Json.insert "model" (.string newModel) fields))

theorem read_object (text : List Char) (fields : List (String × Json))
    (whole : read numbers text = some (.object fields)) :
    ∃ members, document numbers text = some (.object members) ∧
      fields = held (canonicalFields members) := by
  obtain ⟨node, found, same⟩ := Option.map_eq_some_iff.mp whole
  cases node with
  | object members =>
      rw [canonical_object] at same
      exact ⟨members, found, (Json.object.inj same).symm⟩
  | null | bool value | number value | string value => cases same
  | array items => cases same

/-- The name changes, and nothing else. -/
theorem replaced_member (members later : List (String × Json)) (oldModel newModel : String)
    (lastOne : ∀ entry ∈ later, entry.1 ≠ "model") :
    canonical (.object (members ++ ("model", .string newModel) :: later)) =
      .object (Json.insert "model" (.string newModel)
        (held (canonicalFields (members ++ ("model", .string oldModel) :: later)))) := by
  have kept : ∀ entry ∈ canonicalFields later, entry.1 ≠ "model" := by
    rw [canonical_fields_map]
    intro entry member
    obtain ⟨other, listed, rfl⟩ := List.mem_map.mp member
    exact lastOne other listed
  rw [canonical_object, canonical_fields_map, canonical_fields_map, List.map_append,
    List.map_append, List.map_cons, List.map_cons, ← canonical_fields_map later, canonical,
    canonical, held_last _ _ _ _ kept, held_last _ _ _ _ kept, insert_insert]

/-- A match that names the last "model" of the outermost object is replaced as a field. -/
theorem named_replaced (text before behind : List Char) (oldModel newModel opening : String)
    (fields : List (String × Json)) (whole : read numbers text = some (.object fields))
    (known : opening = compactOpening ∨ opening = spacedOpening)
    (split : text = before ++ needle opening oldModel ++ behind)
    (plainOld : Plain oldModel.toList) (plainNew : Plain newModel.toList)
    (names : NamesModel numbers text before oldModel) :
    read numbers (before ++ needle opening newModel ++ behind) =
      some (.object (Json.insert "model" (.string newModel) fields)) := by
  obtain ⟨members, later, top, found, lastOne⟩ := names
  obtain ⟨listed, document_eq, rfl⟩ := read_object numbers text fields whole
  obtain rfl : listed = members ++ ("model", .string oldModel) :: later :=
    Json.object.inj (Option.some.inj (document_eq.symm.trans found))
  rw [split] at found
  obtain ⟨key, before_members, frames, matched⟩ :=
    matched_of_document numbers before behind opening oldModel known _ found
  obtain ⟨rfl, rfl, rfl⟩ := top_members_matched numbers before opening key before_members members
    frames matched top
  rw [document_of_plain numbers before behind opening _ members [] matched oldModel plainOld]
    at found
  obtain ⟨rest, lexed, parsed⟩ := Option.bind_eq_some_iff.mp found
  obtain ⟨after, same, again⟩ := members_run members _ _ _ rest
    ((document_from_some _ _ _).mp parsed)
  obtain rfl : later = after := by simpa [model_key] using same
  have replaced : document numbers (before ++ needle opening newModel ++ behind) =
      some (.object (members ++ ("model", .string newModel) :: later)) := by
    rw [document_of_plain numbers before behind opening _ members [] matched newModel plainNew,
      lexed, Option.bind_some, document_from_some]
    exact again members "model" (.string newModel)
  rw [JsonText.read, replaced, Option.map_some, replaced_member members later oldModel newModel lastOne]

/-- The text of the new name holds the name as a string only where the name is plain. -/
theorem plain_of_spoken (model : String) (token : Token)
    (member : token ∈ (run (lexStep numbers) (.inText []) (model.toList ++ ['"'])).1)
    (spoken : Speaks token model) : Plain model.toList := by
  rcases spoken with rfl | rfl
  · exact plain_of_quoted numbers model.toList member
  · exact absurd member (scalar_read numbers _ _ model)

/-- A name whose text leaves the reader inside a string makes no document of a text whose
rest was read outside one. -/
theorem quoted_ends (model : String) (behind : List Char) (rest tokens : List Token)
    (outside : lexFrom numbers .outside behind = some rest)
    (lexed : lexFrom numbers (run (lexStep numbers) (.inText []) (model.toList ++ ['"'])).2 behind =
      some tokens) :
    (run (lexStep numbers) (.inText []) (model.toList ++ ['"'])).2 = .outside := by
  rw [run_append, run_singleton] at lexed ⊢
  rcases quote_step numbers (run (lexStep numbers) (.inText []) model.toList).2 with
    ⟨content, -, closed⟩ | ⟨content, inside⟩ | failed
  · rw [closed]
  · rw [inside] at lexed
    exact (quotes_paired numbers content behind rest tokens outside lexed).elim
  · rw [failed, lex_failed] at lexed
    cases lexed

theorem text_next (mode next : Mode) (content : List Char)
    (stepped : parseStep mode (.text content) = some next) :
    (∃ frames, next = .after (.string (String.ofList content)) frames) ∨
      ∃ members key frames, next = .colon members key frames := by
  cases mode with
  | value frames =>
      cases stepped
      exact Or.inl ⟨frames, rfl⟩
  | arrayStart frames =>
      cases stepped
      exact Or.inl ⟨.item [] :: frames, rfl⟩
  | objectStart frames =>
      cases stepped
      exact Or.inr ⟨[], _, frames, rfl⟩
  | nextKey members frames =>
      cases stepped
      exact Or.inr ⟨members, _, frames, rfl⟩
  | colon members key frames => cases stepped
  | after node frames =>
      cases frames with
      | nil => cases stepped
      | cons frame rest => cases frame <;> cases stepped

/-- What follows a member's value follows no key. -/
theorem key_not_followed (node whole changed : Json) (members others : List (String × Json))
    (key name : String) (frames around : List Frame) (rest : List Token)
    (first : follow parseStep (.after node (.member members key :: frames)) rest =
      some (.after whole []))
    (second : follow parseStep (.colon others name around) rest = some (.after changed [])) :
    False := by
  cases rest with
  | nil => cases first
  | cons token rest => cases token <;> simp [parseStep] at first second

/-- The documents with the old and with the new name, from the match on. The text of the new
name may add members, but none with the name itself. -/
theorem replaced_documents (before behind : List Char) (oldModel newModel opening : String)
    (key : List Char) (members : List (String × Json)) (frames : List Frame)
    (matched : Matched numbers before opening key members frames)
    (plainOld : Plain oldModel.toList) (whole changed : Json)
    (found : document numbers (before ++ needle opening oldModel ++ behind) = some whole)
    (replaced : document numbers (before ++ needle opening newModel ++ behind) = some changed) :
    ∃ first added value others,
      Continued (.after (.string oldModel) (.member members (String.ofList key) :: frames))
        (.after value others) whole changed frames ∧
      entered (.after value others) =
        entered (.after (.string first) (.member members (String.ofList key) :: frames)) ++ added ∧
      (∀ name, (name, .string newModel) ∉ added) ∧
      (first = newModel → Plain newModel.toList) := by
  rw [document_of_plain numbers before behind opening key members frames matched oldModel plainOld]
    at found
  obtain ⟨rest, lexed, parsed⟩ := Option.bind_eq_some_iff.mp found
  have followed := (document_from_some _ _ _).mp parsed
  rw [document_of_match numbers before behind opening key members frames matched] at replaced
  obtain ⟨tokens, lexedNew, parsedNew⟩ := Option.bind_eq_some_iff.mp replaced
  have ended := quoted_ends numbers newModel behind rest tokens lexed lexedNew
  rw [ended] at lexedNew
  obtain rfl : rest = tokens := Option.some.inj (lexed.symm.trans lexedNew)
  obtain ⟨start, later, earlier, last, spoken, ending⟩ := quoted_tokens numbers newModel.toList ended
  rw [spoken, document_from_append] at parsedNew
  obtain ⟨mode, taken, parsedRest⟩ := Option.bind_eq_some_iff.mp parsedNew
  have followedRest := (document_from_some _ _ _).mp parsedRest
  -- the last token of the name is a string, and what follows it shows that it is a value
  obtain ⟨others, value, rfl⟩ : ∃ others value, mode = .after value others := by
    have closing := taken
    rw [ending, follow_append] at closing
    obtain ⟨near, -, stepped⟩ := Option.bind_eq_some_iff.mp closing
    rw [follow_cons] at stepped
    obtain ⟨next, named, same⟩ := Option.bind_eq_some_iff.mp stepped
    rw [follow_nil, Option.some.injEq] at same
    subst same
    rcases text_next near next last named with ⟨others, rfl⟩ | ⟨held, name, around, rfl⟩
    · exact ⟨others, _, rfl⟩
    · exact (key_not_followed _ _ _ _ _ _ _ _ _ rest followed followedRest).elim
  rw [follow_cons] at taken
  have begun : parseStep (.value (.member members (String.ofList key) :: frames)) (.text start) =
      some (.after (.string (String.ofList start)) (.member members (String.ofList key) :: frames)) :=
    rfl
  rw [begun, Option.bind_some] at taken
  obtain ⟨added, entered_eq, said⟩ := entered_run _ _ later (by simp [Inside]) taken
  refine ⟨String.ofList start, added, value, others,
    continued _ _ _ _ _ _ _ _ rest followed followedRest, entered_eq, ?_, ?_⟩
  · intro name member
    obtain ⟨token, among, speaks⟩ := said name newModel member
    have heard : token ∈ (run (lexStep numbers) (.inText []) (newModel.toList ++ ['"'])).1 := by
      rw [spoken]
      exact List.mem_cons_of_mem _ among
    have plain := plain_of_spoken numbers newModel token heard speaks
    rw [quoted_plain numbers newModel plain] at spoken
    simp only [List.cons.injEq] at spoken
    rw [← spoken.2] at among
    exact List.not_mem_nil among
  · rintro rfl
    refine plain_of_spoken numbers _ (.text start) ?_ (Or.inl (by rw [String.toList_ofList]))
    rw [spoken]
    exact List.mem_cons_self

/-- What two lookups share is not found where they find different values. -/
theorem or_apart {α : Type} {common left right : Option α} {a b : α} (differ : a ≠ b)
    (first : common.or left = some a) (second : common.or right = some b) :
    common = none ∧ left = some a ∧ right = some b := by
  cases common with
  | none => exact ⟨rfl, by simpa using first, by simpa using second⟩
  | some held =>
      rw [Option.some_or] at first second
      exact absurd (Option.some.inj (first.symm.trans second)) differ

theorem or_silent {α : Type} {early rest : Option α} {a : α}
    (silent : ∀ held, early = some held → held ≠ a) (found : early.or rest = some a) :
    rest = some a := by
  cases early with
  | none => simpa using found
  | some held => exact absurd (Option.some.inj found) (silent held rfl)

/-- The names agree on the last member "model" of both documents only where the match is it. -/
theorem match_is_member (text before behind : List Char) (oldModel newModel opening : String)
    (fields : List (String × Json)) (whole : read numbers text = some (.object fields))
    (named : Json.field "model" fields = some (.string oldModel))
    (known : opening = compactOpening ∨ opening = spacedOpening)
    (split : text = before ++ needle opening oldModel ++ behind)
    (plainOld : Plain oldModel.toList) (differ : oldModel ≠ newModel)
    (changes : read numbers (before ++ needle opening newModel ++ behind) =
      some (.object (Json.insert "model" (.string newModel) fields))) :
    Plain newModel.toList ∧ NamesModel numbers text before oldModel := by
  obtain ⟨listed, found, rfl⟩ := read_object numbers text fields whole
  obtain ⟨listedNew, replaced, sameFields⟩ := read_object numbers _ _ changes
  have namedOld := (last_member "model" oldModel listed).mp named
  have namedNew := (last_member "model" newModel listedNew).mp (by
    rw [← sameFields, Json.field_insert, if_pos rfl])
  have foundHere := found
  rw [split] at foundHere
  obtain ⟨key, members, frames, matched⟩ :=
    matched_of_document numbers before behind opening oldModel known _ foundHere
  obtain ⟨first, added, value, others, continued, entered_eq, quiet, spoken⟩ :=
    replaced_documents numbers before behind oldModel newModel opening key members frames matched
      plainOld _ _ foundHere replaced
  have silent : ∀ held, Json.field "model" added.reverse = some held → held ≠ .string newModel := by
    rintro held present rfl
    exact quiet "model" (List.mem_reverse.mp (Json.field_mem _ _ _ present))
  have apart : Json.string oldModel ≠ .string newModel := fun same => differ (Json.string.inj same)
  rcases continued with ⟨later, rfl, wholeEq, changedEq⟩ |
    ⟨later, name, other, node, changedNode, contained, changedContained, around, wholeEq,
      changedEq⟩ | ⟨items, wholeEq⟩
  · have parts : listed = members ++ (String.ofList key, .string oldModel) :: later := by
      simpa [entered, afterMembers] using wholeEq
    have partsNew : listedNew =
        members ++ (String.ofList key, .string first) :: (added ++ later) := by
      rw [entered_eq] at changedEq
      simpa [entered, afterMembers] using changedEq
    rw [parts, last_of_parts] at namedOld
    rw [partsNew, last_of_parts, List.reverse_append, Json.field_append, Option.or_assoc] at namedNew
    obtain ⟨last, oldHere, newLater⟩ := or_apart apart namedOld namedNew
    have newHere := or_silent silent newLater
    by_cases here : "model" = String.ofList key
    · rw [if_pos here] at newHere
      have same : key = modelKey := by
        rw [← String.toList_ofList (l := key), ← here]
        decide
      subst same
      refine ⟨spoken (Json.string.inj (Option.some.inj newHere)), members, later,
        matched_top_members numbers before opening members matched, ?_,
        (field_none_iff "model" later).mp last⟩
      rw [found, parts, model_key]
    · rw [if_neg here] at oldHere newHere
      exact absurd (Option.some.inj (oldHere.symm.trans newHere)) apart
  · have parts := Json.object.inj wholeEq
    have partsNew := Json.object.inj changedEq
    rw [entered_eq, nested_members _ (.string oldModel) _ frames around] at partsNew
    rw [parts, last_of_parts] at namedOld
    rw [partsNew, last_of_parts, List.reverse_append, Json.field_append] at namedNew
    obtain ⟨-, oldHere, newHere⟩ := or_apart apart namedOld namedNew
    -- the container around the match is no name
    have notHere : "model" ≠ name := by
      intro here
      rw [if_pos here] at oldHere
      exact container_no_string node contained oldModel (Option.some.inj oldHere)
    have notThere : "model" ≠ other := by
      intro here
      rw [if_pos here] at newHere
      exact container_no_string changedNode changedContained newModel (Option.some.inj newHere)
    rw [if_neg notHere] at oldHere
    rw [if_neg notThere] at newHere
    have newOuter := or_silent silent newHere
    exact absurd (Option.some.inj (oldHere.symm.trans newOuter)) apart
  · cases wholeEq

/-- Printed with another name, a document is read as changed exactly if its numbers come back. -/
theorem printed_changed_iff (serde : Reads numbers codec) (text : List Char)
    (oldModel newModel : String) (fields : List (String × Json))
    (whole : read numbers text = some (.object fields))
    (named : Json.field "model" fields = some (.string oldModel)) :
    read numbers (codec.toString
        (.object (Json.insert "model" (.string newModel) fields))).toList =
      some (.object (Json.insert "model" (.string newModel) fields)) ↔
    ∀ number ∈ numbersOf (.object fields), reread numbers codec number = number := by
  obtain ⟨node, -, same⟩ := Option.map_eq_some_iff.mp whole
  have value : canonical (.object fields) = .object fields := by
    rw [← same, canonical_again]
  obtain ⟨members, -, rfl⟩ := read_object numbers text fields whole
  rw [serde.prints _ (canonical_insert "model" newModel _ value), Option.some.injEq]
  exact insert_fixed_iff _ "model" oldModel newModel _ (insert_held "model" _ _ named)

/-- The fast path against the JSON path: where the first match is the last "model" of the
outermost object and both names stand in a string as they are, or nothing matches, the
document is parsed and its numbers come back, the function changes the field and nothing else;
for a name that stands in a string as it is, nowhere else. -/
theorem replacement_changes_field (text oldModel newModel : String) (fields : List (String × Json))
    (whole : read numbers text.toList = some (.object fields))
    (named : Json.field "model" fields = some (.string oldModel)) (serde : Reads numbers codec) :
    (Replaceable numbers codec text oldModel newModel fields →
      ChangesField numbers codec text oldModel newModel fields) ∧
    (Plain oldModel.toList → ChangesField numbers codec text oldModel newModel fields →
      Replaceable numbers codec text oldModel newModel fields) := by
  unfold Replaceable ChangesField
  rw [replace_cases]
  cases found : firstMatch text.toList oldModel with
  | none =>
      dsimp only
      cases parsed : codec.fromSlice text.toUTF8 with
      | none => simp
      | some value =>
          obtain rfl := Option.some.inj ((serde.parses text value parsed).symm.trans whole)
          have printed := printed_changed_iff numbers codec serde text.toList oldModel newModel
            fields whole named
          refine ⟨fun kept => ⟨_, rfl, printed.mpr kept.2⟩, ?_⟩
          rintro - ⟨out, written, changed⟩
          obtain rfl : codec.toString (.object (Json.insert "model" (.string newModel) fields)) =
              out := String.toByteArray_inj.mp (Option.some.inj (Option.some.inj written))
          exact ⟨rfl, printed.mp changed⟩
  | some place =>
      obtain ⟨opening, before, behind⟩ := place
      obtain ⟨known, split⟩ := first_match_spec _ _ _ _ _ found
      dsimp only
      constructor
      · rintro (rfl | ⟨plainOld, plainNew, names⟩)
        · refine ⟨text, by rw [← split, String.ofList_toList], ?_⟩
          obtain ⟨members, -, rfl⟩ := read_object numbers _ _ whole
          rw [whole, insert_held "model" _ _ named]
        · refine ⟨_, rfl, ?_⟩
          rw [String.toList_ofList]
          exact named_replaced numbers _ before behind oldModel newModel opening fields whole known
            split plainOld plainNew names
      · rintro plainOld ⟨out, written, changed⟩
        by_cases same : oldModel = newModel
        · exact Or.inl same
        · obtain rfl : String.ofList (before ++ needle opening newModel ++ behind) = out :=
            String.toByteArray_inj.mp (Option.some.inj (Option.some.inj written))
          rw [String.toList_ofList] at changed
          exact Or.inr ⟨plainOld, match_is_member numbers _ before behind oldModel newModel opening
            fields whole named known split plainOld same changed⟩

end Replacement

/-- Whole numbers, as far as the bodies below write any. -/
def digitNumbers : NumberReader where
  read digits :=
    if digits ≠ [] ∧ digits.all Char.isDigit then
      some (.posInt (digits.foldl (fun value digit => 10 * value + (digit.toNat - 48)) 0))
    else none
  written digits number found c member := by
    split at found
    · next shown => simp [isNumberChar, List.all_eq_true.mp shown.2 c member]
    · cases found

def plainText : String := "\x7b\"model\":\"old-model\",\"messages\":[]\x7d"

def plainFields (model : String) : List (String × Json) :=
  [("messages", .array []), ("model", .string model)]

def digitText : Number → List Char
  | .posInt value => Nat.toDigits 10 value
  | .negInt _ | .float _ => ['0']

/-- A codec that reads whole numbers and writes the others as zero. -/
def plainCodec : Codec where
  fromSlice bytes := (String.fromUTF8? bytes).bind fun text => read digitNumbers text.toList
  toString value := String.ofList (print digitText value)

theorem digit_text_readable : Readable digitNumbers digitText fun number =>
    (digitNumbers.read (digitText number)).getD number := by
  have filled : ∀ number, digitText number ≠ [] := by
    rintro (value | value | value)
    · exact Nat.toDigits_ne_nil
    · exact List.cons_ne_nil _ _
    · exact List.cons_ne_nil _ _
  have numeric : ∀ number, (digitText number).all Char.isDigit = true := by
    rintro (value | value | value)
    · exact List.all_eq_true.mpr fun c => Nat.isDigit_of_mem_toDigits (by decide) (by decide)
    · rfl
    · rfl
  refine ⟨filled, fun number => ?_⟩
  have known : digitNumbers.read (digitText number) = some (.posInt ((digitText number).foldl
      (fun value digit => 10 * value + (digit.toNat - 48)) 0)) :=
    if_pos ⟨filled number, numeric number⟩
  rw [known, Option.getD_some]

theorem plain_codec_reads : Reads digitNumbers plainCodec := by
  have printed : ∀ value, read digitNumbers (plainCodec.toString value).toList =
      some (canonical (renumber (fun number =>
        (digitNumbers.read (digitText number)).getD number) value)) := by
    intro value
    rw [plainCodec, String.toList_ofList, JsonText.read, document_printed digit_text_readable,
      Option.map_some]
  have comes : reread digitNumbers plainCodec = fun number =>
      (digitNumbers.read (digitText number)).getD number := by
    funext number
    rw [reread, printed]
    rfl
  constructor
  · intro text value parsed
    change (String.fromUTF8? text.toUTF8).bind (fun text => read digitNumbers text.toList) =
      some value at parsed
    rwa [Utf8.decode_text] at parsed
  · intro value document
    rw [printed, canonical_renumber, document, comes]

def spacedText : String := "\x7b\"model\" : \"old-model\",\"max_tokens\":1024\x7d"

def spacedFields (model : String) : List (String × Json) :=
  [("max_tokens", .number (.posInt 1024)), ("model", .string model)]

/-- One body whose name is found in its text, and one that is parsed. -/
theorem plain_model_replaced :
    ChangesField digitNumbers plainCodec plainText "old-model" "new-model"
        (plainFields "old-model") ∧
      ChangesField digitNumbers plainCodec spacedText "old-model" "new-model"
        (spacedFields "old-model") := by
  constructor
  · have matched : firstMatch plainText.toList "old-model" =
        some (compactOpening, ['{'], ",\"messages\":[]\x7d".toList) := by decide +kernel
    have names : Replaceable digitNumbers plainCodec plainText "old-model" "new-model"
        (plainFields "old-model") := by
      unfold Replaceable
      rw [matched]
      exact Or.inr ⟨by decide +kernel, by decide +kernel, [], [("messages", .array [])],
        by decide +kernel, by decide +kernel, by decide⟩
    exact (replacement_changes_field digitNumbers plainCodec plainText "old-model" "new-model"
      (plainFields "old-model") (by decide +kernel) (by decide) plain_codec_reads).1 names
  · have unmatched : firstMatch spacedText.toList "old-model" = none := by decide +kernel
    have comes : Replaceable digitNumbers plainCodec spacedText "old-model" "new-model"
        (spacedFields "old-model") := by
      unfold Replaceable
      rw [unmatched]
      exact ⟨by decide +kernel, by decide +kernel⟩
    exact (replacement_changes_field digitNumbers plainCodec spacedText "old-model" "new-model"
      (spacedFields "old-model") (by decide +kernel) (by decide) plain_codec_reads).1 comes

def nestedText : String := "\x7b\"metadata\":\x7b\"model\":\"m1\"\x7d,\"model\":\"m1\"\x7d"

def nestedFields (inner model : String) : List (String × Json) :=
  [("metadata", .object [("model", .string inner)]), ("model", .string model)]

/-- The name inside the metadata comes first and is the one that is replaced. -/
theorem nested_model_replaced :
    read digitNumbers nestedText.toList = some (.object (nestedFields "m1" "m1")) ∧
      Json.field "model" (nestedFields "m1" "m1") = some (.string "m1") ∧
      ∀ codec, ¬ ChangesField digitNumbers codec nestedText "m1" "m2" (nestedFields "m1" "m1") := by
  refine ⟨by decide +kernel, by decide, ?_⟩
  rintro codec ⟨out, written, changed⟩
  have matched : firstMatch nestedText.toList "m1" =
      some (compactOpening, "\x7b\"metadata\":\x7b".toList, "\x7d,\"model\":\"m1\"\x7d".toList) := by
    decide +kernel
  rw [replace_cases, matched] at written
  obtain rfl : String.ofList ("\x7b\"metadata\":\x7b".toList ++ needle compactOpening "m2" ++
      "\x7d,\"model\":\"m1\"\x7d".toList) = out :=
    String.toByteArray_inj.mp (Option.some.inj (Option.some.inj written))
  have other : read digitNumbers (String.ofList ("\x7b\"metadata\":\x7b".toList ++
      needle compactOpening "m2" ++ "\x7d,\"model\":\"m1\"\x7d".toList)).toList =
        some (.object (nestedFields "m2" "m1")) := by decide +kernel
  rw [other] at changed
  revert changed
  decide +kernel

end Ccflare.ModelReplacement
