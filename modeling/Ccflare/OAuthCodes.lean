import Ccflare.OAuthSessions
import Mathlib

/-!
The ways to paste an authorisation code. A user pastes the URL of the callback page or what
it shows; the code and the state in it are found by two functions, of which the first looks
for a fragment and a query and the second for a state that is still in the code.
-/

namespace Ccflare.OAuthCodes

open OAuthSessions

/-- The code and the encoded state that `exchange_and_persist` goes on with. -/
def codeAndState (codeInput : String) (explicitState : Option String) : Option (String × String) :=
  match explicitState with
  | some state => some (codeInput, state)
  | none => splitOnce '#' codeInput

/-- What `oauth_complete` exchanges, if it finds a state. -/
def oauthComplete (input : String) : Option (String × String) :=
  let (code, explicitState) := extractCodeFromInput input
  codeAndState code explicitState

/-- The exchange asks for the entry of the state that is found. -/
theorem exchange_eq (decode : String → Option String) (codeInput : String)
    (explicitState : Option String) :
    exchange decode codeInput explicitState =
      match codeAndState codeInput explicitState with
      | none => .rejected ("Missing OAuth state. Paste the full URL or the code#state value from " ++
          "the callback page.")
      | some (_, encoded) =>
          match decode encoded with
          | none => .rejected "Invalid OAuth state parameter"
          | some csrfToken => .seeking csrfToken := by
  cases explicitState with
  | some state => rfl
  | none =>
      cases found : splitOnce '#' codeInput with
      | none => simp [exchange, codeAndState, found]
      | some parts =>
          cases reread : decode parts.2 with
          | none => simp [exchange, codeAndState, found, reread]
          | some csrfToken => simp [exchange, codeAndState, found, reread]

section Splitting

theorem join_split (mark : Char) (params : List String) (some : params ≠ [])
    (unmarked : ∀ param ∈ params, mark ∉ param.toList) :
    ((Text.joinWith (String.singleton mark) params).toList.splitOn mark).map String.ofList =
      params := by
  induction params with
  | nil => exact absurd rfl some
  | cons first rest ih =>
      have here := unmarked first List.mem_cons_self
      cases rest with
      | nil =>
          rw [Text.joinWith, List.splitOn_eq_singleton here]
          simp
      | cons next rest =>
          have later := ih (by simp) fun param member =>
            unmarked param (List.mem_cons_of_mem first member)
          rw [Text.join_with_cons, String.toList_append, String.toList_append]
          simp only [String.toList_singleton, List.append_assoc, List.singleton_append]
          rw [List.splitOn_append_cons_self, List.splitOn_eq_singleton here, List.map_append, later]
          simp

theorem unescape_plain (text rest : List Char) (plain : '%' ∉ text) :
    unescapeHash (text ++ rest) = text ++ unescapeHash rest := by
  induction text with
  | nil => rfl
  | cons c text ih =>
      obtain ⟨other, later⟩ := List.mem_cons.not.mp plain |> not_or.mp
      rw [List.cons_append, unescapeHash.eq_def]
      split
      · rename_i same
        exact absurd (List.cons.inj same).1.symm other
      · rename_i same
        obtain ⟨rfl, rfl⟩ := List.cons.inj same
        rw [ih later, List.cons_append]
      · rename_i same
        cases same

end Splitting

/-- Letters, digits, `-` and `_`, and at least one of them. -/
structure UrlSafe (text : String) : Prop where
  some : text ≠ ""
  alphabet : ∀ c ∈ text.toList, c.isAlphanum = true ∨ c = '-' ∨ c = '_'

/-- What a URL has before its query. -/
structure Location (location : String) : Prop where
  scheme : Text.startsWith "http://" location = true ∨ Text.startsWith "https://" location = true
  unfragmented : '#' ∉ location.toList
  unqueried : '?' ∉ location.toList

/-- A parameter of a URL that is neither the code nor the state. -/
structure Other (param : String) : Prop where
  single : '&' ∉ param.toList
  unfragmented : '#' ∉ param.toList
  solid : ∀ c ∈ param.toList, Text.isWhiteSpace c = false
  key : Text.startsWith "code=" param = false ∧ Text.startsWith "state=" param = false

/-- The texts that carry a code and a state. -/
inductive Pasted (code state : String) : String → Prop where
  | parameters (location : String) (params : List String) : Location location →
      "code=" ++ code ∈ params → "state=" ++ state ∈ params →
      (∀ param ∈ params, param = "code=" ++ code ∨ param = "state=" ++ state ∨ Other param) →
      Pasted code state (location ++ "?" ++ Text.joinWith "&" params)
  | fragment (location : String) : Location location →
      Pasted code state (location ++ "?code=" ++ code ++ "#" ++ state)
  | escaped (location : String) : Location location →
      Pasted code state (location ++ "?code=" ++ code ++ "%23" ++ state)
  | bare : Text.startsWith "http" code = false → Pasted code state (code ++ "#" ++ state)

section Reading
variable {code state : String}

-- The alphabet has none of the separators.
theorem UrlSafe.plain {text : String} (safe : UrlSafe text) (separator : Char)
    (separates : separator ∈ ['#', '&', '%', '?']) : separator ∉ text.toList := by
  intro member
  have apart : ∀ c ∈ ['#', '&', '%', '?'], ¬ (c.isAlphanum = true ∨ c = '-' ∨ c = '_') :=
    List.all_iff_forall_prop.mp (by decide)
  exact apart separator separates (safe.alphabet separator member)

theorem UrlSafe.solid {text : String} (safe : UrlSafe text) :
    ∀ c ∈ text.toList, Text.isWhiteSpace c = false := by
  intro c member
  rcases safe.alphabet c member with letter | rfl | rfl
  · simp only [Char.isAlphanum, Char.isAlpha, Char.isUpper, Char.isLower, Char.isDigit,
      Bool.or_eq_true, Bool.and_eq_true, decide_eq_true_eq, ge_iff_le, UInt32.le_iff_toNat_le] at letter
    change ((65 ≤ c.toNat ∧ c.toNat ≤ 90) ∨ (97 ≤ c.toNat ∧ c.toNat ≤ 122)) ∨
      (48 ≤ c.toNat ∧ c.toNat ≤ 57) at letter
    simp only [Text.isWhiteSpace, Bool.or_eq_false_iff, Bool.and_eq_false_iff,
      decide_eq_false_iff_not, beq_eq_false_iff_ne]
    omega
  · decide
  · decide

theorem read_code (found : Option String × Option String) (value : String) :
    readParam found ("code=" ++ value) =
      (some (String.ofList (unescapeHash value.toList)), found.2) := by
  have split := split_once_append '=' "code".toList value.toList (by decide)
  have whole : "code=" ++ value = String.ofList ("code".toList ++ '=' :: value.toList) := by
    apply String.toList_inj.mp
    simp [String.toList_append]
  rw [readParam, whole, split, String.ofList_toList, String.ofList_toList]
  rfl

theorem read_state (found : Option String × Option String) (value : String) :
    readParam found ("state=" ++ value) = (found.1, some value) := by
  have split := split_once_append '=' "state".toList value.toList (by decide)
  have whole : "state=" ++ value = String.ofList ("state".toList ++ '=' :: value.toList) := by
    apply String.toList_inj.mp
    simp [String.toList_append]
  rw [readParam, whole, split, String.ofList_toList, String.ofList_toList]
  rfl

theorem read_other (found : Option String × Option String) (param : String) (other : Other param) :
    readParam found param = found := by
  unfold readParam
  split
  · rename_i value split
    have whole := split_once_spec '=' param _ _ split
    have key := other.key.1
    rw [Text.startsWith, whole] at key
    simp at key
  · rename_i value split
    have whole := split_once_spec '=' param _ _ split
    have key := other.key.2
    rw [Text.startsWith, whole] at key
    simp at key
  · rfl

theorem unescape_safe (safe : UrlSafe code) : String.ofList (unescapeHash code.toList) = code := by
  have plain := unescape_plain code.toList [] (safe.plain '%' (by decide))
  rw [List.append_nil] at plain
  rw [plain, unescapeHash, List.append_nil, String.ofList_toList]

/-- The parameters are read in whatever order they come. -/
theorem read_params (safe : UrlSafe code) (params : List String)
    (found : Option String × Option String)
    (each : ∀ param ∈ params,
      param = "code=" ++ code ∨ param = "state=" ++ state ∨ Other param) :
    ("code=" ++ code ∈ params ∨ found.1 = some code →
      (params.foldl readParam found).1 = some code) ∧
    ("state=" ++ state ∈ params ∨ found.2 = some state →
      (params.foldl readParam found).2 = some state) := by
  induction params generalizing found with
  | nil => simp
  | cons param rest ih =>
      have later := ih (readParam found param) fun other member =>
        each other (List.mem_cons_of_mem param member)
      have coded := read_code found code
      have stated := read_state found state
      rw [unescape_safe safe] at coded
      rw [List.foldl_cons]
      refine ⟨fun seen => later.1 ?_, fun seen => later.2 ?_⟩
      · rcases seen with listed | before
        · rcases List.mem_cons.mp listed with rfl | behind
          · exact .inr (by rw [coded])
          · exact .inl behind
        · rcases each param List.mem_cons_self with rfl | rfl | other
          · exact .inr (by rw [coded])
          · exact .inr (by rw [stated, before])
          · exact .inr (by rw [read_other found param other, before])
      · rcases seen with listed | before
        · rcases List.mem_cons.mp listed with rfl | behind
          · exact .inr (by rw [stated])
          · exact .inl behind
        · rcases each param List.mem_cons_self with rfl | rfl | other
          · exact .inr (by rw [coded, before])
          · exact .inr (by rw [stated])
          · exact .inr (by rw [read_other found param other, before])

/-- What is read of the query of a URL. -/
def queryParams (query : List Char) : Option String × Option String :=
  ((query.splitOn '&').map String.ofList).foldl readParam (none, none)

theorem query_url (location query : List Char) (unqueried : '?' ∉ location)
    (unfragmented : '#' ∉ location ++ '?' :: query) :
    codeOfUrl (String.ofList (location ++ '?' :: query)) =
      (queryParams query).1.map fun code => (code, (queryParams query).2) := by
  have whole := split_once_none '#' (String.ofList (location ++ '?' :: query))
    (by rwa [String.toList_ofList])
  have split := split_once_append '?' location query unqueried
  simp only [codeOfUrl, whole, split, queryParams, String.toList_ofList, Option.bind_none,
    Option.or_none]

theorem fragment_url (location query fragment : List Char) (unqueried : '?' ∉ location)
    (unfragmented : '#' ∉ location ++ '?' :: query) (some : fragment ≠ []) :
    codeOfUrl (String.ofList ((location ++ '?' :: query) ++ '#' :: fragment)) =
      (queryParams query).1.map fun code =>
        (code, (queryParams query).2.or (.some (String.ofList fragment))) := by
  have whole := split_once_append '#' (location ++ '?' :: query) fragment unfragmented
  have split := split_once_append '?' location query unqueried
  have full : String.ofList fragment ≠ "" := by
    simpa [← String.toList_inj] using some
  simp only [codeOfUrl, whole, split, queryParams, String.toList_ofList, Option.bind_some,
    if_neg full]

end Reading

section Complete
variable {code state : String}

theorem join_all (holds : Char → Prop) (params : List String) (separator : holds '&')
    (all : ∀ param ∈ params, ∀ c ∈ param.toList, holds c) :
    ∀ c ∈ (Text.joinWith "&" params).toList, holds c := by
  induction params with
  | nil => simp [Text.joinWith]
  | cons first rest ih =>
      have here := all first List.mem_cons_self
      have later := ih fun param member => all param (List.mem_cons_of_mem first member)
      cases rest with
      | nil => exact here
      | cons next rest =>
          intro c member
          rw [Text.join_with_cons, String.toList_append, String.toList_append] at member
          rcases List.mem_append.mp member with before | behind
          · rcases List.mem_append.mp before with mine | mark
            · exact here c mine
            · rw [List.mem_singleton.mp mark]
              exact separator
          · exact later c behind

theorem location_start (location : String) (located : Location location) :
    ∃ rest, location.toList = 'h' :: 't' :: 't' :: 'p' :: rest := by
  rcases located.scheme with plain | secure
  · obtain ⟨rest, whole⟩ := List.isPrefixOf_iff_prefix.mp plain
    exact ⟨_, whole.symm⟩
  · obtain ⟨rest, whole⟩ := List.isPrefixOf_iff_prefix.mp secure
    exact ⟨_, whole.symm⟩

theorem location_http (location : String) (located : Location location) (rest : List Char) :
    Text.startsWith "http" (String.ofList (location.toList ++ rest)) = true := by
  obtain ⟨more, whole⟩ := location_start location located
  rw [Text.startsWith, whole, String.toList_ofList]
  simp

/-- White space around a text that ends in something solid is dropped. -/
theorem trim_around (left right : String) (first : Char) (start ending : List Char)
    (before : ∀ c ∈ left.toList, Text.isWhiteSpace c = true)
    (after : ∀ c ∈ right.toList, Text.isWhiteSpace c = true)
    (begins : Text.isWhiteSpace first = false) (some : ending ≠ [])
    (solid : ∀ c ∈ ending, Text.isWhiteSpace c = false) :
    Text.trim (left ++ String.ofList (first :: start ++ ending) ++ right) =
      String.ofList (first :: start ++ ending) := by
  apply Text.trim_padded left _ right before after
  · exact ⟨first, by simp, begins⟩
  · intro c last
    rw [String.toList_ofList, List.getLast?_append_of_ne_nil _ some] at last
    exact solid c (List.mem_of_getLast? last)

theorem trim_url (left right location : String) (located : Location location) (ending : List Char)
    (before : ∀ c ∈ left.toList, Text.isWhiteSpace c = true)
    (after : ∀ c ∈ right.toList, Text.isWhiteSpace c = true) (some : ending ≠ [])
    (solid : ∀ c ∈ ending, Text.isWhiteSpace c = false) :
    Text.trim (left ++ String.ofList (location.toList ++ ending) ++ right) =
      String.ofList (location.toList ++ ending) := by
  obtain ⟨rest, start⟩ := location_start location located
  rw [start]
  exact trim_around left right 'h' ('t' :: 't' :: 'p' :: rest) ending before after (by decide) some
    solid

theorem query_single (value : String) (single : '&' ∉ value.toList) :
    queryParams ("code=" ++ value).toList =
      (some (String.ofList (unescapeHash value.toList)), none) := by
  have whole : '&' ∉ ("code=" ++ value).toList := by
    rw [String.toList_append]
    intro member
    rcases List.mem_append.mp member with name | inside
    · exact absurd name (by decide)
    · exact single inside
  rw [queryParams, List.splitOn_eq_singleton whole]
  simp only [List.map_cons, List.map_nil, String.ofList_toList, List.foldl_cons, List.foldl_nil,
    read_code]

theorem extract_url (input text : String) (pair : String × Option String)
    (trimmed : Text.trim input = text) (http : Text.startsWith "http" text = true)
    (found : codeOfUrl text = some pair) : extractCodeFromInput input = pair := by
  simp only [extractCodeFromInput, trimmed, http, if_true, found]

theorem extract_bare (input text code state : String) (trimmed : Text.trim input = text)
    (other : Text.startsWith "http" text = false) (split : splitOnce '#' text = some (code, state)) :
    extractCodeFromInput input = (code, some state) := by
  simp only [extractCodeFromInput, trimmed, other, Bool.false_eq_true, if_false, split]

theorem clean_query (location : String) (located : Location location) (query : List Char)
    (clean : ∀ c ∈ query, c ≠ '#') : '#' ∉ location.toList ++ '?' :: query := by
  intro member
  rcases List.mem_append.mp member with early | late
  · exact located.unfragmented early
  · rcases List.mem_cons.mp late with same | inside
    · exact absurd same (by decide)
    · exact clean '#' inside rfl

theorem query_solid (query : List Char) (solid : ∀ c ∈ query, Text.isWhiteSpace c = false) :
    ∀ c ∈ '?' :: query, Text.isWhiteSpace c = false := by
  intro c member
  rcases List.mem_cons.mp member with rfl | inside
  · decide
  · exact solid c inside

/-- What is read of a URL without a fragment, whatever white space is around it. -/
theorem extract_query (left right location : String) (located : Location location)
    (query : List Char) (before : ∀ c ∈ left.toList, Text.isWhiteSpace c = true)
    (after : ∀ c ∈ right.toList, Text.isWhiteSpace c = true)
    (clean : ∀ c ∈ query, c ≠ '#' ∧ Text.isWhiteSpace c = false) (code : String)
    (coded : (queryParams query).1 = some code) :
    extractCodeFromInput (left ++ String.ofList (location.toList ++ '?' :: query) ++ right) =
      (code, (queryParams query).2) := by
  have solid := query_solid query fun c member => (clean c member).2
  have trimmed := trim_url left right location located ('?' :: query) before after (by simp) solid
  have unfragmented := clean_query location located query fun c member => (clean c member).1
  have found := query_url location.toList query located.unqueried unfragmented
  rw [coded] at found
  exact extract_url _ _ _ trimmed (location_http location located _) found

/-- Neither a separator of parameters nor white space. -/
def Clean (c : Char) : Prop := c ≠ '&' ∧ c ≠ '#' ∧ Text.isWhiteSpace c = false

theorem safe_clean (safe : UrlSafe code) : ∀ c ∈ code.toList, Clean c := by
  intro c member
  refine ⟨?_, ?_, safe.solid c member⟩
  · rintro rfl
    exact safe.plain '&' (by decide) member
  · rintro rfl
    exact safe.plain '#' (by decide) member

theorem param_clean (safe : UrlSafe code) (name : String) (named : ∀ c ∈ name.toList, Clean c) :
    ∀ c ∈ (name ++ code).toList, Clean c := by
  intro c member
  rw [String.toList_append] at member
  rcases List.mem_append.mp member with early | late
  · exact named c early
  · exact safe_clean safe c late

theorem name_clean : (∀ c ∈ "code=".toList, Clean c) ∧ ∀ c ∈ "state=".toList, Clean c := by
  unfold Clean
  exact ⟨List.all_iff_forall_prop.mp (by decide), List.all_iff_forall_prop.mp (by decide)⟩

theorem other_clean (param : String) (other : Other param) : ∀ c ∈ param.toList, Clean c := by
  intro c member
  refine ⟨?_, ?_, other.solid c member⟩
  · rintro rfl
    exact other.single member
  · rintro rfl
    exact other.unfragmented member

variable (codeSafe : UrlSafe code) (stateSafe : UrlSafe state) {left right : String}
  (before : ∀ c ∈ left.toList, Text.isWhiteSpace c = true)
  (after : ∀ c ∈ right.toList, Text.isWhiteSpace c = true)
include codeSafe stateSafe before after

theorem complete_parameters (location : String) (params : List String) (located : Location location)
    (coded : "code=" ++ code ∈ params) (stated : "state=" ++ state ∈ params)
    (each : ∀ param ∈ params,
      param = "code=" ++ code ∨ param = "state=" ++ state ∨ Other param) :
    oauthComplete (left ++ (location ++ "?" ++ Text.joinWith "&" params) ++ right) =
      some (code, state) := by
  have clean : ∀ param ∈ params, ∀ c ∈ param.toList, Clean c := by
    intro param listed
    rcases each param listed with rfl | rfl | other
    · exact param_clean codeSafe _ name_clean.1
    · exact param_clean stateSafe _ name_clean.2
    · exact other_clean param other
  have joined : ∀ c ∈ (Text.joinWith "&" params).toList, c ≠ '#' ∧ Text.isWhiteSpace c = false :=
    join_all _ params (by decide) fun param listed c member => (clean param listed c member).2
  have text : location ++ "?" ++ Text.joinWith "&" params =
      String.ofList (location.toList ++ '?' :: (Text.joinWith "&" params).toList) := by
    apply String.toList_inj.mp
    simp [String.toList_append]
  have split := join_split '&' params (List.ne_nil_of_mem coded) fun param listed member =>
    (clean param listed '&' member).1 rfl
  have read := read_params codeSafe params (none, none) each
  have query : queryParams (Text.joinWith "&" params).toList = (some code, some state) := by
    rw [queryParams]
    change (((Text.joinWith (String.singleton '&') params).toList.splitOn '&').map
      String.ofList).foldl readParam (none, none) = _
    rw [split]
    exact Prod.ext (read.1 (.inl coded)) (read.2 (.inl stated))
  rw [oauthComplete, text, extract_query left right location located _ before after joined code
    (by rw [query]), query]
  rfl

theorem complete_fragment (location : String) (located : Location location) :
    oauthComplete (left ++ (location ++ "?code=" ++ code ++ "#" ++ state) ++ right) =
      some (code, state) := by
  have clean := param_clean codeSafe _ name_clean.1
  have text : location ++ "?code=" ++ code ++ "#" ++ state =
      String.ofList (location.toList ++ ('?' :: ("code=" ++ code).toList ++ '#' :: state.toList)) := by
    apply String.toList_inj.mp
    simp [String.toList_append]
  have full : state.toList ≠ [] := fun empty => stateSafe.some (String.toList_eq_nil_iff.mp empty)
  have trimmed := trim_url left right location located
    ('?' :: ("code=" ++ code).toList ++ '#' :: state.toList) before after (by simp) (by
      intro c member
      rcases List.mem_append.mp member with early | late
      · exact query_solid _ (fun c member => (clean c member).2.2) c early
      · rcases List.mem_cons.mp late with rfl | inside
        · decide
        · exact stateSafe.solid c inside)
  have query := query_single code (codeSafe.plain '&' (by decide))
  have found := fragment_url location.toList _ state.toList located.unqueried
    (clean_query location located _ fun c member => (clean c member).2.1) full
  rw [query, unescape_safe codeSafe, List.append_assoc] at found
  rw [oauthComplete, text, extract_url _ _ (code, some state) trimmed
    (location_http location located _) (by simpa using found)]
  rfl

theorem complete_escaped (location : String) (located : Location location) :
    oauthComplete (left ++ (location ++ "?code=" ++ code ++ "%23" ++ state) ++ right) =
      some (code, state) := by
  have clean : ∀ c ∈ ("code=" ++ (code ++ "%23" ++ state)).toList, Clean c := by
    have escape : ∀ c ∈ "%23".toList, Clean c := by
      unfold Clean
      exact List.all_iff_forall_prop.mp (by decide)
    intro c member
    simp only [String.toList_append, List.mem_append] at member
    rcases member with name | (value | mark) | last
    · exact name_clean.1 c name
    · exact safe_clean codeSafe c value
    · exact escape c mark
    · exact safe_clean stateSafe c last
  have text : location ++ "?code=" ++ code ++ "%23" ++ state = String.ofList (location.toList ++
      '?' :: ("code=" ++ (code ++ "%23" ++ state)).toList) := by
    apply String.toList_inj.mp
    simp [String.toList_append]
  have single : '&' ∉ (code ++ "%23" ++ state).toList := by
    intro member
    apply (clean '&' _).1 rfl
    rw [String.toList_append]
    exact List.mem_append_right _ member
  -- The escaped separator comes out of the query as a plain one.
  have unescaped : unescapeHash (code ++ "%23" ++ state).toList =
      code.toList ++ '#' :: state.toList := by
    have last := unescape_plain state.toList [] (stateSafe.plain '%' (by decide))
    rw [List.append_nil] at last
    rw [String.toList_append, String.toList_append, List.append_assoc,
      unescape_plain code.toList _ (codeSafe.plain '%' (by decide))]
    change code.toList ++ '#' :: unescapeHash state.toList = _
    rw [last, unescapeHash, List.append_nil]
  have query := query_single _ single
  rw [unescaped] at query
  rw [oauthComplete, text, extract_query left right location located _ before after
    (fun c member => (clean c member).2) _ (by rw [query]), query]
  have split := split_once_append '#' code.toList state.toList (codeSafe.plain '#' (by decide))
  rw [String.ofList_toList, String.ofList_toList] at split
  exact split

theorem complete_bare (other : Text.startsWith "http" code = false) :
    oauthComplete (left ++ (code ++ "#" ++ state) ++ right) = some (code, state) := by
  have text : code ++ "#" ++ state = String.ofList (code.toList ++ '#' :: state.toList) := by
    apply String.toList_inj.mp
    simp [String.toList_append]
  have trimmed : Text.trim (left ++ String.ofList (code.toList ++ '#' :: state.toList) ++ right) =
      String.ofList (code.toList ++ '#' :: state.toList) := by
    cases chars : code.toList with
    | nil => exact absurd (String.toList_eq_nil_iff.mp chars) codeSafe.some
    | cons first start =>
        apply trim_around left right first start _ before after _ (by simp)
        · intro c member
          rcases List.mem_cons.mp member with rfl | inside
          · decide
          · exact stateSafe.solid c inside
        · exact codeSafe.solid first (chars ▸ List.mem_cons_self)
  -- A code that ends before `http` does is followed by a separator, which is not in it.
  have unlinked : Text.startsWith "http" (String.ofList (code.toList ++ '#' :: state.toList)) =
      false := by
    rw [Bool.eq_false_iff]
    intro http
    have chars : (String.ofList (code.toList ++ '#' :: state.toList)).toList =
        code.toList ++ '#' :: state.toList := String.toList_ofList
    have start := List.isPrefixOf_iff_prefix.mp http
    rw [chars] at start
    have whole : code.toList ++ ['#'] <+: code.toList ++ '#' :: state.toList :=
      ⟨state.toList, by simp⟩
    rcases List.prefix_or_prefix_of_prefix start whole with short | long
    · rcases List.prefix_concat_iff.mp short with same | inside
      · have mark : '#' ∈ "http".toList := same ▸ List.mem_append_right _ (List.mem_singleton_self _)
        exact absurd mark (by decide)
      · rw [Text.startsWith, List.isPrefixOf_iff_prefix.mpr inside] at other
        cases other
    · have mark : '#' ∈ "http".toList :=
        long.subset (List.mem_append_right _ (List.mem_singleton_self _))
      exact absurd mark (by decide)
  have split := split_once_append '#' code.toList state.toList (codeSafe.plain '#' (by decide))
  rw [oauthComplete, text, extract_bare _ _ _ _ trimmed unlinked split, String.ofList_toList,
    String.ofList_toList]
  rfl

end Complete

/-- However a code and its state are pasted, that code is exchanged with that state. -/
theorem pasted_complete (code state text left right : String) (codeSafe : UrlSafe code)
    (stateSafe : UrlSafe state) (pasted : Pasted code state text)
    (before : ∀ c ∈ left.toList, Text.isWhiteSpace c = true)
    (after : ∀ c ∈ right.toList, Text.isWhiteSpace c = true) :
    oauthComplete (left ++ text ++ right) = some (code, state) := by
  cases pasted with
  | parameters location params located coded stated each =>
      exact complete_parameters codeSafe stateSafe before after location params located coded stated
        each
  | fragment location located =>
      exact complete_fragment codeSafe stateSafe before after location located
  | escaped location located =>
      exact complete_escaped codeSafe stateSafe before after location located
  | bare other => exact complete_bare codeSafe stateSafe before after other

/-- A callback with a parameter before the state and a line break behind. -/
theorem callback_complete :
    oauthComplete ("" ++ ("https://console.anthropic.com/oauth/code/callback" ++ "?" ++
      Text.joinWith "&" ["state=xyz_789", "scope=user", "code=abc-123"]) ++ "\n") =
      some ("abc-123", "xyz_789") := by
  refine pasted_complete "abc-123" "xyz_789" _ "" "\n"
    ⟨by decide, List.all_iff_forall_prop.mp (by decide)⟩
    ⟨by decide, List.all_iff_forall_prop.mp (by decide)⟩
    (.parameters _ _ ⟨by decide, by decide, by decide⟩ (by decide) (by decide) ?_)
    (List.all_iff_forall_prop.mp (by decide)) (List.all_iff_forall_prop.mp (by decide))
  intro param listed
  simp only [List.mem_cons, List.not_mem_nil, or_false] at listed
  rcases listed with rfl | rfl | rfl
  · exact .inr (.inl rfl)
  · exact .inr (.inr
      ⟨by decide, by decide, List.all_iff_forall_prop.mp (by decide), by decide⟩)
  · exact .inl rfl

end Ccflare.OAuthCodes
