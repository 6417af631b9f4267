import Ccflare.JsonText
import Ccflare.Text

/-!
The document of the capacity chart, which the accounts page embeds in a script element. Every
`</` of its text is broken up by a backslash, so that the text cannot close the element, and
a reader of the document does not see the difference.
-/

namespace Ccflare.ChartData

open JsonValue JsonText Transducer

structure UsageWindow where
  label : String
  pct : Int
  resetsAtMs : Option Int

structure AccountRow where
  id : String
  name : String
  paused : Bool
  hasUsage : Bool
  usageWindows : List UsageWindow
  subscriptionTier : String

def windowJson (window : UsageWindow) : Json :=
  .object [("label", .string window.label), ("pct", Json.ofInt window.pct),
    ("resets_at_ms", window.resetsAtMs.elim .null Json.ofInt)]

section Document
-- The request rates of an account, and the multiplier of a subscription tier.
variable (reqRates multiplier : String → Json)

def accountJson (row : AccountRow) : Json :=
  .object [("id", .string row.id), ("name", .string row.name), ("paused", .bool row.paused),
    ("windows", .array ((row.usageWindows.filter fun window => 0 ≤ window.pct).map windowJson)),
    ("req_rates", reqRates row.id), ("multiplier_x", multiplier row.subscriptionTier)]

def chartData (rows : List AccountRow) (now : Int) : Json :=
  .object [("now_ms", Json.ofInt now),
    ("accounts", .array ((rows.filter AccountRow.hasUsage).map (accountJson reqRates multiplier)))]

end Document

/-- `replace("</", "<\\/")`. -/
def breakClosers : List Char → List Char
  | '<' :: '/' :: rest => '<' :: '\\' :: '/' :: breakClosers rest
  | c :: rest => c :: breakClosers rest
  | [] => []

def buildChartDataJson (codec : Codec) (reqRates multiplier : String → Json)
    (rows : List AccountRow) (now : Int) : String :=
  String.ofList (breakClosers (codec.toString (chartData reqRates multiplier rows now)).toList)

theorem break_closers_head (text : List Char) (slash : (breakClosers text).head? = some '/') :
    text.head? = some '/' := by
  induction text using breakClosers.induct with
  | case1 rest ih => cases slash
  | case2 c rest apart ih =>
      rw [breakClosers] at slash
      · simpa using slash
      · exact apart
  | case3 => cases slash

/-- No `</` is left. -/
theorem break_closers_open (text : List Char) : ¬ ['<', '/'] <:+: breakClosers text := by
  induction text using breakClosers.induct with
  | case1 rest ih =>
      rw [breakClosers, List.infix_cons_iff, List.infix_cons_iff, List.infix_cons_iff]
      simp [ih]
  | case2 c rest apart ih =>
      rw [breakClosers]
      · rw [List.infix_cons_iff]
        rintro (start | inside)
        · obtain ⟨rfl, later, same⟩ := List.cons_prefix_cons.mp start
          have slash : (breakClosers rest).head? = some '/' := by
            rw [← same]
            rfl
          have first := break_closers_head rest slash
          cases rest with
          | nil => cases first
          | cons d after =>
              obtain rfl : d = '/' := by simpa using first
              exact apart after rfl rfl
        · exact ih inside
      · exact apart
  | case3 => simp [breakClosers]

section Reading
variable (numbers : NumberReader)

/-- A scalar with an angle bracket never becomes a value. -/
def Bracketed : LexState → Prop
  | .failed => True
  | .scalar run => '<' ∈ run
  | _ => False

theorem bracketed_unread (state : LexState) (text : List Char) (bracketed : Bracketed state) :
    lexFrom numbers state text = none := by
  induction text generalizing state with
  | nil =>
      cases state with
      | failed => rfl
      | scalar run =>
          simp [lexFrom, finish, scalar_unread numbers run '<' bracketed (by decide) (by decide)]
      | _ => exact bracketed.elim
  | cons c rest ih =>
      have next : Bracketed (lexStep numbers state c).2 := by
        cases state with
        | failed => trivial
        | scalar run =>
            have unread := scalar_unread numbers run '<' bracketed (by decide) (by decide)
            by_cases ends : endsScalar c = true
            · simp [lexStep, ends, unread, Bracketed]
            · simpa [lexStep, ends, Bracketed] using Or.inl bracketed
        | _ => exact bracketed.elim
      have later := ih _ next
      have split := lex_append numbers state [c] rest
      rw [List.singleton_append, run_singleton] at split
      rw [split, later, Option.map_none]

theorem lex_cons (state : LexState) (c : Char) (rest : List Char) :
    lexFrom numbers state (c :: rest) =
      (lexFrom numbers (lexStep numbers state c).2 rest).map ((lexStep numbers state c).1 ++ ·) := by
  have split := lex_append numbers state [c] rest
  rwa [List.singleton_append, run_singleton] at split

/-- Inside a string an escaped slash is a slash; elsewhere the bracket has failed already. -/
theorem slash_step (state : LexState) (rest : List Char) :
    lexFrom numbers state ('<' :: '\\' :: '/' :: rest) =
      lexFrom numbers state ('<' :: '/' :: rest) := by
  rw [lex_cons, lex_cons numbers state '<' ('/' :: rest)]
  by_cases inside : ∃ content, state = .inText content
  · obtain ⟨content, rfl⟩ := inside
    simp [lex_cons, lexStep, readEscape]
  · have bracketed : Bracketed (lexStep numbers state '<').2 := by
      cases state with
      | inText content => exact absurd ⟨content, rfl⟩ inside
      | outside => simp [lexStep, startToken, isSpace, punctuation, Bracketed]
      | scalar run => simp [lexStep, endsScalar, isSpace, punctuation, Bracketed]
      | _ => simp [lexStep, readEscape, hexValue, Bracketed]
    rw [bracketed_unread numbers _ _ bracketed, bracketed_unread numbers _ _ bracketed]

theorem break_closers_lex (text : List Char) (state : LexState) :
    lexFrom numbers state (breakClosers text) = lexFrom numbers state text := by
  induction text using breakClosers.induct generalizing state with
  | case1 rest ih =>
      rw [breakClosers, slash_step]
      simp only [lex_cons, ih]
  | case2 c rest apart ih =>
      rw [breakClosers]
      · simp only [lex_cons, ih]
      · exact apart
  | case3 => rfl

end Reading

/-- The embedded text cannot close its script element, and every reader of JSON makes of it
the document that it makes of the text as it was printed. -/
theorem chart_data_embeds (codec : Codec) (reqRates multiplier : String → Json)
    (rows : List AccountRow) (now : Int) :
    Text.contains "</" (buildChartDataJson codec reqRates multiplier rows now) = false ∧
      ∀ numbers : NumberReader,
        JsonText.read numbers (buildChartDataJson codec reqRates multiplier rows now).toList =
          JsonText.read numbers (codec.toString (chartData reqRates multiplier rows now)).toList := by
  constructor
  · have closed := break_closers_open (codec.toString (chartData reqRates multiplier rows now)).toList
    have mark : "</".toList = ['<', '/'] := by decide
    rw [Text.contains, decide_eq_false_iff_not]
    simpa only [buildChartDataJson, String.toList_ofList, mark] using closed
  · intro numbers
    rw [buildChartDataJson, String.toList_ofList, JsonText.read, JsonText.read, document, document,
      break_closers_lex]

end Ccflare.ChartData
