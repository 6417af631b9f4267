import Ccflare.AccountAdministration
import Ccflare.MachineNumber
import Ccflare.Pages

/-!
The request history: a page of the requests a query matches, newest first, with the numbers
of requests and pages beside it, and the payload of one request as a preview.
-/

namespace Ccflare.RequestHistory

open AccountAdministration MachineNumber Pages

structure RequestsQuery where
  page : Int
  limit : Int
  account : Option String
  model : Option String
  project : Option String
  tokensOnly : Option Bool

def defaultPage : Int := 1

def defaultLimit : Int := 50

structure TokenUsage where
  promptTokens : Option Int
  completionTokens : Option Int
  totalTokens : Option Int
  costUsd : Option Rat
  inputTokens : Option Int
  cacheReadInputTokens : Option Int
  cacheCreationInputTokens : Option Int
  outputTokens : Option Int
  tokensPerSecond : Option Rat
  deriving DecidableEq

structure RequestRow where
  id : String
  timestamp : Int
  method : String
  path : String
  accountUsed : Option String
  statusCode : Option Int
  success : Option Int
  errorMessage : Option String
  responseTimeMs : Option Int
  failoverAttempts : Option Int
  model : Option String
  agentUsed : Option String
  project : Option String
  apiKeyId : Option String
  apiKeyName : Option String
  usage : TokenUsage
  deriving DecidableEq

/-- A request as it is listed; the usage is left out where only tokens are asked for. -/
structure Entry where
  id : String
  timestamp : Int
  method : String
  path : String
  accountUsed : Option String
  accountName : Option String
  statusCode : Option Int
  success : Bool
  errorMessage : Option String
  responseTimeMs : Option Int
  failoverAttempts : Int
  model : Option String
  agentUsed : Option String
  project : Option String
  apiKeyId : Option String
  apiKeyName : Option String
  usage : Option TokenUsage
  deriving DecidableEq

/-- The conditions of the clause, each with the number of its parameter. -/
inductive Condition where
  | account (index : Nat)
  | model (index : Nat)
  | project (index : Nat)

def Condition.text : Condition → String
  | .account index =>
      "account_used IN (SELECT id FROM accounts WHERE name = ?" ++ toString index ++ ")"
  | .model index => "model = ?" ++ toString index
  | .project index => "project = ?" ++ toString index

structure Clause where
  conditions : List Condition
  params : List String
  idx : Nat

def Clause.add (clause : Clause) (condition : Nat → Condition) (given : Option String) : Clause :=
  match given with
  | none => clause
  | some value =>
      ⟨clause.conditions ++ [condition clause.idx], clause.params ++ [value], clause.idx + 1⟩

def buildClause (query : RequestsQuery) : Clause :=
  ((Clause.add ⟨[], [], 1⟩ .account query.account).add .model query.model).add .project query.project

def Clause.text (clause : Clause) : String :=
  if clause.conditions.isEmpty then ""
  else "WHERE " ++ Text.joinWith " AND " (clause.conditions.map Condition.text)

section Statements
variable (accounts : Store)

def Condition.holds (params : List String) (row : RequestRow) : Condition → Bool
  | .account index =>
      accounts.rows.any fun account =>
        decide (row.accountUsed = some account.id ∧ params[index - 1]? = some account.name)
  | .model index => row.model.isSome && decide (row.model = params[index - 1]?)
  | .project index => row.project.isSome && decide (row.project = params[index - 1]?)

def matching (query : RequestsQuery) (rows : List RequestRow) : List RequestRow :=
  let clause := buildClause query
  rows.filter fun row => clause.conditions.all fun condition =>
    condition.holds accounts clause.params row

/-- The name of the account, or its id where the account is gone. -/
def accountName (row : RequestRow) : Option String :=
  match (row.accountUsed.bind accounts.findById).map Account.name with
  | some name => some name
  | none => row.accountUsed

/-- A row without a success flag cannot be read. -/
def readEntry (tokensOnly : Bool) (row : RequestRow) : Option Entry :=
  row.success.map fun success : Int =>
    { id := row.id
      timestamp := row.timestamp
      method := row.method
      path := row.path
      accountUsed := row.accountUsed
      accountName := accountName accounts row
      statusCode := row.statusCode
      success := decide (success ≠ 0)
      errorMessage := row.errorMessage
      responseTimeMs := row.responseTimeMs
      failoverAttempts := row.failoverAttempts.getD 0
      model := row.model
      agentUsed := row.agentUsed
      project := row.project
      apiKeyId := row.apiKeyId
      apiKeyName := row.apiKeyName
      usage := if tokensOnly then none else some row.usage }

end Statements

/-- `ORDER BY timestamp DESC`, whatever the order of requests of one moment. -/
structure NewestFirst where
  order : List RequestRow → List RequestRow
  perm : ∀ rows, (order rows).Perm rows
  newest : ∀ rows, (order rows).Pairwise fun a b => b.timestamp ≤ a.timestamp

inductive Listing where
  | failed (answer : Answer)
  | listed (total : Int) (totalPages : Int) (requests : List Entry)

/-- A clamp to between one and two hundred. -/
def pageLimit (query : RequestsQuery) : Int := max 1 (min 200 query.limit)

def listRequests (sort : NewestFirst) (accounts : Store) (rows : List RequestRow) (fault : Fault)
    (query : RequestsQuery) : Listing :=
  match fault with
  | .unconfigured => .failed (refuse 500 "Database not available")
  | .unavailable => .failed (refuse 500 "Database connection failed")
  | .lookup => .failed (refuse 500 "Database error")
  | fault =>
      let page := max query.page 1
      let limit := pageLimit query
      let offset := wrapI64 ((page - 1) * limit)
      let found := matching accounts query rows
      let total : Int := found.length
      let requests :=
        if fault = .statement then none
        else (Pages.page limit.toNat offset.toNat (sort.order found)).mapM
          (readEntry accounts (query.tokensOnly.getD false))
      match requests with
      | none => .failed (refuse 500 "Database error")
      | some requests => .listed total ((wrapI64 (wrapI64 (total + limit) - 1)).tdiv limit) requests

def maxBodyPreviewBytes : Nat := 32 * 1024

def isCharBoundary (text : List Char) (index : Nat) : Bool :=
  (Text.splitAtBytes index text).isSome

/-- The preview of a body and whether it is cut: at the last boundary of a character within
the limit, of the five positions looked at. -/
def truncateBody (body : Option String) : Option String × Bool :=
  match body with
  | none => (none, false)
  | some text =>
      if Text.byteLength text ≤ maxBodyPreviewBytes then (some text, false)
      else
        let position := ((List.range 5).map (maxBodyPreviewBytes - ·)).find?
          (isCharBoundary text.toList)
        ((Text.splitAt (position.getD 0) text).map Prod.fst, true)

/-- The payload of a request, found by its id, with what of it was cut. -/
def getRequestPayload (payloads : String → Option (Option String × Option String)) (fault : Fault)
    (requestId : String) : Answer :=
  match fault with
  | .unconfigured => refuse 500 "Database not available"
  | .unavailable => refuse 500 "Database connection failed"
  | .lookup | .statement => refuse 500 "Database error"
  | .none =>
      match payloads requestId with
      | none => refuse 404 "Payload not found"
      | some (requestBody, responseBody) =>
          let request := truncateBody requestBody
          let response := truncateBody responseBody
          ⟨200, .make [("requestId", .string requestId), ("requestBody", ofText request.1),
            ("responseBody", ofText response.1),
            ("meta", .make [("requestBodyTruncated", .bool request.2),
              ("responseBodyTruncated", .bool response.2)])]⟩

def Listing.requests : Listing → Option (List Entry)
  | .failed _ => none
  | .listed _ _ requests => some requests

section Pages
variable (sort : NewestFirst) (accounts : Store) (rows : List RequestRow) (query : RequestsQuery)

theorem page_limit_bounds : 1 ≤ pageLimit query ∧ pageLimit query ≤ 200 := by
  unfold pageLimit
  omega

/-- The number of pages the header gives. -/
theorem total_pages (total : Nat) (few : total < 2 ^ 62) :
    (wrapI64 (wrapI64 (total + pageLimit query) - 1)).tdiv (pageLimit query) =
      ((total + (pageLimit query).toNat - 1) / (pageLimit query).toNat : Nat) := by
  obtain ⟨low, high⟩ := page_limit_bounds query
  have small : (total : Int) < 2 ^ 62 := by exact_mod_cast few
  rw [wrap_of_in_i64 ((total : Int) + pageLimit query) (by
      unfold InI64 i64Min i64Max
      omega),
    wrap_of_in_i64 _ (by
      unfold InI64 i64Min i64Max
      omega)]
  obtain ⟨limit, same⟩ := Int.eq_ofNat_of_zero_le (show 0 ≤ pageLimit query by omega)
  have positive : 1 ≤ limit := by omega
  rw [same, Int.toNat_natCast]
  have inner : ((total : Int) + limit - 1) = ((total + limit - 1 : Nat) : Int) := by omega
  rw [inner, Int.ofNat_tdiv]

/-- The page with this number, counted from zero. -/
def pageOf (i : Nat) : List RequestRow :=
  page (pageLimit query).toNat (i * (pageLimit query).toNat) (sort.order (matching accounts query rows))

/-- A page whose offset fits a machine word is read at that offset. -/
theorem list_requests_page (i : Nat) (near : i * (pageLimit query).toNat < 2 ^ 63) :
    listRequests sort accounts rows .none { query with page := i + 1 } =
      match (pageOf sort accounts rows query i).mapM
          (readEntry accounts (query.tokensOnly.getD false)) with
      | none => .failed (refuse 500 "Database error")
      | some requests => .listed (matching accounts query rows).length
          ((wrapI64 (wrapI64 ((matching accounts query rows).length + pageLimit query) - 1)).tdiv
            (pageLimit query)) requests := by
  have low := (page_limit_bounds query).1
  have offset : (wrapI64 ((max ((i : Int) + 1) 1 - 1) * pageLimit query)).toNat =
      i * (pageLimit query).toNat := by
    obtain ⟨limit, same⟩ := Int.eq_ofNat_of_zero_le (show 0 ≤ pageLimit query by omega)
    rw [same, Int.toNat_natCast] at near ⊢
    have first : max ((i : Int) + 1) 1 - 1 = i := by omega
    have inside : InI64 ((i : Int) * limit) := by
      have short : ((i * limit : Nat) : Int) < 2 ^ 63 := by exact_mod_cast near
      push_cast at short
      have least : 0 ≤ (i : Int) * limit := by positivity
      unfold InI64 i64Min i64Max
      omega
    rw [first, wrap_of_in_i64 _ inside]
    exact_mod_cast Int.toNat_natCast (i * limit)
  have same : pageLimit { query with page := (i : Int) + 1 } = pageLimit query := rfl
  have found : matching accounts { query with page := (i : Int) + 1 } rows =
      matching accounts query rows := rfl
  simp only [listRequests, same, found, offset, pageOf]
  rfl

theorem matching_few (few : rows.length < 2 ^ 62) :
    (matching accounts query rows).length < 2 ^ 62 :=
  lt_of_le_of_lt (List.length_filter_le _ _) few

/-- The pages of a query, from the first to the last the header promises, list every
matching request once, newest first; no page has more than two hundred, none but the ones
after the last is empty, and all give the same numbers. -/
theorem pages_list_every_match (few : rows.length < 2 ^ 62) :
    let found := sort.order (matching accounts query rows)
    let read := readEntry accounts (query.tokensOnly.getD false)
    let answer (i : Nat) := listRequests sort accounts rows .none { query with page := i + 1 }
    ∃ pages : Nat,
      (List.mapM (fun i => (answer i).requests) (List.range pages)).map List.flatten =
        found.mapM read ∧
      ∀ i ≤ pages, ∀ total totalPages requests, answer i = .listed total totalPages requests →
        total = found.length ∧ totalPages = pages ∧ requests.length ≤ 200 ∧
          (requests = [] ↔ i = pages) := by
  intro found read answer
  obtain ⟨low, high⟩ := page_limit_bounds query
  obtain ⟨limit, same⟩ := Int.eq_ofNat_of_zero_le (show 0 ≤ pageLimit query by omega)
  have size : (pageLimit query).toNat = limit := by rw [same, Int.toNat_natCast]
  have positive : 0 < limit := by omega
  have count : found.length = (matching accounts query rows).length :=
    (sort.perm (matching accounts query rows)).length_eq
  have short := matching_few accounts rows query few
  let pages := (found.length + limit - 1) / limit
  have enough : found.length ≤ pages * limit := by
    have rounded := Nat.lt_div_mul_add positive (a := found.length + limit - 1)
    show found.length ≤ (found.length + limit - 1) / limit * limit
    omega
  have tight : pages * limit < found.length + limit := by
    have rounded := Nat.div_mul_le_self (found.length + limit - 1) limit
    show (found.length + limit - 1) / limit * limit < _
    omega
  have near (i : Nat) (inside : i ≤ pages) : i * (pageLimit query).toNat < 2 ^ 63 := by
    rw [size]
    have most := Nat.mul_le_mul_right limit inside
    omega
  refine ⟨pages, ?_, ?_⟩
  · have each : (List.range pages).mapM (fun i => (answer i).requests) =
        ((List.range pages).map fun i => page limit (i * limit) found).mapM
          fun part : List RequestRow => part.mapM read := by
      rw [List.mapM_map]
      refine read_congr _ _ _ fun i member => ?_
      have answered : answer i = _ := list_requests_page sort accounts rows query i
        (near i (le_of_lt (List.mem_range.mp member)))
      rw [answered, pageOf, size, Function.comp_apply]
      cases (page limit (i * limit) found).mapM read <;> rfl
    rw [each, read_pages, pages_all limit pages found enough]
  · intro i inside total totalPages requests listed
    have answered := list_requests_page sort accounts rows query i (near i inside)
    rw [pageOf, size, total_pages query _ short, size, ← count] at answered
    change answer i = _ at answered
    cases entries : (page limit (i * limit) found).mapM read with
    | none =>
        rw [entries] at answered
        cases answered.symm.trans listed
    | some entries' =>
        rw [entries] at answered
        obtain ⟨rfl, rfl, rfl⟩ := Listing.listed.inj (answered.symm.trans listed)
        have length := read_length read _ _ entries
        rw [page, List.length_take, List.length_drop] at length
        refine ⟨rfl, rfl, by omega, ?_⟩
        rw [← List.length_eq_zero_iff, length]
        constructor
        · intro empty
          by_contra before
          have earlier := Nat.mul_le_mul_right limit (show i + 1 ≤ pages by omega)
          rw [Nat.succ_mul] at earlier
          omega
        · rintro rfl
          omega

end Pages

/-- Newest first, and requests of one moment as they stand. -/
def inTableOrder : NewestFirst where
  order rows := StableSort.sortByKey (fun row => -row.timestamp) rows
  perm := StableSort.sort_by_key_perm _
  newest rows := (StableSort.sort_by_key_ordered _ rows).imp fun less => by simpa using less

def sampleRow (id : String) (timestamp : Int) : RequestRow where
  id := id
  timestamp := timestamp
  method := "POST"
  path := "/v1/messages"
  accountUsed := none
  statusCode := some 200
  success := some 1
  errorMessage := none
  responseTimeMs := none
  failoverAttempts := none
  model := none
  agentUsed := none
  project := none
  apiKeyId := none
  apiKeyName := none
  usage := ⟨none, none, none, none, none, none, none, none, none⟩

def twoToAPage : RequestsQuery := ⟨1, 2, none, none, none, none⟩

theorem three_requests_two_pages : ∃ pages : Nat,
    (List.mapM (fun i : Nat => (listRequests inTableOrder ⟨[], List.nodup_nil, List.nodup_nil⟩
      [sampleRow "a" 1, sampleRow "b" 3, sampleRow "c" 2] .none
      { twoToAPage with page := i + 1 }).requests) (List.range pages)).map
        (fun listed => listed.flatten.map Entry.id) = some ["b", "c", "a"] := by
  obtain ⟨pages, whole, -⟩ := pages_list_every_match inTableOrder
    ⟨[], List.nodup_nil, List.nodup_nil⟩ [sampleRow "a" 1, sampleRow "b" 3, sampleRow "c" 2]
    twoToAPage (by decide)
  refine ⟨pages, ?_⟩
  have ids := congrArg (Option.map (List.map Entry.id)) whole
  rw [Option.map_map] at ids
  exact ids.trans (by decide +kernel)

section Preview
open Text

theorem boundary_iff (text : List Char) (index : Nat) :
    isCharBoundary text index = true ↔ ∃ left, left <+: text ∧ bytes left = index := by
  rw [isCharBoundary, Option.isSome_iff_exists]
  constructor
  · rintro ⟨⟨left, right⟩, found⟩
    obtain ⟨rfl, exact⟩ := (split_at_bytes_iff index text left right).mp found
    exact ⟨left, List.prefix_append left right, exact⟩
  · rintro ⟨left, ⟨right, rfl⟩, exact⟩
    exact ⟨(left, right), (split_at_bytes_iff index _ left right).mpr ⟨rfl, exact⟩⟩

/-- A text that is too long has a character that crosses the limit. -/
theorem crossing (text : List Char) (limit : Nat) (long : limit < bytes text) :
    ∃ left c right, text = left ++ c :: right ∧ bytes left ≤ limit ∧
      limit < bytes left + c.utf8Size := by
  induction text generalizing limit with
  | nil => simp at long
  | cons c rest ih =>
      by_cases fits : c.utf8Size ≤ limit
      · rw [bytes_cons] at long
        obtain ⟨left, d, right, rfl, within, exceeds⟩ := ih (limit - c.utf8Size) (by omega)
        exact ⟨c :: left, d, right, rfl, by simp; omega, by simp; omega⟩
      · exact ⟨[], c, rest, rfl, by simp, by simpa using fits⟩

/-- A start within the limit ends before the character that crosses it. -/
theorem start_before_crossing (start left right : List Char) (c : Char) (limit : Nat)
    (exceeds : limit < bytes left + c.utf8Size) (begins : start <+: left ++ c :: right)
    (within : bytes start ≤ limit) : start <+: left := by
  have crossed : left ++ [c] <+: left ++ c :: right := ⟨right, by simp⟩
  rcases List.prefix_or_prefix_of_prefix begins crossed with short | long
  · rcases List.prefix_concat_iff.mp short with rfl | before
    · simp at within
      omega
    · exact before
  · have size := bytes_sublist long.sublist
    simp at size
    omega

/-- The preview of a body is its longest start of whole characters within the limit, and it
is marked as cut exactly where it is not the body itself. -/
theorem preview_longest (text : String) :
    ∃ shown : String, truncateBody (some text) = (some shown, decide (shown ≠ text)) ∧
      byteLength shown ≤ maxBodyPreviewBytes ∧ shown.toList <+: text.toList ∧
      ∀ start : List Char, start <+: text.toList → bytes start ≤ maxBodyPreviewBytes →
        start <+: shown.toList := by
  by_cases short : byteLength text ≤ maxBodyPreviewBytes
  · exact ⟨text, by simp [truncateBody, short], short, List.prefix_refl _,
      fun start begins _ => begins⟩
  · obtain ⟨left, c, right, whole, within, exceeds⟩ :=
      crossing text.toList maxBodyPreviewBytes (not_le.mp short)
    have wide := Char.utf8Size_le_four c
    have positive := Char.utf8Size_pos c
    have found : ((List.range 5).map (maxBodyPreviewBytes - ·)).find?
        (isCharBoundary text.toList) = some (bytes left) := by
      rw [List.find?_map]
      have position : (List.range 5).find?
          (isCharBoundary text.toList ∘ (maxBodyPreviewBytes - ·)) =
            some (maxBodyPreviewBytes - bytes left) := by
        rw [List.find?_range_eq_some]
        refine ⟨?_, List.mem_range.mpr (by omega), ?_⟩
        · have back : maxBodyPreviewBytes - (maxBodyPreviewBytes - bytes left) = bytes left := by
            omega
          rw [Function.comp_apply, back, boundary_iff]
          exact ⟨left, whole ▸ List.prefix_append left _, rfl⟩
        · intro j before
          rw [Bool.not_eq_true', ← Bool.not_eq_true, Function.comp_apply, boundary_iff]
          rintro ⟨start, begins, exact⟩
          have inside := bytes_sublist (start_before_crossing start left right c
            maxBodyPreviewBytes exceeds (whole ▸ begins) (by omega)).sublist
          omega
      rw [position, Option.map_some]
      congr 1
      omega
    have cut : Text.splitAt (bytes left) text =
        some (String.ofList left, String.ofList (c :: right)) := by
      rw [Text.splitAt, (split_at_bytes_iff _ _ left (c :: right)).mpr ⟨whole, rfl⟩]
      rfl
    refine ⟨String.ofList left, ?_, by simpa [byte_length_eq] using within, ?_, ?_⟩
    · have shorter : String.ofList left ≠ text := by
        rintro rfl
        simp at whole
      rw [truncateBody, if_neg short, found, decide_eq_true shorter]
      dsimp only [Option.getD_some]
      rw [cut]
      rfl
    · rw [String.toList_ofList, whole]
      exact List.prefix_append left _
    · intro start begins small
      rw [String.toList_ofList]
      exact start_before_crossing start left right c _ exceeds (whole ▸ begins) small

end Preview

end Ccflare.RequestHistory
