import Ccflare.References
import Ccflare.Tables
import Ccflare.Text

/-!
The migration of a database of the older program at start-up. It adds the columns that
are missing, carries one column over to its new name and moves two tables into new ones,
all in one transaction: most failures are logged and passed over, the others undo it.
The pool enforces foreign keys, which the table of payloads had not declared before.
Column names are in lower case, as both programs write them.
-/

namespace Ccflare.SchemaMigration

open MachineNumber References Tables

inductive DbError where
  | sqlite (message : String)
  deriving DecidableEq

structure Database where
  accounts : Option Table
  requests : Option Table
  oauthSessions : Option Table
  requestPayloads : Option Table
  agentPreferences : Option Table

/-- `existing` is the list of names read before, which may be out of date. -/
def addColumnIfMissing (existing : List String) (table : Table) (column : Column) : Table :=
  if column.name ∈ existing then table else (table.addColumn column).getD table

def addColumns (existing : List String) (columns : List Column) (table : Table) : Table :=
  columns.foldl (addColumnIfMissing existing) table

/-- A statement whose failure is ignored. -/
def attempt (statement : Table → Option Table) (table : Table) : Table :=
  (statement table).getD table

def accountColumns : List Column :=
  [⟨"rate_limited_until", "INTEGER", .null⟩,
    ⟨"session_start", "INTEGER", .null⟩,
    ⟨"session_request_count", "INTEGER DEFAULT 0", .integer 0⟩,
    ⟨"paused", "INTEGER DEFAULT 0", .integer 0⟩,
    ⟨"rate_limit_reset", "INTEGER", .null⟩,
    ⟨"rate_limit_status", "TEXT", .null⟩,
    ⟨"rate_limit_remaining", "INTEGER", .null⟩,
    ⟨"priority", "INTEGER DEFAULT 0", .integer 0⟩,
    ⟨"auto_fallback_enabled", "INTEGER DEFAULT 1", .integer 1⟩,
    ⟨"auto_refresh_enabled", "INTEGER DEFAULT 1", .integer 1⟩,
    ⟨"custom_endpoint", "TEXT", .null⟩,
    ⟨"model_mappings", "TEXT", .null⟩]

def reserve5h : Column := ⟨"reserve_5h", "INTEGER DEFAULT 0", .integer 0⟩

def laterAccountColumns : List Column :=
  [⟨"reserve_weekly", "INTEGER DEFAULT 0", .integer 0⟩,
    ⟨"reserve_hard", "INTEGER DEFAULT 0", .integer 0⟩,
    ⟨"subscription_tier", "TEXT", .null⟩,
    ⟨"email", "TEXT", .null⟩,
    ⟨"monthly_cost_usd", "REAL NOT NULL DEFAULT 0", .real (.ofInt 0)⟩,
    ⟨"refresh_token_updated_at", "INTEGER", .null⟩]

def renameReserve (cols : List String) (table : Table) : Table :=
  if "reserve_percent" ∈ cols ∧ "reserve_5h" ∉ cols then
    match table.renameColumn "reserve_percent" "reserve_5h" with
    | some renamed => renamed
    | none => addColumnIfMissing cols table reserve5h
  else addColumnIfMissing cols table reserve5h

def isZero : Value → Bool
  | .integer value => decide (value = 0)
  | .real value => decide (value = .ofInt 0)
  | .null | .text _ => false

/-- `!= 0` is true; of NULL it is neither true nor false. -/
def differsFromZero : Value → Bool
  | .integer value => decide (value ≠ 0)
  | .real value => decide (value ≠ .ofInt 0)
  | .text _ => true
  | .null => false

def backfillRefreshToken (row : Row) : Row :=
  if row "refresh_token_updated_at" = .null ∧ differsFromZero (row "created_at") then
    assign "refresh_token_updated_at" (row "created_at") row
  else row

/-- `LIKE '%needle%'`, without regard to the case of ASCII letters. A column of type
TEXT holds a text or NULL. -/
def like (needle : String) : Value → Bool
  | .text text => Text.contains (Text.toAsciiLowercase needle) (Text.toAsciiLowercase text)
  | .null | .integer _ | .real _ => false

/-- The cost the tier stands for, by the first pattern that matches. -/
def tierCost (tier : Value) : Option Int :=
  if like "20x" tier then some 200
  else if like "Team" tier && like "5x" tier then some 125
  else if like "Team" tier then some 125
  else if like "5x" tier then some 100
  else if like "Max" tier then some 200
  else if like "Pro" tier then some 20
  else none

def usd (cost : Int) : Value := .real (.ofInt cost)

def providerCost (provider : Value) : Int :=
  if provider ∈ [.text "anthropic", .text "claude-oauth", .text "console"] then 20 else 0

def detectCost (row : Row) : Row :=
  if isZero (row "monthly_cost_usd") then
    assign "monthly_cost_usd" (usd ((tierCost (row "subscription_tier")).getD
      (providerCost (row "provider")))) row
  else row

def rederiveCost (row : Row) : Row :=
  if row "subscription_tier" ≠ .null then
    assign "monthly_cost_usd" (((tierCost (row "subscription_tier")).map usd).getD
      (row "monthly_cost_usd")) row
  else row

def accountUpdates (table : Table) : Table :=
  attempt (Table.update ["monthly_cost_usd", "subscription_tier"] rederiveCost)
    (attempt (Table.update ["monthly_cost_usd", "subscription_tier", "provider"] detectCost)
      (attempt (Table.update ["refresh_token_updated_at", "created_at"] backfillRefreshToken)
        table))

def accountSchema (table : Table) : Table :=
  let cols := table.names
  let table := renameReserve cols (addColumns cols accountColumns table)
  addColumns table.names laterAccountColumns table

def migrateAccounts (table : Table) : Table := accountUpdates (accountSchema table)

def requestColumns : List Column :=
  [⟨"model", "TEXT", .null⟩,
    ⟨"prompt_tokens", "INTEGER", .null⟩,
    ⟨"completion_tokens", "INTEGER", .null⟩,
    ⟨"total_tokens", "INTEGER", .null⟩,
    ⟨"cost_usd", "REAL", .null⟩,
    ⟨"input_tokens", "INTEGER", .null⟩,
    ⟨"cache_read_input_tokens", "INTEGER", .null⟩,
    ⟨"cache_creation_input_tokens", "INTEGER", .null⟩,
    ⟨"output_tokens", "INTEGER", .null⟩,
    ⟨"agent_used", "TEXT", .null⟩,
    ⟨"project", "TEXT", .null⟩,
    ⟨"api_key_id", "TEXT", .null⟩,
    ⟨"api_key_name", "TEXT", .null⟩]

def tokensPerSecond : Column := ⟨"tokens_per_second", "REAL", .null⟩

def carrySpeed (row : Row) : Row :=
  if row "output_tokens_per_second" ≠ .null then
    assign "tokens_per_second" (row "output_tokens_per_second") row
  else row

def migrateRequests (table : Table) : Except DbError Table :=
  let cols := table.names
  let table := addColumns cols requestColumns table
  if "output_tokens_per_second" ∈ cols ∧ "tokens_per_second" ∉ cols then
    match table.addColumn tokensPerSecond with
    | none => .error (.sqlite "duplicate column name: tokens_per_second")
    | some table =>
        match table.update ["tokens_per_second", "output_tokens_per_second"] carrySpeed with
        | none => .error (.sqlite "no such column: output_tokens_per_second")
        | some table => .ok table
  else .ok (addColumnIfMissing cols table tokensPerSecond)

def migrateSessions (table : Table) : Table :=
  addColumnIfMissing table.names table ⟨"custom_endpoint", "TEXT", .null⟩

def payloadColumns : List Column :=
  [⟨"request_id", "TEXT PRIMARY KEY", .null⟩, ⟨"request_body", "TEXT", .null⟩,
    ⟨"response_body", "TEXT", .null⟩]

def oldPayloads (table : Table) : Bool :=
  decide ("json" ∈ table.names) && decide ("request_body" ∉ table.names)

/-- `SELECT id, json, NULL`. -/
def newPayload (row : Row) : Row :=
  fun name =>
    if name = "request_id" then row "id"
    else if name = "request_body" then row "json"
    else .null

/-- `FOREIGN KEY (request_id) REFERENCES requests(id)`; a NULL refers to nothing. -/
def payloadReference : Reference Row Row Value where
  parentKey request := request "id"
  childKey payload := if payload "request_id" = .null then none else some (payload "request_id")

/-- `OR IGNORE` is about the constraints of the table: a missing parent still aborts. -/
def restructurePayloads (requests : Option Table) (table : Table) : Except DbError Table :=
  if oldPayloads table then
    if "id" ∉ table.names then .error (.sqlite "no such column: id")
    else match requests with
      | none => .error (.sqlite "no such table: main.requests")
      | some requests =>
          match payloadReference.insertChildren requests.rows
              (insertOrIgnore "request_id" [] (table.rows.map newPayload)) [] with
          | none => .error (.sqlite "FOREIGN KEY constraint failed")
          | some rows => .ok ⟨payloadColumns, rows⟩
  else .ok table

def preferenceColumns : List Column :=
  [⟨"agent_id", "TEXT PRIMARY KEY", .null⟩, ⟨"preferred_account", "TEXT", .null⟩,
    ⟨"preferred_model", "TEXT", .null⟩, ⟨"max_tokens", "INTEGER", .null⟩,
    ⟨"temperature", "REAL", .null⟩, ⟨"system_prompt", "TEXT", .null⟩,
    ⟨"created_at", "INTEGER NOT NULL DEFAULT (strftime('%s', 'now') * 1000)", .null⟩,
    ⟨"updated_at", "INTEGER NOT NULL DEFAULT (strftime('%s', 'now') * 1000)", .null⟩]

def oldPreferences (table : Table) : Bool :=
  decide ("model" ∈ table.names) && decide ("preferred_model" ∉ table.names)

/-- `SELECT agent_id, model, updated_at, updated_at`. -/
def newPreference (row : Row) : Row :=
  fun name =>
    if name = "agent_id" then row "agent_id"
    else if name = "preferred_model" then row "model"
    else if name = "updated_at" ∨ name = "created_at" then row "updated_at"
    else .null

def restructurePreferences (table : Table) : Except DbError Table :=
  if oldPreferences table then
    if "agent_id" ∈ table.names ∧ "updated_at" ∈ table.names then
      .ok ⟨preferenceColumns, insertOrIgnore "agent_id" ["created_at", "updated_at"]
        (table.rows.map newPreference)⟩
    else .error (.sqlite "no such column")
  else .ok table

/-- The statements on a table, when it exists. -/
def onTable (migrate : Table → Except DbError Table) : Option Table → Except DbError (Option Table)
  | none => .ok none
  | some table =>
      match migrate table with
      | .ok migrated => .ok (some migrated)
      | .error error => .error error

def runSchemaMigrationsImpl (db : Database) : Except DbError Database :=
  match onTable migrateRequests db.requests with
  | .error error => .error error
  | .ok requests =>
      match onTable (restructurePayloads requests) db.requestPayloads with
      | .error error => .error error
      | .ok payloads =>
          match onTable restructurePreferences db.agentPreferences with
          | .error error => .error error
          | .ok preferences =>
              .ok ⟨db.accounts.map migrateAccounts, requests,
                db.oauthSessions.map migrateSessions, payloads, preferences⟩

/-- One transaction, rolled back on an error. -/
def runSchemaMigrations (db : Database) : Except DbError Unit × Database :=
  match runSchemaMigrationsImpl db with
  | .ok migrated => (.ok (), migrated)
  | .error error => (.error error, db)

theorem add_if_missing_known (existing : List String) (table : Table) (column : Column)
    (known : column.name ∈ existing) : addColumnIfMissing existing table column = table :=
  if_pos known

theorem add_if_missing_extends (existing : List String) (table : Table) (column : Column) :
    Extends table (addColumnIfMissing existing table column) := by
  unfold addColumnIfMissing
  split
  · exact .refl table
  · cases added : table.addColumn column with
    | none => exact .refl table
    | some after => exact add_column_extends column table after added

/-- A column that cannot be added is there. -/
theorem add_if_missing_named (existing : List String) (table : Table) (column : Column)
    (within : existing ⊆ table.names) :
    column.name ∈ (addColumnIfMissing existing table column).names := by
  unfold addColumnIfMissing
  split
  · rename_i known
    exact within known
  · cases added : table.addColumn column with
    | none =>
        unfold Table.addColumn at added
        split at added
        · rename_i present
          exact present
        · cases added
    | some after =>
        rw [Option.getD_some, add_column_named column table after added]
        simp

theorem add_if_missing_names (existing : List String) (table : Table) (column : Column) :
    (addColumnIfMissing existing table column).names ⊆ table.names ++ [column.name] := by
  unfold addColumnIfMissing
  split
  · exact List.subset_append_left _ _
  · cases added : table.addColumn column with
    | none => exact List.subset_append_left _ _
    | some after =>
        rw [Option.getD_some, add_column_named column table after added]
        exact List.Subset.refl _

theorem add_columns_known (existing : List String) (columns : List Column) (table : Table)
    (known : ∀ column ∈ columns, column.name ∈ existing) :
    addColumns existing columns table = table := by
  induction columns with
  | nil => rfl
  | cons column rest ih =>
      unfold addColumns at ih ⊢
      rw [List.foldl_cons, add_if_missing_known existing table column
        (known column List.mem_cons_self)]
      exact ih fun other member => known other (List.mem_cons_of_mem _ member)

theorem add_columns_extends (existing : List String) (columns : List Column) (table : Table) :
    Extends table (addColumns existing columns table) := by
  induction columns generalizing table with
  | nil => exact .refl table
  | cons column rest ih => exact (add_if_missing_extends existing table column).trans (ih _)

theorem add_columns_named (existing : List String) (columns : List Column) (table : Table)
    (within : existing ⊆ table.names) :
    ∀ column ∈ columns, column.name ∈ (addColumns existing columns table).names := by
  induction columns generalizing table with
  | nil => simp
  | cons column rest ih =>
      have grown := add_if_missing_extends existing table column
      have later := add_columns_extends existing rest (addColumnIfMissing existing table column)
      intro other member
      rcases List.mem_cons.mp member with rfl | member
      · exact later.1 (add_if_missing_named existing table other within)
      · exact ih _ (List.Subset.trans within grown.1) other member

theorem add_columns_names (existing : List String) (columns : List Column) (table : Table) :
    (addColumns existing columns table).names ⊆ table.names ++ columns.map Column.name := by
  induction columns generalizing table with
  | nil => simp [addColumns]
  | cons column rest ih =>
      intro name member
      rcases List.mem_append.mp (ih _ member) with here | later
      · rcases List.mem_append.mp (add_if_missing_names existing table column here) with old | new
        · exact List.mem_append_left _ old
        · obtain rfl := List.mem_singleton.mp new
          exact List.mem_append_right _ (by simp)
      · exact List.mem_append_right _ (by simp only [List.map_cons]; exact List.mem_cons_of_mem _ later)

/-- The rename takes one name away and puts the new one in its place. -/
theorem rename_reserve_names (cols : List String) (table : Table)
    (within : cols ⊆ table.names) :
    "reserve_5h" ∈ (renameReserve cols table).names ∧
      ∀ name ∈ table.names, name ≠ "reserve_percent" →
        name ∈ (renameReserve cols table).names := by
  have added := add_if_missing_named cols table reserve5h within
  have grown := add_if_missing_extends cols table reserve5h
  unfold renameReserve
  split
  · rename_i old
    cases renamed : table.renameColumn "reserve_percent" "reserve_5h" with
    | none => exact ⟨added, fun name member _ => grown.1 member⟩
    | some after =>
        have names := rename_names _ _ table after renamed
        constructor
        · rw [names]
          exact List.mem_map.mpr ⟨"reserve_percent", within old.1, by simp [renameIn]⟩
        · intro name member other
          rw [names]
          exact List.mem_map.mpr ⟨name, member, if_neg other⟩
  · exact ⟨added, fun name member _ => grown.1 member⟩

def listedAccountColumns : List Column := accountColumns ++ reserve5h :: laterAccountColumns

theorem account_schema_named (table : Table) :
    ∀ column ∈ listedAccountColumns, column.name ∈ (accountSchema table).names := by
  have first := add_columns_extends table.names accountColumns table
  have named := add_columns_named table.names accountColumns table (List.Subset.refl _)
  obtain ⟨reserve, kept⟩ := rename_reserve_names table.names _ first.1
  have later := add_columns_extends (renameReserve table.names
    (addColumns table.names accountColumns table)).names laterAccountColumns (renameReserve
      table.names (addColumns table.names accountColumns table))
  have laterNamed := add_columns_named _ laterAccountColumns (renameReserve table.names
    (addColumns table.names accountColumns table)) (List.Subset.refl _)
  intro column member
  simp only [listedAccountColumns, List.mem_append, List.mem_cons] at member
  rcases member with early | rfl | late
  · refine later.1 (kept column.name (named column early) ?_)
    revert column
    decide
  · exact later.1 reserve
  · exact laterNamed column late

theorem account_schema_known (table : Table)
    (known : ∀ column ∈ listedAccountColumns, column.name ∈ table.names) :
    accountSchema table = table := by
  have early : ∀ column ∈ accountColumns, column.name ∈ table.names :=
    fun column member => known column (List.mem_append_left _ member)
  have reserve : "reserve_5h" ∈ table.names :=
    known reserve5h (List.mem_append_right _ List.mem_cons_self)
  have late : ∀ column ∈ laterAccountColumns, column.name ∈ table.names := fun column member =>
    known column (List.mem_append_right _ (List.mem_cons_of_mem _ member))
  have renamed : renameReserve table.names table = table := by
    unfold renameReserve
    rw [if_neg (by simp [reserve])]
    exact add_if_missing_known _ table reserve5h reserve
  simp only [accountSchema, add_columns_known table.names accountColumns table early, renamed]
  exact add_columns_known table.names laterAccountColumns table late

/-- The change of a statement that fails when a column it names is missing. -/
def applied (named names : List String) (change : Row → Row) : Row → Row :=
  if ∀ name ∈ named, name ∈ names then change else id

theorem attempt_update (named : List String) (change : Row → Row) (table : Table) :
    attempt (Table.update named change) table =
      { table with rows := table.rows.map (applied named table.names change) } := by
  unfold attempt Table.update applied
  split
  · rfl
  · rw [List.map_id]
    rfl

def backfilled (names : List String) : Row → Row :=
  applied ["refresh_token_updated_at", "created_at"] names backfillRefreshToken

def detected (names : List String) : Row → Row :=
  applied ["monthly_cost_usd", "subscription_tier", "provider"] names detectCost

def rederived (names : List String) : Row → Row :=
  applied ["monthly_cost_usd", "subscription_tier"] names rederiveCost

def accountRow (names : List String) (row : Row) : Row :=
  rederived names (detected names (backfilled names row))

theorem account_updates_rows (table : Table) :
    accountUpdates table = { table with rows := table.rows.map (accountRow table.names) } := by
  simp only [accountUpdates, attempt_update, Table.names, List.map_map]
  rfl

/-- The two statements on the cost, as functions of its value. -/
def detectedCost (tier provider cost : Value) : Value :=
  if isZero cost then usd ((tierCost tier).getD (providerCost provider)) else cost

def rederivedCost (tier cost : Value) : Value := ((tierCost tier).map usd).getD cost

theorem detect_cost_row (row : Row) :
    detectCost row = assign "monthly_cost_usd" (detectedCost (row "subscription_tier")
      (row "provider") (row "monthly_cost_usd")) row := by
  unfold detectCost detectedCost
  split
  · rfl
  · exact (assign_held _ row).symm

theorem rederive_cost_row (row : Row) :
    rederiveCost row = assign "monthly_cost_usd" (rederivedCost (row "subscription_tier")
      (row "monthly_cost_usd")) row := by
  unfold rederiveCost rederivedCost
  split
  · rfl
  · rename_i unknown
    have missing : row "subscription_tier" = .null := by simpa using unknown
    rw [missing]
    exact (assign_held _ row).symm

theorem rederived_again (tier cost : Value) :
    rederivedCost tier (rederivedCost tier cost) = rederivedCost tier cost := by
  unfold rederivedCost
  cases tierCost tier <;> rfl

-- A cost the tier gives is not changed by detection: it gives the same one again.
theorem detected_again (tier provider cost : Value) :
    detectedCost tier provider (rederivedCost tier (detectedCost tier provider cost)) =
      rederivedCost tier (detectedCost tier provider cost) := by
  unfold detectedCost rederivedCost
  cases tierCost tier with
  | some known => simp
  | none =>
      simp only [Option.map_none, Option.getD_none]
      split
      · simp
      · rfl

theorem applied_other (named names : List String) (change : Row → Row) (row : Row) (name : String)
    (kept : change row name = row name) : applied named names change row name = row name := by
  unfold applied
  split
  · exact kept
  · rfl

theorem detected_other (names : List String) (row : Row) (name : String)
    (other : name ≠ "monthly_cost_usd") : detected names row name = row name := by
  apply applied_other
  rw [detect_cost_row, assign_other _ _ _ _ other]

theorem rederived_other (names : List String) (row : Row) (name : String)
    (other : name ≠ "monthly_cost_usd") : rederived names row name = row name := by
  apply applied_other
  rw [rederive_cost_row, assign_other _ _ _ _ other]

theorem backfilled_other (names : List String) (row : Row) (name : String)
    (other : name ≠ "refresh_token_updated_at") : backfilled names row name = row name := by
  apply applied_other
  unfold backfillRefreshToken
  split
  · exact assign_other _ _ _ _ other
  · rfl

theorem backfill_filled (row : Row) :
    ¬ (backfillRefreshToken row "refresh_token_updated_at" = .null ∧
      differsFromZero (backfillRefreshToken row "created_at") = true) := by
  unfold backfillRefreshToken
  split
  · rename_i due
    rintro ⟨missing, -⟩
    rw [assign_same] at missing
    rw [missing] at due
    exact absurd due.2 (by decide)
  · rename_i idle
    exact idle

theorem backfilled_again (names : List String) (row : Row) :
    backfilled names (accountRow names row) = accountRow names row := by
  have kept : ∀ name, name ≠ "monthly_cost_usd" →
      accountRow names row name = backfilled names row name := by
    intro name other
    rw [accountRow, rederived_other names _ name other, detected_other names _ name other]
  unfold backfilled applied
  split
  · rename_i present
    have filled := backfill_filled row
    have same : backfilled names row = backfillRefreshToken row := by
      unfold backfilled applied
      rw [if_pos present]
    rw [backfillRefreshToken, if_neg]
    rw [kept _ (by decide), kept _ (by decide), same]
    exact filled
  · rfl

theorem cost_keeps_tier (cost : Value) (row : Row) :
    assign "monthly_cost_usd" cost row "subscription_tier" = row "subscription_tier" :=
  assign_other _ _ _ _ (by decide)

theorem cost_keeps_provider (cost : Value) (row : Row) :
    assign "monthly_cost_usd" cost row "provider" = row "provider" :=
  assign_other _ _ _ _ (by decide)

theorem costs_again (names : List String) (row : Row) :
    rederived names (detected names (accountRow names row)) = accountRow names row := by
  generalize start : backfilled names row = first
  have whole : accountRow names row = rederived names (detected names first) := by
    rw [accountRow, start]
  rw [whole]
  unfold rederived detected applied
  by_cases cost : ∀ name ∈ ["monthly_cost_usd", "subscription_tier"], name ∈ names
  · rw [if_pos cost]
    by_cases provider : ∀ name ∈ ["monthly_cost_usd", "subscription_tier", "provider"], name ∈ names
    · rw [if_pos provider]
      simp only [rederive_cost_row, detect_cost_row]
      funext name
      by_cases same : name = "monthly_cost_usd"
      · subst same
        simp only [assign_same, cost_keeps_tier, cost_keeps_provider]
        rw [detected_again, rederived_again]
      · simp only [assign_other _ _ _ _ same]
    · rw [if_neg provider]
      simp only [rederive_cost_row, id_eq]
      funext name
      by_cases same : name = "monthly_cost_usd"
      · subst same
        simp only [assign_same, cost_keeps_tier]
        exact rederived_again _ _
      · simp only [assign_other _ _ _ _ same]
  · have provider : ¬ ∀ name ∈ ["monthly_cost_usd", "subscription_tier", "provider"],
        name ∈ names := fun all => cost fun name member => all name (by simp at member ⊢; tauto)
    rw [if_neg cost, if_neg provider]
    rfl

theorem account_row_again (names : List String) (row : Row) :
    accountRow names (accountRow names row) = accountRow names row := by
  have filled := backfilled_again names row
  have costs := costs_again names row
  generalize accountRow names row = settled at filled costs ⊢
  rw [accountRow, filled, costs]

theorem migrate_accounts_named (table : Table) :
    ∀ column ∈ listedAccountColumns, column.name ∈ (migrateAccounts table).names := by
  rw [migrateAccounts, account_updates_rows]
  exact account_schema_named table

theorem account_updates_names (table : Table) :
    (accountUpdates table).names = table.names := by
  rw [account_updates_rows]
  rfl

theorem account_updates_again (table : Table) :
    accountUpdates (accountUpdates table) = accountUpdates table := by
  rw [account_updates_rows (accountUpdates table), account_updates_names]
  rw [account_updates_rows table, List.map_map]
  congr 1
  apply List.map_congr_left
  intro row _
  exact account_row_again _ row

theorem migrate_accounts_again (table : Table) :
    migrateAccounts (migrateAccounts table) = migrateAccounts table := by
  have settled := account_schema_known (migrateAccounts table) (migrate_accounts_named table)
  unfold migrateAccounts at settled ⊢
  rw [settled, account_updates_again]

end Ccflare.SchemaMigration
