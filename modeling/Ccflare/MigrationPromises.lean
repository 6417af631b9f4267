import Ccflare.SchemaMigration

/-!
What the migration promises: it succeeds, loses nothing, leaves every listed column and
changes nothing when it runs again. A payload of the old layout that has lost its request
is not taken by the new table; later columns of a table in the old layout are not copied,
and a table that is not in the old layout gets no columns.
-/

namespace Ccflare.SchemaMigration

open References Tables

def listedRequestColumns : List Column := requestColumns ++ [tokensPerSecond]

/-- The speed of a request, under whichever name the table has for it. -/
def speedOf (table : Table) (row : Row) : Value :=
  if "tokens_per_second" ∈ table.names then row "tokens_per_second"
  else if "output_tokens_per_second" ∈ table.names then row "output_tokens_per_second"
  else .null

theorem carry_speed_value (row : Row) (fresh : row "tokens_per_second" = .null) :
    carrySpeed row "tokens_per_second" = row "output_tokens_per_second" := by
  unfold carrySpeed
  split
  · exact assign_same _ _ _
  · rename_i missing
    rw [fresh]
    simpa using Eq.symm (by simpa using missing)

theorem carry_speed_other (row : Row) (name : String) (other : name ≠ "tokens_per_second") :
    carrySpeed row name = row name := by
  unfold carrySpeed
  split
  · exact assign_other _ _ _ _ other
  · rfl

/-- What the migration of the requests gives: the table grown by the listed columns,
with every speed. -/
structure RequestsMigrated (table after : Table) : Prop where
  grown : Extends table after
  named : ∀ column ∈ listedRequestColumns, column.name ∈ after.names
  speeds : after.rows.map (speedOf after) = table.rows.map (speedOf table)

theorem add_speed_column (table after : Table)
    (added : table.addColumn tokensPerSecond = some after) :
    after.names = table.names ++ ["tokens_per_second"] ∧
      after.rows = table.rows.map (assign "tokens_per_second" .null) := by
  refine ⟨add_column_named tokensPerSecond table after added, ?_⟩
  unfold Table.addColumn at added
  split at added
  · cases added
  · cases added
    rfl

theorem speeds_kept (table after : Table) (grown : Extends table after)
    (present : "tokens_per_second" ∈ table.names) :
    after.rows.map (speedOf after) = table.rows.map (speedOf table) := by
  obtain ⟨within, grow, rows, kept⟩ := grown
  rw [rows, List.map_map]
  apply List.map_congr_left
  intro row _
  simp only [Function.comp_apply, speedOf, if_pos present, if_pos (within present)]
  exact kept row _ present

theorem speeds_added (table middle after : Table) (grown : Extends table middle)
    (missing : "tokens_per_second" ∉ table.names) (named : "tokens_per_second" ∈ after.names)
    (change : Row → Row) (rows : after.rows = middle.rows.map change)
    (carried : ∀ row, change row "tokens_per_second" =
      if "output_tokens_per_second" ∈ table.names then row "output_tokens_per_second"
      else .null) :
    after.rows.map (speedOf after) = table.rows.map (speedOf table) := by
  obtain ⟨-, grow, grownRows, kept⟩ := grown
  rw [rows, grownRows, List.map_map, List.map_map]
  apply List.map_congr_left
  intro row _
  simp only [Function.comp_apply, speedOf, if_pos named, if_neg missing, carried]
  split
  · rename_i output
    exact kept row _ output
  · rfl

theorem listed_requests (middle after : Table) (grown : middle.names ⊆ after.names)
    (named : ∀ column ∈ requestColumns, column.name ∈ middle.names)
    (speed : "tokens_per_second" ∈ after.names) :
    ∀ column ∈ listedRequestColumns, column.name ∈ after.names := by
  intro column member
  rcases List.mem_append.mp member with early | last
  · exact grown (named column early)
  · obtain rfl := List.mem_singleton.mp last
    exact speed

/-- The speed comes over from the column of its old name. -/
theorem requests_carried (table middle : Table) (first : Extends table middle)
    (named : ∀ column ∈ requestColumns, column.name ∈ middle.names)
    (absent : "tokens_per_second" ∉ middle.names)
    (output : "output_tokens_per_second" ∈ table.names)
    (missing : "tokens_per_second" ∉ table.names) :
    ∃ wider after, middle.addColumn tokensPerSecond = some wider ∧
      wider.update ["tokens_per_second", "output_tokens_per_second"] carrySpeed = some after ∧
      RequestsMigrated table after := by
  obtain ⟨wider, added⟩ : ∃ wider, middle.addColumn tokensPerSecond = some wider :=
    ⟨_, add_column_fresh tokensPerSecond middle absent⟩
  obtain ⟨widerNames, widerRows⟩ := add_speed_column middle wider added
  have widened := add_column_extends tokensPerSecond middle wider added
  have speed : "tokens_per_second" ∈ wider.names := by simp [widerNames]
  have both : ∀ name ∈ ["tokens_per_second", "output_tokens_per_second"],
      name ∈ wider.names := by
    intro name member
    simp only [List.mem_cons, List.not_mem_nil, or_false] at member
    rcases member with rfl | rfl
    · exact speed
    · exact widened.1 (first.1 output)
  refine ⟨wider, { wider with rows := wider.rows.map carrySpeed }, added, ?_, ?_, ?_, ?_⟩
  · rw [Table.update, if_pos both]
  · obtain ⟨within, grow, rows, kept⟩ := first.trans widened
    refine ⟨within, carrySpeed ∘ grow, ?_, ?_⟩
    · simp only [rows, List.map_map]
    · intro row name member
      rw [Function.comp_apply, carry_speed_other _ name ?_, kept row name member]
      rintro rfl
      exact missing member
  · exact listed_requests middle wider widened.1 named speed
  · apply speeds_added table middle ({ wider with rows := wider.rows.map carrySpeed } : Table)
      first missing speed (carrySpeed ∘ assign "tokens_per_second" .null)
    · simp only [widerRows, List.map_map]
    · intro row
      rw [if_pos output, Function.comp_apply, carry_speed_value _ (assign_same _ _ _),
        assign_other _ _ _ _ (by decide)]

theorem migrate_requests_ok (table : Table) :
    ∃ after, migrateRequests table = .ok after ∧ RequestsMigrated table after := by
  have first := add_columns_extends table.names requestColumns table
  have named := add_columns_named table.names requestColumns table (List.Subset.refl _)
  have names := add_columns_names table.names requestColumns table
  generalize middle_ : addColumns table.names requestColumns table = middle at first named names
  -- The speed is none of the columns added before it.
  have absent : "tokens_per_second" ∉ table.names → "tokens_per_second" ∉ middle.names := by
    intro missing present
    rcases List.mem_append.mp (names present) with old | new
    · exact missing old
    · revert new
      decide
  simp only [migrateRequests, middle_]
  by_cases carries : "output_tokens_per_second" ∈ table.names ∧ "tokens_per_second" ∉ table.names
  · obtain ⟨output, missing⟩ := carries
    obtain ⟨wider, after, added, updated, migrated⟩ :=
      requests_carried table middle first named (absent missing) output missing
    refine ⟨after, ?_, migrated⟩
    rw [if_pos ⟨output, missing⟩]
    simp only [added, updated]
  · rw [if_neg carries]
    have grown := add_if_missing_extends table.names middle tokensPerSecond
    have speed := add_if_missing_named table.names middle tokensPerSecond first.1
    refine ⟨_, rfl, first.trans grown, listed_requests middle _ grown.1 named speed, ?_⟩
    by_cases present : "tokens_per_second" ∈ table.names
    · exact speeds_kept table _ (first.trans grown) present
    · have output : "output_tokens_per_second" ∉ table.names := fun old => carries ⟨old, present⟩
      apply speeds_added table middle _ first present speed (assign "tokens_per_second" .null)
      · simp [addColumnIfMissing, Table.addColumn, tokensPerSecond, present, absent present]
      · intro row
        rw [if_neg output]
        exact assign_same _ _ _

theorem migrate_requests_again (table : Table)
    (named : ∀ column ∈ listedRequestColumns, column.name ∈ table.names) :
    migrateRequests table = .ok table := by
  have early : ∀ column ∈ requestColumns, column.name ∈ table.names :=
    fun column member => named column (List.mem_append_left _ member)
  have speed : "tokens_per_second" ∈ table.names :=
    named tokensPerSecond (List.mem_append_right _ (List.mem_singleton_self _))
  simp only [migrateRequests, add_columns_known table.names requestColumns table early]
  rw [if_neg (by simp [speed]), add_if_missing_known table.names table tokensPerSecond speed]

theorem migrate_sessions_again (table : Table) :
    migrateSessions (migrateSessions table) = migrateSessions table :=
  add_if_missing_known _ _ _
    (add_if_missing_named table.names table ⟨"custom_endpoint", "TEXT", .null⟩
      (List.Subset.refl _))

/-- What a row says under a name, which the table may not have. -/
def cell (table : Table) (name : String) (row : Row) : Value :=
  if name ∈ table.names then row name else .null

/-- The request of a payload and the two bodies, in either layout. -/
def payloadOf (table : Table) (row : Row) : Value × Value × Value :=
  (row (if oldPayloads table then "id" else "request_id"),
    row (if oldPayloads table then "json" else "request_body"), cell table "response_body" row)

def laterPreferences : List String :=
  ["preferred_account", "max_tokens", "temperature", "system_prompt"]

/-- What an agent prefers and since when, in either layout. -/
def preferenceOf (table : Table) (row : Row) : List Value :=
  row "agent_id" :: row (if oldPreferences table then "model" else "preferred_model") ::
    row "updated_at" :: laterPreferences.map fun name => cell table name row

def ids (table : Table) : List Value := table.rows.map fun row => row "id"

theorem new_payloads (rows : List Row) : oldPayloads ⟨payloadColumns, rows⟩ = false := by
  have names : (⟨payloadColumns, rows⟩ : Table).names = payloadColumns.map Column.name := rfl
  rw [oldPayloads, names]
  decide

theorem new_preferences (rows : List Row) : oldPreferences ⟨preferenceColumns, rows⟩ = false := by
  have names : (⟨preferenceColumns, rows⟩ : Table).names = preferenceColumns.map Column.name := rfl
  rw [oldPreferences, names]
  decide

theorem copied_payloads (table : Table) (keyed : Keyed "id" table.rows) :
    insertOrIgnore "request_id" [] (table.rows.map newPayload) = table.rows.map newPayload := by
  apply insert_or_ignore_all
  · exact List.pairwise_map.mpr keyed
  · intro row _ name member
    cases member

theorem payload_anchored (requests : Table) (row : Row) :
    payloadReference.anchored requests.rows (newPayload row) = true ↔
      (row "id" ≠ .null → row "id" ∈ ids requests) := by
  have child : payloadReference.childKey (newPayload row) =
      if row "id" = .null then none else some (row "id") := rfl
  rw [anchored_iff, child]
  simp only [ids, List.mem_map, payloadReference]
  by_cases missing : row "id" = .null
  · simp [missing]
  · simp [missing]

theorem restructure_payloads_kept (requests : Option Table) (table : Table)
    (new : oldPayloads table = false) : restructurePayloads requests table = .ok table := by
  unfold restructurePayloads
  rw [new]
  rfl

theorem restructure_payloads_moved (requests table : Table) (old : oldPayloads table = true)
    (named : "id" ∈ table.names) (keyed : Keyed "id" table.rows)
    (anchored : ∀ row ∈ table.rows, row "id" ≠ .null → row "id" ∈ ids requests) :
    restructurePayloads (some requests) table =
      .ok ⟨payloadColumns, table.rows.map newPayload⟩ := by
  have given := (insert_children_some payloadReference requests.rows (table.rows.map newPayload)
    [] (table.rows.map newPayload)).mpr ⟨?_, rfl⟩
  · unfold restructurePayloads
    rw [old, if_pos rfl, if_neg (by simp [named]), copied_payloads table keyed]
    simp only [given]
  · intro child member
    obtain ⟨row, here, rfl⟩ := List.mem_map.mp member
    exact (payload_anchored requests row).mpr (anchored row here)

/-- An orphan fails the statement that copies it: `OR IGNORE` does not pass over it. -/
theorem restructure_payloads_orphan (requests table : Table) (old : oldPayloads table = true)
    (named : "id" ∈ table.names) (keyed : Keyed "id" table.rows) (row : Row)
    (member : row ∈ table.rows) (given : row "id" ≠ .null) (orphan : row "id" ∉ ids requests) :
    restructurePayloads (some requests) table =
      .error (.sqlite "FOREIGN KEY constraint failed") := by
  have refused : payloadReference.insertChildren requests.rows (table.rows.map newPayload) [] =
      none := by
    cases inserted : payloadReference.insertChildren requests.rows (table.rows.map newPayload) []
      with
    | none => rfl
    | some all =>
        have intact := ((insert_children_some payloadReference _ _ _ _).mp inserted).1
        have anchored := intact _ (List.mem_map_of_mem member)
        exact absurd ((payload_anchored requests row).mp anchored given) orphan
  unfold restructurePayloads
  rw [old, if_pos rfl, if_neg (by simp [named]), copied_payloads table keyed]
  simp only [refused]

theorem restructure_preferences_kept (table : Table) (new : oldPreferences table = false) :
    restructurePreferences table = .ok table := by
  unfold restructurePreferences
  rw [new]
  rfl

theorem restructure_preferences_moved (table : Table) (old : oldPreferences table = true)
    (agent : "agent_id" ∈ table.names) (updated : "updated_at" ∈ table.names)
    (keyed : Keyed "agent_id" table.rows)
    (complete : ∀ row ∈ table.rows, row "updated_at" ≠ .null) :
    restructurePreferences table =
      .ok ⟨preferenceColumns, table.rows.map newPreference⟩ := by
  have copied : insertOrIgnore "agent_id" ["created_at", "updated_at"]
      (table.rows.map newPreference) = table.rows.map newPreference := by
    apply insert_or_ignore_all
    · exact List.pairwise_map.mpr keyed
    · intro row member name inside
      obtain ⟨before, here, rfl⟩ := List.mem_map.mp member
      simp only [List.mem_cons, List.not_mem_nil, or_false] at inside
      rcases inside with rfl | rfl
      · exact complete before here
      · exact complete before here
  unfold restructurePreferences
  rw [old, if_pos rfl, if_pos ⟨agent, updated⟩, copied]

/-- A copied payload is the old one exactly when that had no response. -/
theorem payload_copied (table : Table) (old : oldPayloads table = true) (rows : List Row)
    (row : Row) :
    payloadOf ⟨payloadColumns, rows⟩ (newPayload row) = (row "id", row "json", .null) ∧
      payloadOf table row = (row "id", row "json", cell table "response_body" row) := by
  constructor
  · simp [payloadOf, new_payloads, newPayload, cell]
  · simp [payloadOf, old]

/-- A copied preference is the old one exactly when the later columns had nothing. -/
theorem preference_copied (table : Table) (old : oldPreferences table = true) (rows : List Row)
    (row : Row) :
    preferenceOf ⟨preferenceColumns, rows⟩ (newPreference row) = preferenceOf table row ↔
      ∀ name ∈ laterPreferences, cell table name row = .null := by
  have empty : ∀ name ∈ laterPreferences,
      cell ⟨preferenceColumns, rows⟩ name (newPreference row) = .null := by
    intro name member
    have dropped : newPreference row name = .null := by
      simp only [laterPreferences, List.mem_cons, List.not_mem_nil, or_false] at member
      rcases member with rfl | rfl | rfl | rfl <;> rfl
    simp [cell, dropped]
  have model : newPreference row "preferred_model" = row "model" := rfl
  have agent : newPreference row "agent_id" = row "agent_id" := rfl
  have updated : newPreference row "updated_at" = row "updated_at" := rfl
  simp only [preferenceOf, new_preferences, old, if_true, Bool.false_eq_true, if_false, model,
    agent, updated, List.cons.injEq, true_and]
  constructor
  · intro same name member
    rw [← List.map_inj_left.mp same name member]
    exact empty name member
  · intro nothing
    apply List.map_congr_left
    intro name member
    rw [empty name member, nothing name member]

/-- A database of the older program, with any later columns: what its declarations say of
the tables that are still in the old layout. -/
structure TsEra (db : Database) : Prop where
  requests : ∃ requests, db.requests = some requests ∧ "id" ∈ requests.names
  payloads : ∀ table, db.requestPayloads = some table → oldPayloads table = true →
    "id" ∈ table.names ∧ Keyed "id" table.rows
  preferences : ∀ table, db.agentPreferences = some table → oldPreferences table = true →
    "agent_id" ∈ table.names ∧ "updated_at" ∈ table.names ∧ Keyed "agent_id" table.rows ∧
      ∀ row ∈ table.rows, row "updated_at" ≠ .null

def requestIds (db : Database) : List Value := db.requests.elim [] ids

def rowsOf {Item : Type} (view : Table → Row → Item) (table : Option Table) : List Item :=
  table.elim [] fun table => table.rows.map (view table)

/-- A payload, still in the old layout, names a request that no longer exists. -/
def Orphaned (db : Database) : Prop :=
  ∃ table, db.requestPayloads = some table ∧ oldPayloads table = true ∧
    ∃ row ∈ table.rows, row "id" ≠ .null ∧ row "id" ∉ requestIds db

/-- Nothing of a payload is left behind: no response stands beside the old columns, and a
table that is not restructured has the new ones. -/
def PayloadsMovable (existing : List Value) (table : Table) : Prop :=
  if oldPayloads table then
    ∀ row ∈ table.rows, row "id" ∈ existing → cell table "response_body" row = .null
  else ∀ column ∈ payloadColumns, column.name ∈ table.names

def PreferencesMovable (table : Table) : Prop :=
  if oldPreferences table then
    ∀ row ∈ table.rows, (∀ name ∈ laterPreferences, cell table name row = .null) ∧
      ("created_at" ∈ table.names → row "created_at" = row "updated_at")
  else ∀ column ∈ preferenceColumns, column.name ∈ table.names

structure Movable (db : Database) : Prop where
  anchored : ¬ Orphaned db
  payloads : ∀ table, db.requestPayloads = some table → PayloadsMovable (requestIds db) table
  preferences : ∀ table, db.agentPreferences = some table → PreferencesMovable table

/-- The creation times, of a table that has them. -/
def CreationsKept (before after : Option Table) : Prop :=
  ∀ table, before = some table → "created_at" ∈ table.names →
    rowsOf (fun _ row => row "created_at") after = rowsOf (fun _ row => row "created_at") before

structure Lossless (db after : Database) : Prop where
  payloads : ∀ payload ∈ rowsOf payloadOf db.requestPayloads, payload.1 ∈ requestIds db →
    payload ∈ rowsOf payloadOf after.requestPayloads
  preferences : rowsOf preferenceOf after.agentPreferences =
    rowsOf preferenceOf db.agentPreferences
  creations : CreationsKept db.agentPreferences after.agentPreferences
  speeds : rowsOf speedOf after.requests = rowsOf speedOf db.requests
  requests : ∀ table, db.requests = some table →
    ∃ grown, after.requests = some grown ∧ Extends table grown

/-- A table that was there still is, with the columns. -/
def Holds (columns : List Column) (before after : Option Table) : Prop :=
  ∀ table, before = some table → ∃ migrated, after = some migrated ∧
    ∀ column ∈ columns, column.name ∈ migrated.names

structure Complete (db after : Database) : Prop where
  accounts : Holds listedAccountColumns db.accounts after.accounts
  requests : Holds listedRequestColumns db.requests after.requests
  sessions : Holds [⟨"custom_endpoint", "TEXT", .null⟩] db.oauthSessions after.oauthSessions
  payloads : Holds payloadColumns db.requestPayloads after.requestPayloads
  preferences : Holds preferenceColumns db.agentPreferences after.agentPreferences

/-- What the migration promises of a database. -/
structure Migrates (db : Database) : Prop where
  total : (runSchemaMigrations db).1 = .ok ()
  lossless : Lossless db (runSchemaMigrations db).2
  complete : Complete db (runSchemaMigrations db).2
  idempotent : runSchemaMigrations (runSchemaMigrations db).2 = (.ok (), (runSchemaMigrations db).2)
  atomic : ∀ error, (runSchemaMigrations db).1 = .error error → (runSchemaMigrations db).2 = db

theorem failure_rolls_back (db : Database) (error : DbError)
    (failed : (runSchemaMigrations db).1 = .error error) : (runSchemaMigrations db).2 = db := by
  unfold runSchemaMigrations at failed ⊢
  cases outcome : runSchemaMigrationsImpl db with
  | ok migrated =>
      rw [outcome] at failed
      cases failed
  | error raised => rfl

theorem extended_ids (before after : Table) (grown : Extends before after)
    (named : "id" ∈ before.names) : ids after = ids before := by
  obtain ⟨-, grow, rows, kept⟩ := grown
  unfold ids
  rw [rows, List.map_map]
  apply List.map_congr_left
  intro row _
  exact kept row "id" named

/-- The table of payloads after its restructuring. -/
def movedPayloads (table : Table) : Table :=
  if oldPayloads table then ⟨payloadColumns, table.rows.map newPayload⟩ else table

def movedPreferences (table : Table) : Table :=
  if oldPreferences table then ⟨preferenceColumns, table.rows.map newPreference⟩ else table

theorem payloads_moved (requests table : Table)
    (era : oldPayloads table = true → "id" ∈ table.names ∧ Keyed "id" table.rows)
    (anchored : oldPayloads table = true →
      ∀ row ∈ table.rows, row "id" ≠ .null → row "id" ∈ ids requests) :
    restructurePayloads (some requests) table = .ok (movedPayloads table) ∧
      restructurePayloads (some requests) (movedPayloads table) = .ok (movedPayloads table) := by
  unfold movedPayloads
  by_cases old : oldPayloads table = true
  · obtain ⟨named, keyed⟩ := era old
    rw [if_pos old]
    exact ⟨restructure_payloads_moved requests table old named keyed (anchored old),
      restructure_payloads_kept _ _ (new_payloads _)⟩
  · rw [if_neg old]
    have kept := restructure_payloads_kept (some requests) table (by simpa using old)
    exact ⟨kept, kept⟩

theorem preferences_moved (table : Table)
    (era : oldPreferences table = true →
      "agent_id" ∈ table.names ∧ "updated_at" ∈ table.names ∧ Keyed "agent_id" table.rows ∧
        ∀ row ∈ table.rows, row "updated_at" ≠ .null) :
    restructurePreferences table = .ok (movedPreferences table) ∧
      restructurePreferences (movedPreferences table) = .ok (movedPreferences table) := by
  unfold movedPreferences
  by_cases old : oldPreferences table = true
  · obtain ⟨agent, updated, keyed, complete⟩ := era old
    rw [if_pos old]
    exact ⟨restructure_preferences_moved table old agent updated keyed complete,
      restructure_preferences_kept _ (new_preferences _)⟩
  · rw [if_neg old]
    have kept := restructure_preferences_kept table (by simpa using old)
    exact ⟨kept, kept⟩

theorem on_table_moved (migrate : Table → Except DbError Table) (moved : Table → Table)
    (table : Option Table) (each : ∀ held, table = some held → migrate held = .ok (moved held)) :
    onTable migrate table = .ok (table.map moved) := by
  cases table with
  | none => rfl
  | some held => simp [onTable, each held rfl]

/-- What a restructured table of payloads keeps and has, exactly when it is movable. -/
theorem payloads_movable_iff (existing : List Value) (table : Table) :
    ((∀ payload ∈ table.rows.map (payloadOf table), payload.1 ∈ existing →
        payload ∈ rowsOf payloadOf (some (movedPayloads table))) ∧
      Holds payloadColumns (some table) (some (movedPayloads table))) ↔
      PayloadsMovable existing table := by
  unfold PayloadsMovable movedPayloads
  by_cases old : oldPayloads table = true
  · rw [if_pos old, if_pos old]
    have after := fun row => (payload_copied table old (table.rows.map newPayload) row).1
    have before := fun row => (payload_copied table old (table.rows.map newPayload) row).2
    have rows : rowsOf payloadOf (some ⟨payloadColumns, table.rows.map newPayload⟩) =
        table.rows.map fun row => (row "id", row "json", Value.null) := by
      simp [rowsOf, after]
    rw [rows]
    constructor
    · rintro ⟨kept, -⟩ row member present
      have payload := kept _ (List.mem_map_of_mem member) (by rw [before]; exact present)
      obtain ⟨other, -, same⟩ := List.mem_map.mp payload
      rw [before] at same
      exact (Prod.ext_iff.mp (Prod.ext_iff.mp same).2).2.symm
    · intro nothing
      refine ⟨?_, fun _ _ => ⟨_, rfl, fun column member => List.mem_map_of_mem member⟩⟩
      intro payload member present
      obtain ⟨row, here, rfl⟩ := List.mem_map.mp member
      rw [before] at present ⊢
      rw [nothing row here present]
      exact List.mem_map_of_mem here
  · rw [if_neg old, if_neg old]
    constructor
    · rintro ⟨-, holds⟩
      obtain ⟨migrated, same, named⟩ := holds table rfl
      obtain rfl := Option.some.inj same
      exact named
    · intro named
      exact ⟨fun payload member _ => member, fun _ _ => ⟨table, rfl, named⟩⟩

theorem preferences_movable_iff (table : Table) :
    (rowsOf preferenceOf (some (movedPreferences table)) = table.rows.map (preferenceOf table) ∧
      CreationsKept (some table) (some (movedPreferences table)) ∧
      Holds preferenceColumns (some table) (some (movedPreferences table))) ↔
      PreferencesMovable table := by
  unfold PreferencesMovable movedPreferences
  by_cases old : oldPreferences table = true
  · rw [if_pos old, if_pos old]
    have copied := preference_copied table old (table.rows.map newPreference)
    have created : ∀ row, newPreference row "created_at" = row "updated_at" := fun _ => rfl
    have kept : rowsOf preferenceOf (some ⟨preferenceColumns, table.rows.map newPreference⟩) =
          table.rows.map (preferenceOf table) ↔
        ∀ row ∈ table.rows, ∀ name ∈ laterPreferences, cell table name row = .null := by
      simp only [rowsOf, Option.elim_some, List.map_map, List.map_inj_left, Function.comp_apply,
        copied]
    have creations : CreationsKept (some table)
          (some ⟨preferenceColumns, table.rows.map newPreference⟩) ↔
        ("created_at" ∈ table.names →
          ∀ row ∈ table.rows, row "created_at" = row "updated_at") := by
      simp only [CreationsKept, Option.some.injEq, forall_eq', rowsOf, Option.elim_some,
        List.map_map, List.map_inj_left, Function.comp_apply, created]
      exact forall_congr' fun _ => forall₂_congr fun _ _ => eq_comm
    rw [kept, creations]
    constructor
    · rintro ⟨nothing, same, -⟩ row member
      exact ⟨nothing row member, fun named => same named row member⟩
    · intro movable
      exact ⟨fun row member => (movable row member).1,
        fun named row member => (movable row member).2 named,
        fun _ _ => ⟨_, rfl, fun column member => List.mem_map_of_mem member⟩⟩
  · rw [if_neg old, if_neg old]
    constructor
    · rintro ⟨-, -, holds⟩
      obtain ⟨migrated, same, named⟩ := holds table rfl
      obtain rfl := Option.some.inj same
      exact named
    · intro named
      refine ⟨rfl, ?_, fun _ _ => ⟨table, rfl, named⟩⟩
      intro _ _ _
      rfl

/-- A migration that meets no orphan, table by table. -/
structure Moved (db after : Database) : Prop where
  accounts : after.accounts = db.accounts.map migrateAccounts
  requests : ∃ table grown, db.requests = some table ∧ after.requests = some grown ∧
    RequestsMigrated table grown
  sessions : after.oauthSessions = db.oauthSessions.map migrateSessions
  payloads : after.requestPayloads = db.requestPayloads.map movedPayloads
  preferences : after.agentPreferences = db.agentPreferences.map movedPreferences

theorem map_again (migrate : Table → Table) (table : Option Table)
    (again : ∀ held, migrate (migrate held) = migrate held) :
    (table.map migrate).map migrate = table.map migrate := by
  cases table with
  | none => rfl
  | some held => exact congrArg some (again held)

theorem migration_succeeds (db : Database) (era : TsEra db) (clear : ¬ Orphaned db) :
    ∃ after, runSchemaMigrationsImpl db = .ok after ∧ Moved db after ∧
      runSchemaMigrationsImpl after = .ok after := by
  obtain ⟨requests, there, named⟩ := era.requests
  obtain ⟨grown, migrated, outcome⟩ := migrate_requests_ok requests
  have again := migrate_requests_again grown outcome.named
  have same := extended_ids requests grown outcome.grown named
  have payloads : ∀ table, db.requestPayloads = some table →
      restructurePayloads (some grown) table = .ok (movedPayloads table) ∧
        restructurePayloads (some grown) (movedPayloads table) = .ok (movedPayloads table) := by
    intro table held
    refine payloads_moved grown table (era.payloads table held) ?_
    intro old row member given
    by_contra orphan
    rw [same] at orphan
    exact clear ⟨table, held, old, row, member, given, by simpa [requestIds, there] using orphan⟩
  have preferences := fun table held => preferences_moved table (era.preferences table held)
  refine ⟨⟨db.accounts.map migrateAccounts, some grown, db.oauthSessions.map migrateSessions,
    db.requestPayloads.map movedPayloads, db.agentPreferences.map movedPreferences⟩, ?_,
    ⟨rfl, ⟨requests, grown, there, rfl, outcome⟩, rfl, rfl, rfl⟩, ?_⟩
  · have copiedPayloads := on_table_moved _ movedPayloads _ fun table held =>
      (payloads table held).1
    have copiedPreferences := on_table_moved _ movedPreferences _ fun table held =>
      (preferences table held).1
    have requestsDone : onTable migrateRequests db.requests = .ok (some grown) := by
      simp only [there, onTable, migrated]
    simp only [runSchemaMigrationsImpl, requestsDone, copiedPayloads, copiedPreferences]
  -- After the first start no table is in the old layout, so a second one changes nothing.
  · have requestsAgain : onTable migrateRequests (some grown) = .ok (some grown) := by
      simp only [onTable, again]
    have payloadsAgain : onTable (restructurePayloads (some grown))
        (db.requestPayloads.map movedPayloads) = .ok (db.requestPayloads.map movedPayloads) := by
      cases held : db.requestPayloads with
      | none => rfl
      | some table => simp [onTable, (payloads table held).2]
    have preferencesAgain : onTable restructurePreferences
        (db.agentPreferences.map movedPreferences) =
          .ok (db.agentPreferences.map movedPreferences) := by
      cases held : db.agentPreferences with
      | none => rfl
      | some table => simp [onTable, (preferences table held).2]
    simp only [runSchemaMigrationsImpl, requestsAgain, payloadsAgain, preferencesAgain,
      map_again migrateAccounts _ migrate_accounts_again,
      map_again migrateSessions _ migrate_sessions_again]

/-- The tables that only gain columns are always complete, and keep what they had. -/
theorem grown_complete (db after : Database) (moved : Moved db after) :
    Holds listedAccountColumns db.accounts after.accounts ∧
      Holds listedRequestColumns db.requests after.requests ∧
      Holds [⟨"custom_endpoint", "TEXT", .null⟩] db.oauthSessions after.oauthSessions ∧
      rowsOf speedOf after.requests = rowsOf speedOf db.requests ∧
      ∀ table, db.requests = some table →
        ∃ grown, after.requests = some grown ∧ Extends table grown := by
  obtain ⟨requests, grown, there, carried, outcome⟩ := moved.requests
  refine ⟨?_, ?_, ?_, ?_, ?_⟩
  · intro table held
    exact ⟨migrateAccounts table, by simp [moved.accounts, held], migrate_accounts_named table⟩
  · intro table held
    rw [there] at held
    obtain rfl := Option.some.inj held
    exact ⟨grown, carried, outcome.named⟩
  · intro table held
    refine ⟨migrateSessions table, by simp [moved.sessions, held], ?_⟩
    intro column member
    obtain rfl := List.mem_singleton.mp member
    exact add_if_missing_named table.names table _ (List.Subset.refl _)
  · rw [carried, there]
    exact outcome.speeds
  · intro table held
    rw [there] at held
    obtain rfl := Option.some.inj held
    exact ⟨grown, carried, outcome.grown⟩

theorem holds_none (columns : List Column) (after : Option Table) : Holds columns none after :=
  nofun

theorem moved_iff (db after : Database) (moved : Moved db after) :
    (Lossless db after ∧ Complete db after) ↔
      (∀ table, db.requestPayloads = some table → PayloadsMovable (requestIds db) table) ∧
        ∀ table, db.agentPreferences = some table → PreferencesMovable table := by
  obtain ⟨accounts, requests, sessions, speeds, extended⟩ := grown_complete db after moved
  -- Two tables are copied, and the condition speaks of each by itself.
  have payloads : ((∀ payload ∈ rowsOf payloadOf db.requestPayloads,
        payload.1 ∈ requestIds db → payload ∈ rowsOf payloadOf after.requestPayloads) ∧
      Holds payloadColumns db.requestPayloads after.requestPayloads) ↔
      ∀ table, db.requestPayloads = some table → PayloadsMovable (requestIds db) table := by
    rw [moved.payloads]
    cases db.requestPayloads with
    | none => simp [rowsOf, holds_none]
    | some table =>
        simp only [Option.some.injEq, forall_eq']
        exact payloads_movable_iff (requestIds db) table
  have preferences : (rowsOf preferenceOf after.agentPreferences =
        rowsOf preferenceOf db.agentPreferences ∧
      CreationsKept db.agentPreferences after.agentPreferences ∧
      Holds preferenceColumns db.agentPreferences after.agentPreferences) ↔
      ∀ table, db.agentPreferences = some table → PreferencesMovable table := by
    rw [moved.preferences]
    cases db.agentPreferences with
    | none => simp [rowsOf, holds_none, CreationsKept]
    | some table =>
        simp only [Option.some.injEq, forall_eq']
        exact preferences_movable_iff table
  rw [← payloads, ← preferences]
  constructor
  · rintro ⟨lossless, complete⟩
    exact ⟨⟨lossless.payloads, complete.payloads⟩, lossless.preferences, lossless.creations,
      complete.preferences⟩
  · rintro ⟨⟨payloadRows, payloadNames⟩, preferenceRows, creations, preferenceNames⟩
    exact ⟨⟨payloadRows, preferenceRows, creations, speeds, extended⟩,
      ⟨accounts, requests, sessions, payloadNames, preferenceNames⟩⟩

theorem migration_refused (db : Database) (era : TsEra db) (orphaned : Orphaned db) :
    runSchemaMigrationsImpl db = .error (.sqlite "FOREIGN KEY constraint failed") := by
  obtain ⟨requests, there, named⟩ := era.requests
  obtain ⟨grown, migrated, outcome⟩ := migrate_requests_ok requests
  have same := extended_ids requests grown outcome.grown named
  obtain ⟨table, held, old, row, member, given, orphan⟩ := orphaned
  obtain ⟨key, keyed⟩ := era.payloads table held old
  have apart : row "id" ∉ ids grown := by
    rw [same]
    simpa [requestIds, there] using orphan
  have refused := restructure_payloads_orphan grown table old key keyed row member given apart
  simp only [runSchemaMigrationsImpl, there, onTable, migrated, held, refused]

/-- A database of the older program migrates as promised exactly when it is movable. -/
theorem migrates_iff (db : Database) (era : TsEra db) : Migrates db ↔ Movable db := by
  by_cases orphaned : Orphaned db
  · constructor
    · intro migrates
      have total := migrates.total
      unfold runSchemaMigrations at total
      rw [migration_refused db era orphaned] at total
      cases total
    · intro movable
      exact absurd orphaned movable.anchored
  -- Without an orphan the migration goes through, and only its losses are in question.
  · obtain ⟨after, done, moved, again⟩ := migration_succeeds db era orphaned
    have first : runSchemaMigrations db = (.ok (), after) := by
      unfold runSchemaMigrations
      rw [done]
    have second : runSchemaMigrations after = (.ok (), after) := by
      unfold runSchemaMigrations
      rw [again]
    have kept := moved_iff db after moved
    constructor
    · intro migrates
      have lossless := migrates.lossless
      have complete := migrates.complete
      rw [first] at lossless complete
      obtain ⟨payloads, preferences⟩ := kept.mp ⟨lossless, complete⟩
      exact ⟨orphaned, payloads, preferences⟩
    · intro movable
      obtain ⟨lossless, complete⟩ := kept.mpr ⟨movable.payloads, movable.preferences⟩
      refine ⟨?_, ?_, ?_, ?_, failure_rolls_back db⟩
      · rw [first]
      · rw [first]
        exact lossless
      · rw [first]
        exact complete
      · rw [first]
        exact second

def rowOf (fields : List (String × Value)) : Row :=
  fun name => ((fields.find? fun field => field.1 = name).map Prod.snd).getD .null

/-- The tables of the migration's tests, with one request and one payload. -/
def tsDatabase (payloadId : String) : Database where
  accounts := some ⟨[⟨"id", "TEXT PRIMARY KEY", .null⟩, ⟨"name", "TEXT NOT NULL", .null⟩,
    ⟨"provider", "TEXT NOT NULL DEFAULT 'anthropic'", .text "anthropic"⟩], []⟩
  requests := some ⟨[⟨"id", "TEXT PRIMARY KEY", .null⟩, ⟨"timestamp", "INTEGER NOT NULL", .null⟩,
    ⟨"method", "TEXT NOT NULL", .null⟩, ⟨"path", "TEXT NOT NULL", .null⟩,
    ⟨"output_tokens_per_second", "REAL", .null⟩],
    [rowOf [("id", .text "r1"), ("timestamp", .integer 1000), ("method", .text "POST"),
      ("path", .text "/v1/messages"), ("output_tokens_per_second", .real (.ofInt 42))]]⟩
  oauthSessions := none
  requestPayloads := some ⟨[⟨"id", "TEXT PRIMARY KEY", .null⟩, ⟨"json", "TEXT NOT NULL", .null⟩],
    [rowOf [("id", .text payloadId), ("json", .text "body")]]⟩
  agentPreferences := some ⟨[⟨"agent_id", "TEXT PRIMARY KEY", .null⟩,
    ⟨"model", "TEXT NOT NULL", .null⟩, ⟨"updated_at", "INTEGER NOT NULL", .null⟩],
    [rowOf [("agent_id", .text "claude-code"), ("model", .text "claude-sonnet"),
      ("updated_at", .integer 1000)]]⟩

theorem ts_database_era (payloadId : String) : TsEra (tsDatabase payloadId) where
  requests := ⟨_, rfl, List.mem_cons_self⟩
  payloads := by
    intro table held _
    obtain rfl := Option.some.inj held
    exact ⟨List.mem_cons_self, List.pairwise_singleton _ _⟩
  preferences := by
    intro table held _
    obtain rfl := Option.some.inj held
    refine ⟨by decide, by decide, List.pairwise_singleton _ _, ?_⟩
    intro row member
    obtain rfl := List.mem_singleton.mp member
    decide

theorem ts_database_migrates : Migrates (tsDatabase "r1") := by
  apply (migrates_iff (tsDatabase "r1") (ts_database_era "r1")).mpr
  refine ⟨?_, ?_, ?_⟩
  · rintro ⟨table, held, -, row, member, -, orphan⟩
    obtain rfl := Option.some.inj held
    obtain rfl := List.mem_singleton.mp member
    exact orphan List.mem_cons_self
  · intro table held
    obtain rfl := Option.some.inj held
    unfold PayloadsMovable
    rw [if_pos (by decide)]
    intro row _ _
    exact if_neg (by decide)
  · intro table held
    obtain rfl := Option.some.inj held
    unfold PreferencesMovable
    rw [if_pos (by decide)]
    intro row _
    refine ⟨fun name member => if_neg ?_, fun named => absurd named (by decide)⟩
    revert name
    decide

/-- A payload whose request is gone keeps the database from being opened. -/
theorem orphan_aborts_start : ¬ ∀ db, TsEra db → Migrates db := by
  intro promised
  have total := (promised _ (ts_database_era "gone")).total
  have orphaned : Orphaned (tsDatabase "gone") :=
    ⟨_, rfl, by decide, _, List.mem_singleton_self _, by decide, by decide⟩
  unfold runSchemaMigrations at total
  rw [migration_refused _ (ts_database_era "gone") orphaned] at total
  cases total

end Ccflare.SchemaMigration
