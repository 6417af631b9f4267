import Ccflare.MigrationPromises

/-!
The monthly costs over the starts of the program. Every start migrates, and the second
of the two statements on the costs does not ask whether a cost was set: a tier with a
known price writes it over whatever is there.
-/

namespace Ccflare.SchemaMigration

open MachineNumber References Tables

/-- The database after so many starts. -/
def starts (count : Nat) (db : Database) : Database :=
  (fun db => (runSchemaMigrations db).2)^[count] db

def costAt (index : Nat) (db : Database) : Option Value :=
  db.accounts.bind fun table => table.rows[index]?.map fun row => row "monthly_cost_usd"

/-- The tier as the statements read it: a column that is added holds NULL. -/
def tierOf (table : Table) (row : Row) : Value :=
  if "subscription_tier" ∈ table.names then row "subscription_tier" else .null

/-- The tier stands for no price, or for the one that is set. -/
def Spared (tier cost : Value) : Prop := ∀ price, tierCost tier = some price → cost = usd price

/-- Every row is changed in place, and these columns keep their values. -/
def Carries (names : List String) (before after : Table) : Prop :=
  ∃ grow : Row → Row, after.rows = before.rows.map grow ∧
    ∀ row, ∀ name ∈ names, grow row name = row name

theorem extends_carries (names : List String) (before after : Table)
    (grown : Extends before after) (within : names ⊆ before.names) :
    Carries names before after := by
  obtain ⟨-, grow, rows, kept⟩ := grown
  exact ⟨grow, rows, fun row name member => kept row name (within member)⟩

theorem Carries.trans {names : List String} {first second third : Table}
    (left : Carries names first second) (right : Carries names second third) :
    Carries names first third := by
  obtain ⟨grow, rows, kept⟩ := left
  obtain ⟨growLater, rowsLater, keptLater⟩ := right
  refine ⟨growLater ∘ grow, by rw [rowsLater, rows, List.map_map], ?_⟩
  intro row name member
  exact (keptLater (grow row) name member).trans (kept row name member)

theorem rename_reserve_carries (cols names : List String) (table : Table)
    (within : names ⊆ table.names)
    (apart : ∀ name ∈ names, name ≠ "reserve_percent" ∧ name ≠ "reserve_5h") :
    Carries names table (renameReserve cols table) := by
  have added := extends_carries names _ _ (add_if_missing_extends cols table reserve5h) within
  unfold renameReserve
  split
  · cases renamed : table.renameColumn "reserve_percent" "reserve_5h" with
    | none => exact added
    | some after =>
        unfold Table.renameColumn at renamed
        split at renamed
        · cases renamed
          refine ⟨_, rfl, ?_⟩
          intro row name member
          obtain ⟨old, new⟩ := apart name member
          rw [assign_other _ _ _ _ old, assign_other _ _ _ _ new]
        · cases renamed
  · exact added

theorem rename_reserve_new (cols : List String) (table : Table) (name : String)
    (member : name ∈ (renameReserve cols table).names) :
    name ∈ table.names ∨ name = "reserve_5h" := by
  have added := add_if_missing_names cols table reserve5h
  have reserve : name ∈ table.names ++ [reserve5h.name] →
      name ∈ table.names ∨ name = "reserve_5h" := by
    intro grown
    rcases List.mem_append.mp grown with old | new
    · exact Or.inl old
    · exact Or.inr (List.mem_singleton.mp new)
  unfold renameReserve at member
  split at member
  · cases renamed : table.renameColumn "reserve_percent" "reserve_5h" with
    | none =>
        rw [renamed] at member
        exact reserve (added member)
    | some after =>
        rw [renamed] at member
        rw [rename_names _ _ table after renamed] at member
        obtain ⟨old, here, rfl⟩ := List.mem_map.mp member
        unfold renameIn
        split
        · exact Or.inr rfl
        · exact Or.inl here
  · exact reserve (added member)

/-- A column that is not there is added with its default. -/
theorem add_columns_default (existing : List String) (columns : List Column) (table : Table)
    (name : String) (value : Value) (stale : name ∉ existing) (missing : name ∉ table.names)
    (listed : ∃ column ∈ columns, column.name = name)
    (default : ∀ column ∈ columns, column.name = name → column.default = value) :
    ∀ row ∈ (addColumns existing columns table).rows, row name = value := by
  induction columns generalizing table with
  | nil =>
      obtain ⟨column, member, -⟩ := listed
      cases member
  | cons column rest ih =>
      intro row member
      change row ∈ (addColumns existing rest (addColumnIfMissing existing table column)).rows
        at member
      by_cases here : column.name = name
      · subst here
        have later := add_columns_extends existing rest (addColumnIfMissing existing table column)
        have added : addColumnIfMissing existing table column =
            ⟨table.columns ++ [column],
              table.rows.map (assign column.name column.default)⟩ := by
          unfold addColumnIfMissing
          rw [if_neg stale, add_column_fresh column table missing]
          rfl
        rw [added] at later member
        obtain ⟨-, grow, rows, kept⟩ := later
        rw [rows] at member
        obtain ⟨middle, inside, rfl⟩ := List.mem_map.mp member
        obtain ⟨first, -, rfl⟩ := List.mem_map.mp inside
        rw [kept _ column.name (by simp [Table.names]), assign_same]
        exact default column List.mem_cons_self rfl
      · have names := add_if_missing_names existing table column
        refine ih _ ?_ ?_ ?_ row member
        · intro present
          rcases List.mem_append.mp (names present) with old | new
          · exact missing old
          · exact here (List.mem_singleton.mp new).symm
        · obtain ⟨found, inside, same⟩ := listed
          rcases List.mem_cons.mp inside with rfl | inside
          · exact absurd same here
          · exact ⟨found, inside, same⟩
        · exact fun other inside => default other (List.mem_cons_of_mem _ inside)

theorem account_schema_carries (table : Table) (names : List String)
    (within : names ⊆ table.names)
    (apart : ∀ name ∈ names, name ≠ "reserve_percent" ∧ name ≠ "reserve_5h") :
    Carries names table (accountSchema table) := by
  have first := add_columns_extends table.names accountColumns table
  obtain ⟨-, renamed⟩ := rename_reserve_names table.names
    (addColumns table.names accountColumns table) first.1
  have widened : names ⊆ (addColumns table.names accountColumns table).names :=
    List.Subset.trans within first.1
  have start := extends_carries names _ _ first within
  have middle := rename_reserve_carries table.names names _ widened apart
  have last := extends_carries names _ _ (add_columns_extends (renameReserve table.names
    (addColumns table.names accountColumns table)).names laterAccountColumns (renameReserve
      table.names (addColumns table.names accountColumns table))) fun name member =>
        renamed name (widened member) (apart name member).1
  exact (start.trans middle).trans last

theorem account_schema_no_tier (table : Table)
    (missing : "subscription_tier" ∉ table.names) :
    ∀ row ∈ (accountSchema table).rows, row "subscription_tier" = .null := by
  have absent : "subscription_tier" ∉ (renameReserve table.names
      (addColumns table.names accountColumns table)).names := by
    intro present
    rcases rename_reserve_new _ _ _ present with early | reserve
    · rcases List.mem_append.mp (add_columns_names _ _ _ early) with old | new
      · exact missing old
      · revert new
        decide
    · revert reserve
      decide
  apply add_columns_default _ _ _ _ _ absent absent
  · exact ⟨⟨"subscription_tier", "TEXT", .null⟩, by decide, rfl⟩
  · decide

theorem schema_row (table : Table) (index : Nat) (row : Row)
    (at_ : table.rows[index]? = some row) (present : "monthly_cost_usd" ∈ table.names) :
    ∃ grown, (accountSchema table).rows[index]? = some grown ∧
      grown "monthly_cost_usd" = row "monthly_cost_usd" ∧
      grown "subscription_tier" = tierOf table row := by
  unfold tierOf
  by_cases tier : "subscription_tier" ∈ table.names
  · obtain ⟨grow, rows, kept⟩ := account_schema_carries table
      ["monthly_cost_usd", "subscription_tier"] (by
        intro name member
        simp only [List.mem_cons, List.not_mem_nil, or_false] at member
        rcases member with rfl | rfl
        · exact present
        · exact tier) (by decide)
    refine ⟨grow row, by simp [rows, at_], kept row _ (by simp), ?_⟩
    rw [if_pos tier]
    exact kept row _ (by simp)
  · obtain ⟨grow, rows, kept⟩ := account_schema_carries table ["monthly_cost_usd"] (by
      intro name member
      obtain rfl := List.mem_singleton.mp member
      exact present) (by decide)
    have here : (accountSchema table).rows[index]? = some (grow row) := by simp [rows, at_]
    refine ⟨grow row, here, kept row _ (by simp), ?_⟩
    rw [if_neg tier]
    exact account_schema_no_tier table tier _ (List.mem_of_getElem? here)

/-- One migration writes the price of the tier over an edited cost. -/
theorem migrated_cost (table : Table) (index : Nat) (row : Row)
    (at_ : table.rows[index]? = some row) (present : "monthly_cost_usd" ∈ table.names)
    (edited : isZero (row "monthly_cost_usd") = false) :
    (migrateAccounts table).rows[index]?.map (fun row => row "monthly_cost_usd") =
      some (rederivedCost (tierOf table row) (row "monthly_cost_usd")) := by
  obtain ⟨grown, here, cost, tier⟩ := schema_row table index row at_ present
  have named := account_schema_named table
  have both : ∀ name ∈ ["monthly_cost_usd", "subscription_tier"],
      name ∈ (accountSchema table).names := by
    intro name member
    simp only [List.mem_cons, List.not_mem_nil, or_false] at member
    rcases member with rfl | rfl
    · exact named ⟨"monthly_cost_usd", "REAL NOT NULL DEFAULT 0", .real (.ofInt 0)⟩ (by decide)
    · exact named ⟨"subscription_tier", "TEXT", .null⟩ (by decide)
  have undetected : detected (accountSchema table).names (backfilled (accountSchema table).names
      grown) "monthly_cost_usd" = row "monthly_cost_usd" := by
    have before := backfilled_other (accountSchema table).names grown "monthly_cost_usd" (by decide)
    rw [← cost, ← before]
    apply applied_other
    rw [detect_cost_row, assign_same, detectedCost, before, cost, edited]
    rfl
  rw [migrateAccounts, account_updates_rows]
  simp only [List.getElem?_map, here, Option.map_some, accountRow, rederived, applied, if_pos both]
  rw [rederive_cost_row, assign_same, undetected, detected_other _ _ _ (by decide),
    backfilled_other _ _ _ (by decide), tier]

theorem starts_orphaned (db : Database) (era : TsEra db) (orphaned : Orphaned db) (count : Nat) :
    starts count db = db := by
  induction count with
  | zero => rfl
  | succ count ih =>
      unfold starts at ih ⊢
      rw [Function.iterate_succ_apply, runSchemaMigrations, migration_refused db era orphaned]
      exact ih

/-- After the first start that migrates, the others change nothing. -/
theorem starts_settled (db after : Database) (done : runSchemaMigrationsImpl db = .ok after)
    (again : runSchemaMigrationsImpl after = .ok after) (count : Nat) :
    starts (count + 1) db = after := by
  have settled : ∀ count, starts count after = after := by
    intro count
    induction count with
    | zero => rfl
    | succ count ih =>
        unfold starts at ih ⊢
        rw [Function.iterate_succ_apply, runSchemaMigrations, again]
        exact ih
  unfold starts at settled ⊢
  rw [Function.iterate_succ_apply, runSchemaMigrations, done]
  exact settled count

/-- An edited cost survives every start exactly when its tier leaves it alone, or an
orphaned payload undoes every migration. -/
theorem cost_survives_iff (db : Database) (era : TsEra db) (accounts : Table)
    (held : db.accounts = some accounts) (present : "monthly_cost_usd" ∈ accounts.names)
    (index : Nat) (row : Row) (at_ : accounts.rows[index]? = some row)
    (edited : isZero (row "monthly_cost_usd") = false) :
    (∀ count, costAt index (starts count db) = some (row "monthly_cost_usd")) ↔
      Orphaned db ∨ Spared (tierOf accounts row) (row "monthly_cost_usd") := by
  have before : costAt index db = some (row "monthly_cost_usd") := by
    simp [costAt, held, at_]
  by_cases orphaned : Orphaned db
  · refine iff_of_true ?_ (Or.inl orphaned)
    intro count
    rw [starts_orphaned db era orphaned count]
    exact before
  · obtain ⟨after, done, moved, again⟩ := migration_succeeds db era orphaned
    have cost : costAt index after =
        some (rederivedCost (tierOf accounts row) (row "monthly_cost_usd")) := by
      rw [costAt, moved.accounts, held]
      exact migrated_cost accounts index row at_ present edited
    have survives : rederivedCost (tierOf accounts row) (row "monthly_cost_usd") =
        row "monthly_cost_usd" ↔ Spared (tierOf accounts row) (row "monthly_cost_usd") := by
      unfold rederivedCost Spared
      cases tierCost (tierOf accounts row) with
      | none => simp
      | some price => simp [eq_comm]
    rw [or_iff_right orphaned, ← survives]
    constructor
    · intro kept
      have first := kept 1
      rw [starts_settled db after done again 0, cost] at first
      exact Option.some.inj first
    · intro same count
      cases count with
      | zero => exact before
      | succ count => rw [starts_settled db after done again count, cost, same]

/-- The accounts of a database with one account, its tier and the cost set for it. -/
def pricedAccounts (tier : String) (cost : Int) : Table :=
  ⟨[⟨"id", "TEXT PRIMARY KEY", .null⟩, ⟨"name", "TEXT NOT NULL", .null⟩,
    ⟨"provider", "TEXT NOT NULL DEFAULT 'anthropic'", .text "anthropic"⟩,
    ⟨"subscription_tier", "TEXT", .null⟩,
    ⟨"monthly_cost_usd", "REAL NOT NULL DEFAULT 0", .real (.ofInt 0)⟩],
    [rowOf [("id", .text "a"), ("name", .text "a"), ("provider", .text "anthropic"),
      ("subscription_tier", .text tier), ("monthly_cost_usd", usd cost)]]⟩

def priced (tier : String) (cost : Int) : Database :=
  { tsDatabase "r1" with accounts := some (pricedAccounts tier cost) }

theorem priced_era (tier : String) (cost : Int) : TsEra (priced tier cost) :=
  ⟨(ts_database_era "r1").requests, (ts_database_era "r1").payloads,
    (ts_database_era "r1").preferences⟩

theorem unlisted_tier_keeps_cost :
    ¬ ∃ count, costAt 0 (starts count (priced "Free" 42)) ≠ some (usd 42) := by
  have spared : Spared (tierOf (pricedAccounts "Free" 42)
      ((pricedAccounts "Free" 42).rows.headD fun _ => .null)) (usd 42) := by
    intro price listed
    have unlisted : tierCost (.text "Free") = none := by decide +kernel
    change tierCost (.text "Free") = some price at listed
    rw [unlisted] at listed
    cases listed
  rintro ⟨count, changed⟩
  exact changed ((cost_survives_iff (priced "Free" 42) (priced_era "Free" 42)
    (pricedAccounts "Free" 42) rfl (by decide) 0 _ rfl (by decide +kernel)).mpr
      (Or.inr spared) count)

/-- A cost of 150 set for a Max 20x account is 200 after the next start. -/
theorem edited_cost_overwritten :
    ¬ ∀ (db : Database) (accounts : Table) (index : Nat) (row : Row), TsEra db →
      db.accounts = some accounts → "monthly_cost_usd" ∈ accounts.names →
      accounts.rows[index]? = some row → isZero (row "monthly_cost_usd") = false →
      ∀ count, costAt index (starts count db) = some (row "monthly_cost_usd") := by
  intro promised
  have kept := promised (priced "Max 20x" 150) (pricedAccounts "Max 20x" 150) 0 _
    (priced_era "Max 20x" 150) rfl (by decide) rfl (by decide +kernel) 1
  revert kept
  decide +kernel

end Ccflare.SchemaMigration
