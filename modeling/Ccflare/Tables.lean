import Ccflare.MachineNumber
import Mathlib.Data.List.Basic
import Mathlib.Tactic.Common

/-!
Tables of a dynamically typed database: named columns with their declarations and rows
read by column name. Columns are added and renamed, rows are updated in place and copied
under the constraints of another table. A statement that names a missing column, or adds
a column that is there, fails and changes nothing.
-/

namespace Ccflare.Tables

open MachineNumber

inductive Value where
  | null
  | integer (value : Int)
  | real (value : F64)
  | text (value : String)
  deriving DecidableEq

abbrev Row := String → Value

/-- A column with its declaration and the value its absence stands for. -/
structure Column where
  name : String
  declared : String
  default : Value
  deriving DecidableEq

structure Table where
  columns : List Column
  rows : List Row

def Table.names (table : Table) : List String := table.columns.map Column.name

def assign (name : String) (value : Value) (row : Row) : Row :=
  fun other => if other = name then value else row other

def Table.addColumn (column : Column) (table : Table) : Option Table :=
  if column.name ∈ table.names then none
  else some ⟨table.columns ++ [column], table.rows.map (assign column.name column.default)⟩

def renameIn (old new name : String) : String := if name = old then new else name

def Table.renameColumn (old new : String) (table : Table) : Option Table :=
  if old ∈ table.names ∧ new ∉ table.names then
    some ⟨table.columns.map fun column => { column with name := renameIn old new column.name },
      table.rows.map fun row => assign old .null (assign new (row old) row)⟩
  else none

/-- `UPDATE`, with the columns that the statement names. -/
def Table.update (named : List String) (change : Row → Row) (table : Table) : Option Table :=
  if ∀ name ∈ named, name ∈ table.names then some { table with rows := table.rows.map change }
  else none

/-- `INSERT OR IGNORE` into an empty table: a row that breaks the key or lacks a value
that is required is left out. -/
def insertOrIgnore (key : String) (required : List String) (rows : List Row) : List Row :=
  rows.foldl (fun held row =>
    if (row key ≠ .null ∧ ∃ old ∈ held, old key = row key) ∨ ∃ name ∈ required, row name = .null
    then held else held ++ [row]) []

/-- No two rows share a key; rows without one are not compared. -/
def Keyed (key : String) (rows : List Row) : Prop :=
  rows.Pairwise fun a b => a key = .null ∨ a key ≠ b key

@[simp]
theorem assign_same (name : String) (value : Value) (row : Row) : assign name value row name = value :=
  if_pos rfl

theorem assign_other (name other : String) (value : Value) (row : Row) (apart : other ≠ name) :
    assign name value row other = row other :=
  if_neg apart

theorem assign_held (name : String) (row : Row) : assign name (row name) row = row := by
  funext other
  unfold assign
  split
  · rename_i same
    rw [same]
  · rfl

/-- Columns may have come; those that were there keep their values. -/
def Extends (before after : Table) : Prop :=
  before.names ⊆ after.names ∧ ∃ grow : Row → Row, after.rows = before.rows.map grow ∧
    ∀ row, ∀ name ∈ before.names, grow row name = row name

theorem Extends.refl (table : Table) : Extends table table :=
  ⟨List.Subset.refl _, id, (List.map_id _).symm, fun _ _ _ => rfl⟩

theorem Extends.trans {first second third : Table} (left : Extends first second)
    (right : Extends second third) : Extends first third := by
  obtain ⟨within, grow, rows, kept⟩ := left
  obtain ⟨withinLater, growLater, rowsLater, keptLater⟩ := right
  refine ⟨List.Subset.trans within withinLater, growLater ∘ grow, ?_, ?_⟩
  · rw [rowsLater, rows, List.map_map]
  · intro row name member
    exact (keptLater (grow row) name (within member)).trans (kept row name member)

theorem add_column_fresh (column : Column) (table : Table) (fresh : column.name ∉ table.names) :
    table.addColumn column =
      some ⟨table.columns ++ [column], table.rows.map (assign column.name column.default)⟩ :=
  if_neg fresh

theorem add_column_extends (column : Column) (table after : Table)
    (added : table.addColumn column = some after) : Extends table after := by
  unfold Table.addColumn at added
  split at added
  · cases added
  · rename_i fresh
    cases added
    refine ⟨?_, assign column.name column.default, rfl, ?_⟩
    · simp [Table.names]
    · intro row name member
      apply assign_other
      rintro rfl
      exact fresh member

theorem add_column_named (column : Column) (table after : Table)
    (added : table.addColumn column = some after) :
    after.names = table.names ++ [column.name] := by
  unfold Table.addColumn at added
  split at added
  · cases added
  · cases added
    simp [Table.names]

theorem rename_names (old new : String) (table after : Table)
    (renamed : table.renameColumn old new = some after) :
    after.names = table.names.map (renameIn old new) := by
  unfold Table.renameColumn at renamed
  split at renamed
  · cases renamed
    simp [Table.names, Function.comp_def]
  · cases renamed

/-- Rows that keep to the constraints among themselves are all inserted. -/
theorem insert_or_ignore_all (key : String) (required : List String) (rows : List Row)
    (keyed : Keyed key rows) (complete : ∀ row ∈ rows, ∀ name ∈ required, row name ≠ .null) :
    insertOrIgnore key required rows = rows := by
  unfold insertOrIgnore
  suffices carried : ∀ later held : List Row, Keyed key (held ++ later) →
      (∀ row ∈ later, ∀ name ∈ required, row name ≠ .null) →
      later.foldl (fun held row =>
        if (row key ≠ .null ∧ ∃ old ∈ held, old key = row key) ∨
            ∃ name ∈ required, row name = .null
        then held else held ++ [row]) held = held ++ later from carried rows [] keyed complete
  intro later
  induction later with
  | nil => simp
  | cons row rest ih =>
      intro held keyed complete
      have fresh : ¬ ((row key ≠ .null ∧ ∃ old ∈ held, old key = row key) ∨
          ∃ name ∈ required, row name = .null) := by
        rintro (⟨named, old, member, same⟩ | ⟨name, inside, missing⟩)
        · have apart := (List.pairwise_append.mp keyed).2.2 old member row List.mem_cons_self
          rcases apart with unnamed | differs
          · exact named (same ▸ unnamed)
          · exact differs same
        · exact complete row List.mem_cons_self name inside missing
      have carried : Keyed key ((held ++ [row]) ++ rest) := by
        rwa [List.append_assoc, List.singleton_append]
      rw [List.foldl_cons, if_neg fresh, ih (held ++ [row]) carried
        (fun other member => complete other (List.mem_cons_of_mem _ member)), List.append_assoc,
        List.singleton_append]

end Ccflare.Tables
