import Mathlib.Data.List.Nodup
import Mathlib.Tactic.Common

/-!
Deleting rows in batches. A batch takes the keys of at most so many of the rows that
are due and deletes every row with one of these keys; the loop ends with the first
statement that fails or deletes nothing. Which rows a batch takes is up to the engine.
-/

namespace Ccflare.Batches

variable {Row Key : Type} {count : Nat}

/-- `LIMIT count` of a query without an order. -/
structure Limit (Row : Type) (count : Nat) where
  pick : List Row → List Row
  sublist : ∀ rows, (pick rows).Sublist rows
  length : ∀ rows, (pick rows).length = min count rows.length

def Limit.first (count : Nat) : Limit Row count where
  pick rows := rows.take count
  sublist rows := List.take_sublist count rows
  length _ := List.length_take

/-- A statement that deletes what it is told to, or fails and deletes nothing. -/
structure Delete (Row : Type) where
  run : (Row → Bool) → List Row → Option (List Row)
  deletes : ∀ doomed rows kept, run doomed rows = some kept →
    kept = rows.filter fun row => !doomed row

def Delete.plain : Delete Row where
  run doomed rows := some (rows.filter fun row => !doomed row)
  deletes _ _ _ given := (Option.some.inj given).symm

def batchKeys (limit : Limit Row count) (due : Row → Bool) (key : Row → Key) (rows : List Row) :
    List Key :=
  (limit.pick (rows.filter due)).map key

/-- Rows of one key are due together: the key is unique, or it decides. -/
def Together (due : Row → Bool) (key : Row → Key) (rows : List Row) : Prop :=
  ∀ a ∈ rows, ∀ b ∈ rows, key a = key b → due a = due b

variable (limit : Limit Row count) (due : Row → Bool) (key : Row → Key)

theorem together_of_nodup (rows : List Row) (distinct : (rows.map key).Nodup) :
    Together due key rows := by
  intro a here b there same
  rw [List.inj_on_of_nodup_map distinct here there same]

theorem batch_due (rows : List Row) (together : Together due key rows) (row : Row)
    (member : row ∈ rows) (taken : key row ∈ batchKeys limit due key rows) : due row = true := by
  obtain ⟨picked, chosen, same⟩ := List.mem_map.mp taken
  have found := List.mem_filter.mp ((limit.sublist _).subset chosen)
  rw [← together picked found.1 row member same]
  exact found.2

/-- A batch of a positive limit is empty only when nothing is due. -/
theorem batch_empty (positive : 0 < count) (rows : List Row)
    (empty : ∀ row ∈ rows, key row ∉ batchKeys limit due key rows) :
    ∀ row ∈ rows, due row = false := by
  have none_ : limit.pick (rows.filter due) = [] := by
    apply List.eq_nil_iff_forall_not_mem.mpr
    intro row chosen
    have found := List.mem_filter.mp ((limit.sublist _).subset chosen)
    exact empty row found.1 (List.mem_map_of_mem chosen)
  have size := limit.length (rows.filter due)
  rw [none_, List.length_nil] at size
  have nothing : rows.filter due = [] := List.eq_nil_of_length_eq_zero (by omega)
  intro row member
  by_contra old
  have found : row ∈ rows.filter due :=
    List.mem_filter.mpr ⟨member, by simpa using old⟩
  rw [nothing] at found
  cases found

theorem filter_length_eq (doomed : Row → Bool) (rows : List Row)
    (full : ¬ (rows.filter fun row => !doomed row).length < rows.length) :
    (rows.filter fun row => !doomed row) = rows ∧ ∀ row ∈ rows, doomed row = false := by
  have same : (rows.filter fun row => !doomed row).length = rows.length :=
    Nat.le_antisymm (List.length_filter_le _ rows) (Nat.le_of_not_lt full)
  have all := List.length_filter_eq_length_iff.mp same
  exact ⟨List.filter_eq_self.mpr all, fun row member => by simpa using all row member⟩

theorem together_sublist (rows kept : List Row) (within : kept.Sublist rows)
    (together : Together due key rows) : Together due key kept :=
  fun a here b there same => together a (within.subset here) b (within.subset there) same

variable [DecidableEq Key]

/-- The rows that remain, and how many rows were deleted. -/
def deleteBatches (delete : Delete Row) (rows : List Row) : List Row × Nat :=
  match delete.run (fun row => decide (key row ∈ batchKeys limit due key rows)) rows with
  | none => (rows, 0)
  | some kept =>
      if kept.length < rows.length then
        let later := deleteBatches delete kept
        (later.1, rows.length - kept.length + later.2)
      else (kept, 0)
  termination_by rows.length

variable (delete : Delete Row)

/-- The loop only deletes, and only what is due. -/
theorem batches_keep (rows : List Row) (together : Together due key rows) :
    (deleteBatches limit due key delete rows).1.Sublist rows ∧
      ((deleteBatches limit due key delete rows).1.filter fun row => !due row) =
        rows.filter fun row => !due row := by
  induction rows using deleteBatches.induct limit due key delete with
  | case1 rows refused =>
      rw [deleteBatches, refused]
      exact ⟨List.Sublist.refl rows, rfl⟩
  | case2 rows kept given fewer ih =>
      have filtered := delete.deletes _ _ _ given
      have within : kept.Sublist rows := filtered ▸ List.filter_sublist
      obtain ⟨sub, young⟩ := ih (together_sublist due key rows kept within together)
      rw [deleteBatches, given]
      simp only [fewer, if_true]
      refine ⟨sub.trans within, young.trans ?_⟩
      rw [filtered, List.filter_filter]
      apply List.filter_congr
      intro row member
      by_cases taken : key row ∈ batchKeys limit due key rows
      · simp [batch_due limit due key rows together row member taken]
      · simp [taken]
  | case3 rows kept given full =>
      have filtered := delete.deletes _ _ _ given
      rw [filtered] at full
      obtain ⟨same, -⟩ := filter_length_eq _ rows full
      rw [deleteBatches, given]
      simp only [filtered, same, Nat.lt_irrefl, if_false]
      exact ⟨List.Sublist.refl rows, trivial⟩

/-- A loop whose statements never fail deletes all that is due. -/
theorem batches_all (positive : 0 < count) (rows : List Row) (together : Together due key rows)
    (succeeds : ∀ doomed kept, kept.Sublist rows → (∀ row ∈ kept, doomed row = true →
      due row = true) → delete.run doomed kept ≠ none) :
    (deleteBatches limit due key delete rows).1 = rows.filter fun row => !due row := by
  induction rows using deleteBatches.induct limit due key delete with
  | case1 rows refused =>
      refine absurd refused (succeeds _ rows (List.Sublist.refl rows) ?_)
      intro row member taken
      exact batch_due limit due key rows together row member (by simpa using taken)
  | case2 rows kept given fewer ih =>
      have filtered := delete.deletes _ _ _ given
      have within : kept.Sublist rows := filtered ▸ List.filter_sublist
      have kept_ := together_sublist due key rows kept within together
      have rest := ih kept_ fun doomed rows' sub all => succeeds doomed rows' (sub.trans within) all
      obtain ⟨-, young⟩ := batches_keep limit due key delete rows together
      have whole : (deleteBatches limit due key delete rows).1 =
          (deleteBatches limit due key delete kept).1 := by
        rw [deleteBatches, given]
        simp only [fewer, if_true]
      rw [whole] at young ⊢
      rw [← young, rest]
      simp
  | case3 rows kept given full =>
      have filtered := delete.deletes _ _ _ given
      rw [filtered] at full
      obtain ⟨same, untaken⟩ := filter_length_eq _ rows full
      have nothing := batch_empty limit due key positive rows fun row member => by
        simpa using untaken row member
      rw [deleteBatches, given]
      simp only [filtered, same, Nat.lt_irrefl, if_false]
      exact (List.filter_eq_self.mpr fun row member => by simp [nothing row member]).symm

theorem batches_plain (positive : 0 < count) (rows : List Row) (together : Together due key rows) :
    (deleteBatches limit due key .plain rows).1 = rows.filter fun row => !due row := by
  apply batches_all limit due key .plain positive rows together
  intro doomed kept _ _ failed
  cases failed

/-- A row that no statement may delete outlives the loop. -/
theorem batches_stuck (rows : List Row) (row : Row) (member : row ∈ rows)
    (refuses : ∀ doomed kept, row ∈ kept → doomed row = true → delete.run doomed kept = none) :
    row ∈ (deleteBatches limit due key delete rows).1 := by
  have survives : ∀ doomed rows kept, row ∈ rows → delete.run doomed rows = some kept →
      row ∈ kept := by
    intro doomed rows kept here given
    rw [delete.deletes doomed rows kept given]
    apply List.mem_filter.mpr
    refine ⟨here, ?_⟩
    cases dies : doomed row with
    | false => rfl
    | true =>
        rw [refuses doomed rows here dies] at given
        cases given
  induction rows using deleteBatches.induct limit due key delete with
  | case1 rows refused =>
      rw [deleteBatches, refused]
      exact member
  | case2 rows kept given fewer ih =>
      rw [deleteBatches, given]
      simp only [fewer, if_true]
      exact ih (survives _ rows kept member given)
  | case3 rows kept given full =>
      rw [deleteBatches, given]
      simp only [full, if_false]
      exact survives _ rows kept member given

end Ccflare.Batches
