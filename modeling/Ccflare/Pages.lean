import Mathlib.Data.List.Basic
import Mathlib.Tactic.Linarith

/-!
An ordered list in pages of one size. The pages part the list, and enough of them hold it
all.
-/

namespace Ccflare.Pages

variable {Row Entry : Type}

/-- `LIMIT size OFFSET offset`. -/
def page (size offset : Nat) (rows : List Row) : List Row := (rows.drop offset).take size

theorem pages_flatten (size count : Nat) (rows : List Row) :
    ((List.range count).map fun i => page size (i * size) rows).flatten =
      rows.take (count * size) := by
  induction count with
  | zero => simp
  | succ count ih =>
      rw [List.range_succ, List.map_append, List.flatten_append, ih, Nat.succ_mul, List.take_add]
      simp [page]

theorem pages_all (size count : Nat) (rows : List Row) (enough : rows.length ≤ count * size) :
    ((List.range count).map fun i => page size (i * size) rows).flatten = rows := by
  rw [pages_flatten, List.take_of_length_le enough]

/-- Reading the pages one by one reads the whole list, and fails where that fails. -/
theorem read_pages (read : Row → Option Entry) (pages : List (List Row)) :
    (List.mapM (fun rows : List Row => rows.mapM read) pages).map List.flatten =
      pages.flatten.mapM read := by
  induction pages with
  | nil => rfl
  | cons rows rest ih =>
      rw [List.flatten_cons, List.mapM_append, ← ih, List.mapM_cons]
      cases rows.mapM read with
      | none => rfl
      | some first =>
          cases List.mapM (fun rows : List Row => rows.mapM read) rest <;> rfl

theorem read_length (read : Row → Option Entry) (rows : List Row) (entries : List Entry)
    (done : rows.mapM read = some entries) : entries.length = rows.length := by
  induction rows generalizing entries with
  | nil =>
      cases done
      rfl
  | cons row rest ih =>
      rw [List.mapM_cons] at done
      obtain ⟨first, -, done⟩ := Option.bind_eq_some_iff.mp done
      obtain ⟨later, found, done⟩ := Option.bind_eq_some_iff.mp done
      cases done
      rw [List.length_cons, List.length_cons, ih later found]

theorem read_congr (left right : Row → Option Entry) (rows : List Row)
    (agree : ∀ row ∈ rows, left row = right row) : rows.mapM left = rows.mapM right := by
  induction rows with
  | nil => rfl
  | cons row rest ih =>
      rw [List.mapM_cons, List.mapM_cons, agree row List.mem_cons_self,
        ih fun later member => agree later (List.mem_cons_of_mem row member)]

end Ccflare.Pages
