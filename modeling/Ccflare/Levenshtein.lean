import Ccflare.EditDistance
import Ccflare.IndexedLoop
import Ccflare.Utf8

/-!
The edit distances of the CLI, after `levenshtein.rs`, and of the core crate, after `utils.rs`.
One keeps two rows of the table and swaps them, and compares bytes; the other keeps all rows and
compares characters. An index outside a vector would be a panic and has no result.
-/

namespace Ccflare.Levenshtein

open EditDistance IndexedLoop

/-- The pass of `distance` that writes `curr[j]`. -/
def fillCurr (aBytes bBytes : List UInt8) (prev : List Nat) (i : Nat) (curr : List Nat) (j : Nat) :
    Option (List Nat) := do
  let cost := if (← aBytes[i - 1]?) = (← bBytes[j - 1]?) then 0 else 1
  let value := min (min ((← prev[j]?) + 1) ((← curr[j - 1]?) + 1)) ((← prev[j - 1]?) + cost)
  store j value curr

/-- A row is filled, and the two rows are swapped. -/
def nextRow (aBytes bBytes : List UInt8) (rows : List Nat × List Nat) (i : Nat) :
    Option (List Nat × List Nat) := do
  let (prev, curr) := rows
  let curr ← store 0 i curr
  let curr ← fromOne (fillCurr aBytes bBytes prev i) bBytes.length curr
  return (curr, prev)

def distance (a b : String) : Option Nat :=
  let aBytes := Utf8.encode a.toList
  let bBytes := Utf8.encode b.toList
  let m := aBytes.length
  let n := bBytes.length
  if m = 0 then some n
  else if n = 0 then some m
  else do
    let (prev, _) ← fromOne (nextRow aBytes bBytes) m (List.range (n + 1), List.replicate (n + 1) 0)
    prev[n]?

/-- The first column of the rows from the `j`th on. -/
def numberRows (limit : Nat) : Nat → List (List Nat) → Option (List (List Nat))
  | _, [] => some []
  | j, row :: rest => do
      let row ← if j < limit then store 0 j row else some row
      let rest ← numberRows limit (j + 1) rest
      return row :: rest

def numberRow (limit : Nat) (row : List Nat) : List Nat :=
  row.mapIdx fun i val => if i < limit then i else val

def startMatrix (len1 len2 : Nat) : Option (List (List Nat)) := do
  let matrix := List.replicate (len2 + 1) (List.replicate (len1 + 1) 0)
  let matrix ← store 0 (numberRow (len1 + 1) (← matrix[0]?)) matrix
  numberRows (len2 + 1) 0 matrix

def entry (matrix : List (List Nat)) (j i : Nat) : Option Nat := matrix[j]?.bind fun row => row[i]?

/-- The pass of `levenshtein_distance` that writes `matrix[j][i]`. -/
def fillMatrix (s1Chars s2Chars : List Char) (j : Nat) (matrix : List (List Nat)) (i : Nat) :
    Option (List (List Nat)) := do
  let cost := if (← s1Chars[i - 1]?) = (← s2Chars[j - 1]?) then 0 else 1
  let value := min (min ((← entry matrix j (i - 1)) + 1) ((← entry matrix (j - 1) i) + 1))
    ((← entry matrix (j - 1) (i - 1)) + cost)
  store j (← store i value (← matrix[j]?)) matrix

def levenshteinDistance (s1 s2 : String) : Option Nat := do
  let s1Chars := s1.toList
  let s2Chars := s2.toList
  let len1 := s1Chars.length
  let len2 := s2Chars.length
  let matrix ← startMatrix len1 len2
  let matrix ← fromOne (fun matrix j => fromOne (fillMatrix s1Chars s2Chars j) len1 matrix) len2
    matrix
  entry matrix len2 len1

/-- A row that has its cells up to an index; what is behind them is left from before. -/
def FilledTo (count : Nat) (cells : Nat → Nat) (row : List Nat) : Prop :=
  ∀ j ≤ count, row[j]? = some (cells j)

theorem filled_length (count : Nat) (cells : Nat → Nat) (row : List Nat)
    (filled : FilledTo count cells row) : count < row.length :=
  (List.getElem?_eq_some_iff.mp (filled count le_rfl)).1

theorem filled_set (count : Nat) (cells : Nat → Nat) (row : List Nat)
    (filled : FilledTo count cells row) (within : count + 1 < row.length) :
    FilledTo (count + 1) cells (row.set (count + 1) (cells (count + 1))) := by
  intro j upTo
  by_cases last : j = count + 1
  · rw [last, List.getElem?_set_self within]
  · rw [List.getElem?_set_ne (Ne.symm last)]
    exact filled j (by omega)

section Rows
variable {aBytes bBytes : List UInt8}

theorem fill_curr_some (prev curr : List Nat) (i j above corner before : Nat) (x y : UInt8)
    (left : aBytes[i]? = some x) (right : bBytes[j]? = some y) (up : prev[j + 1]? = some above)
    (back : curr[j]? = some before) (across : prev[j]? = some corner)
    (within : j + 1 < curr.length) :
    fillCurr aBytes bBytes prev (i + 1) curr (j + 1) =
      some (curr.set (j + 1) (min (min (above + 1) (before + 1)) (corner + cost x y))) := by
  simp only [fillCurr, Nat.add_sub_cancel, left, right, up, back, across, Option.bind_eq_bind,
    Option.bind_some, store_some _ _ _ within, cost]

/-- The row of the table that `curr` is after so many passes. -/
def CurrAt (aBytes bBytes : List UInt8) (i j : Nat) (curr : List Nat) : Prop :=
  FilledTo j (cell aBytes bBytes i) curr ∧ bBytes.length < curr.length

theorem fill_curr_step (prev curr : List Nat) (i j : Nat) (x : UInt8)
    (left : aBytes[i]? = some x) (filled : FilledTo bBytes.length (cell aBytes bBytes i) prev)
    (before : j < bBytes.length) (current : CurrAt aBytes bBytes (i + 1) j curr) :
    ∃ next, fillCurr aBytes bBytes prev (i + 1) curr (j + 1) = some next ∧
      CurrAt aBytes bBytes (i + 1) (j + 1) next := by
  obtain ⟨known, wide⟩ := current
  have within : j + 1 < curr.length := by omega
  have right : bBytes[j]? = some bBytes[j] := List.getElem?_eq_getElem before
  refine ⟨_, fill_curr_some prev curr i j _ _ _ x _ left right (filled (j + 1) before)
    (known j le_rfl) (filled j (by omega)) within, ?_, by simpa using wide⟩
  rw [← cell_succ aBytes bBytes i j x _ left right]
  exact filled_set j _ curr known within

theorem curr_filled (prev curr : List Nat) (i : Nat) (x : UInt8) (left : aBytes[i]? = some x)
    (filled : FilledTo bBytes.length (cell aBytes bBytes i) prev)
    (wide : bBytes.length < curr.length) (first : curr[0]? = some (i + 1)) :
    ∃ row, fromOne (fillCurr aBytes bBytes prev (i + 1)) bBytes.length curr = some row ∧
      CurrAt aBytes bBytes (i + 1) bBytes.length row := by
  have inside : i < aBytes.length := (List.getElem?_eq_some_iff.mp left).1
  have initial : CurrAt aBytes bBytes (i + 1) 0 curr := by
    refine ⟨fun j none => ?_, wide⟩
    rw [Nat.le_zero.mp none, first, cell_zero_right _ _ _ inside]
  exact from_one_invariant _ _ _ _ initial fun j before row current =>
    fill_curr_step prev row i j x left filled before current

/-- The rows of the table that `prev` and `curr` are after so many rounds. -/
def RowsAt (aBytes bBytes : List UInt8) (i : Nat) (rows : List Nat × List Nat) : Prop :=
  FilledTo bBytes.length (cell aBytes bBytes i) rows.1 ∧ bBytes.length < rows.2.length

theorem next_row_some (i : Nat) (rows : List Nat × List Nat) (before : i < aBytes.length)
    (current : RowsAt aBytes bBytes i rows) :
    ∃ next, nextRow aBytes bBytes rows (i + 1) = some next ∧ RowsAt aBytes bBytes (i + 1) next := by
  obtain ⟨prev, curr⟩ := rows
  obtain ⟨filled, wide⟩ := current
  dsimp only at filled wide
  have left : aBytes[i]? = some aBytes[i] := List.getElem?_eq_getElem before
  have stored := store_some 0 (i + 1) curr (by omega)
  obtain ⟨row, reached, done, _⟩ := curr_filled prev (curr.set 0 (i + 1)) i _ left filled
    (by simpa using wide) (List.getElem?_set_self (by omega))
  refine ⟨(row, prev), ?_, done, filled_length _ _ prev filled⟩
  simp only [nextRow, stored, reached, Option.bind_eq_bind, Option.bind_some]
  rfl

end Rows

/-- The distance of the CLI is that of the bytes. -/
theorem distance_eq (a b : String) :
    distance a b = some (editDistance (Utf8.encode a.toList) (Utf8.encode b.toList)) := by
  unfold distance
  generalize Utf8.encode a.toList = aBytes
  generalize Utf8.encode b.toList = bBytes
  dsimp only
  split
  · rename_i empty
    rw [List.eq_nil_of_length_eq_zero empty, distance_nil]
  · split
    · rename_i empty
      rw [List.eq_nil_of_length_eq_zero empty, distance_comm, distance_nil]
    · have initial : RowsAt aBytes bBytes 0
          (List.range (bBytes.length + 1), List.replicate (bBytes.length + 1) 0) := by
        refine ⟨fun j within => ?_, by simp⟩
        rw [cell_zero_left _ _ _ within, List.getElem?_range (Nat.lt_succ_of_le within)]
      obtain ⟨⟨prev, curr⟩, reached, filled, _⟩ := from_one_invariant (nextRow aBytes bBytes)
        (RowsAt aBytes bBytes) aBytes.length _ initial fun i before rows current =>
          next_row_some i rows before current
      simp only [reached, Option.bind_eq_bind, Option.bind_some]
      rw [filled _ le_rfl, cell_all]

theorem entry_set (matrix : List (List Nat)) (row : List Nat) (j i value : Nat)
    (found : matrix[j]? = some row) (within : i < row.length) :
    entry (matrix.set j (row.set i value)) j i = some value ∧
      ∀ j' i', (j' ≠ j ∨ i' ≠ i) →
        entry (matrix.set j (row.set i value)) j' i' = entry matrix j' i' := by
  have inside : j < matrix.length := (List.getElem?_eq_some_iff.mp found).1
  constructor
  · rw [entry, List.getElem?_set_self inside, Option.bind_some, List.getElem?_set_self within]
  · intro j' i' other
    by_cases same : j' = j
    · subst same
      have apart : i ≠ i' := fun here => (other.resolve_left fun no => no rfl) here.symm
      rw [entry, entry, List.getElem?_set_self inside, found, Option.bind_some, Option.bind_some,
        List.getElem?_set_ne apart]
    · rw [entry, entry, List.getElem?_set_ne (Ne.symm same)]

section Matrix
variable {s1Chars s2Chars : List Char}

/-- The first column, the rows before the `j`th, and that one up to an index. -/
structure MatrixAt (s1Chars s2Chars : List Char) (j i : Nat) (matrix : List (List Nat)) : Prop where
  rows : ∀ j ≤ s2Chars.length, ∃ row, matrix[j]? = some row ∧ s1Chars.length < row.length
  column : ∀ j ≤ s2Chars.length, entry matrix j 0 = some j
  before : ∀ k < j, ∀ i ≤ s1Chars.length, entry matrix k i = some (cell s1Chars s2Chars i k)
  current : ∀ k ≤ i, entry matrix j k = some (cell s1Chars s2Chars k j)

theorem MatrixAt.next_row {j : Nat} {matrix : List (List Nat)}
    (filled : MatrixAt s1Chars s2Chars j s1Chars.length matrix) (more : j < s2Chars.length) :
    MatrixAt s1Chars s2Chars (j + 1) 0 matrix where
  rows := filled.rows
  column := filled.column
  before k earlier i within := by
    rcases Nat.lt_succ_iff_lt_or_eq.mp earlier with done | rfl
    · exact filled.before k done i within
    · exact filled.current i within
  current k none := by
    rw [Nat.le_zero.mp none, filled.column (j + 1) more, cell_zero_left _ _ _ more]

theorem fill_matrix_step (j i : Nat) (matrix : List (List Nat)) (row : j < s2Chars.length)
    (before : i < s1Chars.length) (filled : MatrixAt s1Chars s2Chars (j + 1) i matrix) :
    ∃ next, fillMatrix s1Chars s2Chars (j + 1) matrix (i + 1) = some next ∧
      MatrixAt s1Chars s2Chars (j + 1) (i + 1) next := by
  have left : s1Chars[i]? = some s1Chars[i] := List.getElem?_eq_getElem before
  have right : s2Chars[j]? = some s2Chars[j] := List.getElem?_eq_getElem row
  have back := filled.current i le_rfl
  have up := filled.before j (Nat.lt_succ_self j) (i + 1) before
  have across := filled.before j (Nat.lt_succ_self j) i before.le
  obtain ⟨cells, found, wide⟩ := filled.rows (j + 1) row
  have within : i + 1 < cells.length := by omega
  have inside : j + 1 < matrix.length := (List.getElem?_eq_some_iff.mp found).1
  obtain ⟨written, kept⟩ := entry_set matrix cells (j + 1) (i + 1)
    (cell s1Chars s2Chars (i + 1) (j + 1)) found within
  refine ⟨matrix.set (j + 1) (cells.set (i + 1) (cell s1Chars s2Chars (i + 1) (j + 1))), ?_, ?_⟩
  · rw [cell_succ s1Chars s2Chars i j _ _ left right]
    simp only [fillMatrix, Nat.add_sub_cancel, left, right, up, back, across, found,
      Option.bind_eq_bind, Option.bind_some, store_some _ _ _ within, store_some _ _ _ inside, cost]
  · refine ⟨?_, ?_, ?_, ?_⟩
    · intro k upTo
      by_cases same : k = j + 1
      · exact ⟨_, by rw [same, List.getElem?_set_self inside], by simpa using wide⟩
      · rw [List.getElem?_set_ne (Ne.symm same)]
        exact filled.rows k upTo
    · intro k upTo
      rw [kept k 0 (.inr (by omega))]
      exact filled.column k upTo
    · intro k earlier i' upTo
      rw [kept k i' (.inl (by omega))]
      exact filled.before k earlier i' upTo
    · intro k upTo
      by_cases last : k = i + 1
      · rw [last, written]
      · rw [kept (j + 1) k (.inr last)]
        exact filled.current k (by omega)

theorem matrix_row_filled (j : Nat) (matrix : List (List Nat)) (more : j < s2Chars.length)
    (filled : MatrixAt s1Chars s2Chars j s1Chars.length matrix) :
    ∃ next, fromOne (fillMatrix s1Chars s2Chars (j + 1)) s1Chars.length matrix = some next ∧
      MatrixAt s1Chars s2Chars (j + 1) s1Chars.length next :=
  from_one_invariant _ _ _ _ (filled.next_row more) fun i before state held =>
    fill_matrix_step j i state more before held

theorem number_rows_eq (limit j : Nat) (rows : List (List Nat)) (wide : ∀ row ∈ rows, row ≠ []) :
    numberRows limit j rows =
      some (rows.mapIdx fun k row => if j + k < limit then row.set 0 (j + k) else row) := by
  induction rows generalizing j with
  | nil => rfl
  | cons row rest ih =>
      have later := ih (j + 1) fun other listed => wide other (List.mem_cons_of_mem row listed)
      have stored := store_some 0 j row (List.length_pos_iff.mpr (wide row List.mem_cons_self))
      rw [numberRows, later, List.mapIdx_cons]
      have shift : ∀ k, j + 1 + k = j + (k + 1) := fun k => by omega
      by_cases within : j < limit
      · simp [stored, within, shift]
      · simp [within, shift]

theorem number_row_at (len1 i : Nat) (upTo : i ≤ len1) :
    (numberRow (len1 + 1) (List.replicate (len1 + 1) 0))[i]? = some i := by
  have within : i < len1 + 1 := Nat.lt_succ_of_le upTo
  rw [numberRow, List.getElem?_mapIdx, List.getElem?_replicate, if_pos within, Option.map_some,
    if_pos within]

/-- The matrix of zeros with the first row numbered. -/
def numberedMatrix (len1 len2 : Nat) : List (List Nat) :=
  (List.replicate (len2 + 1) (List.replicate (len1 + 1) 0)).set 0
    (numberRow (len1 + 1) (List.replicate (len1 + 1) 0))

theorem numbered_wide (len1 len2 : Nat) (row : List Nat) (listed : row ∈ numberedMatrix len1 len2) :
    row.length = len1 + 1 := by
  rcases List.mem_or_eq_of_mem_set listed with blank | rfl
  · rw [List.eq_of_mem_replicate blank, List.length_replicate]
  · simp [numberRow]

theorem start_matrix_eq (len1 len2 : Nat) :
    startMatrix len1 len2 = some ((numberedMatrix len1 len2).mapIdx fun j row =>
      if j < len2 + 1 then row.set 0 j else row) := by
  have first : (List.replicate (len2 + 1) (List.replicate (len1 + 1) 0))[0]? =
      some (List.replicate (len1 + 1) 0) := by simp
  have stored := store_some 0 (numberRow (len1 + 1) (List.replicate (len1 + 1) 0))
    (List.replicate (len2 + 1) (List.replicate (len1 + 1) 0)) (by simp)
  have numbered := number_rows_eq (len2 + 1) 0 (numberedMatrix len1 len2) fun row listed => by
    have wide := numbered_wide len1 len2 row listed
    exact List.length_pos_iff.mp (by omega)
  simp only [Nat.zero_add] at numbered
  simp only [startMatrix, first, stored, Option.bind_eq_bind, Option.bind_some]
  exact numbered

theorem start_matrix_row (len1 len2 j : Nat) (upTo : j ≤ len2) :
    ∃ row, row ∈ numberedMatrix len1 len2 ∧
      ((numberedMatrix len1 len2).mapIdx fun j row =>
        if j < len2 + 1 then row.set 0 j else row)[j]? = some (row.set 0 j) ∧
      (j = 0 → row = numberRow (len1 + 1) (List.replicate (len1 + 1) 0)) := by
  have within : j < (numberedMatrix len1 len2).length := by
    simp only [numberedMatrix, List.length_set, List.length_replicate]
    omega
  refine ⟨(numberedMatrix len1 len2)[j], List.getElem_mem within, ?_, ?_⟩
  · rw [List.getElem?_mapIdx, List.getElem?_eq_getElem within, Option.map_some,
      if_pos (Nat.lt_succ_of_le upTo)]
  · rintro rfl
    simp [numberedMatrix]

theorem start_matrix_some (s1Chars s2Chars : List Char) :
    ∃ matrix, startMatrix s1Chars.length s2Chars.length = some matrix ∧
      MatrixAt s1Chars s2Chars 0 s1Chars.length matrix := by
  refine ⟨_, start_matrix_eq _ _, ?_, ?_, ?_, ?_⟩
  · intro j upTo
    obtain ⟨row, listed, found, _⟩ := start_matrix_row s1Chars.length s2Chars.length j upTo
    have wide := numbered_wide _ _ row listed
    exact ⟨_, found, by rw [List.length_set]; omega⟩
  · intro j upTo
    obtain ⟨row, listed, found, _⟩ := start_matrix_row s1Chars.length s2Chars.length j upTo
    have wide := numbered_wide _ _ row listed
    rw [entry, found, Option.bind_some, List.getElem?_set_self (by omega)]
  · intro k none
    exact absurd none (Nat.not_lt_zero k)
  · intro i upTo
    obtain ⟨row, listed, found, first⟩ :=
      start_matrix_row s1Chars.length s2Chars.length 0 (Nat.zero_le _)
    have wide := numbered_wide _ _ row listed
    rw [entry, found, Option.bind_some, first rfl, cell_zero_right _ _ _ upTo]
    by_cases zero : i = 0
    · rw [zero, List.getElem?_set_self (by simp [numberRow])]
    · rw [List.getElem?_set_ne (Ne.symm zero)]
      exact number_row_at _ i upTo

end Matrix

/-- The distance of the core crate is that of the characters. -/
theorem levenshtein_distance_eq (s1 s2 : String) :
    levenshteinDistance s1 s2 = some (editDistance s1.toList s2.toList) := by
  obtain ⟨start, made, initial⟩ := start_matrix_some s1.toList s2.toList
  obtain ⟨matrix, reached, filled⟩ := from_one_invariant
    (fun matrix j => fromOne (fillMatrix s1.toList s2.toList j) s1.toList.length matrix)
    (fun j matrix => MatrixAt s1.toList s2.toList j s1.toList.length matrix) s2.toList.length start
    initial fun j before matrix held => matrix_row_filled j matrix before held
  simp only [levenshteinDistance, made, reached, Option.bind_eq_bind, Option.bind_some]
  rw [filled.current _ le_rfl, cell_all]

def Ascii (text : String) : Prop := ∀ c ∈ text.toList, c.toNat < 128

/-- On ASCII text the bytes are as far apart as the characters. -/
theorem distance_ascii (a b : String) (left : Ascii a) (right : Ascii b) :
    distance a b = some (editDistance a.toList b.toList) := by
  rw [distance_eq, Utf8.encode_all_ascii _ left, Utf8.encode_all_ascii _ right, distance_map]
  intro c here d there same
  exact Utf8.ascii_injective c d (left c here) (right d there) same

/-- A measure of two texts that is, on ASCII text, the least number of edits from one to the
other, and with that a metric. -/
structure EditMetric (measure : String → String → Option Nat) : Prop where
  least : ∀ a b, Ascii a → Ascii b →
    ∃ d, measure a b = some d ∧ IsLeast {n | Edits n a.toList b.toList} d
  symmetric : ∀ a b, Ascii a → Ascii b → measure a b = measure b a
  separates : ∀ a b, Ascii a → Ascii b → (measure a b = some 0 ↔ a = b)
  triangle : ∀ a b c ab bc ac, Ascii a → Ascii b → Ascii c → measure a b = some ab →
    measure b c = some bc → measure a c = some ac → ac ≤ ab + bc

theorem edit_metric (measure : String → String → Option Nat)
    (computed : ∀ a b, Ascii a → Ascii b → measure a b = some (editDistance a.toList b.toList)) :
    EditMetric measure where
  least a b left right := ⟨_, computed a b left right, distance_least _ _⟩
  symmetric a b left right := by
    rw [computed a b left right, computed b a right left, distance_comm]
  separates a b left right := by
    rw [computed a b left right, Option.some.injEq, distance_eq_zero_iff, String.toList_inj]
  triangle a b c ab bc ac first second third toB fromB direct := by
    rw [computed a b first second] at toB
    rw [computed b c second third] at fromB
    rw [computed a c first third] at direct
    rw [← Option.some.inj toB, ← Option.some.inj fromB, ← Option.some.inj direct]
    exact distance_triangle _ _ _

/-- Both are the edit distance, and agree. -/
theorem levenshtein_edit_distance :
    (∀ a b, Ascii a → Ascii b → distance a b = levenshteinDistance a b) ∧
      EditMetric distance ∧ EditMetric levenshteinDistance := by
  refine ⟨?_, edit_metric _ distance_ascii, edit_metric _ fun a b _ _ => ?_⟩
  · intro a b left right
    rw [distance_ascii a b left right, levenshtein_distance_eq]
  · exact levenshtein_distance_eq a b

example : distance "kitten" "sitting" = some 3 ∧
    levenshteinDistance "kitten" "sitting" = some 3 := by
  decide

end Ccflare.Levenshtein
