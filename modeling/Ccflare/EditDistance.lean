import Mathlib.Order.Lattice.Nat

/-!
The least number of insertions, deletions and substitutions that turn one list into another.
A list that is edited step by step stays aligned with where it began, element by element, so
the last elements of two lists say how their distance comes from those of their prefixes.
-/

namespace Ccflare.EditDistance

variable {α β : Type} {xs ys zs : List α} {m n : Nat}

inductive Edit : List α → List α → Prop where
  | insert (front back : List α) (x : α) : Edit (front ++ back) (front ++ x :: back)
  | delete (front back : List α) (x : α) : Edit (front ++ x :: back) (front ++ back)
  | substitute (front back : List α) (x y : α) : Edit (front ++ x :: back) (front ++ y :: back)

/-- So many edits, one after the other. -/
inductive Edits : Nat → List α → List α → Prop where
  | none (xs : List α) : Edits 0 xs xs
  | next {n : Nat} {xs ys zs : List α} (first : Edit xs ys) (later : Edits n ys zs) :
      Edits (n + 1) xs zs

noncomputable def editDistance (xs ys : List α) : Nat := sInf {n | Edits n xs ys}

theorem Edit.symm (edit : Edit xs ys) : Edit ys xs := by
  cases edit with
  | insert front back x => exact .delete front back x
  | delete front back x => exact .insert front back x
  | substitute front back x y => exact .substitute front back y x

theorem Edit.cons (x : α) (edit : Edit xs ys) : Edit (x :: xs) (x :: ys) := by
  cases edit with
  | insert front back y => exact .insert (x :: front) back y
  | delete front back y => exact .delete (x :: front) back y
  | substitute front back y z => exact .substitute (x :: front) back y z

theorem Edit.reverse (edit : Edit xs ys) : Edit xs.reverse ys.reverse := by
  cases edit with
  | insert front back x => simpa using Edit.insert back.reverse front.reverse x
  | delete front back x => simpa using Edit.delete back.reverse front.reverse x
  | substitute front back x y => simpa using Edit.substitute back.reverse front.reverse x y

theorem Edits.trans (first : Edits m xs ys) (later : Edits n ys zs) : Edits (m + n) xs zs := by
  induction first with
  | none xs => rwa [Nat.zero_add]
  | next edit _ ih =>
      rw [Nat.add_right_comm]
      exact .next edit (ih later)

theorem Edit.once (edit : Edit xs ys) : Edits 1 xs ys := .next edit (.none ys)

theorem Edits.symm (edits : Edits n xs ys) : Edits n ys xs := by
  induction edits with
  | none xs => exact .none xs
  | next edit _ ih => exact ih.trans edit.symm.once

theorem Edits.cons (x : α) (edits : Edits n xs ys) : Edits n (x :: xs) (x :: ys) := by
  induction edits with
  | none xs => exact .none (x :: xs)
  | next edit _ ih => exact .next (edit.cons x) ih

theorem Edits.reverse (edits : Edits n xs ys) : Edits n xs.reverse ys.reverse := by
  induction edits with
  | none xs => exact .none xs.reverse
  | next edit _ ih => exact .next edit.reverse ih

theorem edits_nil (ys : List α) : Edits ys.length [] ys := by
  induction ys with
  | nil => exact .none []
  | cons y rest ih => exact ih.trans (Edit.insert [] rest y).once

/-- One list can be deleted and the other one inserted. -/
theorem edits_exist (xs ys : List α) : ∃ n, Edits n xs ys :=
  ⟨_, (edits_nil xs).symm.trans (edits_nil ys)⟩

theorem distance_edits (xs ys : List α) : Edits (editDistance xs ys) xs ys :=
  Nat.sInf_mem (edits_exist xs ys)

theorem distance_le (edits : Edits n xs ys) : editDistance xs ys ≤ n := Nat.sInf_le edits

theorem distance_least (xs ys : List α) : IsLeast {n | Edits n xs ys} (editDistance xs ys) :=
  ⟨distance_edits xs ys, fun _ edits => distance_le edits⟩

theorem Edit.length_le (edit : Edit xs ys) : ys.length ≤ xs.length + 1 := by
  cases edit <;> simp only [List.length_append, List.length_cons] <;> omega

theorem Edits.length_le (edits : Edits n xs ys) : ys.length ≤ xs.length + n := by
  induction edits with
  | none xs => exact le_rfl
  | next edit _ ih =>
      have once := edit.length_le
      omega

theorem distance_nil (ys : List α) : editDistance [] ys = ys.length := by
  apply le_antisymm (distance_le (edits_nil ys))
  simpa using (distance_edits [] ys).length_le

section Metric

theorem distance_comm (xs ys : List α) : editDistance xs ys = editDistance ys xs :=
  le_antisymm (distance_le (distance_edits ys xs).symm) (distance_le (distance_edits xs ys).symm)

theorem distance_eq_zero_iff (xs ys : List α) : editDistance xs ys = 0 ↔ xs = ys := by
  constructor
  · intro zero
    have edits := distance_edits xs ys
    rw [zero] at edits
    cases edits
    rfl
  · rintro rfl
    exact Nat.le_zero.mp (distance_le (.none xs))

theorem distance_triangle (xs ys zs : List α) :
    editDistance xs zs ≤ editDistance xs ys + editDistance ys zs :=
  distance_le ((distance_edits xs ys).trans (distance_edits ys zs))

theorem distance_reverse (xs ys : List α) :
    editDistance xs.reverse ys.reverse = editDistance xs ys := by
  apply le_antisymm
  · exact distance_le (distance_edits xs ys).reverse
  · have edits := (distance_edits xs.reverse ys.reverse).reverse
    rw [List.reverse_reverse, List.reverse_reverse] at edits
    exact distance_le edits

end Metric

section Alignment
variable [DecidableEq α] [DecidableEq β]

def cost (x y : α) : Nat := if x = y then 0 else 1

/-- Elements of two lists in their order, each with one of the other list or with none. -/
inductive Aligned : Nat → List α → List α → Prop where
  | nil : Aligned 0 [] []
  | left {n : Nat} {xs ys : List α} (x : α) (rest : Aligned n xs ys) :
      Aligned (n + 1) (x :: xs) ys
  | right {n : Nat} {xs ys : List α} (y : α) (rest : Aligned n xs ys) :
      Aligned (n + 1) xs (y :: ys)
  | pair {n : Nat} {xs ys : List α} (x y : α) (rest : Aligned n xs ys) :
      Aligned (n + cost x y) (x :: xs) (y :: ys)

theorem Aligned.refl (xs : List α) : Aligned 0 xs xs := by
  induction xs with
  | nil => exact .nil
  | cons x rest ih => simpa [cost] using Aligned.pair x x ih

theorem Aligned.edits (aligned : Aligned n xs ys) : Edits n xs ys := by
  induction aligned with
  | nil => exact .none []
  | left x rest ih => exact .next (.delete [] _ x) ih
  | right y rest ih => exact ih.trans (Edit.insert [] _ y).once
  | pair x y rest ih =>
      by_cases same : x = y
      · subst same
        simpa [cost] using ih.cons x
      · have changed := (ih.cons x).trans (Edit.substitute [] _ x y).once
        simpa [cost, same] using changed

/-- Whatever the second list is aligned with, the first one is for one more. -/
def Near (xs ys : List α) : Prop :=
  ∀ n zs, Aligned n ys zs → ∃ m ≤ n + 1, Aligned m xs zs

/-- By what becomes of the first element: it stays alone, or it is paired. -/
theorem near_head (y : α) (alone : ∀ n zs, Aligned n ys zs → ∃ m ≤ n + 2, Aligned m xs zs)
    (paired : ∀ n z zs, Aligned n ys zs → ∃ m ≤ n + cost y z + 1, Aligned m xs (z :: zs)) :
    Near xs (y :: ys) := by
  intro n zs aligned
  generalize whole : y :: ys = ws at aligned
  induction aligned with
  | nil => cases whole
  | left first rest _ =>
      obtain ⟨rfl, rfl⟩ := List.cons.inj whole
      exact alone _ _ rest
  | right z rest ih =>
      obtain ⟨m, few, shorter⟩ := ih whole
      exact ⟨m + 1, by omega, .right z shorter⟩
  | pair first z rest _ =>
      obtain ⟨rfl, rfl⟩ := List.cons.inj whole
      exact paired _ z _ rest

theorem near_insert (xs : List α) (x : α) : Near xs (x :: xs) := by
  apply near_head
  · intro n zs rest
    exact ⟨n, by omega, rest⟩
  · intro n z zs rest
    exact ⟨n + 1, by omega, .right z rest⟩

theorem near_delete (xs : List α) (x : α) : Near (x :: xs) xs :=
  fun n _ aligned => ⟨n + 1, le_rfl, .left x aligned⟩

theorem cost_le (x y : α) : cost x y ≤ 1 := by
  unfold cost
  split <;> omega

theorem near_substitute (xs : List α) (x y : α) : Near (x :: xs) (y :: xs) := by
  apply near_head
  · intro n zs rest
    exact ⟨n + 1, by omega, .left x rest⟩
  · intro n z zs rest
    have small := cost_le x z
    exact ⟨n + cost x z, by omega, .pair x z rest⟩

theorem near_cons (x : α) (near : Near xs ys) : Near (x :: xs) (x :: ys) := by
  apply near_head
  · intro n zs rest
    obtain ⟨m, few, behind⟩ := near n zs rest
    exact ⟨m + 1, by omega, .left x behind⟩
  · intro n z zs rest
    obtain ⟨m, few, behind⟩ := near n zs rest
    exact ⟨m + cost x z, by omega, .pair x z behind⟩

theorem near_append (front : List α) (near : Near xs ys) : Near (front ++ xs) (front ++ ys) := by
  induction front with
  | nil => exact near
  | cons x rest ih => exact near_cons x ih

theorem Edit.near (edit : Edit xs ys) : Near xs ys := by
  cases edit with
  | insert front back x => exact near_append front (near_insert back x)
  | delete front back x => exact near_append front (near_delete back x)
  | substitute front back x y => exact near_append front (near_substitute back x y)

theorem Edits.aligned (edits : Edits n xs ys) : ∃ m ≤ n, Aligned m xs ys := by
  induction edits with
  | none xs => exact ⟨0, le_rfl, .refl xs⟩
  | next edit _ ih =>
      obtain ⟨m, few, aligned⟩ := ih
      obtain ⟨k, more, whole⟩ := edit.near m _ aligned
      exact ⟨k, by omega, whole⟩

theorem distance_aligned (xs ys : List α) : Aligned (editDistance xs ys) xs ys := by
  obtain ⟨m, few, aligned⟩ := (distance_edits xs ys).aligned
  rwa [le_antisymm (distance_le aligned.edits) few]

/-- The first elements are paired, or one of them has no partner. -/
theorem distance_cons (x y : α) (xs ys : List α) :
    editDistance (x :: xs) (y :: ys) =
      min (min (editDistance xs (y :: ys) + 1) (editDistance (x :: xs) ys + 1))
        (editDistance xs ys + cost x y) := by
  apply le_antisymm
  · have left := distance_le (Aligned.left x (distance_aligned xs (y :: ys))).edits
    have right := distance_le (Aligned.right y (distance_aligned (x :: xs) ys)).edits
    have pair := distance_le (Aligned.pair x y (distance_aligned xs ys)).edits
    exact le_min (le_min left right) pair
  · have aligned := distance_aligned (x :: xs) (y :: ys)
    generalize editDistance (x :: xs) (y :: ys) = n at aligned
    cases aligned with
    | left _ rest =>
        have shorter := distance_le rest.edits
        omega
    | right _ rest =>
        have shorter := distance_le rest.edits
        omega
    | pair _ _ rest =>
        have shorter := distance_le rest.edits
        omega

/-- The last elements are paired, or one of them has no partner. -/
theorem distance_concat (x y : α) (xs ys : List α) :
    editDistance (xs ++ [x]) (ys ++ [y]) =
      min (min (editDistance xs (ys ++ [y]) + 1) (editDistance (xs ++ [x]) ys + 1))
        (editDistance xs ys + cost x y) := by
  have last : ∀ (zs : List α) (z : α), z :: zs.reverse = (zs ++ [z]).reverse := by simp
  have turned := distance_cons x y xs.reverse ys.reverse
  simpa only [last, distance_reverse] using turned

/-- What tells the elements of two lists apart in the same way keeps their distance. -/
theorem distance_map (f : α → β) (xs ys : List α)
    (apart : ∀ x ∈ xs, ∀ y ∈ ys, f x = f y → x = y) :
    editDistance (xs.map f) (ys.map f) = editDistance xs ys := by
  induction xs generalizing ys with
  | nil => rw [List.map_nil, distance_nil, distance_nil, List.length_map]
  | cons x xs ih =>
      have tail : ∀ zs, (∀ y ∈ zs, y ∈ ys) →
          editDistance (xs.map f) (zs.map f) = editDistance xs zs := by
        intro zs listed
        exact ih zs fun z left y right => apart z (List.mem_cons_of_mem x left) y (listed y right)
      clear ih
      induction ys with
      | nil =>
          rw [List.map_nil, distance_comm, distance_nil, distance_comm, distance_nil,
            List.length_map]
      | cons y ys ih =>
          have left := tail (y :: ys) fun _ listed => listed
          have both := tail ys fun _ listed => List.mem_cons_of_mem y listed
          have right := ih (fun z left w right => apart z left w (List.mem_cons_of_mem y right))
            fun zs listed => tail zs fun z here => List.mem_cons_of_mem y (listed z here)
          have same : f x = f y ↔ x = y :=
            ⟨apart x List.mem_cons_self y List.mem_cons_self, congrArg f⟩
          rw [List.map_cons] at left right
          rw [List.map_cons, List.map_cons, distance_cons, distance_cons, left, right, both]
          simp only [cost, same]

end Alignment

section Prefixes
variable (xs ys)

/-- The distance of the first so many elements of two lists. -/
noncomputable def cell (i j : Nat) : Nat := editDistance (xs.take i) (ys.take j)

theorem cell_zero_left (j : Nat) (within : j ≤ ys.length) : cell xs ys 0 j = j := by
  rw [cell, List.take_zero, distance_nil, List.length_take, Nat.min_eq_left within]

theorem cell_zero_right (i : Nat) (within : i ≤ xs.length) : cell xs ys i 0 = i := by
  rw [cell, List.take_zero, distance_comm, distance_nil, List.length_take, Nat.min_eq_left within]

theorem cell_all : cell xs ys xs.length ys.length = editDistance xs ys := by
  rw [cell, List.take_length, List.take_length]

/-- A cell comes from the three before it. -/
theorem cell_succ [DecidableEq α] (i j : Nat) (x y : α) (left : xs[i]? = some x)
    (right : ys[j]? = some y) :
    cell xs ys (i + 1) (j + 1) =
      min (min (cell xs ys i (j + 1) + 1) (cell xs ys (i + 1) j + 1))
        (cell xs ys i j + cost x y) := by
  have first : xs.take (i + 1) = xs.take i ++ [x] := by
    rw [List.take_add_one, left]
    rfl
  have second : ys.take (j + 1) = ys.take j ++ [y] := by
    rw [List.take_add_one, right]
    rfl
  simp only [cell, first, second, distance_concat]

end Prefixes

end Ccflare.EditDistance
