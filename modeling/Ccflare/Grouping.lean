import Ccflare.StableSort
import Mathlib.Algebra.BigOperators.Group.List.Lemmas
import Mathlib.Data.List.Dedup

/-!
Rows grouped by a key, the groups in the order of their keys, with totals over them. The
groups part the rows, so totals of groups add up to totals of rows; a running total over the
groups, kept apart by class, is a total over the rows up to a key.
-/

namespace Ccflare.Grouping

open StableSort

section Groups
variable {Row Key M : Type} [LinearOrder Key] [AddCommMonoid M]

def keys (key : Row → Key) (rows : List Row) : List Key := sortByKey id (rows.map key).dedup

def groups (key : Row → Key) (rows : List Row) : List (Key × List Row) :=
  (keys key rows).map fun one => (one, rows.filter fun row => key row = one)

def total (weigh : Row → M) (rows : List Row) : M := (rows.map weigh).sum

theorem mem_keys (key : Row → Key) (rows : List Row) (one : Key) :
    one ∈ keys key rows ↔ ∃ row ∈ rows, key row = one := by
  rw [keys, mem_sort_by_key, List.mem_dedup, List.mem_map]

theorem keys_nodup (key : Row → Key) (rows : List Row) : (keys key rows).Nodup :=
  (sort_by_key_perm id (rows.map key).dedup).nodup_iff.mpr (List.nodup_dedup _)

theorem keys_ascending (key : Row → Key) (rows : List Row) : (keys key rows).Pairwise (· < ·) := by
  have ordered := sort_by_key_ordered id (rows.map key).dedup
  exact (ordered.and (keys_nodup key rows)).imp fun both => lt_of_le_of_ne both.1 both.2

theorem mem_groups (key : Row → Key) (rows : List Row) (group : Key × List Row) :
    group ∈ groups key rows ↔
      (∃ row ∈ rows, key row = group.1) ∧ group.2 = rows.filter fun row => key row = group.1 := by
  obtain ⟨one, part⟩ := group
  simp only [groups, List.mem_map, mem_keys, Prod.mk.injEq]
  constructor
  · rintro ⟨other, here, rfl, rfl⟩
    exact ⟨here, rfl⟩
  · rintro ⟨here, same⟩
    exact ⟨one, here, rfl, same.symm⟩

theorem total_nil (weigh : Row → M) : total weigh [] = 0 := rfl

theorem total_cons (weigh : Row → M) (row : Row) (rows : List Row) :
    total weigh (row :: rows) = weigh row + total weigh rows := List.sum_cons

theorem total_one (rows : List Row) : total (fun _ => 1) rows = rows.length := by
  simp [total]

/-- A total over two kinds of rows that exclude each other. -/
theorem total_either (weigh : Row → M) (first second : Row → Bool) (rows : List Row)
    (apart : ∀ row, ¬ (first row = true ∧ second row = true)) :
    total weigh (rows.filter fun row => first row || second row) =
      total weigh (rows.filter first) + total weigh (rows.filter second) := by
  induction rows with
  | nil => simp [total_nil]
  | cons row rest ih =>
      have not_both := apart row
      cases left : first row <;> cases right : second row <;>
        simp_all [total_cons, add_assoc, add_left_comm]

/-- Totals over the rows of each of several keys, added up. -/
theorem total_parts (key : Row → Key) (weigh : Row → M) (rows : List Row) (ones : List Key)
    (distinct : ones.Nodup) :
    (ones.map fun one => total weigh (rows.filter fun row => key row = one)).sum =
      total weigh (rows.filter fun row => key row ∈ ones) := by
  induction ones with
  | nil => simp [total_nil]
  | cons one rest ih =>
      obtain ⟨absent, distinct⟩ := List.nodup_cons.mp distinct
      rw [List.map_cons, List.sum_cons, ih distinct,
        ← total_either weigh (fun row => key row = one) (fun row => key row ∈ rest)]
      · simp [List.mem_cons, Bool.decide_or]
      · intro row both
        simp only [decide_eq_true_eq] at both
        exact absent (both.1 ▸ both.2)

/-- The totals of the groups make the total of the rows. -/
theorem groups_total (key : Row → Key) (weigh : Row → M) (rows : List Row) :
    ((groups key rows).map fun group => total weigh group.2).sum = total weigh rows := by
  rw [groups, List.map_map]
  refine (total_parts key weigh rows (keys key rows) (keys_nodup key rows)).trans ?_
  congr 1
  refine List.filter_eq_self.mpr fun row member => ?_
  exact decide_eq_true ((mem_keys key rows (key row)).mpr ⟨row, member, rfl⟩)

/-- The groups of some keys first, in an order of their own. -/
def preferred {Part : Type} (order : List Key) (groups : List (Key × Part)) : List (Key × Part) :=
  (order.filterMap fun key => groups.find? fun group => group.1 = key) ++
    groups.filter fun group => group.1 ∉ order

theorem find_key {Part : Type} (groups : List (Key × Part))
    (distinct : (groups.map Prod.fst).Nodup) (group : Key × Part) (member : group ∈ groups) :
    groups.find? (fun other => other.1 = group.1) = some group := by
  induction groups with
  | nil => cases member
  | cons first rest ih =>
      obtain ⟨absent, distinct⟩ := List.nodup_cons.mp distinct
      rcases List.mem_cons.mp member with rfl | later
      · simp
      · have apart : first.1 ≠ group.1 := by
          intro same
          exact absent (same ▸ List.mem_map_of_mem later)
        rw [List.find?_cons_of_neg (by simpa using apart)]
        exact ih distinct later

/-- The order changes, the groups are the same. -/
theorem preferred_perm {Part : Type} (order : List Key) (groups : List (Key × Part))
    (distinct : (groups.map Prod.fst).Nodup) (once : order.Nodup) :
    (preferred order groups).Perm groups := by
  have chosen : (order.filterMap fun key => groups.find? fun group => group.1 = key).Perm
      (groups.filter fun group => group.1 ∈ order) := by
    rw [List.perm_ext_iff_of_nodup]
    · intro group
      simp only [List.mem_filterMap, List.mem_filter, decide_eq_true_eq]
      constructor
      · rintro ⟨key, listed, found⟩
        have same : group.1 = key := by simpa using List.find?_some found
        exact ⟨List.mem_of_find?_eq_some found, same ▸ listed⟩
      · rintro ⟨member, listed⟩
        exact ⟨group.1, listed, find_key groups distinct group member⟩
    · refine once.filterMap fun first second group one two => ?_
      have left : group.1 = first := by simpa using List.find?_some one
      have right : group.1 = second := by simpa using List.find?_some two
      exact left.symm.trans right
    · exact (List.Nodup.of_map _ distinct).filter _
  refine (chosen.append_right _).trans ?_
  simpa using List.filter_append_perm (fun group => decide (group.1 ∈ order)) groups

end Groups

section Running
variable {Item Class M : Type} [DecidableEq Class] [AddCommMonoid M]

/-- A pass that replaces the value of each item by the sum of the values of its class so
far. -/
def running (cls : Item → Class) (value : Item → M) (write : Item → M → Item) :
    (Class → M) → List Item → List Item
  | _, [] => []
  | held, item :: rest =>
      let sum := held (cls item) + value item
      write item sum :: running cls value write (Function.update held (cls item) sum) rest

theorem running_exact (cls : Item → Class) (value : Item → M) (write : Item → M → Item)
    (held : Class → M) (items : List Item) (i : Nat) :
    (running cls value write held items)[i]? = items[i]?.map fun item =>
      write item (held (cls item) +
        total value ((items.take (i + 1)).filter fun other => cls other = cls item)) := by
  induction items generalizing held i with
  | nil => simp [running]
  | cons first rest ih =>
      cases i with
      | zero => simp [running, total]
      | succ i =>
          simp only [running, List.getElem?_cons_succ, ih]
          cases found : rest[i]? with
          | none => rfl
          | some item =>
              by_cases same : cls first = cls item
              · simp [same, List.filter_cons, total_cons, add_assoc]
              · have apart : ¬ cls item = cls first := fun here => same here.symm
                simp [same, apart, List.filter_cons, Function.update_of_ne]

/-- What the pass does not write stays as it was. -/
theorem running_map {Part : Type} (cls : Item → Class) (value : Item → M)
    (write : Item → M → Item) (part : Item → Part)
    (kept : ∀ item sum, part (write item sum) = part item) (held : Class → M) (items : List Item) :
    (running cls value write held items).map part = items.map part := by
  induction items generalizing held with
  | nil => rfl
  | cons item rest ih => simp [running, kept, ih]

end Running

section Cumulative
variable {Row Key Item Class M : Type} [LinearOrder Key] [DecidableEq Class] [AddCommMonoid M]

/-- The keys of the groups up to one of them are the keys that are not after it. -/
theorem mem_take_keys (key : Row → Key) (rows : List Row) (i : Nat) (one other : Key)
    (here : (keys key rows)[i]? = some one) :
    other ∈ (keys key rows).take (i + 1) ↔ other ∈ keys key rows ∧ other ≤ one := by
  obtain ⟨inside, at_i⟩ := List.getElem?_eq_some_iff.mp here
  have ordered := List.pairwise_iff_getElem.mp (keys_ascending key rows)
  constructor
  · intro member
    obtain ⟨j, bound, same⟩ := List.mem_iff_getElem.mp member
    rw [List.getElem_take] at same
    have short : j ≤ i := by
      rw [List.length_take] at bound
      omega
    refine ⟨List.mem_of_mem_take member, ?_⟩
    rcases Nat.lt_or_eq_of_le short with less | rfl
    · exact le_of_lt (same ▸ at_i ▸ ordered j i (by omega) inside less)
    · exact le_of_eq (same.symm.trans at_i)
  · rintro ⟨member, before⟩
    obtain ⟨j, bound, same⟩ := List.mem_iff_getElem.mp member
    have short : j ≤ i := by
      by_contra past
      have after := ordered i j inside bound (by omega)
      rw [at_i, same] at after
      exact absurd before (not_le.mpr after)
    exact List.mem_iff_getElem.mpr
      ⟨j, by rw [List.length_take]; omega, by rw [List.getElem_take]; exact same⟩

theorem total_of_keys (key : Row → Key) (weigh : Row → M) (make : Key × List Row → Item)
    (value : Item → M) (sameValue : ∀ group, value (make group) = total weigh group.2)
    (rows : List Row) (ones : List Key) (distinct : ones.Nodup) :
    total value (ones.map fun one => make (one, rows.filter fun row => key row = one)) =
      total weigh (rows.filter fun row => key row ∈ ones) := by
  rw [← total_parts key weigh rows ones distinct, total, List.map_map]
  congr 1
  exact List.map_congr_left fun one _ => sameValue _

/-- The running totals of the groups of each class are totals over the rows of that class
up to the key of the group. -/
theorem running_groups (key : Row → Key) (weigh : Row → M) (cls : Key → Class)
    (make : Key × List Row → Item) (itemClass : Item → Class) (value : Item → M)
    (write : Item → M → Item) (rows : List Row)
    (sameClass : ∀ group, itemClass (make group) = cls group.1)
    (sameValue : ∀ group, value (make group) = total weigh group.2) (i : Nat) :
    (running itemClass value write (fun _ => 0) ((groups key rows).map make))[i]? =
      (groups key rows)[i]?.map fun group => write (make group)
        (total weigh (rows.filter fun row =>
          cls (key row) = cls group.1 ∧ key row ≤ group.1)) := by
  rw [running_exact]
  simp only [groups, List.getElem?_map, Option.map_map]
  cases found : (keys key rows)[i]? with
  | none => rfl
  | some one =>
      have earlier : (((keys key rows).map fun one => make (one, rows.filter fun row =>
          key row = one)).take (i + 1)).filter (fun item => itemClass item = cls one) =
          (((keys key rows).take (i + 1)).filter fun other => cls other = cls one).map fun one =>
            make (one, rows.filter fun row => key row = one) := by
        rw [← List.map_take, List.filter_map]
        congr 1
        exact List.filter_congr fun other _ => by simp only [Function.comp_apply, sameClass]
      have distinct : (((keys key rows).take (i + 1)).filter fun other =>
          cls other = cls one).Nodup :=
        ((keys_nodup key rows).sublist (List.take_sublist _ _)).filter _
      simp only [Option.map_some, Function.comp_apply, sameClass, zero_add, List.map_map]
      congr 2
      refine (congrArg (total value) earlier).trans
        ((total_of_keys key weigh make value sameValue rows _ distinct).trans ?_)
      congr 1
      refine List.filter_congr fun row member => ?_
      have listed : key row ∈ keys key rows := (mem_keys key rows _).mpr ⟨row, member, rfl⟩
      simp [List.mem_filter, mem_take_keys key rows i one (key row) found, listed, and_comm]

end Cumulative

end Ccflare.Grouping
