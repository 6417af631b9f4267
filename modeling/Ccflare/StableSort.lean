import Mathlib.Data.List.Induction
import Mathlib.Data.List.Sort
import Mathlib.Data.Prod.Lex
import Mathlib.Order.Basic

/-!
Sorting and selection by a key, over arbitrary rows. `sortBy` takes a three-way
comparator and keeps the order of rows that compare equal, which is the
documented behaviour of a stable `sort_by`. `maxByKey` returns the last of the
rows with the greatest key. A comparator is used through the linear order of
the keys it agrees with, so no result below is about a particular comparator.
-/

namespace Ccflare.StableSort

variable {Row Key : Type} [LinearOrder Key]

def sortBy (cmp : Row → Row → Ordering) (rows : List Row) : List Row :=
  rows.insertionSort fun a b => cmp a b ≠ .gt

def sortByKey (key : Row → Key) (rows : List Row) : List Row :=
  rows.insertionSort fun a b => key a ≤ key b

/-- The comparator orders rows as the linear order of their keys does. -/
def Agrees (cmp : Row → Row → Ordering) (key : Row → Key) : Prop :=
  ∀ a b, cmp a b ≠ .gt ↔ key a ≤ key b

theorem sort_by_agrees (cmp : Row → Row → Ordering) (key : Row → Key)
    (agrees : Agrees cmp key) (rows : List Row) :
    sortBy cmp rows = sortByKey key rows := by
  have sameRelation : (fun a b => cmp a b ≠ .gt) = fun a b => key a ≤ key b := by
    funext a b
    exact propext (agrees a b)
  unfold sortBy sortByKey
  congr 1

theorem sort_by_perm (cmp : Row → Row → Ordering) (rows : List Row) :
    (sortBy cmp rows).Perm rows :=
  List.perm_insertionSort _ rows

theorem sort_by_key_perm (key : Row → Key) (rows : List Row) :
    (sortByKey key rows).Perm rows :=
  List.perm_insertionSort _ rows

theorem sort_by_key_ordered (key : Row → Key) (rows : List Row) :
    (sortByKey key rows).Pairwise fun a b => key a ≤ key b := by
  have : Std.Total fun a b : Row => key a ≤ key b := ⟨fun a b => le_total (key a) (key b)⟩
  have : IsTrans Row fun a b => key a ≤ key b := ⟨fun _ _ _ ab bc => le_trans ab bc⟩
  exact List.pairwise_insertionSort _ rows

theorem sort_by_key_sorted (key : Row → Key) (rows : List Row)
    (ordered : rows.Pairwise fun a b => key a ≤ key b) : sortByKey key rows = rows :=
  ordered.insertionSort_eq

theorem sort_by_ordered (cmp : Row → Row → Ordering) (key : Row → Key)
    (agrees : Agrees cmp key) (rows : List Row) :
    (sortBy cmp rows).Pairwise fun a b => key a ≤ key b := by
  rw [sort_by_agrees cmp key agrees]
  exact sort_by_key_ordered key rows

theorem mem_sort_by (cmp : Row → Row → Ordering) (rows : List Row) (row : Row) :
    row ∈ sortBy cmp rows ↔ row ∈ rows :=
  (sort_by_perm cmp rows).mem_iff

theorem mem_sort_by_key (key : Row → Key) (rows : List Row) (row : Row) :
    row ∈ sortByKey key rows ↔ row ∈ rows :=
  (sort_by_key_perm key rows).mem_iff

def laterMax (key : Row → Key) (best row : Row) : Row :=
  if key best ≤ key row then row else best

def maxByKey (key : Row → Key) : List Row → Option Row
  | [] => none
  | row :: rest => some (rest.foldl (laterMax key) row)

theorem later_max_cases (key : Row → Key) (best row : Row) :
    laterMax key best row = row ∨ laterMax key best row = best := by
  unfold laterMax
  split
  · exact Or.inl rfl
  · exact Or.inr rfl

theorem fold_later_max_mem (key : Row → Key) (rows : List Row) (best : Row) :
    rows.foldl (laterMax key) best ∈ best :: rows := by
  induction rows generalizing best with
  | nil => simp
  | cons row rest ih =>
      have member := ih (laterMax key best row)
      rw [List.foldl_cons]
      rcases List.mem_cons.mp member with same | later
      · rw [same]
        rcases later_max_cases key best row with right | left
        · simp [right]
        · simp [left]
      · simp [later]

theorem max_by_key_mem (key : Row → Key) (rows : List Row) (row : Row)
    (found : maxByKey key rows = some row) : row ∈ rows := by
  cases rows with
  | nil => simp [maxByKey] at found
  | cons first rest =>
      simp only [maxByKey, Option.some.injEq] at found
      rw [← found]
      exact fold_later_max_mem key rest first

theorem fold_later_max_ge (key : Row → Key) (rows : List Row) (best : Row) :
    ∀ row ∈ best :: rows, key row ≤ key (rows.foldl (laterMax key) best) := by
  induction rows generalizing best with
  | nil => simp
  | cons next rest ih =>
      have bounds := ih (laterMax key best next)
      have top := bounds _ List.mem_cons_self
      rw [List.foldl_cons]
      intro row member
      rcases List.mem_cons.mp member with rfl | later
      · refine le_trans ?_ top
        unfold laterMax
        split
        · assumption
        · exact le_rfl
      · rcases List.mem_cons.mp later with rfl | later
        · refine le_trans ?_ top
          unfold laterMax
          split
          · exact le_rfl
          · exact (not_le.mp (by assumption)).le
        · exact bounds row (List.mem_cons_of_mem _ later)

theorem max_by_key_ge (key : Row → Key) (rows : List Row) (best : Row)
    (found : maxByKey key rows = some best) : ∀ row ∈ rows, key row ≤ key best := by
  cases rows with
  | nil => simp
  | cons first rest =>
      simp only [maxByKey, Option.some.injEq] at found
      exact found ▸ fold_later_max_ge key rest first

/-- A row whose key is greater than every other row's is the one picked. -/
theorem max_by_key_unique (key : Row → Key) (rows : List Row) (best : Row) (member : best ∈ rows)
    (greatest : ∀ row ∈ rows, row = best ∨ key row < key best) :
    maxByKey key rows = some best := by
  cases rows with
  | nil => cases member
  | cons first rest =>
      have picked := fold_later_max_mem key rest first
      have bound := fold_later_max_ge key rest first best member
      rcases greatest _ picked with same | below
      · exact congrArg some same
      · exact absurd bound (not_le.mpr below)

theorem head_sort_by_key (key : Row → Key) (row : Row) (rest : List Row) :
    (sortByKey key (row :: rest)).head? =
      match (sortByKey key rest).head? with
      | some best => if key row ≤ key best then some row else some best
      | none => some row := by
  unfold sortByKey
  rw [List.insertionSort_cons]
  cases rest.insertionSort fun a b => key a ≤ key b with
  | nil => rfl
  | cons best later =>
      simp only [List.orderedInsert_cons, List.head?_cons]
      split <;> rfl

/-- The first of the admitted rows with the least key. -/
def Foremost (key : Row → Key) (admitted : Row → Bool) (rows : List Row) (row : Row) : Prop :=
  ∃ before after, rows = before ++ row :: after ∧ admitted row = true ∧
    (∀ other ∈ before, admitted other = true → key row < key other) ∧
    ∀ other ∈ after, admitted other = true → key row ≤ key other

theorem Foremost.admitted {key : Row → Key} {admitted : Row → Bool} {rows : List Row} {row : Row}
    (found : Foremost key admitted rows row) : admitted row = true := by
  obtain ⟨before, after, -, admits, -⟩ := found
  exact admits

theorem Foremost.mem {key : Row → Key} {admitted : Row → Bool} {rows : List Row} {row : Row}
    (found : Foremost key admitted rows row) : row ∈ rows := by
  obtain ⟨before, after, rfl, -⟩ := found
  exact List.mem_append_right _ List.mem_cons_self

theorem Foremost.least {key : Row → Key} {admitted : Row → Bool} {rows : List Row} {row : Row}
    (found : Foremost key admitted rows row) :
    ∀ other ∈ rows, admitted other = true → key row ≤ key other := by
  obtain ⟨before, after, rfl, -, less, least⟩ := found
  intro other member admits
  rcases List.mem_append.mp member with early | late
  · exact (less other early admits).le
  · rcases List.mem_cons.mp late with rfl | late
    · exact le_rfl
    · exact least other late admits

theorem foremost_of_head (key : Row → Key) (admitted : Row → Bool) (rows : List Row) (row : Row)
    (found : (sortByKey key (rows.filter admitted)).head? = some row) :
    Foremost key admitted rows row := by
  induction rows generalizing row with
  | nil => cases found
  | cons first rest ih =>
      cases here : admitted first with
      | false =>
          rw [List.filter_cons_of_neg (by simp [here])] at found
          obtain ⟨before, after, rfl, ok, less, least⟩ := ih row found
          refine ⟨first :: before, after, rfl, ok, ?_, least⟩
          rintro other (_ | ⟨_, member⟩) admits
          · exact absurd (here.symm.trans admits) (by decide)
          · exact less other member admits
      | true =>
          rw [List.filter_cons_of_pos here, head_sort_by_key] at found
          cases later : (sortByKey key (rest.filter admitted)).head? with
          | none =>
              rw [later] at found
              obtain rfl := Option.some.inj found
              refine ⟨[], rest, rfl, here, by simp, ?_⟩
              intro other member admits
              have inFilter := List.mem_filter.mpr ⟨member, admits⟩
              rw [← mem_sort_by_key key, List.head?_eq_none_iff.mp later] at inFilter
              cases inFilter
          | some best =>
              rw [later] at found
              have foremost := ih best later
              have bound := foremost.least
              obtain ⟨before, after, rfl, ok, less, least⟩ := foremost
              dsimp only at found
              split at found
              · rename_i small
                obtain rfl := Option.some.inj found
                exact ⟨[], _, rfl, here, by simp, fun other member admits =>
                  small.trans (bound other member admits)⟩
              · rename_i large
                obtain rfl := Option.some.inj found
                refine ⟨first :: before, after, rfl, ok, ?_, least⟩
                rintro other (_ | ⟨_, member⟩) admits
                · exact not_le.mp large
                · exact less other member admits

/-- Two searches have the same result when each admits the other's and puts it no later. -/
theorem foremost_same {Key' : Type} [LinearOrder Key'] {key : Row → Key} {key' : Row → Key'}
    {first second : Row → Bool} {rows : List Row} {a b : Row}
    (one : Foremost key first rows a) (two : Foremost key' second rows b)
    (admits : second a = true) (admitted : first b = true) (no_later : key b ≤ key a)
    (no_later' : key' a ≤ key' b) : a = b := by
  obtain ⟨before, after, rfl, -, less, least⟩ := one
  obtain ⟨before', after', same, -, less', least'⟩ := two
  rcases List.append_eq_append_iff.mp same with ⟨middle, rfl, rest⟩ | ⟨middle, rfl, rest⟩
  · cases middle with
    | nil => exact (List.cons.inj rest).1
    | cons first middle =>
        obtain ⟨rfl, rfl⟩ := List.cons.inj rest
        exact absurd (less' a (by simp) admits) (not_lt.mpr no_later')
  · cases middle with
    | nil => exact (List.cons.inj rest).1.symm
    | cons first middle =>
        obtain ⟨rfl, rfl⟩ := List.cons.inj rest
        exact absurd (less b (by simp) admitted) (not_lt.mpr no_later)

/-- Two searches by one key that admit each other's result have the same result. -/
theorem foremost_meet {key : Row → Key} {first second : Row → Bool} {rows : List Row} {a b : Row}
    (one : Foremost key first rows a) (two : Foremost key second rows b)
    (admits : second a = true) (admitted : first b = true) : a = b :=
  foremost_same one two admits admitted (two.least a one.mem admits)
    (one.least b two.mem admitted)

/-- The head of the sorted rows, said on the rows. -/
theorem head_iff_foremost (key : Row → Key) (admitted : Row → Bool) (rows : List Row) (row : Row) :
    (sortByKey key (rows.filter admitted)).head? = some row ↔ Foremost key admitted rows row := by
  constructor
  · exact foremost_of_head key admitted rows row
  · intro foremost
    cases found : (sortByKey key (rows.filter admitted)).head? with
    | none =>
        have inFilter := List.mem_filter.mpr ⟨foremost.mem, foremost.admitted⟩
        rw [← mem_sort_by_key key, List.head?_eq_none_iff.mp found] at inFilter
        cases inFilter
    | some best =>
        have other := foremost_of_head key admitted rows best found
        rw [foremost_meet foremost other foremost.admitted other.admitted]

theorem head_none_iff (key : Row → Key) (admitted : Row → Bool) (rows : List Row) :
    (sortByKey key (rows.filter admitted)).head? = none ↔
      ∀ other ∈ rows, admitted other = false := by
  rw [List.head?_eq_none_iff, ← List.length_eq_zero_iff, (sort_by_key_perm key _).length_eq,
    List.length_eq_zero_iff, List.filter_eq_nil_iff]
  simp only [Bool.not_eq_true]

instance [DecidableEq Row] (key : Row → Key) (admitted : Row → Bool) (rows : List Row)
    (row : Row) : Decidable (Foremost key admitted rows row) :=
  decidable_of_iff _ (head_iff_foremost key admitted rows row)

/-- A search that admits fewer rows and puts those in the same order keeps its result. -/
theorem Foremost.narrow {Key' : Type} [LinearOrder Key'] {key : Row → Key} {key' : Row → Key'}
    {admitted fewer : Row → Bool} {rows : List Row} {row : Row}
    (found : Foremost key admitted rows row) (kept : fewer row = true)
    (within : ∀ other, fewer other = true → admitted other = true)
    (same : ∀ a b, fewer a = true → fewer b = true → (key a ≤ key b ↔ key' a ≤ key' b)) :
    Foremost key' fewer rows row := by
  obtain ⟨before, after, rfl, -, less, least⟩ := found
  refine ⟨before, after, rfl, kept, ?_, ?_⟩
  · intro other member admits
    have below := less other member (within other admits)
    exact not_le.mp fun above => not_lt.mpr ((same other row admits kept).mpr above) below
  · intro other member admits
    exact (same row other kept admits).mp (least other member (within other admits))

/-- The last of the greatest is the first of the least from the other end. -/
theorem max_by_key_head (key : Row → Key) (rows : List Row) :
    maxByKey key rows = (sortByKey (OrderDual.toDual ∘ key) rows.reverse).head? := by
  induction rows using List.reverseRecOn with
  | nil => rfl
  | append_singleton rest row ih =>
      rw [List.reverse_append, List.reverse_singleton, List.singleton_append, head_sort_by_key,
        ← ih]
      cases rest with
      | nil => rfl
      | cons first others =>
          simp only [maxByKey, List.cons_append, List.foldl_append, List.foldl_cons, List.foldl_nil,
            laterMax, Function.comp_apply, OrderDual.toDual_le_toDual]
          split <;> rfl

theorem foremost_of_max (key : Row → Key) (admitted : Row → Bool) (rows : List Row) (row : Row)
    (found : maxByKey key (rows.filter admitted) = some row) :
    Foremost (OrderDual.toDual ∘ key) admitted rows.reverse row := by
  rw [max_by_key_head, ← List.filter_reverse] at found
  exact foremost_of_head _ admitted rows.reverse row found

/-- The last of the admitted rows with the greatest key. -/
def Hindmost (key : Row → Key) (admitted : Row → Bool) (rows : List Row) (row : Row) : Prop :=
  ∃ before after, rows = before ++ row :: after ∧ admitted row = true ∧
    (∀ other ∈ before, admitted other = true → key other ≤ key row) ∧
    ∀ other ∈ after, admitted other = true → key other < key row

theorem hindmost_reverse (key : Row → Key) (admitted : Row → Bool) (rows : List Row) (row : Row) :
    Foremost (OrderDual.toDual ∘ key) admitted rows.reverse row ↔
      Hindmost key admitted rows row := by
  constructor
  · rintro ⟨before, after, same, admits, less, least⟩
    refine ⟨after.reverse, before.reverse, ?_, admits, ?_, ?_⟩
    · rw [← List.reverse_reverse rows, same]
      simp
    · intro other member
      exact least other (List.mem_reverse.mp member)
    · intro other member
      exact less other (List.mem_reverse.mp member)
  · rintro ⟨before, after, rfl, admits, greatest, greater⟩
    refine ⟨after.reverse, before.reverse, by simp, admits, ?_, ?_⟩
    · intro other member
      exact greater other (List.mem_reverse.mp member)
    · intro other member
      exact greatest other (List.mem_reverse.mp member)

theorem max_iff_hindmost (key : Row → Key) (admitted : Row → Bool) (rows : List Row) (row : Row) :
    maxByKey key (rows.filter admitted) = some row ↔ Hindmost key admitted rows row := by
  rw [max_by_key_head, ← List.filter_reverse, head_iff_foremost, hindmost_reverse]

theorem max_none_iff (key : Row → Key) (admitted : Row → Bool) (rows : List Row) :
    maxByKey key (rows.filter admitted) = none ↔ ∀ other ∈ rows, admitted other = false := by
  rw [max_by_key_head, ← List.filter_reverse, head_none_iff]
  simp only [List.mem_reverse]

instance [DecidableEq Row] (key : Row → Key) (admitted : Row → Bool) (rows : List Row)
    (row : Row) : Decidable (Hindmost key admitted rows row) :=
  decidable_of_iff _ (max_iff_hindmost key admitted rows row)

theorem insert_filter (key : Row → Key) (keep : Row → Bool) (row : Row) (rows : List Row)
    (sorted : rows.Pairwise fun a b => key a ≤ key b) :
    (rows.orderedInsert (fun a b => key a ≤ key b) row).filter keep =
      if keep row then (rows.filter keep).orderedInsert (fun a b => key a ≤ key b) row
      else rows.filter keep := by
  induction rows with
  | nil => cases here : keep row <;> simp [here]
  | cons best later ih =>
      obtain ⟨least, rest⟩ := List.pairwise_cons.mp sorted
      by_cases small : key row ≤ key best
      · rw [List.orderedInsert_cons, if_pos small]
        -- Whatever the filter leaves in front is no smaller than the row.
        have front : ∀ kept, (∀ other ∈ kept, other ∈ best :: later) →
            kept.orderedInsert (fun a b => key a ≤ key b) row = row :: kept := by
          intro kept within
          cases kept with
          | nil => rfl
          | cons first others =>
              rw [List.orderedInsert_cons, if_pos]
              rcases List.mem_cons.mp (within first List.mem_cons_self) with rfl | member
              · exact small
              · exact small.trans (least first member)
        rw [front _ fun other member => List.mem_of_mem_filter member, List.filter_cons]
      · rw [List.orderedInsert_cons, if_neg small]
        cases here : keep best with
        | false =>
            rw [List.filter_cons_of_neg (by simp [here]), List.filter_cons_of_neg (by simp [here])]
            exact ih rest
        | true =>
            rw [List.filter_cons_of_pos here, List.filter_cons_of_pos here, ih rest]
            split
            · rw [List.orderedInsert_cons, if_neg small]
            · rfl

theorem sort_by_key_filter (key : Row → Key) (keep : Row → Bool) (rows : List Row) :
    (sortByKey key rows).filter keep = sortByKey key (rows.filter keep) := by
  induction rows with
  | nil => rfl
  | cons row rest ih =>
      have sorted := sort_by_key_ordered key rest
      unfold sortByKey at ih sorted ⊢
      rw [List.insertionSort_cons, insert_filter key keep row _ sorted, ih, List.filter_cons]
      split <;> rfl

theorem sort_by_filter (cmp : Row → Row → Ordering) (key : Row → Key) (agrees : Agrees cmp key)
    (keep : Row → Bool) (rows : List Row) :
    (sortBy cmp rows).filter keep = sortBy cmp (rows.filter keep) := by
  rw [sort_by_agrees cmp key agrees, sort_by_agrees cmp key agrees]
  exact sort_by_key_filter key keep rows

section Related

variable {Other : Type} {related : Row → Other → Prop}

theorem insertion_sort_related (le : Row → Row → Prop) (le' : Other → Other → Prop)
    [DecidableRel le] [DecidableRel le']
    (same : ∀ a b a' b', related a a' → related b b' → (le a b ↔ le' a' b'))
    {rows : List Row} {others : List Other} (all : List.Forall₂ related rows others) :
    List.Forall₂ related (rows.insertionSort le) (others.insertionSort le') := by
  have insert : ∀ row other (rows : List Row) (others : List Other), related row other →
      List.Forall₂ related rows others →
      List.Forall₂ related (rows.orderedInsert le row) (others.orderedInsert le' other) := by
    intro row other rows others here all
    induction all with
    | nil => exact .cons here .nil
    | @cons best best' later later' first rest ih =>
        rw [List.orderedInsert_cons, List.orderedInsert_cons]
        by_cases small : le row best
        · rw [if_pos small, if_pos ((same _ _ _ _ here first).mp small)]
          exact .cons here (.cons first rest)
        · rw [if_neg small, if_neg (mt (same _ _ _ _ here first).mpr small)]
          exact .cons first ih
  induction all with
  | nil => exact .nil
  | cons here _ ih => exact insert _ _ _ _ here ih

theorem sort_by_related (cmp : Row → Row → Ordering) (cmp' : Other → Other → Ordering)
    (same : ∀ a b a' b', related a a' → related b b' → cmp a b = cmp' a' b')
    {rows : List Row} {others : List Other} (all : List.Forall₂ related rows others) :
    List.Forall₂ related (sortBy cmp rows) (sortBy cmp' others) := by
  apply insertion_sort_related _ _ _ all
  intro a b a' b' here there
  rw [same a b a' b' here there]

theorem sort_by_key_related (key : Row → Key) (key' : Other → Key)
    (same : ∀ a a', related a a' → key a = key' a')
    {rows : List Row} {others : List Other} (all : List.Forall₂ related rows others) :
    List.Forall₂ related (sortByKey key rows) (sortByKey key' others) := by
  apply insertion_sort_related _ _ _ all
  intro a b a' b' here there
  rw [same a a' here, same b b' there]

end Related

section Groups

variable {Group : Type} [LinearOrder Group]

/-- A comparator that decides by the group and, within a group, by another comparator. -/
theorem agrees_in_groups {cmp : Row → Row → Ordering} {key : Row → Key} (group : Row → Group)
    (within : Agrees cmp key) :
    Agrees (fun a b => if compare (group a) (group b) ≠ .eq then compare (group a) (group b)
      else cmp a b) (fun a => toLex (group a, key a)) := by
  intro a b
  dsimp only
  rw [Prod.Lex.toLex_le_toLex, ← within]
  rcases lt_trichotomy (group a) (group b) with below | same | above
  · simp [compare_lt_iff_lt.mpr below, below]
  · simp [same]
  · simp [compare_gt_iff_gt.mpr above, above.not_gt, above.ne']

theorem sort_in_group (group : Row → Group) (key : Row → Key) (one : Group) (rows : List Row)
    (all : ∀ row ∈ rows, group row = one) :
    sortByKey (fun row => toLex (group row, key row)) rows = sortByKey key rows := by
  have alike : List.Forall₂ (fun a b => a = b ∧ group a = one) rows rows :=
    List.forall₂_same.mpr fun row member => ⟨rfl, all row member⟩
  have sorted := insertion_sort_related
    (fun a b => toLex (group a, key a) ≤ toLex (group b, key b)) (fun a b => key a ≤ key b)
    (fun a b a' b' here there => by
      obtain ⟨rfl, inside⟩ := here
      obtain ⟨rfl, inside'⟩ := there
      simp [Prod.Lex.toLex_le_toLex, inside, inside']) alike
  have equal := sorted.imp fun _ _ both => both.1
  rwa [List.forall₂_eq_eq_eq] at equal

/-- Where rows are sorted by group and then by key, the first row is the first of the
least group that has one. -/
theorem head_of_group (group : Row → Group) (key : Row → Key) (one : Group) (rows : List Row)
    (least : ∀ row ∈ rows, one ≤ group row) (some_ : ∃ row ∈ rows, group row = one) :
    (sortByKey (fun row => toLex (group row, key row)) rows).head? =
      (sortByKey key (rows.filter fun row => group row = one)).head? := by
  have inside := sort_in_group group key one (rows.filter fun row => group row = one)
    fun row member => by simpa using (List.mem_filter.mp member).2
  rw [← inside, ← sort_by_key_filter]
  have ordered := sort_by_key_ordered (fun row => toLex (group row, key row)) rows
  have members := mem_sort_by_key (fun row => toLex (group row, key row)) rows
  cases listed : sortByKey (fun row => toLex (group row, key row)) rows with
  | nil => rfl
  | cons best rest =>
      rw [listed] at ordered members
      obtain ⟨found, member, here⟩ := some_
      have low : group best ≤ one := by
        rcases List.mem_cons.mp ((members found).mpr member) with rfl | later
        · exact here.le
        · have below := (List.pairwise_cons.mp ordered).1 found later
          rw [Prod.Lex.toLex_le_toLex, here] at below
          exact below.elim le_of_lt fun same => same.1.le
      have top : group best = one :=
        le_antisymm low (least best ((members best).mp List.mem_cons_self))
      rw [List.filter_cons_of_pos (by simpa using top)]
      rfl

end Groups

end Ccflare.StableSort
