import Ccflare.JsonPrinting
import Ccflare.JsonReading

/-!
The map that the members of an object make: ordered by name, with the last value of each. The
value of a document is made of such maps, and making it again or changing its numbers in
between makes no difference.
-/

namespace Ccflare.JsonMaps

open JsonValue JsonPrinting
open JsonText hiding held

section Fields

variable {fields : List (String × Json)}

/-- The map that a list of members makes. -/
def held (members : List (String × Json)) : List (String × Json) :=
  members.foldl (fun held entry => Json.insert entry.1 entry.2 held) []

theorem held_append (left : List (String × Json)) (key : String) (value : Json) :
    held (left ++ [(key, value)]) = Json.insert key value (held left) := by
  simp [held]

theorem insert_before (key other : String) (value here : Json) (before : key < other) :
    Json.insert key value ((other, here) :: fields) = (key, value) :: (other, here) :: fields :=
  if_pos before

theorem insert_at (key : String) (value here : Json) :
    Json.insert key value ((key, here) :: fields) = (key, value) :: fields := by
  rw [Json.insert, if_neg (lt_irrefl key), if_pos rfl]

theorem insert_past (key other : String) (value here : Json) (past : other < key) :
    Json.insert key value ((other, here) :: fields) =
      (other, here) :: Json.insert key value fields := by
  rw [Json.insert, if_neg (not_lt_of_gt past), if_neg (ne_of_gt past)]

theorem insert_insert (key : String) (first second : Json) :
    Json.insert key second (Json.insert key first fields) = Json.insert key second fields := by
  induction fields with
  | nil => exact insert_at key second first
  | cons entry rest ih =>
      obtain ⟨other, value⟩ := entry
      rcases lt_trichotomy key other with before | rfl | past
      · rw [insert_before key other first value before, insert_at,
          insert_before key other second value before]
      · rw [insert_at, insert_at, insert_at]
      · rw [insert_past key other first value past, insert_past key other second _ past, ih,
          insert_past key other second value past]

theorem insert_ordered (left right : String) (first second : Json) (order : left < right) :
    Json.insert left first (Json.insert right second fields) =
      Json.insert right second (Json.insert left first fields) := by
  induction fields with
  | nil =>
      simp only [Json.insert]
      rw [if_pos order, if_neg (not_lt_of_gt order), if_neg (ne_of_gt order)]
  | cons entry rest ih =>
      obtain ⟨other, value⟩ := entry
      rcases lt_trichotomy right other with before | rfl | past
      · rw [insert_before right other second value before,
          insert_before left right first second order,
          insert_before left other first value (order.trans before),
          insert_past right left second first order,
          insert_before right other second value before]
      · rw [insert_at, insert_before left right first second order,
          insert_before left right first value order, insert_past right left second first order,
          insert_at]
      · rw [insert_past right other second value past]
        rcases lt_trichotomy left other with less | rfl | more
        · rw [insert_before left other first _ less, insert_before left other first value less,
            insert_past right left second first order, insert_past right other second value past]
        · rw [insert_at, insert_at, insert_past right left second first order]
        · rw [insert_past left other first _ more, insert_past left other first value more,
            insert_past right other second value past, ih]

theorem insert_comm (left right : String) (first second : Json) (differ : left ≠ right) :
    Json.insert left first (Json.insert right second fields) =
      Json.insert right second (Json.insert left first fields) := by
  rcases lt_or_gt_of_ne differ with less | more
  · exact insert_ordered left right first second less
  · exact (insert_ordered right left second first more).symm

/-- Putting back what a map holds changes nothing. -/
theorem insert_held (key : String) (value : Json) (members : List (String × Json))
    (named : Json.field key (held members) = some value) :
    Json.insert key value (held members) = held members := by
  induction members using List.reverseRecOn with
  | nil => cases named
  | append_singleton before entry ih =>
      obtain ⟨other, last⟩ := entry
      rw [held_append] at named ⊢
      rw [Json.field_insert] at named
      by_cases same : key = other
      · subst same
        rw [if_pos rfl, Option.some.injEq] at named
        rw [named, insert_insert]
      · rw [if_neg same] at named
        rw [insert_comm key other value last same, ih named]

/-- Of the members of one name the last one counts; one that nothing follows may be put in
last. -/
theorem held_last (key : String) (value : Json) (before later : List (String × Json))
    (lastOne : ∀ entry ∈ later, entry.1 ≠ key) :
    held (before ++ (key, value) :: later) = Json.insert key value (held (before ++ later)) := by
  induction later using List.reverseRecOn with
  | nil => rw [List.append_nil, held_append]
  | append_singleton rest entry ih =>
      obtain ⟨other, last⟩ := entry
      -- Members of other names can be put in in any order.
      have earlier := ih fun held member => lastOne held (List.mem_append_left _ member)
      have differ : key ≠ other := (lastOne (other, last) (by simp)).symm
      rw [← List.append_assoc, held_append, insert_comm key other value last differ, ← earlier,
        ← held_append, List.append_assoc, List.cons_append]

theorem field_held (key : String) (members : List (String × Json)) :
    Json.field key (held members) = Json.field key members.reverse :=
  Json.get_make key members

theorem insert_mapped (change : Json → Json) (key : String) (value : Json)
    (fields : List (String × Json)) :
    (Json.insert key value fields).map (fun entry => (entry.1, change entry.2)) =
      Json.insert key (change value) (fields.map fun entry => (entry.1, change entry.2)) := by
  induction fields with
  | nil => rfl
  | cons entry rest ih =>
      obtain ⟨other, here⟩ := entry
      rcases lt_trichotomy key other with before | rfl | past
      · rw [insert_before key other value here before, List.map_cons, List.map_cons,
          insert_before key other _ _ before]
      · rw [insert_at, List.map_cons, List.map_cons, insert_at]
      · rw [insert_past key other value here past, List.map_cons, ih, List.map_cons,
          insert_past key other _ _ past]

theorem held_mapped (change : Json → Json) (members : List (String × Json)) :
    (held members).map (fun entry => (entry.1, change entry.2)) =
      held (members.map fun entry => (entry.1, change entry.2)) := by
  induction members using List.reverseRecOn with
  | nil => rfl
  | append_singleton before entry ih =>
      rw [held_append, insert_mapped, ih, List.map_append, List.map_singleton, held_append]

/-- The names of a map stand in order. -/
def Sorted (fields : List (String × Json)) : Prop := fields.Pairwise fun left right => left.1 < right.1

theorem insert_names (key : String) (value : Json) (fields : List (String × Json)) :
    ∀ entry ∈ Json.insert key value fields, entry.1 = key ∨ entry ∈ fields := by
  induction fields with
  | nil =>
      intro entry member
      exact Or.inl (by rw [List.mem_singleton.mp member])
  | cons first rest ih =>
      obtain ⟨other, here⟩ := first
      intro entry member
      rcases lt_trichotomy key other with before | rfl | past
      · rw [insert_before key other value here before] at member
        rcases List.mem_cons.mp member with rfl | later
        · exact Or.inl rfl
        · exact Or.inr later
      · rw [insert_at] at member
        rcases List.mem_cons.mp member with rfl | later
        · exact Or.inl rfl
        · exact Or.inr (List.mem_cons_of_mem _ later)
      · rw [insert_past key other value here past] at member
        rcases List.mem_cons.mp member with rfl | later
        · exact Or.inr List.mem_cons_self
        · exact (ih entry later).imp_right (List.mem_cons_of_mem _)

theorem insert_sorted (key : String) (value : Json) (fields : List (String × Json))
    (sorted : Sorted fields) : Sorted (Json.insert key value fields) := by
  induction fields with
  | nil => exact List.pairwise_singleton _ _
  | cons first rest ih =>
      obtain ⟨other, here⟩ := first
      obtain ⟨least, later⟩ := List.pairwise_cons.mp sorted
      rcases lt_trichotomy key other with before | rfl | past
      · rw [insert_before key other value here before]
        refine List.pairwise_cons.mpr ⟨fun entry member => ?_, sorted⟩
        rcases List.mem_cons.mp member with rfl | member
        · exact before
        · exact before.trans (least entry member)
      · rw [insert_at]
        exact List.pairwise_cons.mpr ⟨least, later⟩
      · rw [insert_past key other value here past]
        refine List.pairwise_cons.mpr ⟨fun entry member => ?_, ih later⟩
        rcases insert_names key value rest entry member with rfl | listed
        · exact past
        · exact least entry listed

theorem held_sorted (members : List (String × Json)) : Sorted (held members) := by
  induction members using List.reverseRecOn with
  | nil => exact List.Pairwise.nil
  | append_singleton before entry ih =>
      rw [held_append]
      exact insert_sorted _ _ _ ih

theorem insert_last (key : String) (value : Json) (fields : List (String × Json))
    (least : ∀ entry ∈ fields, entry.1 < key) :
    Json.insert key value fields = fields ++ [(key, value)] := by
  induction fields with
  | nil => rfl
  | cons first rest ih =>
      obtain ⟨other, here⟩ := first
      rw [insert_past key other value here (least (other, here) List.mem_cons_self),
        ih fun entry member => least entry (List.mem_cons_of_mem _ member), List.cons_append]

/-- A map is made of its own entries. -/
theorem held_of_sorted (fields : List (String × Json)) (sorted : Sorted fields) :
    held fields = fields := by
  induction fields using List.reverseRecOn with
  | nil => rfl
  | append_singleton before entry ih =>
      obtain ⟨earlier, -, least⟩ := List.pairwise_append.mp sorted
      rw [held_append, ih earlier]
      exact insert_last _ _ _ fun other member => least other member entry (List.mem_singleton_self _)

end Fields

section Canonical

theorem canonical_fields_map (members : List (String × Json)) :
    canonicalFields members = members.map fun entry => (entry.1, canonical entry.2) := by
  induction members with
  | nil => rfl
  | cons entry rest ih =>
      obtain ⟨key, value⟩ := entry
      rw [canonicalFields, ih, List.map_cons]

theorem canonical_object (members : List (String × Json)) :
    canonical (.object members) = .object (held (canonicalFields members)) := by
  rw [canonical]
  rfl

mutual

theorem canonical_again : (value : Json) → canonical (canonical value) = canonical value
  | .null | .bool _ | .number _ | .string _ => by simp [canonical]
  | .array items => by rw [canonical, canonical, items_again items]
  | .object members => by
      rw [canonical_object, canonical_object, canonical_fields_map, held_mapped,
        ← canonical_fields_map, fields_again members, held_of_sorted _ (held_sorted _)]

theorem items_again : (items : List Json) →
    canonicalItems (canonicalItems items) = canonicalItems items
  | [] => rfl
  | item :: rest => by rw [canonicalItems, canonicalItems, canonical_again item, items_again rest]

theorem fields_again : (members : List (String × Json)) →
    canonicalFields (canonicalFields members) = canonicalFields members
  | [] => rfl
  | (key, value) :: rest => by
      rw [canonicalFields, canonicalFields, canonical_again value, fields_again rest]

end

theorem canonical_insert (key content : String) (fields : List (String × Json))
    (document : canonical (.object fields) = .object fields) :
    canonical (.object (Json.insert key (.string content) fields)) =
      .object (Json.insert key (.string content) fields) := by
  rw [canonical_object, Json.object.injEq] at document
  have mapped : canonicalFields (Json.insert key (.string content) fields) =
      Json.insert key (.string content) (canonicalFields fields) := by
    rw [canonical_fields_map, insert_mapped, ← canonical_fields_map, canonical]
  have sorted : Sorted fields := document ▸ held_sorted _
  have same : canonicalFields fields = fields := by
    have named : Sorted (canonicalFields fields) := by
      rw [canonical_fields_map]
      exact List.pairwise_map.mpr sorted
    rw [← held_of_sorted _ named, document]
  rw [canonical_object, mapped, same, held_of_sorted _ (insert_sorted _ _ _ sorted)]

mutual

theorem canonical_renumber (change : Number → Number) : (value : Json) →
    canonical (renumber change value) = renumber change (canonical value)
  | .null | .bool _ | .number _ | .string _ => by simp [canonical, renumber]
  | .array items => by rw [renumber, canonical, canonical, renumber, items_renumber change items]
  | .object members => by
      rw [renumber, canonical_object, canonical_object, renumber, fields_renumber change members,
        renumber_fields_map, renumber_fields_map, held_mapped]

theorem items_renumber (change : Number → Number) : (items : List Json) →
    canonicalItems (renumberItems change items) = renumberItems change (canonicalItems items)
  | [] => rfl
  | item :: rest => by
      rw [renumberItems, canonicalItems, canonicalItems, renumberItems, canonical_renumber change item,
        items_renumber change rest]

theorem fields_renumber (change : Number → Number) : (members : List (String × Json)) →
    canonicalFields (renumberFields change members) =
      renumberFields change (canonicalFields members)
  | [] => rfl
  | (key, value) :: rest => by
      rw [renumberFields, canonicalFields, canonicalFields, renumberFields,
        canonical_renumber change value, fields_renumber change rest]

end

theorem renumber_insert (change : Number → Number) (key content : String)
    (fields : List (String × Json)) :
    renumberFields change (Json.insert key (.string content) fields) =
      Json.insert key (.string content) (renumberFields change fields) := by
  rw [renumber_fields_map, insert_mapped, ← renumber_fields_map, renumber]

/-- With another name in it, a document has the same numbers. -/
theorem insert_fixed_iff (change : Number → Number) (key before after : String)
    (fields : List (String × Json))
    (named : Json.insert key (.string before) fields = fields) :
    renumber change (.object (Json.insert key (.string after) fields)) =
        .object (Json.insert key (.string after) fields) ↔
      ∀ number ∈ numbersOf (.object fields), change number = number := by
  rw [← renumber_fixed_iff, renumber, renumber, Json.object.injEq, Json.object.injEq,
    renumber_insert]
  constructor
  · intro fixed
    -- The old name is put back on both sides.
    have back := congrArg (Json.insert key (.string before)) fixed
    rwa [insert_insert, insert_insert, named, ← renumber_insert, named] at back
  · intro fixed
    rw [fixed]

theorem canonical_string_iff (value : Json) (content : String) :
    canonical value = .string content ↔ value = .string content := by
  cases value <;> simp [canonical, Json.make]

theorem container_no_string (value : Json) (container : isContainer value) (content : String) :
    value ≠ .string content := by
  rintro rfl
  exact container

theorem field_canonical (key : String) (members : List (String × Json)) :
    Json.field key (canonicalFields members).reverse =
      (Json.field key members.reverse).map canonical := by
  rw [canonical_fields_map, ← List.map_reverse]
  induction members.reverse with
  | nil => rfl
  | cons entry rest ih =>
      by_cases here : key = entry.1 <;> simp [Json.field, here, ih]

/-- The string that a name has in a document is that of its last member. -/
theorem last_member (key content : String) (members : List (String × Json)) :
    Json.field key (held (canonicalFields members)) = some (.string content) ↔
      Json.field key members.reverse = some (.string content) := by
  rw [field_held, field_canonical]
  constructor
  · intro named
    obtain ⟨value, found, same⟩ := Option.map_eq_some_iff.mp named
    rw [found, (canonical_string_iff value content).mp same]
  · intro named
    rw [named, Option.map_some, canonical]

theorem last_of_parts (key name : String) (value : Json) (before later : List (String × Json)) :
    Json.field key (before ++ (name, value) :: later).reverse =
      (Json.field key later.reverse).or
        (if key = name then some value else Json.field key before.reverse) := by
  rw [List.reverse_append, List.reverse_cons, Json.field_append, Json.field_append]
  by_cases here : key = name <;> simp [Json.field, here]

theorem field_none_iff (key : String) (members : List (String × Json)) :
    Json.field key members.reverse = none ↔ ∀ entry ∈ members, entry.1 ≠ key := by
  induction members using List.reverseRecOn with
  | nil => simp [Json.field]
  | append_singleton before entry ih =>
      obtain ⟨name, value⟩ := entry
      rw [List.reverse_append, List.reverse_singleton, List.singleton_append, Json.field]
      by_cases here : key = name
      · rw [if_pos here]
        simp [here]
      · rw [if_neg here, ih]
        simp [or_imp, forall_and, Ne.symm here]

end Canonical

end Ccflare.JsonMaps
