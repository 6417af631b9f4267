import Mathlib.Data.List.Nodup
import Mathlib.Tactic.Common

/-!
Rows of one table that refer to rows of another by a key, as an engine with enforced
foreign keys keeps them. A statement that would leave a row of the child table without
its parent fails as a whole and changes nothing; a child that names no key refers to
nothing.
-/

namespace Ccflare.References

variable {Parent Child Key : Type} [DecidableEq Key]

structure Reference (Parent Child Key : Type) where
  parentKey : Parent → Key
  childKey : Child → Option Key

variable (ref : Reference Parent Child Key)

def Reference.refers (child : Child) (parent : Parent) : Bool :=
  decide (ref.childKey child = some (ref.parentKey parent))

/-- The child names no key, or that of a parent. -/
def Reference.anchored (parents : List Parent) (child : Child) : Bool :=
  (ref.childKey child).isNone || parents.any (ref.refers child)

def Reference.Intact (parents : List Parent) (children : List Child) : Prop :=
  ∀ child ∈ children, ref.anchored parents child = true

/-- `DELETE FROM parents WHERE doomed`. -/
def Reference.deleteParents (children : List Child) (doomed : Parent → Bool)
    (parents : List Parent) : Option (List Parent) :=
  if parents.any fun parent => doomed parent && children.any fun child => ref.refers child parent
  then none
  else some (parents.filter fun parent => !doomed parent)

/-- The children a statement adds are checked when it is over. -/
def Reference.insertChildren (parents : List Parent) (added children : List Child) :
    Option (List Child) :=
  if added.all (ref.anchored parents) then some (children ++ added) else none

theorem refers_iff (child : Child) (parent : Parent) :
    ref.refers child parent = true ↔ ref.childKey child = some (ref.parentKey parent) := by
  simp [Reference.refers]

theorem anchored_iff (parents : List Parent) (child : Child) :
    ref.anchored parents child = true ↔
      ∀ key, ref.childKey child = some key → ∃ parent ∈ parents, ref.parentKey parent = key := by
  unfold Reference.anchored
  cases named : ref.childKey child with
  | none => simp
  | some key =>
      simp only [Option.isNone_some, Bool.false_or, List.any_eq_true, refers_iff, named,
        Option.some.injEq, forall_eq']
      constructor
      · rintro ⟨parent, member, same⟩
        exact ⟨parent, member, same.symm⟩
      · rintro ⟨parent, member, same⟩
        exact ⟨parent, member, same.symm⟩

theorem delete_parents_some (children : List Child) (doomed : Parent → Bool)
    (parents kept : List Parent) :
    ref.deleteParents children doomed parents = some kept ↔
      (∀ parent ∈ parents, doomed parent = true →
        ∀ child ∈ children, ref.refers child parent = false) ∧
      kept = parents.filter fun parent => !doomed parent := by
  unfold Reference.deleteParents
  split
  · rename_i held
    simp only [List.any_eq_true, Bool.and_eq_true] at held
    obtain ⟨parent, member, dies, child, here, refers⟩ := held
    constructor
    · intro given
      cases given
    · rintro ⟨free, -⟩
      rw [free parent member dies child here] at refers
      cases refers
  · rename_i held
    simp only [List.any_eq_true, Bool.and_eq_true, not_exists, not_and] at held
    constructor
    · intro given
      obtain rfl := Option.some.inj given
      refine ⟨?_, rfl⟩
      intro parent member dies child here
      exact Bool.eq_false_iff.mpr (held parent member dies child here)
    · rintro ⟨-, rfl⟩
      rfl

/-- A parent that a child refers to is never deleted. -/
theorem delete_parents_refused (children : List Child) (doomed : Parent → Bool)
    (parents : List Parent) (parent : Parent) (child : Child) (member : parent ∈ parents)
    (dies : doomed parent = true) (here : child ∈ children)
    (refers : ref.refers child parent = true) :
    ref.deleteParents children doomed parents = none := by
  cases given : ref.deleteParents children doomed parents with
  | none => rfl
  | some kept =>
      have free := ((delete_parents_some ref children doomed parents kept).mp given).1
      rw [free parent member dies child here] at refers
      cases refers

theorem insert_children_some (parents : List Parent) (added children all : List Child) :
    ref.insertChildren parents added children = some all ↔
      ref.Intact parents added ∧ all = children ++ added := by
  unfold Reference.insertChildren Reference.Intact
  split
  · rename_i anchored
    simp only [List.all_eq_true] at anchored
    constructor
    · intro given
      exact ⟨anchored, (Option.some.inj given).symm⟩
    · rintro ⟨-, rfl⟩
      rfl
  · rename_i loose
    simp only [List.all_eq_true] at loose
    constructor
    · intro given
      cases given
    · rintro ⟨anchored, -⟩
      exact absurd anchored loose

end Ccflare.References
