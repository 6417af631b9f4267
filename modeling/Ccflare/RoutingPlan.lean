import Ccflare.StableSort

/-!
What an ordered list of candidates must be for a router that sends a request to
its first row and falls back to the rest: every eligible row of the pool is
listed, no other row is, only the first may differ from the pool's own row, and
the fallbacks are ranked. A plan also lists no identity twice, which a cover does
not promise of a pool that repeats one. Rows, identities, eligibility and rank
are arbitrary, so the lemmas say how a plan is built and not who builds it.
-/

namespace Ccflare.RoutingPlan

open StableSort

variable {Row Id Key : Type} [LinearOrder Key]

/-- `touched source row` is the change a router may make to the row it picks. -/
structure Cover (ident : Row → Id) (eligible : Row → Prop) (touched : Row → Row → Prop)
    (key : Row → Key) (pool plan : List Row) : Prop where
  exact : ∀ id, id ∈ plan.map ident ↔ ∃ row ∈ pool, ident row = id ∧ eligible row
  head : ∀ row ∈ plan.head?, ∃ source ∈ pool, eligible source ∧ touched source row
  tail : ∀ row ∈ plan.tail, row ∈ pool ∧ eligible row
  ranked : plan.tail.Pairwise fun a b => key a ≤ key b

structure Plan (ident : Row → Id) (eligible : Row → Prop) (touched : Row → Row → Prop)
    (key : Row → Key) (pool plan : List Row) : Prop
    extends Cover ident eligible touched key pool plan where
  once : (plan.map ident).Nodup

variable {ident : Row → Id} {eligible : Row → Prop} {touched : Row → Row → Prop}
  {key : Row → Key}

theorem cover_nil (pool : List Row) (nobody : ∀ row ∈ pool, ¬ eligible row) :
    Cover ident eligible touched key pool [] where
  exact id := by
    constructor
    · intro member
      simp at member
    · rintro ⟨row, member, -, admitted⟩
      exact absurd admitted (nobody row member)
  head := by simp
  tail := by simp
  ranked := List.Pairwise.nil

-- The fallbacks leave out every row with the picked identity; that identity is
-- listed by the picked row itself.
theorem cover_of_choice (pool others : List Row) (source chosen : Row)
    (member : source ∈ pool) (admitted : eligible source)
    (same : ident chosen = ident source) (change : touched source chosen)
    (rest : ∀ row, row ∈ others ↔ row ∈ pool ∧ ident row ≠ ident chosen ∧ eligible row)
    (ranked : others.Pairwise fun a b => key a ≤ key b) :
    Cover ident eligible touched key pool (chosen :: others) where
  exact id := by
    simp only [List.map_cons, List.mem_cons, List.mem_map]
    constructor
    · rintro (rfl | ⟨row, listed, rfl⟩)
      · exact ⟨source, member, same.symm, admitted⟩
      · obtain ⟨inPool, -, routable⟩ := (rest row).mp listed
        exact ⟨row, inPool, rfl, routable⟩
    · rintro ⟨row, inPool, rfl, routable⟩
      by_cases picked : ident row = ident chosen
      · exact Or.inl picked
      · exact Or.inr ⟨row, (rest row).mpr ⟨inPool, picked, routable⟩, rfl⟩
  head row found := by
    simp only [List.head?_cons, Option.mem_def, Option.some.injEq] at found
    exact ⟨source, member, admitted, found ▸ change⟩
  tail row listed := by
    obtain ⟨inPool, -, routable⟩ := (rest row).mp (by simpa using listed)
    exact ⟨inPool, routable⟩
  ranked := by simpa using ranked

theorem once_of_choice (pool kept others : List Row) (chosen : Row)
    (distinct : (pool.map ident).Nodup) (sub : kept.Sublist pool) (perm : others.Perm kept)
    (rest : ∀ row ∈ others, ident row ≠ ident chosen) :
    ((chosen :: others).map ident).Nodup := by
  rw [List.map_cons, List.nodup_cons]
  constructor
  · intro repeated
    obtain ⟨row, listed, equal⟩ := List.mem_map.mp repeated
    exact rest row listed equal
  · exact (perm.map ident).nodup_iff.mpr (distinct.sublist (sub.map ident))

theorem cover_eq_nil (pool plan : List Row)
    (cover : Cover ident eligible touched key pool plan) :
    plan = [] ↔ ∀ row ∈ pool, ¬ eligible row := by
  constructor
  · rintro rfl row member admitted
    have listed := (cover.exact (ident row)).mpr ⟨row, member, rfl, admitted⟩
    simp at listed
  · intro nobody
    cases plan with
    | nil => rfl
    | cons row rest =>
        obtain ⟨source, member, -, admitted⟩ := (cover.exact (ident row)).mp (by simp)
        exact absurd admitted (nobody source member)

end Ccflare.RoutingPlan
