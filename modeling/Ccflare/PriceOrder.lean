import Ccflare.Pricing
import Ccflare.Transition
import Mathlib.Data.List.Perm.Basic

/-!
The price of a model as a function of the tables. A hash map is iterated in some order, and the
scan of a lookup takes the first entry that matches; so a price that no exact name gives is well
defined as far as all the entries that match say the same. What a lookup has found stays in the
cache, so that a process that goes on repeats it.
-/

namespace Ccflare.Pricing

open Transition

section FirstHit
variable {α β : Type} (hit : α → Bool) (value : α → β)

def firstHit (items : List α) : Option β := (items.find? hit).map value

theorem first_hit_none_iff (items : List α) :
    firstHit hit value items = none ↔ ∀ item ∈ items, hit item = false := by
  simp [firstHit, List.find?_eq_none]

/-- Whatever hits can come first. -/
theorem hit_first (items : List α) (item : α) (member : item ∈ items) (hits : hit item = true) :
    ∃ order : List α, order.Perm items ∧ firstHit hit value order = some (value item) := by
  obtain ⟨before, after, rfl⟩ := List.append_of_mem member
  exact ⟨item :: (before ++ after), List.perm_middle.symm, by simp [firstHit, hits]⟩

theorem first_hit_some (items : List α) (found : β)
    (first : firstHit hit value items = some found) :
    ∃ item ∈ items, hit item = true ∧ value item = found := by
  obtain ⟨item, here, rfl⟩ := Option.map_eq_some_iff.mp first
  exact ⟨item, List.mem_of_find?_eq_some here, List.find?_some here, rfl⟩

/-- The first hit is the same in every order exactly when all hits have one value. -/
theorem first_hit_fixed_iff (items : List α) :
    (∀ order : List α, order.Perm items → firstHit hit value order = firstHit hit value items) ↔
      ∀ item ∈ items, ∀ other ∈ items, hit item = true → hit other = true →
        value item = value other := by
  constructor
  · intro fixed item member other otherMember hits otherHits
    obtain ⟨order, perm, first⟩ := hit_first hit value items item member hits
    obtain ⟨otherOrder, otherPerm, otherFirst⟩ :=
      hit_first hit value items other otherMember otherHits
    have same := (fixed order perm).trans (fixed otherOrder otherPerm).symm
    exact Option.some.inj (first.symm.trans (same.trans otherFirst))
  · intro one order perm
    cases first : firstHit hit value items with
    | none =>
        rw [first_hit_none_iff] at first ⊢
        exact fun item member => first item (perm.mem_iff.mp member)
    | some found =>
        obtain ⟨item, member, hits, rfl⟩ := first_hit_some hit value items found first
        cases here : firstHit hit value order with
        | none =>
            rw [first_hit_none_iff] at here
            exact absurd hits (by rw [here item (perm.mem_iff.mpr member)]; simp)
        | some other =>
            obtain ⟨first, firstMember, firstHits, rfl⟩ := first_hit_some hit value order other here
            rw [one first (perm.mem_iff.mp firstMember) item member firstHits hits]

end FirstHit

section Call
variable (toLowercase : String → String)

/-- A call of `get_model_pricing` that nothing else runs beside. -/
def getModelPricing (remote bundled : Table) (cache : Cache) (model : String) :
    Option ModelCost × Cache :=
  match exactPrice remote bundled model with
  | some cost => (some cost, cache)
  | none =>
      match cache.lookup model with
      | some cached => (cached, cache)
      | none =>
          let found := fuzzyPrice toLowercase remote bundled model
          (found, cache.insert model found)

theorem exact_call (remote bundled : Table) (cache : Cache) (model : String) (cost : ModelCost)
    (exact : exactPrice remote bundled model = some cost) :
    getModelPricing toLowercase remote bundled cache model = (some cost, cache) := by
  rw [getModelPricing, exact]

theorem cached_call (remote bundled : Table) (cache : Cache) (model : String)
    (missed : exactPrice remote bundled model = none) (cached : Option ModelCost)
    (held : cache.lookup model = some cached) :
    getModelPricing toLowercase remote bundled cache model = (cached, cache) := by
  rw [getModelPricing, missed, held]

theorem scanned_call (remote bundled : Table) (cache : Cache) (model : String)
    (missed : exactPrice remote bundled model = none) (fresh : cache.lookup model = none) :
    getModelPricing toLowercase remote bundled cache model =
      (fuzzyPrice toLowercase remote bundled model,
        cache.insert model (fuzzyPrice toLowercase remote bundled model)) := by
  rw [getModelPricing, missed, fresh]

/-- The steps of a lookup, taken one after another, are the call. -/
theorem call_performed (s : Store) (bundled : Table) (call : Nat) (model : String)
    (idle : call ∉ s.lookups) :
    ∃ trace final, Run (Does (perform toLowercase bundled)) s trace final ∧
      final.answers = s.answers ++ [⟨model, s.refresh,
        (getModelPricing toLowercase s.remote bundled s.cache model).1⟩] ∧
      final.cache = (getModelPricing toLowercase s.remote bundled s.cache model).2 := by
  let lookup (stage : Stage) : Lookup := ⟨model, s.refresh, s.remote, stage⟩
  cases exact : exactPrice s.remote bundled model with
  | some cost =>
      have loaded : perform toLowercase bundled s (.load call model) =
          some { s with answers := s.answers ++ [⟨model, s.refresh, some cost⟩] } := by
        simp [perform, idle, exact]
      rw [exact_call toLowercase _ _ _ _ _ exact]
      exact ⟨_, _, Run.nil.performs _ loaded, rfl, rfl⟩
  | none =>
      let looking : Store := { s with lookups := s.lookups.insert call (lookup .looking) }
      have loaded : perform toLowercase bundled s (.load call model) = some looking := by
        simp [perform, idle, exact, lookup, looking]
      cases held : s.cache.lookup model with
      | some cached =>
          have answered : perform toLowercase bundled looking (.readCache call) =
              some (looking.answer call (lookup .looking) cached) := by
            simp [perform, lookup, held, looking]
          rw [cached_call toLowercase _ _ _ _ exact _ held]
          exact ⟨_, _, (Run.nil.performs _ loaded).performs _ answered, rfl, rfl⟩
      | none =>
          let found := fuzzyPrice toLowercase s.remote bundled model
          let scanning := looking.advance call (lookup .looking) .scanning
          let inserting := scanning.advance call (lookup .scanning) (.inserting found)
          have read : perform toLowercase bundled looking (.readCache call) = some scanning := by
            simp [perform, lookup, held, scanning, looking]
          have scanned : perform toLowercase bundled scanning (.scan call) = some inserting := by
            simp [perform, scanning, looking, Store.advance, lookup, inserting, found]
          have inserted : perform toLowercase bundled inserting (.insert call) =
              some { inserting.answer call (lookup (.inserting found)) found with
                cache := inserting.cache.insert model found } := by
            simp [perform, inserting, Store.advance, lookup]
          rw [scanned_call toLowercase _ _ _ _ exact held]
          exact ⟨_, _, (((Run.nil.performs _ loaded).performs _ read).performs _ scanned).performs _
            inserted, rfl, rfl⟩

end Call

/-- The tables as two hash maps are iterated. -/
structure Iteration (remote bundled : Table) where
  remoteOrder : Table
  bundledOrder : Table
  remotePerm : remoteOrder.Perm remote
  bundledPerm : bundledOrder.Perm bundled

section Order
variable (toLowercase : String → String) {remote bundled : Table}

def Iteration.price (order : Iteration remote bundled) (cache : Cache) (model : String) :
    Option ModelCost × Cache :=
  getModelPricing toLowercase order.remoteOrder order.bundledOrder cache model

/-- What other lookups leave in the cache. -/
def cacheAfter (calls : List (Iteration remote bundled × String)) (cache : Cache) : Cache :=
  calls.foldl (fun held call => (call.1.price toLowercase held call.2).2) cache

variable (remote bundled) in
/-- One price in every order of iteration, also when the call is repeated after others. -/
def WellDefined (model : String) : Prop :=
  ∃ price, ∀ order : Iteration remote bundled,
    (order.price toLowercase ∅ model).1 = price ∧
    ∀ (calls : List (Iteration remote bundled × String)) (again : Iteration remote bundled),
      (again.price toLowercase
        (cacheAfter toLowercase calls (order.price toLowercase ∅ model).2) model).1 = price

/-- The test of the scan. -/
def similar (model : String) (entry : String × ModelCost) : Bool :=
  Text.contains entry.1 (toLowercase model) || Text.contains (toLowercase model) entry.1

/-- All entries the scan may stop at have one price. -/
def OnePrice (table : Table) (model : String) : Prop :=
  ∀ entry ∈ table, ∀ other ∈ table, similar toLowercase model entry = true →
    similar toLowercase model other = true → entry.2 = other.2

def Resembled (table : Table) (model : String) : Prop :=
  ∃ entry ∈ table, similar toLowercase model entry = true

instance (table : Table) (model : String) : Decidable (OnePrice toLowercase table model) :=
  inferInstanceAs (Decidable (∀ entry ∈ table, ∀ other ∈ table, _ → _ → _))

theorem matching_first_hit (table : Table) (model : String) :
    matching toLowercase table model = firstHit (similar toLowercase model) Prod.snd table := rfl

theorem lookup_first_hit (table : Table) (model : String) :
    table.lookup model = firstHit (fun entry => model == entry.1) Prod.snd table := by
  induction table with
  | nil => rfl
  | cons entry rest ih =>
      obtain ⟨key, cost⟩ := entry
      unfold firstHit at ih ⊢
      cases here : model == key <;> simp [List.lookup_cons, here, ih]

/-- A map holds one cost for a name, whatever the order. -/
theorem lookup_order {order table : Table} (distinct : (table.map Prod.fst).Nodup)
    (perm : order.Perm table) (model : String) : order.lookup model = table.lookup model := by
  rw [lookup_first_hit, lookup_first_hit]
  refine (first_hit_fixed_iff _ _ table).mpr (fun entry member other otherMember hits otherHits => ?_)
    order perm
  have same : entry.1 = other.1 := (beq_iff_eq.mp hits).symm.trans (beq_iff_eq.mp otherHits)
  rw [List.inj_on_of_nodup_map distinct member otherMember same]

theorem exact_order (distinct : (remote.map Prod.fst).Nodup)
    (bundledDistinct : (bundled.map Prod.fst).Nodup) (order : Iteration remote bundled)
    (model : String) :
    exactPrice order.remoteOrder order.bundledOrder model = exactPrice remote bundled model := by
  rw [exactPrice, lookup_order distinct order.remotePerm,
    lookup_order bundledDistinct order.bundledPerm, exactPrice]

theorem call_keeps (remote bundled : Table) (cache : Cache) (model other : String)
    (cached : Option ModelCost) (held : cache.lookup model = some cached) :
    (getModelPricing toLowercase remote bundled cache other).2.lookup model = some cached := by
  unfold getModelPricing
  split
  · exact held
  · split
    · exact held
    · next missed =>
      have differs : model ≠ other := by
        rintro rfl
        rw [held] at missed
        cases missed
      rw [AList.lookup_insert_ne differs, held]

/-- What is cached for a model stays as it is. -/
theorem cached_kept (calls : List (Iteration remote bundled × String)) (cache : Cache)
    (model : String) (cached : Option ModelCost) (held : cache.lookup model = some cached) :
    (cacheAfter toLowercase calls cache).lookup model = some cached := by
  induction calls generalizing cache with
  | nil => exact held
  | cons call rest ih => exact ih _ (call_keeps toLowercase _ _ cache model call.2 cached held)

theorem unresembled (table : Table) (model : String) (absent : ¬ Resembled toLowercase table model) :
    matching toLowercase table model = none := by
  rw [matching_first_hit, first_hit_none_iff]
  intro entry member
  exact Bool.eq_false_iff.mpr fun hits => absent ⟨entry, member, hits⟩

theorem fuzzy_order_iff (model : String) :
    (∃ price, ∀ order : Iteration remote bundled,
      fuzzyPrice toLowercase order.remoteOrder order.bundledOrder model = price) ↔
      OnePrice toLowercase remote model ∧
        (Resembled toLowercase remote model ∨ OnePrice toLowercase bundled model) := by
  constructor
  · rintro ⟨price, same⟩
    have first (entry : String × ModelCost) (member : entry ∈ remote)
        (hits : similar toLowercase model entry = true) : price = some entry.2 := by
      obtain ⟨order, perm, found⟩ := hit_first _ Prod.snd remote entry member hits
      have here := same ⟨order, bundled, perm, .refl _⟩
      simp [← here, fuzzyPrice, matching_first_hit, found]
    refine ⟨fun entry member other otherMember hits otherHits => Option.some.inj
      ((first entry member hits).symm.trans (first other otherMember otherHits)), ?_⟩
    by_cases resembled : Resembled toLowercase remote model
    · exact Or.inl resembled
    · refine Or.inr fun entry member other otherMember hits otherHits => ?_
      have second (entry : String × ModelCost) (member : entry ∈ bundled)
          (hits : similar toLowercase model entry = true) : price = some entry.2 := by
        obtain ⟨order, perm, found⟩ := hit_first _ Prod.snd bundled entry member hits
        have here := same ⟨remote, order, .refl _, perm⟩
        simp [← here, fuzzyPrice, unresembled toLowercase remote model resembled,
          matching_first_hit, found]
      exact Option.some.inj
        ((second entry member hits).symm.trans (second other otherMember otherHits))
  · rintro ⟨one, rest⟩
    refine ⟨fuzzyPrice toLowercase remote bundled model, fun order => ?_⟩
    have remoteSame : matching toLowercase order.remoteOrder model =
        matching toLowercase remote model :=
      (first_hit_fixed_iff _ Prod.snd remote).mpr one _ order.remotePerm
    rw [fuzzyPrice, fuzzyPrice, remoteSame]
    rcases rest with ⟨entry, member, hits⟩ | bundledOne
    · cases found : matching toLowercase remote model with
      | none =>
          rw [matching_first_hit, first_hit_none_iff] at found
          rw [found entry member] at hits
          cases hits
      | some cost => rfl
    · have bundledSame : matching toLowercase order.bundledOrder model =
          matching toLowercase bundled model :=
        (first_hit_fixed_iff _ Prod.snd bundled).mpr bundledOne _ order.bundledPerm
      rw [bundledSame]

/-- A price is well defined exactly where an exact name gives it, or where all entries the scan
may stop at have one price: those of the loaded table, and those of the bundled one where no loaded
entry is similar. -/
theorem well_defined_iff (distinct : (remote.map Prod.fst).Nodup)
    (bundledDistinct : (bundled.map Prod.fst).Nodup) (model : String) :
    WellDefined toLowercase remote bundled model ↔
      (exactPrice remote bundled model).isSome = true ∨
        OnePrice toLowercase remote model ∧
          (Resembled toLowercase remote model ∨ OnePrice toLowercase bundled model) := by
  rw [← fuzzy_order_iff]
  have exact := exact_order distinct bundledDistinct
  cases found : exactPrice remote bundled model with
  | some cost =>
      refine iff_of_true ⟨some cost, fun order => ?_⟩ (Or.inl rfl)
      have listed (order : Iteration remote bundled) (cache : Cache) :
          order.price toLowercase cache model = (some cost, cache) :=
        exact_call toLowercase _ _ _ _ _ ((exact order model).trans found)
      exact ⟨by rw [listed], fun calls again => by rw [listed]⟩
  | none =>
      have missed (order : Iteration remote bundled) :
          exactPrice order.remoteOrder order.bundledOrder model = none :=
        (exact order model).trans found
      have scanned (order : Iteration remote bundled) := scanned_call toLowercase _ _ ∅ model
        (missed order) (AList.lookup_empty model)
      simp only [Option.isSome_none, Bool.false_eq_true, false_or]
      constructor
      · rintro ⟨price, same⟩
        refine ⟨price, fun order => ?_⟩
        have first := (same order).1
        rwa [Iteration.price, scanned] at first
      · rintro ⟨price, same⟩
        refine ⟨price, fun order => ⟨?_, fun calls again => ?_⟩⟩
        · rw [Iteration.price, scanned, same]
        · have held := cached_kept toLowercase calls (order.price toLowercase ∅ model).2 model price
            (by rw [Iteration.price, scanned, same, AList.lookup_insert])
          rw [Iteration.price, cached_call toLowercase _ _ _ _ (missed again) _ held]

end Order

/-- A name that only one bundled model begins with. -/
theorem sonnet_well_defined :
    WellDefined Text.toAsciiLowercase [] bundledPricing "claude-sonnet-4-5" :=
  (well_defined_iff Text.toAsciiLowercase (by decide) (by decide +kernel)
    "claude-sonnet-4-5").mpr (Or.inr ⟨by decide +kernel, Or.inr (by decide +kernel)⟩)

def laterOpusFirst : Iteration [] bundledPricing where
  remoteOrder := []
  bundledOrder := bundledPricing.reverse
  remotePerm := .refl _
  bundledPerm := List.reverse_perm _

/-- Three bundled models begin with the name, and one of them has another price. -/
theorem opus_price_undetermined :
    (getModelPricing Text.toAsciiLowercase [] bundledPricing ∅ "claude-opus-4").1 =
        some ⟨15, 75, 1.5, 18.75⟩ ∧
      (laterOpusFirst.price Text.toAsciiLowercase ∅ "claude-opus-4").1 =
        some ⟨5, 25, 0.5, 6.25⟩ ∧
      ¬ WellDefined Text.toAsciiLowercase [] bundledPricing "claude-opus-4" := by
  have listed : (getModelPricing Text.toAsciiLowercase [] bundledPricing ∅ "claude-opus-4").1 =
      some ⟨15, 75, 1.5, 18.75⟩ := by decide +kernel
  have reversed : (laterOpusFirst.price Text.toAsciiLowercase ∅ "claude-opus-4").1 =
      some ⟨5, 25, 0.5, 6.25⟩ := by decide +kernel
  refine ⟨listed, reversed, ?_⟩
  rintro ⟨price, same⟩
  have first := (same ⟨[], bundledPricing, .refl _, .refl _⟩).1
  have prices := (listed.symm.trans first).trans
    ((same laterOpusFirst).1.symm.trans reversed)
  revert prices
  decide +kernel

end Ccflare.Pricing
