import Ccflare.Pricing
import Ccflare.Transition

/-!
Lookups beside a refresh of the prices. Storing the table and clearing the cache are two
steps, and a lookup holds the table it has loaded; so what counts is that nothing found in
the old table is inserted after the cache was cleared.
-/

namespace Ccflare.Pricing

open JsonValue Transition

variable (toLowercase : String → String) (bundled : Table)

/-- A cached price that a lookup may take: the table does not list the model, or gives it
this price by the scan. -/
def Current (remote : Table) (model : String) (price : Option ModelCost) : Prop :=
  exactPrice remote bundled model = none →
    price = fuzzyPrice toLowercase remote bundled model

/-- The condition on a step: after the cache was cleared, a lookup that inserts has found
what the new table gives. -/
def Guarded (s : Store) : Event → Prop
  | .insert call => ∀ lookup, s.lookups.lookup call = some lookup → s.refresh = .completed →
      Current toLowercase bundled s.remote lookup.model
        (fuzzyPrice toLowercase lookup.remote bundled lookup.model)
  | _ => True

structure Lookup.Sound (refresh : Refresh) (remote : Table) (lookup : Lookup) : Prop where
  missed : exactPrice lookup.remote bundled lookup.model = none
  loaded : lookup.startedAt = .completed → refresh = .completed ∧ lookup.remote = remote
  found : ∀ price, lookup.stage = .inserting price →
    price = fuzzyPrice toLowercase lookup.remote bundled lookup.model

structure Answer.Sound (refresh : Refresh) (remote : Table) (answer : Answer) : Prop where
  completed : answer.startedAt = .completed → refresh = .completed
  priced : answer.startedAt = .completed →
    answer.result = priceFrom toLowercase remote bundled answer.model

structure Sound (s : Store) : Prop where
  lookups : ∀ call lookup, s.lookups.lookup call = some lookup →
    lookup.Sound toLowercase bundled s.refresh s.remote
  cache : s.refresh = .completed → ∀ model price, s.cache.lookup model = some price →
    Current toLowercase bundled s.remote model price
  answers : ∀ answer ∈ s.answers, answer.Sound toLowercase bundled s.refresh s.remote

variable {toLowercase bundled}
variable {s : Store}

theorem price_missed {remote : Table} {model : String}
    (missed : exactPrice remote bundled model = none) :
    priceFrom toLowercase remote bundled model = fuzzyPrice toLowercase remote bundled model := by
  rw [priceFrom, missed]
  rfl

/-- What is held after an insertion was inserted or held before. -/
theorem lookup_inserted {Key Value : Type} [DecidableEq Key] (table : AList fun _ : Key => Value)
    (key other : Key) (value held : Value)
    (found : (table.insert key value).lookup other = some held) :
    (other = key ∧ held = value) ∨ table.lookup other = some held := by
  by_cases same : other = key
  · subst same
    rw [AList.lookup_insert] at found
    exact .inl ⟨rfl, (Option.some.inj found).symm⟩
  · rw [AList.lookup_insert_ne same] at found
    exact .inr found

/-- A lookup that ends with a current price has the price of the table. -/
theorem answer_sound (sound : Sound toLowercase bundled s) (call : Nat) (lookup : Lookup)
    (price : Option ModelCost) (running : s.lookups.lookup call = some lookup)
    (current : lookup.startedAt = .completed →
      Current toLowercase bundled s.remote lookup.model price) :
    Sound toLowercase bundled (s.answer call lookup price) where
  lookups := by
    intro other remaining held
    by_cases same : other = call
    · subst same
      simp [Store.answer, AList.lookup_erase] at held
    · simp only [Store.answer, AList.lookup_erase_ne same] at held
      exact sound.lookups other remaining held
  cache := sound.cache
  answers := by
    intro answer member
    rcases List.mem_append.mp member with earlier | here
    · exact sound.answers answer earlier
    · obtain rfl := List.mem_singleton.mp here
      obtain ⟨missed, loaded, _⟩ := sound.lookups call lookup running
      refine ⟨fun started => (loaded started).1, ?_⟩
      intro started
      have absent : exactPrice s.remote bundled lookup.model = none := by
        rw [← (loaded started).2]
        exact missed
      exact (current started absent).trans (price_missed absent).symm

theorem advance_sound (sound : Sound toLowercase bundled s) (call : Nat) (lookup : Lookup)
    (stage : Stage) (running : s.lookups.lookup call = some lookup)
    (found : ∀ price, stage = .inserting price →
      price = fuzzyPrice toLowercase lookup.remote bundled lookup.model) :
    Sound toLowercase bundled (s.advance call lookup stage) where
  lookups := by
    intro other remaining held
    rcases lookup_inserted _ _ _ _ _ held with ⟨-, rfl⟩ | before
    · obtain ⟨missed, loaded, _⟩ := sound.lookups call lookup running
      exact ⟨missed, loaded, found⟩
    · exact sound.lookups other remaining before
  cache := sound.cache
  answers := sound.answers

theorem cache_sound (sound : Sound toLowercase bundled s) (model : String)
    (price : Option ModelCost)
    (current : s.refresh = .completed → Current toLowercase bundled s.remote model price) :
    Sound toLowercase bundled { s with cache := s.cache.insert model price } where
  lookups call lookup running := sound.lookups call lookup running
  cache := by
    intro completed other cached held
    rcases lookup_inserted _ _ _ _ _ held with ⟨rfl, rfl⟩ | before
    · exact current completed
    · exact sound.cache completed other cached before
  answers answer member := sound.answers answer member

theorem load_sound (sound : Sound toLowercase bundled s) (call : Nat) (model : String)
    (missed : exactPrice s.remote bundled model = none) :
    Sound toLowercase bundled { s with
      lookups := s.lookups.insert call ⟨model, s.refresh, s.remote, .looking⟩ } where
  lookups := by
    intro other remaining held
    rcases lookup_inserted _ _ _ _ _ held with ⟨-, rfl⟩ | before
    · exact ⟨missed, fun started => ⟨started, rfl⟩, by simp⟩
    · exact sound.lookups other remaining before
  cache := sound.cache
  answers := sound.answers

theorem match_sound (sound : Sound toLowercase bundled s) (model : String) (cost : ModelCost)
    (listed : exactPrice s.remote bundled model = some cost) :
    Sound toLowercase bundled
      { s with answers := s.answers ++ [⟨model, s.refresh, some cost⟩] } where
  lookups := sound.lookups
  cache := sound.cache
  answers := by
    intro answer member
    rcases List.mem_append.mp member with earlier | here
    · exact sound.answers answer earlier
    · obtain rfl := List.mem_singleton.mp here
      refine ⟨id, fun _ => ?_⟩
      rw [priceFrom, listed]
      rfl

/-- Until the refresh has completed nothing is owed. -/
theorem unfinished_sound (sound : Sound toLowercase bundled s) {target : Store}
    (unfinished : s.refresh ≠ .completed) (lookups : target.lookups = s.lookups)
    (answers : target.answers = s.answers) (empty : target.cache = ∅ ∨ target.refresh ≠ .completed) :
    Sound toLowercase bundled target where
  lookups := by
    intro call lookup running
    rw [lookups] at running
    obtain ⟨missed, loaded, found⟩ := sound.lookups call lookup running
    exact ⟨missed, fun started => absurd (loaded started).1 unfinished, found⟩
  cache := by
    intro completed model price held
    rcases empty with empty | open_
    · simp [empty] at held
    · exact absurd completed open_
  answers := by
    intro answer member
    rw [answers] at member
    have before := fun started => unfinished ((sound.answers answer member).completed started)
    exact ⟨fun started => absurd started before, fun started => absurd started before⟩

theorem perform_sound {target : Store} {event : Event} (sound : Sound toLowercase bundled s)
    (guarded : Guarded toLowercase bundled s event)
    (taken : perform toLowercase bundled s event = some target) :
    Sound toLowercase bundled target := by
  cases event with
  | load call model =>
      simp only [perform] at taken
      split at taken
      · cases taken
      · split at taken
        · rename_i cost listed
          obtain rfl := Option.some.inj taken
          exact match_sound sound model cost listed
        · rename_i missed
          obtain rfl := Option.some.inj taken
          exact load_sound sound call model missed
  | readCache call =>
      simp only [perform] at taken
      split at taken
      · rename_i lookup running
        split at taken
        · split at taken
          · rename_i cached held
            obtain rfl := Option.some.inj taken
            apply answer_sound sound call lookup cached running
            intro started
            have completed := ((sound.lookups call lookup running).loaded started).1
            exact sound.cache completed lookup.model cached held
          · obtain rfl := Option.some.inj taken
            exact advance_sound sound call lookup _ running (by simp)
        · cases taken
      · cases taken
  | scan call =>
      simp only [perform] at taken
      split at taken
      · rename_i lookup running
        split at taken
        · obtain rfl := Option.some.inj taken
          apply advance_sound sound call lookup _ running
          intro price same
          exact (Stage.inserting.inj same).symm
        · cases taken
      · cases taken
  | insert call =>
      simp only [perform] at taken
      split at taken
      · rename_i lookup running
        split at taken
        · rename_i price stage
          obtain rfl := Option.some.inj taken
          obtain ⟨missed, loaded, found⟩ := sound.lookups call lookup running
          have current : s.refresh = .completed →
              Current toLowercase bundled s.remote lookup.model price := by
            rw [found price stage]
            exact guarded lookup running
          exact cache_sound (answer_sound sound call lookup price running
            fun started => current (loaded started).1) lookup.model price current
        · cases taken
      · cases taken
  | storeTable raw table =>
      simp only [perform] at taken
      split at taken
      · rename_i pending
        obtain rfl := Option.some.inj taken
        exact unfinished_sound sound (by simp [pending.1]) rfl rfl (.inr (by simp))
      · cases taken
  | clearCache =>
      simp only [perform] at taken
      split at taken
      · rename_i stored
        obtain rfl := Option.some.inj taken
        exact unfinished_sound sound (by simp [stored]) rfl rfl (.inl rfl)
      · cases taken

/-- A process before its refresh, with any table and any cache. -/
structure Start (s : Store) : Prop where
  refresh : s.refresh = .pending
  lookups : s.lookups = ∅
  answers : s.answers = []

theorem start_sound (start : Start s) : Sound toLowercase bundled s where
  lookups := by simp [start.lookups]
  cache := by simp [start.refresh]
  answers := by simp [start.answers]

/-- Where nothing outdated is inserted after the cache was cleared, every lookup that starts
after the refresh answers with the price of the new table. -/
theorem lookups_priced_anew {start final : Store} {trace : List (Store × Event × Store)}
    (initial : Start start) (run : Run (Does (perform toLowercase bundled)) start trace final)
    (guarded : ∀ taken ∈ trace, Guarded toLowercase bundled taken.1 taken.2.1) :
    ∀ answer ∈ final.answers, answer.startedAt = .completed →
      answer.result = priceFrom toLowercase final.remote bundled answer.model := by
  have sound := (run.guarded (Sound toLowercase bundled)
    (fun taken => Guarded toLowercase bundled taken.1 taken.2.1) (fun _ => True)
    (start_sound initial)
    (fun _ _ _ sound guard taken => ⟨perform_sound sound guard taken, trivial⟩) guarded).1
  intro answer member
  exact (sound.answers answer member).priced

def emptyStore : Store := ⟨[], ∅, .pending, ∅, []⟩

theorem empty_store_starts : Start emptyStore := ⟨rfl, rfl, rfl⟩

/-- A document that halves the price of one model. -/
def newPrices : List (String × Json) :=
  [("claude-sonnet-4-5-20250929", Json.make
    [("input_cost_per_token", .number (.float 0.0000015)),
      ("output_cost_per_token", .number (.float 0.0000075))])]

/-- The first lookup scans before the refresh and inserts after it. -/
def overtakenEvents : List Event :=
  [.load 0 "claude-sonnet-4-5", .readCache 0, .scan 0,
    .storeTable newPrices (remoteTable newPrices), .clearCache, .insert 0,
    .load 1 "claude-sonnet-4-5", .readCache 1]

theorem old_price_served :
    ∃ trace final, Start emptyStore ∧
      Run (Does (perform Text.toAsciiLowercase bundledPricing)) emptyStore trace final ∧
      trace.map (fun taken => taken.2.1) = overtakenEvents ∧
      ∃ answer ∈ final.answers, answer.startedAt = .completed ∧
        answer.result ≠
          priceFrom Text.toAsciiLowercase final.remote bundledPricing answer.model := by
  obtain ⟨trace, final, run, events, reached⟩ := @performed _ _ emptyStore
    (perform Text.toAsciiLowercase bundledPricing) overtakenEvents
    (fun s => s.answers.any fun answer => decide (answer.startedAt = .completed ∧
      answer.result ≠ priceFrom Text.toAsciiLowercase s.remote bundledPricing answer.model))
    (by decide +kernel)
  obtain ⟨answer, member, differs⟩ := List.any_eq_true.mp reached
  exact ⟨trace, final, empty_store_starts, run, events, answer, member, of_decide_eq_true differs⟩

def orderlyEvents : List Event :=
  [.load 0 "claude-sonnet-4-5", .readCache 0, .scan 0, .insert 0,
    .storeTable newPrices (remoteTable newPrices), .clearCache,
    .load 1 "claude-sonnet-4-5", .readCache 1, .scan 1, .insert 1]

/-- The tables are the same for every lookup that inserts. -/
def undisturbed (s : Store) : Event → Bool
  | .insert call => (s.lookups.lookup call).all fun lookup => decide (lookup.remote = s.remote)
  | _ => true

theorem undisturbed_guarded (event : Event) (here : undisturbed s event = true) :
    Guarded toLowercase bundled s event := by
  cases event with
  | insert call =>
      intro lookup running _ _
      have same : lookup.remote = s.remote := by
        simpa [undisturbed, running] using here
      rw [same]
  | _ => trivial

theorem new_price_served :
    ∃ trace final, Run (Does (perform Text.toAsciiLowercase bundledPricing)) emptyStore trace final ∧
      trace.map (fun taken => taken.2.1) = orderlyEvents ∧
      (∃ answer ∈ final.answers, answer.startedAt = .completed) ∧
      ∀ answer ∈ final.answers, answer.startedAt = .completed →
        answer.result =
          priceFrom Text.toAsciiLowercase final.remote bundledPricing answer.model := by
  obtain ⟨trace, final, run, events, allowed, reached⟩ := @performed_allowed _ _ emptyStore
    (perform Text.toAsciiLowercase bundledPricing) orderlyEvents undisturbed
    (fun s => s.answers.any fun answer => decide (answer.startedAt = .completed))
    (by decide +kernel)
  obtain ⟨answer, member, started⟩ := List.any_eq_true.mp reached
  exact ⟨trace, final, run, events, ⟨answer, member, of_decide_eq_true started⟩,
    lookups_priced_anew empty_store_starts run
      fun taken member => undisturbed_guarded taken.2.1 (allowed taken member)⟩

end Ccflare.Pricing
