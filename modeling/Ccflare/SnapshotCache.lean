import Ccflare.Transition

/-!
A cache of one value that is read off a changing source. Tasks look the value up; one that
finds none or an old one reads the source, stores what it read and serves it. Tasks do not
wait for each other, so a value may be stored after a later one. Whatever the interleaving,
a served value is what the source held within the age of an entry and the time a load takes.
-/

namespace Ccflare.SnapshotCache

open Transition

variable {Source Change Value : Type}

/-- A value on its way from the source to the cache, with the time it was read at, which no
step looks at. -/
structure Load (Value : Type) where
  value : Value
  readAt : Nat

structure Entry (Value : Type) where
  value : Value
  storedAt : Nat

structure System (Source Value : Type) where
  now : Nat
  source : Source
  entry : Option (Entry Value)
  /-- The tasks that missed and have not read yet. -/
  waiting : Nat
  loads : List (Load Value)

inductive Event (Change : Type) where
  | pass (span : Nat)
  | change (change : Change)
  | hit
  | miss
  | read
  | refuse
  | store (index : Nat)
  | drop (index : Nat)

abbrev Taken (Source Change Value : Type) :=
  System Source Value × Event Change × System Source Value

section Steps
variable (change : Source → Change → Option Source) (read : Source → Value) (valid : Nat → Bool)

/-- What a lookup finds, where the age of the entry allows it. -/
def fresh (s : System Source Value) : Option Value :=
  s.entry.bind fun entry => if valid (s.now - entry.storedAt) then some entry.value else none

def perform (s : System Source Value) : Event Change → Option (System Source Value)
  | .pass span => some { s with now := s.now + span }
  | .change changed => (change s.source changed).map fun source => { s with source }
  | .hit => (fresh valid s).map fun _ => s
  | .miss => if (fresh valid s).isNone then some { s with waiting := s.waiting + 1 } else none
  | .read =>
      if 0 < s.waiting then
        some { s with
          waiting := s.waiting - 1
          loads := s.loads ++ [⟨read s.source, s.now⟩] }
      else none
  | .refuse => if 0 < s.waiting then some { s with waiting := s.waiting - 1 } else none
  | .store index =>
      s.loads[index]?.map fun load =>
        { s with entry := some ⟨load.value, s.now⟩, loads := s.loads.eraseIdx index }
  | .drop index => s.loads[index]?.map fun _ => { s with loads := s.loads.eraseIdx index }

/-- The value a task is served with. -/
def served (taken : Taken Source Change Value) : Option Value :=
  match taken.2.1 with
  | .hit => fresh valid taken.1
  | .store index => taken.1.loads[index]?.map Load.value
  | _ => none

end Steps

/-- A load that is stored is stored within this delay. -/
def Prompt (delay : Nat) (taken : Taken Source Change Value) : Prop :=
  match taken.2.1 with
  | .store index =>
      ∀ load, taken.1.loads[index]? = some load → taken.1.now ≤ load.readAt + delay
  | _ => True

/-- The value was read off the source at this time of the run. -/
def ReadAt (read : Source → Value) (trace : List (Taken Source Change Value)) (value : Value)
    (since : Nat) : Prop :=
  ∃ taken ∈ trace, taken.2.1 = .read ∧ read taken.1.source = value ∧ taken.1.now = since

structure Traced (read : Source → Value) (delay : Nat)
    (trace : List (Taken Source Change Value)) (s : System Source Value) : Prop where
  loads : ∀ load ∈ s.loads, ReadAt read trace load.value load.readAt
  entry : ∀ entry, s.entry = some entry →
    ∃ since, ReadAt read trace entry.value since ∧ entry.storedAt ≤ since + delay

/-- Nothing was loaded yet. -/
def Cold (s : System Source Value) : Prop := s.entry = none ∧ s.loads = []

section Recent
variable {change : Source → Change → Option Source} {read : Source → Value} {valid : Nat → Bool}
  {delay : Nat} {trace : List (Taken Source Change Value)} {s target : System Source Value}

theorem ReadAt.later {value : Value} {since : Nat} (here : ReadAt read trace value since)
    (more : List (Taken Source Change Value)) : ReadAt read (trace ++ more) value since := by
  obtain ⟨taken, member, reading, same, time⟩ := here
  exact ⟨taken, List.mem_append_left more member, reading, same, time⟩

theorem Traced.later (traced : Traced read delay trace s)
    (more : List (Taken Source Change Value)) : Traced read delay (trace ++ more) s where
  loads load member := (traced.loads load member).later more
  entry entry held := by
    obtain ⟨since, here, soon⟩ := traced.entry entry held
    exact ⟨since, here.later more, soon⟩

/-- Steps that only drop loads keep what is known of the rest. -/
theorem Traced.fewer (traced : Traced read delay trace s) (same : target.entry = s.entry)
    (fewer : ∀ load ∈ target.loads, load ∈ s.loads) : Traced read delay trace target where
  loads load member := traced.loads load (fewer load member)
  entry entry held := traced.entry entry (same ▸ held)

/-- What every step does that neither changes the source nor reads nor stores it. -/
structure Quiet (s target : System Source Value) : Prop where
  source : target.source = s.source
  entry : target.entry = s.entry
  loads : ∀ load ∈ target.loads, load ∈ s.loads
  later : s.now ≤ target.now

theorem step_cases (event : Event Change)
    (taken : Does (perform change read valid) s event target) :
    (∃ changed source, event = .change changed ∧ change s.source changed = some source ∧
      target = { s with source }) ∨
    (event = .read ∧ target = { s with
      waiting := s.waiting - 1
      loads := s.loads ++ [⟨read s.source, s.now⟩] }) ∨
    (∃ index load, event = .store index ∧ s.loads[index]? = some load ∧
      target = { s with entry := some ⟨load.value, s.now⟩, loads := s.loads.eraseIdx index }) ∨
    ((∀ changed, event ≠ .change changed) ∧ Quiet s target) := by
  cases event with
  | change changed =>
      obtain ⟨source, done, rfl⟩ := Option.map_eq_some_iff.mp taken
      exact Or.inl ⟨changed, source, rfl, done, rfl⟩
  | read =>
      simp only [Does, perform] at taken
      split at taken <;> cases taken
      exact Or.inr (Or.inl ⟨rfl, rfl⟩)
  | store index =>
      obtain ⟨load, found, rfl⟩ := Option.map_eq_some_iff.mp taken
      exact Or.inr (Or.inr (Or.inl ⟨index, load, rfl, found, rfl⟩))
  | pass span =>
      cases taken
      exact Or.inr (Or.inr (Or.inr
        ⟨by simp, rfl, rfl, fun _ member => member, Nat.le_add_right _ _⟩))
  | hit =>
      obtain ⟨value, -, rfl⟩ := Option.map_eq_some_iff.mp taken
      exact Or.inr (Or.inr (Or.inr ⟨by simp, rfl, rfl, fun _ member => member, le_rfl⟩))
  | miss =>
      simp only [Does, perform] at taken
      split at taken <;> cases taken
      exact Or.inr (Or.inr (Or.inr ⟨by simp, rfl, rfl, fun _ member => member, le_rfl⟩))
  | refuse =>
      simp only [Does, perform] at taken
      split at taken <;> cases taken
      exact Or.inr (Or.inr (Or.inr ⟨by simp, rfl, rfl, fun _ member => member, le_rfl⟩))
  | drop index =>
      obtain ⟨load, -, rfl⟩ := Option.map_eq_some_iff.mp taken
      exact Or.inr (Or.inr (Or.inr
        ⟨by simp, rfl, rfl, fun _ member => List.mem_of_mem_eraseIdx member, le_rfl⟩))

theorem step_traced (event : Event Change) (traced : Traced read delay trace s)
    (prompt : Prompt delay (s, event, target))
    (taken : Does (perform change read valid) s event target) :
    Traced read delay (trace ++ [(s, event, target)]) target := by
  have before := traced.later [(s, event, target)]
  rcases step_cases event taken with
    ⟨changed, source, rfl, -, rfl⟩ | ⟨rfl, rfl⟩ | ⟨index, load, rfl, found, rfl⟩ | ⟨-, quiet⟩
  · exact before.fewer rfl fun _ member => member
  · refine ⟨?_, before.entry⟩
    intro load member
    rcases List.mem_append.mp member with old | new
    · exact before.loads load old
    · obtain rfl := List.mem_singleton.mp new
      exact ⟨_, List.mem_append_right trace (List.mem_singleton_self _), rfl, rfl, rfl⟩
  · refine ⟨fun other member => before.loads other (List.mem_of_mem_eraseIdx member), ?_⟩
    rintro _ ⟨⟩
    exact ⟨load.readAt, before.loads load (List.mem_of_getElem? found), prompt load found⟩
  · exact before.fewer quiet.entry quiet.loads

/-- What is served in a traced state was read a short while ago. -/
theorem served_traced (ttl : Nat) (young : ∀ age, valid age = true → age < ttl) (live : 0 < ttl)
    (event : Event Change) (traced : Traced read delay trace s)
    (prompt : Prompt delay (s, event, target)) (value : Value)
    (serves : served valid (s, event, target) = some value) :
    ∃ since, ReadAt read trace value since ∧ s.now < since + delay + ttl := by
  cases event with
  | hit =>
      obtain ⟨entry, held, found⟩ := Option.bind_eq_some_iff.mp serves
      split at found
      · rename_i short
        cases found
        obtain ⟨since, here, soon⟩ := traced.entry entry held
        have age : s.now - entry.storedAt < ttl := young _ short
        exact ⟨since, here, by omega⟩
      · cases found
  | store index =>
      obtain ⟨load, found, rfl⟩ := Option.map_eq_some_iff.mp serves
      have soon : s.now ≤ load.readAt + delay := prompt load found
      exact ⟨load.readAt, traced.loads load (List.mem_of_getElem? found), by omega⟩
  | pass span => cases serves
  | change changed => cases serves
  | miss => cases serves
  | read => cases serves
  | refuse => cases serves
  | drop index => cases serves

/-- Every value that is served in a run was read off the source within a delay and the
longest age of an entry. -/
theorem served_recent {start final : System Source Value} (ttl : Nat)
    (young : ∀ age, valid age = true → age < ttl) (live : 0 < ttl)
    (run : Run (Does (perform change read valid)) start trace final) (cold : Cold start)
    (prompt : ∀ taken ∈ trace, Prompt delay taken) :
    ∀ taken ∈ trace, ∀ value, served valid taken = some value →
      ∃ since, ReadAt read trace value since ∧ taken.1.now < since + delay + ttl := by
  have both : Traced read delay trace final ∧
      ∀ taken ∈ trace, ∀ value, served valid taken = some value →
        ∃ since, ReadAt read trace value since ∧ taken.1.now < since + delay + ttl := by
    induction run with
    | nil => exact ⟨⟨by simp [cold.2], by simp [cold.1]⟩, by simp⟩
    | snoc _ taken ih =>
        obtain ⟨traced, recent⟩ := ih fun earlier member =>
          prompt earlier (List.mem_append_left _ member)
        have soon := prompt _ (List.mem_append_right _ (List.mem_singleton_self _))
        refine ⟨step_traced _ traced soon taken, ?_⟩
        intro transition member value serves
        rcases List.mem_append.mp member with old | last
        · obtain ⟨since, here, young⟩ := recent transition old value serves
          exact ⟨since, here.later _, young⟩
        · obtain rfl := List.mem_singleton.mp last
          obtain ⟨since, here, young⟩ := served_traced ttl young live _ traced soon value serves
          exact ⟨since, here.later _, young⟩
  exact both.2

/-- The clock only goes forward. -/
theorem step_later (event : Event Change)
    (taken : Does (perform change read valid) s event target) : s.now ≤ target.now := by
  rcases step_cases event taken with
    ⟨_, _, -, -, rfl⟩ | ⟨-, rfl⟩ | ⟨_, _, -, -, rfl⟩ | ⟨-, quiet⟩
  · exact le_rfl
  · exact le_rfl
  · exact le_rfl
  · exact quiet.later

theorem run_earlier {start final : System Source Value}
    (run : Run (Does (perform change read valid)) start trace final) :
    ∀ taken ∈ trace, taken.1.now ≤ final.now := by
  refine run.history (fun before s => ∀ taken ∈ before, taken.1.now ≤ s.now) (by simp) ?_
  intro before source event target earlier taken transition member
  have forward := step_later event taken
  rcases List.mem_append.mp member with old | last
  · exact (earlier transition old).trans forward
  · obtain rfl := List.mem_singleton.mp last
    exact forward

/-- A step changes the source by one of its changes, or leaves it. -/
theorem step_source (event : Event Change)
    (taken : Does (perform change read valid) s event target) :
    (∃ changed, event = .change changed ∧ change s.source changed = some target.source) ∨
      (∀ changed, event ≠ .change changed) ∧ target.source = s.source := by
  rcases step_cases event taken with
    ⟨changed, source, rfl, done, rfl⟩ | ⟨rfl, rfl⟩ | ⟨index, load, rfl, -, rfl⟩ | ⟨apart, quiet⟩
  · exact Or.inl ⟨changed, rfl, done⟩
  · exact Or.inr ⟨by simp, rfl⟩
  · exact Or.inr ⟨by simp, rfl⟩
  · exact Or.inr ⟨apart, quiet.source⟩

end Recent

end Ccflare.SnapshotCache
