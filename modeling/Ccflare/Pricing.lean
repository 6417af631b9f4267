import Ccflare.JsonValue
import Ccflare.Text

/-!
The prices of models. A lookup reads the table loaded from the network and the bundled one,
first by the exact name and then by parts of names, and keeps what such a scan finds in a
cache; a refresh replaces the loaded table and clears the cache after it. Both take several
steps, and any number of lookups run beside a refresh. Rates are exact rationals, and a
table lists its entries in the order in which the map is iterated.
-/

namespace Ccflare.Pricing

open JsonValue

/-- Dollars for a million tokens. -/
structure ModelCost where
  input : Rat
  output : Rat
  cacheRead : Rat
  cacheWrite : Rat
  deriving DecidableEq

abbrev Table := List (String × ModelCost)

def bundledPricing : Table :=
  [("claude-3-haiku-20240307", ⟨0.25, 1.25, 0.03, 0.30⟩),
    ("claude-3-5-haiku-20241022", ⟨0.8, 4, 0.08, 1⟩),
    ("claude-3-5-haiku-latest", ⟨0.8, 4, 0.08, 1⟩),
    ("claude-3-5-sonnet-20241022", ⟨3, 15, 0.3, 3.75⟩),
    ("claude-3-5-sonnet-latest", ⟨3, 15, 0.3, 3.75⟩),
    ("claude-haiku-4-5-20251001", ⟨1, 5, 0.1, 1.25⟩),
    ("claude-3-7-sonnet-20250219", ⟨3, 15, 0.3, 3.75⟩),
    ("claude-sonnet-4-20250514", ⟨3, 15, 0.3, 3.75⟩),
    ("claude-sonnet-4-5-20250929", ⟨3, 15, 0.3, 3.75⟩),
    ("claude-opus-4-20250514", ⟨15, 75, 1.5, 18.75⟩),
    ("claude-opus-4-5-20250414", ⟨5, 25, 0.5, 6.25⟩),
    ("claude-opus-4-6", ⟨5, 25, 0.5, 6.25⟩),
    ("claude-3-opus-20240229", ⟨15, 75, 1.5, 18.75⟩),
    ("glm-4.5", ⟨0.6, 2.2, 0, 0⟩),
    ("glm-4.5-air", ⟨0.2, 1.1, 0, 0⟩),
    ("glm-4.6", ⟨0.6, 2.2, 0, 0⟩),
    ("glm-4.6-air", ⟨0.2, 1.1, 0, 0⟩),
    ("MiniMax-M2", ⟨0.3, 1.2, 0, 0⟩)]

def perTokenToPerMtok (perToken : Rat) : Rat := perToken * 1000000

def asF64 : Json → Option Rat
  | .number (.posInt value) => some value
  | .number (.negInt value) => some value
  | .number (.float value) => some value
  | _ => none

/-- What `refresh_remote_pricing` keeps of one entry of the document. -/
def remoteEntry (entry : String × Json) : Option (String × ModelCost) :=
  let rate := fun name => (entry.2.get name).bind asF64
  if '/' ∈ entry.1.toList ∨ '.' ∈ entry.1.toList then none
  else
    match rate "input_cost_per_token" with
    | none => none
    | some input => some (entry.1,
        { input := perTokenToPerMtok input
          output := perTokenToPerMtok ((rate "output_cost_per_token").getD 0)
          cacheRead := perTokenToPerMtok ((rate "cache_read_input_token_cost").getD 0)
          cacheWrite := perTokenToPerMtok ((rate "cache_creation_input_token_cost").getD 0) })

def remoteTable (raw : List (String × Json)) : Table := raw.filterMap remoteEntry

/-- The exact matches, which come before the cache. -/
def exactPrice (remote bundled : Table) (model : String) : Option ModelCost :=
  remote.lookup model <|> bundled.lookup model

section Scan
variable (toLowercase : String → String)

def matching (table : Table) (model : String) : Option ModelCost :=
  let modelLower := toLowercase model
  (table.find? fun entry =>
    Text.contains entry.1 modelLower || Text.contains modelLower entry.1).map Prod.snd

def fuzzyPrice (remote bundled : Table) (model : String) : Option ModelCost :=
  matching toLowercase remote model <|> matching toLowercase bundled model

/-- The result of a lookup that is computed from the tables alone. -/
def priceFrom (remote bundled : Table) (model : String) : Option ModelCost :=
  exactPrice remote bundled model <|> fuzzyPrice toLowercase remote bundled model

end Scan

/-- Where the refresh stands. -/
inductive Refresh where
  | pending
  | stored
  | completed
  deriving DecidableEq

inductive Stage where
  | looking
  | scanning
  | inserting (found : Option ModelCost)
  deriving DecidableEq

/-- A call of `get_model_pricing` that has found no exact match in the table it has loaded. -/
structure Lookup where
  model : String
  startedAt : Refresh
  remote : Table
  stage : Stage
  deriving DecidableEq

/-- A call of `get_model_pricing` that has returned. -/
structure Answer where
  model : String
  startedAt : Refresh
  result : Option ModelCost
  deriving DecidableEq

abbrev Cache := AList fun _ : String => Option ModelCost

structure Store where
  remote : Table
  cache : Cache
  refresh : Refresh
  lookups : AList fun _ : Nat => Lookup
  answers : List Answer

inductive Event where
  | load (call : Nat) (model : String)
  | readCache (call : Nat)
  | scan (call : Nat)
  | insert (call : Nat)
  | storeTable (raw : List (String × Json)) (table : Table)
  | clearCache

def Store.answer (s : Store) (call : Nat) (lookup : Lookup) (result : Option ModelCost) : Store :=
  { s with
    lookups := s.lookups.erase call
    answers := s.answers ++ [⟨lookup.model, lookup.startedAt, result⟩] }

def Store.advance (s : Store) (call : Nat) (lookup : Lookup) (stage : Stage) : Store :=
  { s with lookups := s.lookups.insert call { lookup with stage := stage } }

variable (toLowercase : String → String) (bundled : Table)

def perform (s : Store) : Event → Option Store
  | .load call model =>
      if call ∈ s.lookups then none
      else
        match exactPrice s.remote bundled model with
        | some cost =>
            some { s with answers := s.answers ++ [⟨model, s.refresh, some cost⟩] }
        | none =>
            some { s with
              lookups := s.lookups.insert call ⟨model, s.refresh, s.remote, .looking⟩ }
  | .readCache call =>
      match s.lookups.lookup call with
      | some lookup =>
          if lookup.stage = .looking then
            match s.cache.lookup lookup.model with
            | some cached => some (s.answer call lookup cached)
            | none => some (s.advance call lookup .scanning)
          else none
      | none => none
  | .scan call =>
      match s.lookups.lookup call with
      | some lookup =>
          if lookup.stage = .scanning then
            let found := fuzzyPrice toLowercase lookup.remote bundled lookup.model
            some (s.advance call lookup (.inserting found))
          else none
      | none => none
  | .insert call =>
      match s.lookups.lookup call with
      | some lookup =>
          match lookup.stage with
          | .inserting found =>
              some { s.answer call lookup found with cache := s.cache.insert lookup.model found }
          | _ => none
      | none => none
  | .storeTable raw table =>
      if s.refresh = .pending ∧ table.Perm (remoteTable raw) then
        some { s with remote := table, refresh := .stored }
      else none
  | .clearCache =>
      if s.refresh = .stored then some { s with cache := ∅, refresh := .completed } else none

end Ccflare.Pricing
