import Ccflare.Transition
import Mathlib.Data.List.Basic

/-!
The usage cache under readers, the poller and the cleanups at work at once. A writer reads the
clock before it inserts, and a reader that meets an old entry lets go of it before it removes
what then stands in its place; a cleanup reads the clock once and goes through the shards of the
map one after the other, as clearing does.
-/

namespace Ccflare.UsageCache

open Transition

structure CacheEntry (Data : Type) where
  data : Data
  timestamp : Int
  deriving DecidableEq

def maxCacheAgeMs : Int := 10 * 60 * 1000

/-- The map, and what its callers are about to do to it. -/
structure Cache (Data : Type) where
  now : Int
  entries : String → Option (CacheEntry Data)
  /-- The writers that have read the clock. -/
  writes : List (String × CacheEntry Data)
  /-- The readers that found an entry too old. -/
  evictions : List (String × CacheEntry Data)
  /-- The cleanups under way, each with its reading of the clock. -/
  cleanups : List Int

inductive Event (Data : Type) where
  | pass (span : Nat)
  | get (accountId : String)
  | evict (index : Nat)
  | stamp (accountId : String) (data : Data)
  | insert (index : Nat)
  | remove (accountId : String)
  | clear (shard : List String)
  | startCleanup
  | cleanupStale (index : Nat) (shard : List String)
  | endCleanup (index : Nat)

variable {Data : Type}

abbrev Taken (Data : Type) := Cache Data × Event Data × Cache Data

def put (entries : String → Option (CacheEntry Data)) (accountId : String)
    (entry : Option (CacheEntry Data)) : String → Option (CacheEntry Data) :=
  fun key => if key = accountId then entry else entries key

/-- `age > MAX_CACHE_AGE_MS`. -/
def stale (now : Int) (entry : CacheEntry Data) : Bool :=
  decide (now - entry.timestamp > maxCacheAgeMs)

def perform (s : Cache Data) : Event Data → Option (Cache Data)
  | .pass span => some { s with now := s.now + span }
  | .get accountId =>
      match s.entries accountId with
      | none => some s
      | some entry =>
          if stale s.now entry then some { s with evictions := s.evictions ++ [(accountId, entry)] }
          else some s
  | .evict index =>
      s.evictions[index]?.map fun found =>
        { s with
          entries := put s.entries found.1 none
          evictions := s.evictions.eraseIdx index }
  | .stamp accountId data =>
      some { s with writes := s.writes ++ [(accountId, ⟨data, s.now⟩)] }
  | .insert index =>
      s.writes[index]?.map fun write =>
        { s with
          entries := put s.entries write.1 (some write.2)
          writes := s.writes.eraseIdx index }
  | .remove accountId => some { s with entries := put s.entries accountId none }
  | .clear shard =>
      some { s with entries := fun key => if key ∈ shard then none else s.entries key }
  | .startCleanup => some { s with cleanups := s.cleanups ++ [s.now] }
  | .cleanupStale index shard =>
      s.cleanups[index]?.map fun now =>
        { s with entries := fun key =>
            if key ∈ shard then (s.entries key).filter fun entry =>
              decide (now - entry.timestamp ≤ maxCacheAgeMs)
            else s.entries key }
  | .endCleanup index => some { s with cleanups := s.cleanups.eraseIdx index }

def served (taken : Taken Data) (accountId : String) : Option Data :=
  match taken.2.1 with
  | .get asked =>
      if asked = accountId then
        (taken.1.entries asked).bind fun entry =>
          if stale taken.1.now entry then none else some entry.data
      else none
  | _ => none

/-- The step inserts the entry for the account. -/
def Sets (taken : Taken Data) (accountId : String) (entry : CacheEntry Data) : Prop :=
  ∃ index, taken.2.1 = .insert index ∧ taken.1.writes[index]? = some (accountId, entry)

/-- The step takes the account out of the map for a reader that had found this entry. -/
def Evicts (taken : Taken Data) (accountId : String) (seen : CacheEntry Data) : Prop :=
  ∃ index, taken.2.1 = .evict index ∧ taken.1.evictions[index]? = some (accountId, seen)

def Removes (taken : Taken Data) (accountId : String) : Prop :=
  taken.2.1 = .remove accountId ∨ ∃ shard, taken.2.1 = .clear shard ∧ accountId ∈ shard

def Touches (taken : Taken Data) (accountId : String) : Prop :=
  (∃ entry, Sets taken accountId entry) ∨ (∃ seen, Evicts taken accountId seen) ∨
    Removes taken accountId

/-- The step is one of a cleanup that finds the entry too old. -/
def Sweeps (taken : Taken Data) (accountId : String) (entry : CacheEntry Data) : Prop :=
  ∃ index shard now, taken.2.1 = .cleanupStale index shard ∧
    taken.1.cleanups[index]? = some now ∧ accountId ∈ shard ∧ maxCacheAgeMs < now - entry.timestamp

/-- The writer of the entry read the clock in the run and has inserted it; no step since has
touched the account, and no cleanup has taken the entry out. -/
def Latest (trace : List (Taken Data)) (accountId : String) (entry : CacheEntry Data) : Prop :=
  ∃ before taken after, trace = before ++ taken :: after ∧ Sets taken accountId entry ∧
    (∃ stamped ∈ before, stamped.2.1 = .stamp accountId entry.data ∧
      stamped.1.now = entry.timestamp) ∧
    ∀ later ∈ after, ¬ Touches later accountId ∧ ¬ Sweeps later accountId entry

def Empty (s : Cache Data) : Prop :=
  (∀ accountId, s.entries accountId = none) ∧ s.writes = [] ∧ s.evictions = [] ∧ s.cleanups = []

section Steps
variable {s target : Cache Data} {event : Event Data}

theorem put_same (entries : String → Option (CacheEntry Data)) (accountId : String)
    (entry : Option (CacheEntry Data)) : put entries accountId entry accountId = entry := by
  simp [put]

theorem put_other (entries : String → Option (CacheEntry Data)) {accountId key : String}
    (entry : Option (CacheEntry Data)) (other : key ≠ accountId) :
    put entries accountId entry key = entries key := by
  simp [put, other]

/-- The entry a cleanup that has read the clock leaves. -/
def judged (now : Int) (entry : Option (CacheEntry Data)) : Option (CacheEntry Data) :=
  entry.filter fun entry => decide (now - entry.timestamp ≤ maxCacheAgeMs)

/-- What a step does to one account: it sets it, takes it out, or leaves it to be judged by a
cleanup at most. -/
theorem step_cases (accountId : String) (taken : Does perform s event target) :
    (∃ entry, Sets (s, event, target) accountId entry ∧ target.entries accountId = some entry) ∨
    Touches (s, event, target) accountId ∧ target.entries accountId = none ∨
    ¬ Touches (s, event, target) accountId ∧
      (target.entries accountId = s.entries accountId ∨
        ∃ now ∈ s.cleanups, target.entries accountId = judged now (s.entries accountId)) := by
  cases event with
  | pass span =>
      cases taken
      exact .inr (.inr ⟨by simp [Touches, Sets, Evicts, Removes], .inl rfl⟩)
  | get asked =>
      simp only [Does, perform] at taken
      split at taken
      · cases taken
        exact .inr (.inr ⟨by simp [Touches, Sets, Evicts, Removes], .inl rfl⟩)
      · split at taken <;> cases taken <;>
          exact .inr (.inr ⟨by simp [Touches, Sets, Evicts, Removes], .inl rfl⟩)
  | evict index =>
      obtain ⟨⟨key, seen⟩, found, rfl⟩ := Option.map_eq_some_iff.mp taken
      by_cases same : accountId = key
      · subst accountId
        exact .inr (.inl ⟨.inr (.inl ⟨seen, index, rfl, found⟩), put_same ..⟩)
      · refine .inr (.inr ⟨?_, .inl (put_other _ _ same)⟩)
        simp [Touches, Sets, Evicts, Removes, found, Ne.symm same]
  | stamp key data =>
      cases taken
      exact .inr (.inr ⟨by simp [Touches, Sets, Evicts, Removes], .inl rfl⟩)
  | insert index =>
      obtain ⟨⟨key, entry⟩, found, rfl⟩ := Option.map_eq_some_iff.mp taken
      by_cases same : accountId = key
      · subst accountId
        exact .inl ⟨entry, ⟨index, rfl, found⟩, put_same ..⟩
      · refine .inr (.inr ⟨?_, .inl (put_other _ _ same)⟩)
        simp [Touches, Sets, Evicts, Removes, found, Ne.symm same]
  | remove key =>
      cases taken
      by_cases same : accountId = key
      · subst accountId
        exact .inr (.inl ⟨.inr (.inr (.inl rfl)), put_same ..⟩)
      · refine .inr (.inr ⟨?_, .inl (put_other _ _ same)⟩)
        simp [Touches, Sets, Evicts, Removes, Ne.symm same]
  | clear shard =>
      cases taken
      by_cases member : accountId ∈ shard
      · exact .inr (.inl ⟨.inr (.inr (.inr ⟨shard, rfl, member⟩)), by simp [member]⟩)
      · exact .inr (.inr ⟨by simp [Touches, Sets, Evicts, Removes, member], .inl (by simp [member])⟩)
  | startCleanup =>
      cases taken
      exact .inr (.inr ⟨by simp [Touches, Sets, Evicts, Removes], .inl rfl⟩)
  | cleanupStale index shard =>
      obtain ⟨now, found, rfl⟩ := Option.map_eq_some_iff.mp taken
      refine .inr (.inr ⟨by simp [Touches, Sets, Evicts, Removes], ?_⟩)
      by_cases member : accountId ∈ shard
      · exact .inr ⟨now, List.mem_of_getElem? found, by simp [member, judged]⟩
      · exact .inl (by simp [member])
  | endCleanup index =>
      cases taken
      exact .inr (.inr ⟨by simp [Touches, Sets, Evicts, Removes], .inl rfl⟩)

theorem judged_some {now : Int} {before : Option (CacheEntry Data)} {entry : CacheEntry Data}
    (kept : judged now before = some entry) : before = some entry :=
  (Option.filter_eq_some_iff.mp kept).1

/-- The clock goes forward, and the readings the callers hold are not ahead of it. -/
structure Clocked (s : Cache Data) : Prop where
  evictions : ∀ found ∈ s.evictions, found.2.timestamp + maxCacheAgeMs < s.now
  cleanups : ∀ now ∈ s.cleanups, now ≤ s.now

theorem step_clocked (clocked : Clocked s) (taken : Does perform s event target) :
    Clocked target ∧ s.now ≤ target.now := by
  cases event with
  | pass span =>
      cases taken
      have later : s.now ≤ s.now + span := by omega
      refine ⟨⟨fun found member => ?_, fun now member => ?_⟩, later⟩
      · exact (clocked.evictions found member).trans_le later
      · exact (clocked.cleanups now member).trans later
  | get asked =>
      simp only [Does, perform] at taken
      split at taken
      · cases taken
        exact ⟨clocked, le_rfl⟩
      · split at taken <;> cases taken
        · next old =>
            refine ⟨⟨fun found member => ?_, clocked.cleanups⟩, le_rfl⟩
            rcases List.mem_append.mp member with before | new
            · exact clocked.evictions found before
            · obtain rfl := List.mem_singleton.mp new
              simp only [stale, decide_eq_true_eq] at old
              simp only
              omega
        · exact ⟨clocked, le_rfl⟩
  | evict index =>
      obtain ⟨found, -, rfl⟩ := Option.map_eq_some_iff.mp taken
      exact ⟨⟨fun found member => clocked.evictions found (List.mem_of_mem_eraseIdx member),
        clocked.cleanups⟩, le_rfl⟩
  | stamp key data | remove key | clear shard =>
      cases taken
      exact ⟨⟨clocked.evictions, clocked.cleanups⟩, le_rfl⟩
  | insert index =>
      obtain ⟨write, -, rfl⟩ := Option.map_eq_some_iff.mp taken
      exact ⟨⟨clocked.evictions, clocked.cleanups⟩, le_rfl⟩
  | startCleanup =>
      cases taken
      refine ⟨⟨clocked.evictions, fun now member => ?_⟩, le_rfl⟩
      rcases List.mem_append.mp member with before | new
      · exact clocked.cleanups now before
      · exact (List.mem_singleton.mp new).le
  | cleanupStale index shard =>
      obtain ⟨now, -, rfl⟩ := Option.map_eq_some_iff.mp taken
      exact ⟨⟨clocked.evictions, clocked.cleanups⟩, le_rfl⟩
  | endCleanup index =>
      cases taken
      exact ⟨⟨clocked.evictions,
        fun now member => clocked.cleanups now (List.mem_of_mem_eraseIdx member)⟩, le_rfl⟩

end Steps

section Runs
variable {start final : Cache Data} {trace : List (Taken Data)} {s target : Cache Data}
  {event : Event Data}

/-- The writer of an entry has read the clock in the run. -/
def Stamped (trace : List (Taken Data)) (accountId : String) (entry : CacheEntry Data) : Prop :=
  ∃ stamped ∈ trace, stamped.2.1 = .stamp accountId entry.data ∧ stamped.1.now = entry.timestamp

structure Traced (trace : List (Taken Data)) (s : Cache Data) : Prop where
  writes : ∀ write ∈ s.writes, Stamped trace write.1 write.2
  entries : ∀ accountId entry, s.entries accountId = some entry → Latest trace accountId entry

theorem step_writes (taken : Does perform s event target) (write : String × CacheEntry Data)
    (member : write ∈ target.writes) :
    write ∈ s.writes ∨ event = .stamp write.1 write.2.data ∧ s.now = write.2.timestamp := by
  cases event with
  | stamp accountId data =>
      cases taken
      rcases List.mem_append.mp member with before | new
      · exact .inl before
      · obtain rfl := List.mem_singleton.mp new
        exact .inr ⟨rfl, rfl⟩
  | insert index =>
      obtain ⟨_, -, rfl⟩ := Option.map_eq_some_iff.mp taken
      exact .inl (List.mem_of_mem_eraseIdx member)
  | get accountId =>
      simp only [Does, perform] at taken
      split at taken
      · cases taken
        exact .inl member
      · split at taken <;> cases taken <;> exact .inl member
  | evict index | cleanupStale index shard =>
      obtain ⟨_, -, rfl⟩ := Option.map_eq_some_iff.mp taken
      exact .inl member
  | pass span | remove accountId | clear shard | startCleanup | endCleanup index =>
      cases taken
      exact .inl member

theorem not_swept (taken : Does perform s event target) (accountId : String)
    (entry : CacheEntry Data) (held : target.entries accountId = some entry) :
    ¬ Sweeps (s, event, target) accountId entry := by
  rintro ⟨index, shard, now, rfl, cleaning, inside, old⟩
  simp only [Does, perform, cleaning, Option.map_some, Option.some.injEq] at taken
  subst taken
  simp only [if_pos inside] at held
  have kept := of_decide_eq_true (Option.filter_eq_some_iff.mp held).2
  omega

theorem step_traced (traced : Traced trace s) (taken : Does perform s event target) :
    Traced (trace ++ [(s, event, target)]) target where
  writes write member := by
    rcases step_writes taken write member with before | ⟨rfl, now⟩
    · exact seen_later _ _ (traced.writes write before)
    · exact ⟨_, List.mem_append_right trace (List.mem_singleton_self _), rfl, now⟩
  entries accountId entry held := by
    rcases step_cases accountId taken with ⟨other, sets, here⟩ | ⟨-, none⟩ | ⟨apart, kept⟩
    · rw [here] at held
      obtain rfl := Option.some.inj held
      obtain ⟨index, same, found⟩ := id sets
      exact ⟨trace, _, [], rfl, sets, traced.writes _ (List.mem_of_getElem? found), by simp⟩
    · rw [none] at held
      cases held
    · have before : s.entries accountId = some entry := by
        rcases kept with same | ⟨now, -, same⟩
        · rwa [← same]
        · exact judged_some (same ▸ held)
      obtain ⟨first, setting, after, rfl, sets, stamped, untouched⟩ :=
        traced.entries accountId entry before
      refine ⟨first, setting, after ++ [(s, event, target)], by simp, sets, stamped, ?_⟩
      intro later member
      rcases List.mem_append.mp member with old | last
      · exact untouched later old
      · obtain rfl := List.mem_singleton.mp last
        exact ⟨apart, not_swept taken accountId entry held⟩

theorem run_traced (run : Run (Does perform) start trace final) (empty : Empty start) :
    Traced trace final := by
  refine run.history Traced ⟨by simp [empty.2.1], by simp [empty.1]⟩ ?_
  intro before source event target traced taken
  exact step_traced traced taken

theorem run_clocked (run : Run (Does perform) start trace final) (clocked : Clocked start) :
    Clocked final ∧ start.now ≤ final.now := by
  refine run.invariant (fun s => Clocked s ∧ start.now ≤ s.now) ⟨clocked, le_rfl⟩ ?_
  intro source event target ⟨here, later⟩ taken
  obtain ⟨next, forward⟩ := step_clocked here taken
  exact ⟨next, later.trans forward⟩

/-- A young entry stays through a step that does not touch its account. -/
theorem step_kept (clocked : Clocked s) (taken : Does perform s event target) (accountId : String)
    (entry : CacheEntry Data) (held : s.entries accountId = some entry)
    (young : s.now ≤ entry.timestamp + maxCacheAgeMs)
    (apart : ¬ Touches (s, event, target) accountId) : target.entries accountId = some entry := by
  rcases step_cases accountId taken with ⟨other, sets, -⟩ | ⟨touched, -⟩ | ⟨-, same | judging⟩
  · exact absurd (.inl ⟨other, sets⟩) apart
  · exact absurd touched apart
  · rw [same, held]
  · obtain ⟨now, cleaning, same⟩ := judging
    have earlier := clocked.cleanups now cleaning
    have recent : now - entry.timestamp ≤ maxCacheAgeMs := by omega
    rw [same, held]
    simp [judged, Option.filter, recent]

/-- A reader that takes a young entry out had found an older one. -/
theorem evicted_older (clocked : Clocked s) (accountId : String) (entry seen : CacheEntry Data)
    (young : s.now ≤ entry.timestamp + maxCacheAgeMs)
    (evicts : Evicts (s, event, target) accountId seen) : seen.timestamp < entry.timestamp := by
  obtain ⟨index, -, found⟩ := evicts
  have old := clocked.evictions _ (List.mem_of_getElem? found)
  simp only at old
  omega

/-- What can happen to a young entry on the way. -/
def Replaced (accountId : String) (entry : CacheEntry Data) (later : Taken Data) : Prop :=
  (∃ other, Sets later accountId other) ∨ Removes later accountId ∨
    ∃ seen, Evicts later accountId seen ∧ seen.timestamp < entry.timestamp

theorem run_kept (run : Run (Does perform) start trace final) (clocked : Clocked start)
    (accountId : String) (entry : CacheEntry Data) (held : start.entries accountId = some entry)
    (young : final.now ≤ entry.timestamp + maxCacheAgeMs) :
    final.entries accountId = some entry ∨ ∃ later ∈ trace, Replaced accountId entry later := by
  induction run with
  | nil => exact .inl held
  | @snoc trace s target event earlier taken ih =>
      have here := (run_clocked earlier clocked).1
      have soon := (step_clocked here taken).2.trans young
      rcases ih soon with kept | ⟨later, member, replaced⟩
      · by_cases touched : Touches (s, event, target) accountId
        · refine .inr ⟨_, List.mem_append_right trace (List.mem_singleton_self _), ?_⟩
          rcases touched with set | ⟨seen, evicts⟩ | removed
          · exact .inl set
          · exact .inr (.inr ⟨seen, evicts, evicted_older here accountId entry seen soon evicts⟩)
          · exact .inr (.inl removed)
        · exact .inl (step_kept here taken accountId entry kept soon touched)
      · exact .inr ⟨later, List.mem_append_left _ member, replaced⟩

end Runs

/-- Every usage a reader gets was set at most ten minutes before, and since then the account
was neither set nor removed, nor the usage cleaned up. -/
theorem usage_current (start final : Cache Data) (before after : List (Taken Data))
    (taken : Taken Data) (run : Run (Does perform) start (before ++ taken :: after) final)
    (empty : Empty start) (accountId : String) (data : Data)
    (serves : served taken accountId = some data) :
    ∃ entry, entry.data = data ∧ Latest before accountId entry ∧
      taken.1.now ≤ entry.timestamp + maxCacheAgeMs := by
  have traced := run_traced run.cut_at.1 empty
  unfold served at serves
  split at serves
  · split at serves
    · next same =>
        subst accountId
        obtain ⟨entry, held, found⟩ := Option.bind_eq_some_iff.mp serves
        split at found
        · cases found
        · next young =>
            simp only [stale, decide_eq_true_eq, not_lt] at young
            exact ⟨entry, Option.some.inj found, traced.entries _ entry held, by omega⟩
    · cases serves
  · cases serves

def emptyCache : Cache Nat := ⟨0, fun _ => none, [], [], []⟩

/-- Of two writers of an account the first to read the clock inserts last. -/
theorem late_writer_served : ∃ (before : List (Taken Nat)) (entry : CacheEntry Nat),
    before.length = 5 ∧ entry.data = 40 ∧ Latest before "a" entry := by
  obtain ⟨trace, s, run, events, held⟩ := @performed _ _ emptyCache perform
    [.stamp "a" 40, .pass 1000, .stamp "a" 60, .insert 1, .insert 0]
    (fun s => decide (s.entries "a" = some ⟨40, 0⟩ ∧ s.now = 1000)) (by decide)
  obtain ⟨entry, now⟩ := of_decide_eq_true held
  have asked : Does perform s (.get "a") s := by
    simp [Does, perform, entry, now, stale, maxCacheAgeMs]
  obtain ⟨latest, data, here, -⟩ := usage_current emptyCache s trace [] (s, .get "a", s)
    (run.snoc asked) ⟨fun _ => rfl, rfl, rfl, rfl⟩ "a" 40
    (by simp [served, entry, now, stale, maxCacheAgeMs])
  have length : trace.length = 5 := by simpa using congrArg List.length events
  exact ⟨trace, latest, length, data, here⟩

/-- A usage that was set stays for ten minutes, unless the account is set again, removed or
cleared, or a reader takes it out that had found an older one before. -/
theorem young_usage_kept (start final : Cache Data) (before after : List (Taken Data))
    (taken : Taken Data) (run : Run (Does perform) start (before ++ taken :: after) final)
    (empty : Empty start) (accountId : String) (entry : CacheEntry Data)
    (sets : Sets taken accountId entry) (young : final.now ≤ entry.timestamp + maxCacheAgeMs) :
    final.entries accountId = some entry ∨ ∃ later ∈ after, Replaced accountId entry later := by
  have initially : Clocked start := ⟨by simp [empty.2.2.1], by simp [empty.2.2.2]⟩
  obtain ⟨first, step, rest⟩ := run.cut_at
  have clocked := (run_clocked first initially).1
  refine run_kept rest (step_clocked clocked step).1 accountId entry ?_ young
  obtain ⟨index, inserts, found⟩ := sets
  rw [inserts] at step
  obtain ⟨write, same, put⟩ := Option.map_eq_some_iff.mp step
  obtain rfl := Option.some.inj (found.symm.trans same)
  rw [← put]
  exact put_same ..

/-- A reader finds the entry of 40 too old, and takes out the 60 that was set meanwhile. -/
theorem fresh_usage_evicted : ∃ later : Taken Nat, later.2.1 = .evict 0 ∧
    later.1.now = 700000 ∧ Replaced "a" ⟨60, 700000⟩ later := by
  obtain ⟨trace, s, run, -, held⟩ := @performed _ _ emptyCache perform
    [.stamp "a" 40, .insert 0, .pass 700000, .get "a", .stamp "a" 60]
    (fun s => decide (s.writes = [("a", ⟨60, 700000⟩)] ∧ s.evictions = [("a", ⟨40, 0⟩)] ∧
      s.now = 700000)) (by decide)
  obtain ⟨writes, evictions, now⟩ := of_decide_eq_true held
  let inserted : Cache Nat :=
    { s with entries := put s.entries "a" (some ⟨60, 700000⟩), writes := [] }
  let evicted : Cache Nat :=
    { inserted with entries := put inserted.entries "a" none, evictions := [] }
  have inserts : perform s (.insert 0) = some inserted := by simp [perform, writes, inserted]
  have evicts : perform inserted (.evict 0) = some evicted := by
    simp [perform, evictions, inserted, evicted]
  have both := (run.performs _ inserts).performs _ evicts
  rw [List.append_assoc] at both
  have replaced := young_usage_kept emptyCache evicted trace [(inserted, .evict 0, evicted)]
    (s, .insert 0, inserted) both ⟨fun _ => rfl, rfl, rfl, rfl⟩ "a" ⟨60, 700000⟩
    ⟨0, rfl, by simp [writes]⟩ (by simp [evicted, inserted, now, maxCacheAgeMs])
  rcases replaced with kept | ⟨later, member, replaced⟩
  · simp [evicted, put] at kept
  · obtain rfl := List.mem_singleton.mp member
    exact ⟨_, rfl, now, replaced⟩

end Ccflare.UsageCache
