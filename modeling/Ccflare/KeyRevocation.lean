import Ccflare.AuthTasks

/-!
When the management of keys reaches the requests that start after it. The table is
changed at once, the caches are not: what they still say was read before the change,
and no longer ago than an entry lives.
-/

namespace Ccflare.KeyRevocation

open ProxyRequest Transition AuthTasks
open Authentication hiding Event Taken perform Uncollided

section Effect

variable (crypto : Crypto)

/-- The step that gives task `i` the key with an id: a look into the cache or the table. -/
def Obtains (taken : Taken) (i : Nat) (id : String) : Prop :=
  ∃ apiKey key, key.id = id ∧
    (LooksUp crypto taken i apiKey (some key) ∨ ReadsKeys crypto taken i apiKey (some key))

theorem settled_key (task : Task) (enabled : Bool) : (settled task enabled).keyId = none := by
  have shape := settled_settled task enabled
  generalize settled task enabled = phase at shape ⊢
  cases shape <;> rfl

theorem first_key (config : Config) (request : Request) :
    (firstPhase config request).keyId = none := by
  unfold firstPhase
  split
  · rfl
  · split <;> rfl

theorem advanced_key (s t : State) (i : Nat) (task : Task) (phase : Phase) (id : String)
    (held : s.tasks i = some task) (moved : Advances crypto s.db s.now s.auth task phase t.auth)
    (owned : phase.keyId = some id) :
    task.phase.keyId = some id ∨ Obtains crypto (s, .advance i, t) i id := by
  generalize auth : t.auth = after at moved
  cases moved with
  | enabledFresh enabled => simp [settled_key] at owned
  | enabledStale => cases owned
  | count => cases owned
  | unread => cases owned
  | passwordOnly => cases owned
  | storeCount count => simp [settled_key] at owned
  | check enabled checking =>
      have shape := checked_checked crypto task enabled s.auth.caches s.now
      generalize checked crypto task enabled s.auth.caches s.now = phase at shape owned
      cases shape with
      | csrf => cases owned
      | password => cases owned
      | miss => cases owned
      | closed => cases owned
      | hit apiKey result open_ presented fresh =>
          subst open_
          cases result with
          | none => cases owned
          | some key =>
              exact Or.inr ⟨apiKey, key, Option.some.inj owned,
                Or.inl ⟨rfl, ⟨task, held, checking, presented⟩, fresh⟩⟩
  | verify apiKey verifying =>
      obtain ⟨key, read, same⟩ := Option.map_eq_some_iff.mp owned
      exact Or.inr ⟨apiKey, key, same, Or.inr ⟨⟨rfl, task, held, verifying⟩, read⟩⟩
  | storeKey apiKey result verified =>
      cases result with
      | none => cases owned
      | some key =>
          rw [verified]
          exact Or.inl owned
  | passKey key outcome _ admitting admitted =>
      cases outcome with
      | refused refusal => cases owned
      | next info =>
          obtain ⟨rfl, -⟩ := admit_next task.config s.now task.request key _ _ info admitted
          rw [admitting]
          exact Or.inl owned

/-- A task owns a key only through a step of its own. -/
theorem owned_obtained (start s : State) (trace : List Taken) (i : Nat) (id : String)
    (absent : start.tasks i = none) (run : Run (Does (perform crypto)) start trace s) :
    ∀ task, s.tasks i = some task → task.phase.keyId = some id →
      ∃ taken ∈ trace, Obtains crypto taken i id := by
  apply run.history fun trace s => ∀ task, s.tasks i = some task →
    task.phase.keyId = some id → ∃ taken ∈ trace, Obtains crypto taken i id
  · intro task held
    rw [absent] at held
    cases held
  · intro before source event target known taken task held owned
    have earlier : ∀ old, source.tasks i = some old → old.phase.keyId = some id →
        ∃ taken ∈ before ++ [(source, event, target)], Obtains crypto taken i id := by
      intro old held owned
      exact seen_later _ _ (known old held owned)
    cases task_step crypto source target event i task taken held with
    | kept _ kept => exact earlier task kept owned
    | started config env request => simp [first_key] at owned
    | advanced old phase acts kept moved =>
        subst acts
        rcases advanced_key crypto source target i old phase id kept moved owned with
          before | obtains
        · exact earlier old kept before
        · exact ⟨(source, .advance i, target), by simp, obtains⟩

def Revokes (event : Event) (id : String) : Prop := event = .disable id ∨ event = .delete id

def Activates (event : Event) (id : String) : Prop :=
  event = .enable id ∨ ∃ row, event = .create row ∧ row.id = id

def Inactive (db : Database) (id : String) : Prop :=
  ∀ row ∈ db.keys, row.id = id → row.isActive = false

theorem advance_db (s t : State) (j : Nat) (taken : Does (perform crypto) s (.advance j) t) :
    t.db = s.db := by
  obtain ⟨_, _, _, _, db, _⟩ := advance_step crypto s t j taken
  exact db

theorem start_db (s t : State) (j : Nat) (config : Config) (env : Option String)
    (request : Request) (taken : Does (perform crypto) s (.start j config env request) t) :
    t.db = s.db := by
  obtain ⟨-, rfl⟩ := start_step crypto s t j config env request taken
  rfl

theorem revoked_inactive (s t : State) (event : Event) (id : String)
    (taken : Does (perform crypto) s event t) (revokes : Revokes event id) :
    Inactive t.db id := by
  change perform crypto s event = some t at taken
  rcases revokes with rfl | rfl
  · cases taken
    intro row member same
    obtain ⟨old, -, rfl⟩ := List.mem_map.mp member
    by_cases here : old.id = id
    · simp [here]
    · simp [here] at same
  · cases taken
    intro row member same
    have other := (List.mem_filter.mp member).2
    simp [same] at other

theorem step_inactive (s t : State) (event : Event) (id : String)
    (inactive : Inactive s.db id) (quiet : ¬Activates event id)
    (taken : Does (perform crypto) s event t) : Inactive t.db id := by
  cases event with
  | start j config env request => rw [start_db crypto s t j config env request taken]; exact inactive
  | advance j => rw [advance_db crypto s t j taken]; exact inactive
  | disable other =>
      cases taken
      intro row member same
      obtain ⟨old, held, rfl⟩ := List.mem_map.mp member
      by_cases here : old.id = other
      · simp [here]
      · simp only [here, if_false] at same ⊢
        exact inactive old held same
  | enable other =>
      cases taken
      intro row member same
      obtain ⟨old, held, rfl⟩ := List.mem_map.mp member
      by_cases here : old.id = other
      · simp only [here, if_true] at same
        exact absurd (Or.inl (congrArg Event.enable same)) quiet
      · simp only [here, if_false] at same ⊢
        exact inactive old held same
  | delete other =>
      cases taken
      intro row member same
      exact inactive row (List.mem_of_mem_filter member) same
  | create new =>
      obtain ⟨db, created, rfl⟩ := Option.map_eq_some_iff.mp taken
      unfold createKey at created
      split at created
      · cases created
      · cases created
        intro row member same
        rcases List.mem_append.mp member with old | added
        · exact inactive row old same
        · obtain rfl := List.mem_singleton.mp added
          exact absurd (Or.inr ⟨row, rfl, same⟩) quiet
  | clearAll =>
      cases taken
      rintro _ ⟨⟩
  | setFails countFails verifyFails => cases taken; exact inactive
  | tick nanos => cases taken; exact inactive

theorem run_inactive (start s : State) (trace : List Taken) (id : String)
    (inactive : Inactive start.db id) (quiet : ∀ taken ∈ trace, ¬Activates taken.2.1 id)
    (run : Run (Does (perform crypto)) start trace s) :
    ∀ taken ∈ trace, Inactive taken.1.db id :=
  (run.along (fun s => Inactive s.db id) (fun event => ¬Activates event id) inactive
    (fun source event target => step_inactive crypto source target event id) quiet).2

/-- No task reads an inactive key from the table. -/
theorem inactive_not_read (taken : Taken) (i : Nat) (apiKey : String) (key : VerifiedKey)
    (inactive : Inactive taken.1.db key.id)
    (reads : ReadsKeys crypto taken i apiKey (some key)) : False := by
  obtain ⟨row, member, active, -, rfl⟩ := verified_row crypto _ apiKey key reads.2
  have off := inactive row member rfl
  rw [active] at off
  cases off

/-- A fresh entry was stored, within its lifetime, by a task that had read it. -/
theorem looked_up_source (trace : List Taken) (looked : Taken) (i : Nat) (apiKey : String)
    (result : Option VerifiedKey) (history : History crypto trace looked.1)
    (looks : LooksUp crypto looked i apiKey result) :
    ∃ j other, crypto.hashForCache other = crypto.hashForCache apiKey ∧ Asked trace other ∧
      (∃ stored ∈ trace, StoresKey stored j other result ∧
        elapsedSecs stored.1.now looked.1.now < ttlOf ⟨result, stored.1.now⟩) ∧
      ∃ read ∈ trace, ReadsKeys crypto read j other result := by
  obtain ⟨-, -, fresh⟩ := looks
  obtain ⟨entry, held, rfl⟩ := Option.map_eq_some_iff.mp fresh
  obtain ⟨held, young⟩ := Option.filter_eq_some_iff.mp held
  obtain ⟨named, found, rfl⟩ := Option.map_eq_some_iff.mp held
  have same : named.1 = crypto.hashForCache apiKey := by simpa using List.find?_some found
  obtain ⟨j, other, hashed, asked, ⟨stored, member, stores, stamped⟩, read⟩ :=
    history.keys named (List.mem_of_find?_eq_some found)
  refine ⟨j, other, hashed.trans same, asked, ⟨stored, member, stores, ?_⟩, read⟩
  rw [stamped]
  simpa using young

def Ended (s : State) (i : Nat) (outcome : Outcome) : Prop :=
  ∃ task, s.tasks i = some task ∧ task.phase = .done outcome

/-- The key came from an entry that a read of the table among `before` left in the cache. -/
def FromEarlierRead (before trace : List Taken) (i : Nat) (id : String) : Prop :=
  ∃ earlier looked later apiKey key, trace = earlier ++ looked :: later ∧ key.id = id ∧
    LooksUp crypto looked i apiKey (some key) ∧
    ∃ j other, crypto.hashForCache other = crypto.hashForCache apiKey ∧
      (∃ stored ∈ earlier, StoresKey stored j other (some key) ∧
        elapsedSecs stored.1.now looked.1.now < apiKeyCacheTtlSecs) ∧
      ∃ read ∈ before, ReadsKeys crypto read j other (some key)

/-- After a revocation, a key authenticates a later request only out of the cache. -/
theorem revoked_only_from_cache (start final : State) (fresh : Fresh start)
    (before middle rest : List Taken) (revoke started : Taken) (i : Nat) (id : String)
    (run : Run (Does (perform crypto)) start
      (before ++ revoke :: (middle ++ started :: rest)) final)
    (revokes : Revokes revoke.2.1 id)
    (starts : ∃ config env request, started.2.1 = .start i config env request)
    (quiet : ∀ taken ∈ middle ++ started :: rest, ¬Activates taken.2.1 id) (info : AuthInfo)
    (ended : Ended final i (.next info)) (named : info.apiKeyId = some id) :
    FromEarlierRead crypto before (before ++ revoke :: (middle ++ started :: rest)) i id := by
  obtain ⟨config, env, request, starts⟩ := starts
  obtain ⟨source, event, target⟩ := revoke
  obtain ⟨first, second, third⟩ := started
  obtain rfl : second = .start i config env request := starts
  obtain ⟨-, taken, after⟩ := run.cut
  have inactive := revoked_inactive crypto source target event id taken revokes
  have readers := run_inactive crypto target final _ id inactive quiet after
  -- Task i obtains the key in what follows its start, so after the revocation.
  obtain ⟨-, begins, follows⟩ := after.cut
  obtain ⟨absent, -⟩ := start_step crypto first third i config env request begins
  obtain ⟨task, held, done⟩ := ended
  have owned : task.phase.keyId = some id := by
    rw [done]
    exact named
  obtain ⟨looked, member, apiKey, key, rfl, obtains⟩ :=
    owned_obtained crypto first final _ i id absent (follows.cons begins) task held owned
  rcases obtains with looks | reads
  · obtain ⟨earlier, later, split⟩ := List.append_of_mem member
    have whole : before ++ (source, event, target) ::
        (middle ++ (first, .start i config env request, third) :: rest) =
        (before ++ (source, event, target) :: (middle ++ earlier)) ++ looked :: later := by
      rw [split]
      simp
    rw [whole] at run
    obtain ⟨lookedIn, lookedBy, lookedTo⟩ := looked
    have history := run_history crypto start lookedIn _ fresh run.cut.1
    obtain ⟨j, other, hashed, -, stored, read, origin, reads⟩ :=
      looked_up_source crypto _ _ i apiKey (some key) history looks
    refine ⟨_, _, _, apiKey, key, whole, rfl, looks, j, other, hashed, stored, read, ?_, reads⟩
    rcases List.mem_append.mp origin with old | new
    · exact old
    · rcases List.mem_cons.mp new with here | new
      · subst here
        rcases revokes with same | same
        · cases same.symm.trans reads.1.1
        · cases same.symm.trans reads.1.1
      · refine (inactive_not_read crypto read j other key (readers read ?_) reads).elim
        rw [split]
        rcases List.mem_append.mp new with between | between
        · exact List.mem_append_left _ between
        · exact List.mem_append_right _ (List.mem_append_left _ between)
  · exact (inactive_not_read crypto looked i apiKey key
      (readers looked (List.mem_append_right _ member)) reads).elim

def Deactivates (event : Event) (id : String) : Prop :=
  event = .disable id ∨ event = .delete id ∨ event = .clearAll

/-- The row of a key that a plaintext verifies against. -/
def Stored (db : Database) (id apiKey : String) : Prop :=
  ∃ row ∈ db.keys, row.id = id ∧ crypto.verifyApiKey apiKey row.hashedKey = true

def Usable (db : Database) (id apiKey : String) : Prop :=
  ∃ row ∈ db.keys, row.id = id ∧ crypto.verifyApiKey apiKey row.hashedKey = true ∧
    row.isActive = true

theorem enabled_usable (s t : State) (id apiKey : String) (stored : Stored crypto s.db id apiKey)
    (taken : Does (perform crypto) s (.enable id) t) : Usable crypto t.db id apiKey := by
  obtain ⟨row, member, same, matched⟩ := stored
  cases taken
  exact ⟨{ row with isActive := true }, List.mem_map.mpr ⟨row, member, by simp [same]⟩, same,
    matched, rfl⟩

theorem step_usable (s t : State) (event : Event) (id apiKey : String)
    (usable : Usable crypto s.db id apiKey) (quiet : ¬Deactivates event id)
    (taken : Does (perform crypto) s event t) : Usable crypto t.db id apiKey := by
  have kept := usable
  obtain ⟨row, member, same, matched, active⟩ := usable
  cases event with
  | start j config env request => rw [start_db crypto s t j config env request taken]; exact kept
  | advance j => rw [advance_db crypto s t j taken]; exact kept
  | disable other =>
      cases taken
      have apart : row.id ≠ other := fun here =>
        quiet (Or.inl (congrArg Event.disable (here.symm.trans same)))
      exact ⟨row, List.mem_map.mpr ⟨row, member, if_neg apart⟩, same, matched, active⟩
  | enable other =>
      cases taken
      by_cases here : row.id = other
      · exact ⟨{ row with isActive := true }, List.mem_map.mpr ⟨row, member, if_pos here⟩, same,
          matched, rfl⟩
      · exact ⟨row, List.mem_map.mpr ⟨row, member, if_neg here⟩, same, matched, active⟩
  | delete other =>
      cases taken
      have apart : row.id ≠ other := fun here =>
        quiet (Or.inr (Or.inl (congrArg Event.delete (here.symm.trans same))))
      exact ⟨row, List.mem_filter.mpr ⟨member, by simpa using apart⟩, same, matched, active⟩
  | create new =>
      obtain ⟨db, created, rfl⟩ := Option.map_eq_some_iff.mp taken
      unfold createKey at created
      split at created
      · cases created
      · cases created
        exact ⟨row, List.mem_append_left _ member, same, matched, active⟩
  | clearAll => exact absurd (Or.inr (Or.inr rfl)) quiet
  | setFails countFails verifyFails => cases taken; exact kept
  | tick nanos => cases taken; exact kept

theorem run_usable (start s : State) (trace : List Taken) (id apiKey : String)
    (usable : Usable crypto start.db id apiKey)
    (quiet : ∀ taken ∈ trace, ¬Deactivates taken.2.1 id)
    (run : Run (Does (perform crypto)) start trace s) :
    ∀ taken ∈ trace, Usable crypto taken.1.db id apiKey :=
  (run.along (fun s => Usable crypto s.db id apiKey) (fun event => ¬Deactivates event id) usable
    (fun source event target => step_usable crypto source target event id apiKey) quiet).2

theorem usable_counted (db : Database) (id apiKey : String) (count : Nat)
    (usable : Usable crypto db id apiKey) (counted : countActiveApiKeys db = some count) :
    0 < count := by
  obtain ⟨row, member, -, -, active⟩ := usable
  unfold countActiveApiKeys at counted
  split at counted
  · cases counted
  · cases counted
    exact List.countP_pos_iff.mpr ⟨row, member, active⟩

/-- A usable key is missed by a failing query alone. -/
theorem usable_missed (db : Database) (id apiKey : String) (usable : Usable crypto db id apiKey)
    (missed : verifyApiKeySync crypto db apiKey = none) : db.verifyFails = true := by
  obtain ⟨row, member, -, matched, active⟩ := usable
  unfold verifyApiKeySync at missed
  split at missed
  · rename_i fails
    exact fails
  · have none := List.find?_eq_none.mp (Option.map_eq_none_iff.mp missed) row member
    simp [verifyRow, active, matched] at none

/-- The step of task `i` that turns a usable key into a refusal. -/
inductive Misses (taken : Taken) (i : Nat) (apiKey : String) : Prop where
  | count : Counts taken i none → Misses taken i apiKey
  | read : ReadsKeys crypto taken i apiKey none → Misses taken i apiKey
  | entry : LooksUp crypto taken i apiKey none → Misses taken i apiKey
  | disabled : LooksEnabled taken i false → Misses taken i apiKey

/-- How a task stands that presents a key which stays usable. -/
structure Served (trace : List Taken) (i : Nat) (apiKey : String) (task : Task) : Prop where
  presents : extractApiKey task.request.headers = some apiKey
  verifying : ∀ other, task.phase = .verifying other → other = apiKey
  counted : ∀ count, task.phase = .counted (some count) → 0 < count
  stalled : task.phase.stalled → ∃ taken ∈ trace, Misses crypto taken i apiKey

theorem served_later (trace : List Taken) (taken : Taken) (i : Nat) (apiKey : String) (task : Task)
    (served : Served crypto trace i apiKey task) :
    Served crypto (trace ++ [taken]) i apiKey task where
  presents := served.presents
  verifying := served.verifying
  counted := served.counted
  stalled := by
    intro stalled
    exact seen_later _ [taken] (served.stalled stalled)

theorem admit_refused (config : Config) (now : Nat) (request : Request) (key : VerifiedKey)
    (auth after : AuthState) (refusal : Refusal)
    (refused : admitKey config now request key auth = (.refused refusal, after)) :
    refusal = scopeError ∨ refusal = rateError := by
  unfold admitKey at refused
  split at refused
  · cases refused
    exact Or.inl rfl
  · split at refused
    · cases refused
    · dsimp only at refused
      split at refused
      · cases refused
      · cases refused
        exact Or.inr rfl

theorem settled_served (trace : List Taken) (i : Nat) (apiKey : String) (task : Task)
    (enabled : Bool) (presents : extractApiKey task.request.headers = some apiKey)
    (misses : enabled = false → ∃ taken ∈ trace, Misses crypto taken i apiKey) :
    Served crypto trace i apiKey { task with phase := settled task enabled } := by
  have shape := settled_settled task enabled
  generalize settled task enabled = phase at shape ⊢
  cases shape with
  | firstRun => exact ⟨presents, nofun, nofun, nofun⟩
  | refused off => exact ⟨presents, nofun, nofun, fun _ => misses off⟩
  | checking =>
      refine ⟨presents, nofun, nofun, ?_⟩
      intro stalled
      cases enabled with
      | true => cases stalled
      | false => exact misses rfl

theorem answered_served (trace : List Taken) (i : Nat) (apiKey : String) (task : Task)
    (result : Option VerifiedKey) (presents : extractApiKey task.request.headers = some apiKey)
    (misses : result = none → ∃ taken ∈ trace, Misses crypto taken i apiKey) :
    Served crypto trace i apiKey { task with phase := answered task result } := by
  cases result with
  | some key => exact ⟨presents, nofun, nofun, nofun⟩
  | none => exact ⟨presents, nofun, nofun, fun _ => misses rfl⟩

/-- The check turns a presented key away by a fresh entry, or where the count had stalled. -/
theorem checked_served (trace : List Taken) (s t : State) (i : Nat) (apiKey : String)
    (task : Task) (enabled : Bool) (held : s.tasks i = some task)
    (checking : task.phase = .checking enabled)
    (presents : extractApiKey task.request.headers = some apiKey)
    (before : task.phase.stalled →
      ∃ taken ∈ trace ++ [(s, .advance i, t)], Misses crypto taken i apiKey) :
    Served crypto (trace ++ [(s, .advance i, t)]) i apiKey
      { task with phase := checked crypto task enabled s.auth.caches s.now } := by
  have shape := checked_checked crypto task enabled s.auth.caches s.now
  generalize checked crypto task enabled s.auth.caches s.now = phase at shape ⊢
  cases shape with
  | csrf fails => simp [failsCsrf, presents] at fails
  | password => exact ⟨presents, nofun, nofun, nofun⟩
  | hit other result on presented fresh =>
      subst on
      obtain rfl := Option.some.inj (presented.symm.trans presents)
      apply answered_served crypto _ i other task result presents
      intro missed
      subst missed
      exact ⟨(s, .advance i, t), by simp, .entry ⟨rfl, ⟨task, held, checking, presented⟩, fresh⟩⟩
  | miss other presented =>
      refine ⟨presents, ?_, nofun, nofun⟩
      intro apart same
      cases same
      exact Option.some.inj (presented.symm.trans presents)
  | closed reason =>
      refine ⟨presents, nofun, nofun, ?_⟩
      intro _
      -- The task was turned away for want of keys, which it has missed before.
      rcases reason with off | absent
      · apply before
        rw [checking, off]
        trivial
      · cases absent.symm.trans presents

theorem advanced_served (trace : List Taken) (s t : State) (i : Nat) (id apiKey : String)
    (task : Task) (phase : Phase) (held : s.tasks i = some task)
    (usable : Usable crypto s.db id apiKey) (served : Served crypto trace i apiKey task)
    (moved : Advances crypto s.db s.now s.auth task phase t.auth) :
    Served crypto (trace ++ [(s, .advance i, t)]) i apiKey { task with phase } := by
  have last : (s, Event.advance i, t) ∈ trace ++ [(s, .advance i, t)] := by simp
  have before := (served_later crypto trace (s, .advance i, t) i apiKey task served).stalled
  have presents := served.presents
  generalize auth : t.auth = after at moved
  cases moved with
  | enabledFresh enabled reading fresh =>
      apply settled_served crypto _ i apiKey task enabled presents
      intro off
      subst off
      exact ⟨_, last, .disabled ⟨⟨rfl, task, held, reading⟩, fresh⟩⟩
  | enabledStale => exact ⟨presents, nofun, nofun, nofun⟩
  | count counting =>
      refine ⟨presents, nofun, ?_, ?_⟩
      · intro count counted
        exact usable_counted crypto s.db id apiKey count usable (Phase.counted.inj counted)
      · intro stalled
        cases counted : countActiveApiKeys s.db with
        | none => exact ⟨_, last, .count ⟨⟨rfl, task, held, counting⟩, counted⟩⟩
        | some count => simp [counted, Phase.stalled] at stalled
  | unread counted =>
      exact ⟨presents, nofun, nofun, fun _ => before (by rw [counted]; trivial)⟩
  | passwordOnly counted =>
      exact ⟨presents, nofun, nofun, fun _ => before (by rw [counted]; trivial)⟩
  | storeCount count counted =>
      apply settled_served crypto _ i apiKey task _ presents
      intro off
      exact absurd (served.counted count counted) (of_decide_eq_false off)
  | check enabled checking =>
      exact checked_served crypto trace s t i apiKey task enabled held checking presents before
  | verify other verifying =>
      obtain rfl := served.verifying other verifying
      refine ⟨presents, nofun, nofun, ?_⟩
      intro stalled
      cases missed : verifyApiKeySync crypto s.db other with
      | none => exact ⟨_, last, .read ⟨⟨rfl, task, held, verifying⟩, missed⟩⟩
      | some key => simp [missed, Phase.stalled] at stalled
  | storeKey other result verified =>
      apply answered_served crypto _ i apiKey task result presents
      intro missed
      apply before
      rw [verified, missed]
      trivial
  | passKey key outcome _ _ admitted =>
      refine ⟨presents, nofun, nofun, ?_⟩
      intro stalled
      cases outcome with
      | next info => cases stalled
      | refused refusal =>
          rcases admit_refused task.config s.now task.request key _ _ refusal admitted with
            scope | rate
          · exact absurd scope stalled.1
          · exact absurd rate stalled.2

theorem first_served (trace : List Taken) (i : Nat) (apiKey : String) (config : Config)
    (env : Option String) (request : Request)
    (presents : extractApiKey request.headers = some apiKey) :
    Served crypto trace i apiKey ⟨config, env, request, firstPhase config request⟩ := by
  unfold firstPhase
  split
  · exact ⟨presents, nofun, nofun, nofun⟩
  · split
    · exact ⟨presents, nofun, nofun, nofun⟩
    · exact ⟨presents, nofun, nofun, nofun⟩

theorem task_stays (s t : State) (event : Event) (i : Nat)
    (taken : Does (perform crypto) s event t) (present : s.tasks i ≠ none) : t.tasks i ≠ none := by
  have updated : ∀ (j : Nat) (task : Task), t.tasks = Function.update s.tasks j (some task) →
      t.tasks i ≠ none := by
    intro j task tasks
    rw [tasks]
    by_cases same : i = j
    · simp [same]
    · simpa [same] using present
  rcases step_kinds crypto s t event taken with
    ⟨j, config, env, request, -, -, tasks, -⟩ | ⟨j, task, phase, -, -, -, tasks⟩ | ⟨tasks, -⟩
  · exact updated j _ tasks
  · exact updated j _ tasks
  · rw [tasks]
    exact present

/-- A started task stays served while its key stays usable. -/
theorem run_served (start s : State) (trace : List Taken) (i : Nat) (id apiKey : String)
    (first : Task) (held : start.tasks i = some first) (served : Served crypto [] i apiKey first)
    (usable : ∀ taken ∈ trace, Usable crypto taken.1.db id apiKey)
    (run : Run (Does (perform crypto)) start trace s) :
    s.tasks i ≠ none ∧ ∀ task, s.tasks i = some task → Served crypto trace i apiKey task := by
  induction run with
  | nil =>
      constructor
      · simp [held]
      · intro task same
        obtain rfl := Option.some.inj (held.symm.trans same)
        exact served
  | @snoc trace source target event _ taken ih =>
      obtain ⟨present, known⟩ := ih fun taken member => usable taken (List.mem_append_left _ member)
      refine ⟨task_stays crypto source target event i taken present, ?_⟩
      intro task held
      cases task_step crypto source target event i task taken held with
      | kept _ before => exact served_later crypto trace _ i apiKey task (known task before)
      | started config env request _ absent => exact absurd absent present
      | advanced old phase acts before moved =>
          subst acts
          exact advanced_served crypto trace source target i id apiKey old phase before
            (usable _ (List.mem_append_right _ (List.mem_singleton_self _))) (known old before) moved

/-- A look into the enabled cache found what some task had counted and stored. -/
theorem looked_enabled_source (trace : List Taken) (looked : Taken) (i : Nat) (enabled : Bool)
    (history : History crypto trace looked.1) (looks : LooksEnabled looked i enabled) :
    ∃ j count, enabled = decide (0 < count) ∧
      (∃ stored ∈ trace, StoresCount stored j count ∧
        elapsedSecs stored.1.now looked.1.now < authEnabledCacheTtlSecs) ∧
      ∃ read ∈ trace, Counts read j (some count) := by
  obtain ⟨entry, held, rfl⟩ := Option.map_eq_some_iff.mp looks.2
  obtain ⟨held, young⟩ := Option.filter_eq_some_iff.mp held
  obtain ⟨j, count, same, ⟨stored, member, stores, stamped⟩, read⟩ := history.enabled entry held
  refine ⟨j, count, same, ⟨stored, member, stores, ?_⟩, read⟩
  rw [stamped]
  exact of_decide_eq_true young

/-- What a refusal of a usable key comes from: a failing query, or an entry that outlived
what `before` had read of the table. -/
inductive Blamed (before trace : List Taken) (i : Nat) (apiKey : String) : Prop where
  | countFailed (read : Taken) : read ∈ trace → Counts read i none →
      Blamed before trace i apiKey
  | readFailed (read : Taken) : read ∈ trace → ReadsKeys crypto read i apiKey none →
      read.1.db.verifyFails = true → Blamed before trace i apiKey
  | negativeEntry (earlier later : List Taken) (looked stored read : Taken) (j : Nat) :
      trace = earlier ++ looked :: later → LooksUp crypto looked i apiKey none →
      stored ∈ earlier → StoresKey stored j apiKey none →
      elapsedSecs stored.1.now looked.1.now < apiKeyNegativeCacheTtlSecs →
      read ∈ earlier → ReadsKeys crypto read j apiKey none →
      read ∈ before ∨ read.1.db.verifyFails = true → Blamed before trace i apiKey
  | disabledEntry (earlier later : List Taken) (looked stored read : Taken) (j : Nat) :
      trace = earlier ++ looked :: later → LooksEnabled looked i false →
      stored ∈ earlier → StoresCount stored j 0 →
      elapsedSecs stored.1.now looked.1.now < authEnabledCacheTtlSecs →
      read ∈ before → Counts read j (some 0) → Blamed before trace i apiKey

/-- The presented key shares its cache key with no other one presented. -/
def Uncollided (trace : List Taken) (apiKey : String) : Prop :=
  ∀ other, Asked trace other → crypto.hashForCache other = crypto.hashForCache apiKey →
    other = apiKey

/-- A step that misses a usable key is to blame on what came before, or on a query. -/
theorem missed_blamed (start : State) (fresh : Fresh start) (before after : List Taken)
    (enabled : Taken) (i : Nat) (id apiKey : String) (final : State)
    (run : Run (Does (perform crypto)) start (before ++ enabled :: after) final)
    (enables : enabled.2.1 = .enable id)
    (usable : ∀ taken ∈ after, Usable crypto taken.1.db id apiKey)
    (distinct : Uncollided crypto (before ++ enabled :: after) apiKey)
    (missed : Taken) (member : missed ∈ after) (misses : Misses crypto missed i apiKey) :
    Blamed crypto before (before ++ enabled :: after) i apiKey := by
  have whole : missed ∈ before ++ enabled :: after :=
    List.mem_append_right _ (List.mem_cons_of_mem _ member)
  obtain ⟨between, later, split⟩ := List.append_of_mem member
  have shape : before ++ enabled :: after =
      (before ++ enabled :: between) ++ missed :: later := by
    rw [split]
    simp
  have earlierRun := run
  rw [shape] at earlierRun
  have history : History crypto (before ++ enabled :: between) missed.1 := by
    obtain ⟨source, event, target⟩ := missed
    exact run_history crypto start source _ fresh earlierRun.cut.1
  -- An acting step before the miss is one of `before`, or its key was usable already.
  have placed : ∀ read ∈ before ++ enabled :: between, ∀ j phase, Acts read j phase →
      read ∈ before ∨ Usable crypto read.1.db id apiKey := by
    intro read origin j phase acts
    rcases List.mem_append.mp origin with old | new
    · exact Or.inl old
    · rcases List.mem_cons.mp new with here | new
      · subst here
        cases enables.symm.trans acts.1
      · exact Or.inr (usable read (by rw [split]; exact List.mem_append_left _ new))
  cases misses with
  | count counts => exact .countFailed missed whole counts
  | read reads =>
      exact .readFailed missed whole reads
        (usable_missed crypto _ id apiKey (usable missed member) reads.2)
  | entry looks =>
      obtain ⟨j, other, hashed, asked, ⟨stored, wrote, stores, young⟩, read, origin, reads⟩ :=
        looked_up_source crypto _ missed i apiKey none history looks
      obtain rfl := distinct other (shape ▸ seen_later _ _ asked) hashed
      refine .negativeEntry _ later missed stored read j shape looks wrote stores young origin
        reads ?_
      exact (placed read origin j _ reads.1).imp_right fun ready =>
        usable_missed crypto _ id other ready reads.2
  | disabled looks =>
      obtain ⟨j, count, off, ⟨stored, wrote, stores, young⟩, read, origin, counts⟩ :=
        looked_enabled_source crypto _ missed i false history looks
      obtain rfl : count = 0 := by simpa using off.symm
      rcases placed read origin j _ counts.1 with old | ready
      · exact .disabledEntry _ later missed stored read j shape looks wrote stores young old counts
      · exact absurd (usable_counted crypto _ id apiKey 0 ready counts.2) (lt_irrefl 0)

/-- After an enabling, a later request with the key is refused for want of a key only by
what was read before, or by a failing query. -/
theorem enabled_refused_only_for_blame (start final : State) (fresh : Fresh start)
    (before middle rest : List Taken) (enabled started : Taken) (i : Nat) (id apiKey : String)
    (config : Config) (env : Option String) (request : Request)
    (run : Run (Does (perform crypto)) start
      (before ++ enabled :: (middle ++ started :: rest)) final)
    (enables : enabled.2.1 = .enable id) (stored : Stored crypto enabled.1.db id apiKey)
    (starts : started.2.1 = .start i config env request)
    (presents : extractApiKey request.headers = some apiKey)
    (quiet : ∀ taken ∈ middle ++ started :: rest, ¬Deactivates taken.2.1 id)
    (distinct : Uncollided crypto (before ++ enabled :: (middle ++ started :: rest)) apiKey)
    (refusal : Refusal) (ended : Ended final i (.refused refusal)) :
    refusal = scopeError ∨ refusal = rateError ∨
      Blamed crypto before (before ++ enabled :: (middle ++ started :: rest)) i apiKey := by
  obtain ⟨source, event, target⟩ := enabled
  obtain ⟨first, second, third⟩ := started
  obtain rfl : event = .enable id := enables
  obtain rfl : second = .start i config env request := starts
  obtain ⟨-, taken, after⟩ := run.cut
  have ready := enabled_usable crypto source target id apiKey stored taken
  have usable := run_usable crypto target final _ id apiKey ready quiet after
  obtain ⟨-, begins, follows⟩ := after.cut
  obtain ⟨-, reached⟩ := start_step crypto first third i config env request begins
  have held : third.tasks i = some ⟨config, env, request, firstPhase config request⟩ := by
    rw [reached]
    simp
  obtain ⟨-, served⟩ := run_served crypto third final rest i id apiKey _ held
    (first_served crypto [] i apiKey config env request presents)
    (fun taken member => usable taken (by simp [member])) follows
  obtain ⟨task, same, done⟩ := ended
  -- A refusal for scope or rate is the key's own; any other one missed the key somewhere.
  by_cases own : refusal = scopeError ∨ refusal = rateError
  · exact own.imp_right Or.inl
  · apply Or.inr ∘ Or.inr
    obtain ⟨missed, member, misses⟩ := (served task same).stalled (by
      rw [done]
      exact not_or.mp own)
    exact missed_blamed crypto start fresh before _ _ i id apiKey final run rfl usable distinct
      missed (by simp [member]) misses

/-- Key management takes effect up to the caches, in both directions. -/
theorem key_changes_reach_later_requests (start final : State) (fresh : Fresh start)
    (before middle rest : List Taken) (change started : Taken) (i : Nat) (id : String)
    (config : Config) (env : Option String) (request : Request)
    (run : Run (Does (perform crypto)) start
      (before ++ change :: (middle ++ started :: rest)) final)
    (starts : started.2.1 = .start i config env request) :
    (Revokes change.2.1 id → (∀ taken ∈ middle ++ started :: rest, ¬Activates taken.2.1 id) →
      ∀ info, Ended final i (.next info) → info.apiKeyId = some id →
        FromEarlierRead crypto before (before ++ change :: (middle ++ started :: rest)) i id) ∧
    (change.2.1 = .enable id →
      (∀ taken ∈ middle ++ started :: rest, ¬Deactivates taken.2.1 id) →
      ∀ apiKey, Stored crypto change.1.db id apiKey →
        extractApiKey request.headers = some apiKey →
        Uncollided crypto (before ++ change :: (middle ++ started :: rest)) apiKey →
        ∀ refusal, Ended final i (.refused refusal) →
          refusal = scopeError ∨ refusal = rateError ∨
            Blamed crypto before (before ++ change :: (middle ++ started :: rest)) i apiKey) := by
  constructor
  · intro revokes quiet info ended named
    exact revoked_only_from_cache crypto start final fresh before middle rest change started i id
      run revokes ⟨config, env, request, starts⟩ quiet info ended named
  · intro enables quiet apiKey stored presents distinct refusal ended
    exact enabled_refused_only_for_blame crypto start final fresh before middle rest change started
      i id apiKey config env request run enables stored starts presents quiet distinct refusal ended

/-- No later request is authenticated by a revoked key. -/
def RevocationTakesEffect : Prop :=
  ∀ (start final : State) (before middle rest : List Taken) (revoke started : Taken) (i : Nat)
    (id : String), Fresh start →
    Run (Does (perform crypto)) start (before ++ revoke :: (middle ++ started :: rest)) final →
    Revokes revoke.2.1 id →
    (∃ config env request, started.2.1 = .start i config env request) →
    (∀ taken ∈ middle ++ started :: rest, ¬Activates taken.2.1 id) →
    ∀ info, Ended final i (.next info) → info.apiKeyId ≠ some id

end Effect

def sampleStart (active : Bool) : State :=
  ⟨⟨[{ adminRow with isActive := active }, proxyRow], false, false⟩, 0, freshState, fun _ => none⟩

def adminGet (i : Nat) : Event := .start i strictConfig none (keyedGet "/api/config" "sk-admin")

/-- One request after the other with the same key, and a change of the key between them. -/
def sampleEvents (change : Event) (first second : Nat) : List Event :=
  (adminGet 0 :: List.replicate first (.advance 0)) ++
    change :: adminGet 1 :: List.replicate second (.advance 1)

/-- The parts of a run of the sample events. -/
structure Sample (active : Bool) (change : Event) (outcome : Outcome) (before rest : List Taken)
    (changed started : Taken) (final : State) : Prop where
  run : Run (Does (perform sampleCrypto)) (sampleStart active)
    (before ++ changed :: ([] ++ started :: rest)) final
  change : changed.2.1 = change
  starts : started.2.1 = adminGet 1
  later : ∀ taken ∈ [] ++ started :: rest,
    (∃ i, taken.2.1 = adminGet i) ∨ ∃ i, taken.2.1 = .advance i
  earlier : ∀ taken ∈ before, (∃ i, taken.2.1 = adminGet i) ∨ ∃ i, taken.2.1 = .advance i
  ended : Ended final 1 outcome

theorem sample_run (active : Bool) (change : Event) (outcome : Outcome) (first second : Nat)
    (done : ((sampleEvents change first second).foldlM (perform sampleCrypto)
      (sampleStart active)).any (fun s => (s.tasks 1).any fun task =>
        task.phase = .done outcome) = true) :
    ∃ before rest changed started final,
      Sample active change outcome before rest changed started final := by
  obtain ⟨trace, final, run, events, reached⟩ := performed (perform sampleCrypto) _ _ done
  obtain ⟨before, changed, after, rfl, changes, previous, later⟩ := split_events trace _ _ _ events
  obtain ⟨started, rest, rfl, starts, advances⟩ := List.map_eq_cons_iff.mp later
  obtain ⟨task, held, ends⟩ := (Option.any_eq_true _ _).mp reached
  refine ⟨before, rest, changed, started, final, run, changes, starts, ?_, ?_, task, held,
    of_decide_eq_true ends⟩
  · intro taken member
    rcases List.mem_cons.mp member with rfl | behind
    · exact Or.inl ⟨1, starts⟩
    · exact Or.inr ⟨1, List.eq_of_mem_replicate (event_listed _ advances taken behind)⟩
  · intro taken member
    rcases List.mem_cons.mp (event_listed _ previous taken member) with same | advance
    · exact Or.inl ⟨0, same⟩
    · exact Or.inr ⟨0, List.eq_of_mem_replicate advance⟩

theorem Sample.quiet {active : Bool} {change : Event} {outcome : Outcome}
    {before rest : List Taken} {changed started : Taken} {final : State}
    (sample : Sample active change outcome before rest changed started final) (id : String) :
    ∀ taken ∈ [] ++ started :: rest, ¬Activates taken.2.1 id ∧ ¬Deactivates taken.2.1 id := by
  intro taken member
  rcases sample.later taken member with ⟨i, same⟩ | ⟨i, same⟩
  · rw [same]
    simp [Activates, Deactivates, adminGet]
  · rw [same]
    simp [Activates, Deactivates]

theorem Sample.asked {active : Bool} {change : Event} {outcome : Outcome}
    {before rest : List Taken} {changed started : Taken} {final : State}
    (sample : Sample active change outcome before rest changed started final)
    (notStart : ∀ i config env request, change ≠ .start i config env request) (apiKey : String)
    (asked : Asked (before ++ changed :: ([] ++ started :: rest)) apiKey) :
    apiKey = "sk-admin" := by
  obtain ⟨taken, member, i, config, env, request, starts, presents⟩ := asked
  have sent : (∃ i, taken.2.1 = adminGet i) ∨ ∃ i, taken.2.1 = .advance i := by
    rcases List.mem_append.mp member with early | late
    · exact sample.earlier taken early
    · rcases List.mem_cons.mp late with rfl | later
      · exact absurd (sample.change.symm.trans starts) (notStart i config env request)
      · exact sample.later taken later
  rcases sent with ⟨j, same⟩ | ⟨j, same⟩
  · cases same.symm.trans starts
    have shown : extractApiKey (keyedGet "/api/config" "sk-admin").headers = some "sk-admin" := by
      decide +kernel
    exact Option.some.inj (presents.symm.trans shown)
  · cases same.symm.trans starts

theorem Sample.unchanged {active : Bool} {change : Event} {outcome : Outcome}
    {before rest : List Taken} {changed started : Taken} {final : State}
    (sample : Sample active change outcome before rest changed started final) :
    changed.1.db = (sampleStart active).db := by
  obtain ⟨source, event, target⟩ := changed
  refine (sample.run.cut.1.along (fun s => s.db = (sampleStart active).db)
    (fun event => (∃ i, event = adminGet i) ∨ ∃ i, event = .advance i) rfl ?_ sample.earlier).1
  rintro first sent second same (⟨i, rfl⟩ | ⟨i, rfl⟩) taken
  · exact (start_db sampleCrypto first second i _ _ _ taken).trans same
  · exact (advance_db sampleCrypto first second i taken).trans same

/-- A key that was verified, revoked, and presented again. -/
theorem revoked_sample : ∃ before rest changed started final,
    Sample true (.disable "k1") (.next (keyAuthenticated (verifiedOf adminRow))) before rest
      changed started final :=
  sample_run true _ _ 7 3 (by decide +kernel)

/-- A key that was refused, enabled, and presented again. -/
theorem enabled_sample : ∃ before rest changed started final,
    Sample false (.enable "k1") (.refused (authFailedResponse "/api/config" false)) before rest
      changed started final :=
  sample_run false _ _ 6 2 (by decide +kernel)

theorem cached_key_outlives_revocation : ¬RevocationTakesEffect sampleCrypto := by
  intro effect
  obtain ⟨before, rest, changed, started, final, sample⟩ := revoked_sample
  exact effect (sampleStart true) final before [] rest changed started 1 "k1" ⟨rfl, fun _ => rfl⟩
    sample.run (Or.inl sample.change) ⟨_, _, _, sample.starts⟩
    (fun taken member => (sample.quiet "k1" taken member).1) _ sample.ended rfl

theorem cached_answers_come_from_earlier_reads :
    (∃ before trace, FromEarlierRead sampleCrypto before trace 1 "k1") ∧
      ∃ before trace, Blamed sampleCrypto before trace 1 "sk-admin" := by
  constructor
  · obtain ⟨before, rest, changed, started, final, sample⟩ := revoked_sample
    exact ⟨before, _, (key_changes_reach_later_requests sampleCrypto (sampleStart true) final
      ⟨rfl, fun _ => rfl⟩ before [] rest changed started 1 "k1" strictConfig none
      (keyedGet "/api/config" "sk-admin") sample.run sample.starts).1 (Or.inl sample.change)
      (fun taken member => (sample.quiet "k1" taken member).1) _ sample.ended rfl⟩
  · obtain ⟨before, rest, changed, started, final, sample⟩ := enabled_sample
    have stored : Stored sampleCrypto changed.1.db "k1" "sk-admin" := by
      rw [sample.unchanged]
      exact ⟨_, List.mem_cons_self, rfl, by decide +kernel⟩
    have distinct : Uncollided sampleCrypto (before ++ changed :: ([] ++ started :: rest))
        "sk-admin" := fun other asked _ => sample.asked nofun other asked
    have refused := (key_changes_reach_later_requests sampleCrypto (sampleStart false) final
      ⟨rfl, fun _ => rfl⟩ before [] rest changed started 1 "k1" strictConfig none
      (keyedGet "/api/config" "sk-admin") sample.run sample.starts).2 sample.change
      (fun taken member => (sample.quiet "k1" taken member).2) "sk-admin" stored
      (by decide +kernel) distinct _ sample.ended
    rcases refused with scope | rate | blamed
    · exact absurd scope (by decide +kernel)
    · exact absurd rate (by decide +kernel)
    · exact ⟨before, _, blamed⟩

end Ccflare.KeyRevocation
