import Ccflare.AuthTasks

/-!
The address the server binds to. A server without active keys is bound to the loopback address,
unless it is configured to take requests without authentication. One that listens elsewhere
starts with a key, and as long as a key stays active the middleware never takes the way that is
open on the first run.
-/

namespace Ccflare.StartupBinding

open ProxyRequest Transition AuthTasks
open Authentication hiding Taken Event perform

def isLoopback (host : String) : Bool :=
  decide (host = "127.0.0.1" ∨ host = "::1" ∨ host = "localhost")

/-- `enforce_loopback_if_no_keys`; a missing pool and a query that fails count no keys. -/
def enforceLoopbackIfNoKeys (pool : Option Database) (config : Config) (host : String) : String :=
  if isLoopback host then host
  else if config.allowUnauthenticated then host
  else
    let hasKeys := decide (0 < (pool.bind countActiveApiKeys).getD 0)
    if hasKeys then host else "127.0.0.1"

def activeKeys (db : Database) : Nat := db.keys.countP ApiKey.isActive

section Credentials
variable (crypto : Crypto) (trace : List Taken)

/-- A row with this id was active at some step of the run, and its hash is that of the key. -/
def Opened (apiKey id : String) : Prop :=
  ∃ taken ∈ trace, ∃ row ∈ taken.1.db.keys, row.id = id ∧ row.isActive = true ∧
    crypto.verifyApiKey apiKey row.hashedKey = true

/-- The request passes for what it brought. -/
def Credentialed (task : Task) (info : AuthInfo) : Prop :=
  isPathExempt task.request.path = true ∨
    presentsPassword crypto task.env task.request.headers = true ∨
    ∃ apiKey id, extractApiKey task.request.headers = some apiKey ∧ info.apiKeyId = some id ∧
      Opened crypto trace apiKey id

/-- No two keys that are asked with during the run share their place in the cache. -/
def Uncollided : Prop :=
  ∀ apiKey other, Asked trace apiKey → Asked trace other →
    crypto.hashForCache other = crypto.hashForCache apiKey → other = apiKey

/-- The key of the request, or another that takes its place in the cache, opened this row. -/
def Bears (task : Task) (id : String) : Prop :=
  ∃ apiKey other, extractApiKey task.request.headers = some apiKey ∧
    crypto.hashForCache other = crypto.hashForCache apiKey ∧ Asked trace other ∧
    Opened crypto trace other id

/-- What a task carries while keys are active. -/
def Sound (task : Task) : Prop :=
  match task.phase with
  | .counted (some count) => 0 < count
  | .verified _ (some key) => Bears crypto trace task key.id
  | .admitting key => Bears crypto trace task key.id
  | .done (.next info) => isPathExempt task.request.path = true ∨
      presentsPassword crypto task.env task.request.headers = true ∨
      ∃ id, info.apiKeyId = some id ∧ Bears crypto trace task id
  | _ => True

structure Guarded (s : State) : Prop where
  keyed : 0 < activeKeys s.db
  enabled : ∀ entry, s.auth.caches.enabled = some entry → entry.enabled = true
  tasks : ∀ i task, s.tasks i = some task → Sound crypto trace task

end Credentials

section Guarded
variable {crypto : Crypto} {trace : List Taken} {s target : State}

theorem read_opened {apiKey : String} {key : VerifiedKey} (step : Taken) (member : step ∈ trace)
    (read : verifyApiKeySync crypto step.1.db apiKey = some key) :
    Opened crypto trace apiKey key.id := by
  obtain ⟨row, listed, active, matched, rfl⟩ := verified_row crypto step.1.db apiKey key read
  exact ⟨step, member, row, listed, rfl, active, matched⟩

theorem Bears.later {task : Task} {id : String} (bears : Bears crypto trace task id)
    (more : List Taken) : Bears crypto (trace ++ more) task id := by
  obtain ⟨apiKey, other, presented, same, asked, opened⟩ := bears
  exact ⟨apiKey, other, presented, same, seen_later _ more asked, seen_later _ more opened⟩

theorem Sound.later {task : Task} (sound : Sound crypto trace task) (more : List Taken) :
    Sound crypto (trace ++ more) task := by
  unfold Sound at sound ⊢
  split at sound
  · exact sound
  · exact sound.later more
  · exact sound.later more
  · rcases sound with exempt | password | ⟨id, key, bears⟩
    · exact .inl exempt
    · exact .inr (.inl password)
    · exact .inr (.inr ⟨id, key, bears.later more⟩)
  · trivial

theorem fresh_enabled (guarded : Guarded crypto trace s) (enabled : Bool)
    (fresh : freshEnabled s.auth.caches s.now = some enabled) : enabled = true := by
  obtain ⟨entry, held, rfl⟩ := Option.map_eq_some_iff.mp fresh
  exact guarded.enabled entry (Option.filter_eq_some_iff.mp held).1

/-- An entry of the cache was read for a key that some request asked with. -/
theorem fresh_key (history : History crypto trace s) (task : Task) (apiKey : String)
    (key : VerifiedKey) (presented : extractApiKey task.request.headers = some apiKey)
    (fresh : freshKey crypto s.auth.caches apiKey s.now = some (some key)) :
    Bears crypto trace task key.id := by
  obtain ⟨entry, held, same⟩ := Option.map_eq_some_iff.mp fresh
  obtain ⟨pair, found, rfl⟩ := Option.map_eq_some_iff.mp (Option.filter_eq_some_iff.mp held).1
  obtain ⟨_, other, hashed, asked, -, read, member, -, verified⟩ :=
    history.keys pair (List.mem_of_find?_eq_some found)
  have named : pair.1 = crypto.hashForCache apiKey := by simpa using List.find?_some found
  rw [same] at verified
  exact ⟨apiKey, other, presented, hashed.trans named, asked, read_opened read member verified⟩

/-- With the credentials checked a task passes by password only, or goes on with its key. -/
theorem checked_sound (history : History crypto trace s) (task : Task) (enabled : Bool) :
    Sound crypto trace { task with phase := checked crypto task enabled s.auth.caches s.now } := by
  unfold checked
  split
  · trivial
  · split
    · next password => exact .inr (.inl password)
    · cases enabled with
      | false => trivial
      | true =>
          cases presented : extractApiKey task.request.headers with
          | none => trivial
          | some apiKey =>
              cases fresh : freshKey crypto s.auth.caches apiKey s.now with
              | none => simp only [fresh, Sound]
              | some result =>
                  cases result with
                  | none => simp only [fresh, answered, failed, Sound]
                  | some key =>
                      simp only [fresh, answered, Sound]
                      exact fresh_key history task apiKey key presented fresh

/-- The key that a task has had read is the one of its request. -/
theorem verify_bears (history : History crypto trace s) (i : Nat) (task : Task) (apiKey : String)
    (key : VerifiedKey) (held : s.tasks i = some task) (verifying : task.phase = .verifying apiKey)
    (verified : verifyApiKeySync crypto s.db apiKey = some key) (step : Taken) (here : step.1 = s) :
    Bears crypto (trace ++ [step]) task key.id := by
  have presented : extractApiKey task.request.headers = some apiKey := by
    have explained := history.explained i task held
    unfold Explained at explained
    rwa [verifying] at explained
  obtain ⟨start, member, starts⟩ := history.asked i task held
  have asked : Asked trace apiKey := ⟨start, member, i, _, _, _, starts, presented⟩
  exact ⟨apiKey, apiKey, presented, rfl, seen_later _ [step] asked,
    read_opened step (List.mem_append_right trace (List.mem_singleton_self _)) (here ▸ verified)⟩

/-- A step of a task, with what it leaves in the cache of the count. -/
theorem advanced_sound (guarded : Guarded crypto trace s) (history : History crypto trace s)
    (step : Taken) (i : Nat) (task : Task) (phase : Phase) (auth : AuthState) (here : step.1 = s)
    (held : s.tasks i = some task) (advances : Advances crypto s.db s.now s.auth task phase auth) :
    Sound crypto (trace ++ [step]) { task with phase } ∧
      ∀ entry, auth.caches.enabled = some entry → entry.enabled = true := by
  have sound := guarded.tasks i task held
  cases advances with
  | enabledFresh enabled reading fresh =>
      rw [fresh_enabled guarded enabled fresh]
      exact ⟨trivial, guarded.enabled⟩
  | enabledStale reading => exact ⟨trivial, guarded.enabled⟩
  | count counting =>
      refine ⟨?_, guarded.enabled⟩
      unfold countActiveApiKeys
      split
      · trivial
      · exact guarded.keyed
  | unread counted => exact ⟨trivial, guarded.enabled⟩
  | passwordOnly counted => exact ⟨trivial, guarded.enabled⟩
  | storeCount count counted =>
      have some : 0 < count := by simpa [Sound, counted] using sound
      simp only [some, decide_true]
      refine ⟨trivial, ?_⟩
      rintro entry ⟨⟩
      rfl
  | check enabled checking =>
      exact ⟨(checked_sound history task enabled).later _, guarded.enabled⟩
  | verify apiKey verifying =>
      refine ⟨?_, guarded.enabled⟩
      cases verified : verifyApiKeySync crypto s.db apiKey with
      | none => trivial
      | some key => exact verify_bears history i task apiKey key held verifying verified step here
  | storeKey apiKey result verified =>
      refine ⟨?_, guarded.enabled⟩
      cases result with
      | none => trivial
      | some key =>
          have bears : Bears crypto trace task key.id := by simpa [Sound, verified] using sound
          exact bears.later _
  | passKey key outcome after admitting passed =>
      have bears : Bears crypto trace task key.id := by simpa [Sound, admitting] using sound
      have same : auth.caches = s.auth.caches := by
        have kept := admit_caches task.config s.now task.request key s.auth
        rwa [passed] at kept
      refine ⟨?_, by rw [same]; exact guarded.enabled⟩
      cases outcome with
      | refused refusal => trivial
      | next info =>
          obtain ⟨rfl, -⟩ := admit_next task.config s.now task.request key s.auth auth info passed
          exact .inr (.inr ⟨key.id, rfl, bears.later _⟩)

theorem first_sound (config : Config) (env : Option String) (request : Request)
    (strict : config.allowUnauthenticated = false) :
    Sound crypto trace ⟨config, env, request, firstPhase config request⟩ := by
  unfold firstPhase
  split
  · next exempt => exact .inl exempt
  · simp [strict, Sound]

/-- Every request of the step is handled under this configuration. -/
def Strict (taken : Taken) : Prop :=
  ∀ i config env request, taken.2.1 = .start i config env request →
    config.allowUnauthenticated = false

theorem step_guarded (event : Event) (guarded : Guarded crypto trace s)
    (history : History crypto trace s) (strict : Strict (s, event, target))
    (keyed : 0 < activeKeys target.db) (taken : Does (perform crypto) s event target) :
    Guarded crypto (trace ++ [(s, event, target)]) target := by
  have kept : ∀ i task, s.tasks i = some task →
      Sound crypto (trace ++ [(s, event, target)]) task :=
    fun i task held => (guarded.tasks i task held).later _
  rcases step_kinds crypto s target event taken with
    ⟨j, config, env, request, starts, -, tasks, auth⟩ |
    ⟨j, old, phase, -, held, advances, tasks⟩ | ⟨tasks, auth⟩
  · refine ⟨keyed, auth ▸ guarded.enabled, fun i task found => ?_⟩
    rw [tasks] at found
    by_cases same : i = j
    · subst same
      simp only [Function.update_self, Option.some.injEq] at found
      rw [← found]
      exact first_sound config env request (strict i config env request starts)
    · rw [Function.update_of_ne same] at found
      exact kept i task found
  · obtain ⟨sound, enabled⟩ := advanced_sound guarded history (s, event, target) j old phase
      target.auth rfl held advances
    refine ⟨keyed, enabled, fun i task found => ?_⟩
    rw [tasks] at found
    by_cases same : i = j
    · subst same
      simp only [Function.update_self, Option.some.injEq] at found
      rw [← found]
      exact sound
    · rw [Function.update_of_ne same] at found
      exact kept i task found
  · exact ⟨keyed, auth ▸ guarded.enabled, tasks ▸ kept⟩

theorem run_guarded {start final : State} (run : Run (Does (perform crypto)) start trace final)
    (fresh : Fresh start) (initially : 0 < activeKeys start.db)
    (steps : ∀ taken ∈ trace, Strict taken ∧ 0 < activeKeys taken.2.2.db) :
    Guarded crypto trace final := by
  induction run with
  | nil => exact ⟨initially, by simp [fresh.1, emptyCaches], by simp [fresh.2]⟩
  | snoc before taken ih =>
      have guarded := ih fun earlier member => steps earlier (List.mem_append_left _ member)
      obtain ⟨strict, keyed⟩ := steps _ (List.mem_append_right _ (List.mem_singleton_self _))
      exact step_guarded _ guarded (run_history crypto _ _ _ fresh before) strict keyed taken

/-- A server that listens beyond the loopback address has an active key, or takes requests
without authentication by configuration. -/
theorem exposed_keyed (pool : Option Database) (config : Config) (host : String)
    (exposed : isLoopback (enforceLoopbackIfNoKeys pool config host) = false)
    (strict : config.allowUnauthenticated = false) :
    ∃ db, pool = some db ∧ 0 < activeKeys db := by
  unfold enforceLoopbackIfNoKeys at exposed
  split at exposed
  · next loopback => simp [loopback] at exposed
  · cases pool with
    | none => simp [strict, isLoopback] at exposed
    | some db =>
        refine ⟨db, rfl, ?_⟩
        by_contra none
        have zero : activeKeys db = 0 := by omega
        have counted : (countActiveApiKeys db).getD 0 = 0 := by
          unfold countActiveApiKeys
          split
          · rfl
          · exact zero
        simp [strict, counted, isLoopback] at exposed

end Guarded

/-- A server that was bound beyond the loopback address without being configured to take requests
without authentication lets a request pass, as long as a key stays active, only for an exempt
path, the dashboard password or a key that it presents and that was active during the run. -/
theorem exposed_server_guarded (crypto : Crypto) (config : Config) (host : String)
    (start final : State) (trace : List Taken)
    (run : Run (Does (perform crypto)) start trace final) (fresh : Fresh start)
    (exposed : isLoopback (enforceLoopbackIfNoKeys (some start.db) config host) = false)
    (strict : config.allowUnauthenticated = false)
    (steps : ∀ taken ∈ trace, Strict taken ∧ 0 < activeKeys taken.2.2.db)
    (distinct : Uncollided crypto trace) (i : Nat) (task : Task) (held : final.tasks i = some task)
    (info : AuthInfo) (passed : task.phase = .done (.next info)) :
    Credentialed crypto trace task info := by
  obtain ⟨db, same, initially⟩ := exposed_keyed (some start.db) config host exposed strict
  obtain rfl := Option.some.inj same
  have sound := (run_guarded run fresh initially steps).tasks i task held
  simp only [Sound, passed] at sound
  rcases sound with exempt | password | ⟨id, key, apiKey, other, presented, hashed, asked, opened⟩
  · exact .inl exempt
  · exact .inr (.inl password)
  · obtain ⟨first, member, starts⟩ := (run_history crypto _ _ _ fresh run).asked i task held
    obtain rfl := distinct apiKey other ⟨first, member, i, _, _, _, starts, presented⟩ asked hashed
    exact .inr (.inr ⟨other, id, presented, key, opened⟩)

/-- A server with one key that listens on every address, and two requests, of which the first
comes with another key. -/
def keyedStart : State :=
  ⟨⟨[adminRow], false, false⟩, 0, freshState, fun _ => none⟩

def keyedRequests : List Event :=
  .start 0 strictConfig none (keyedGet "/v1/models" "sk-proxy") ::
    .start 1 strictConfig none (keyedGet "/v1/models" "sk-admin") ::
    (List.replicate 6 (.advance 0) ++ List.replicate 5 (.advance 1))

theorem keyed_starts (trace : List Taken) (events : trace.map (fun taken => taken.2.1) = keyedRequests)
    (taken : Taken) (member : taken ∈ trace) (i : Nat) (config : Config) (env : Option String)
    (request : Request) (starts : taken.2.1 = .start i config env request) :
    config = strictConfig ∧ (request = keyedGet "/v1/models" "sk-proxy" ∨
      request = keyedGet "/v1/models" "sk-admin") := by
  have listed := event_listed keyedRequests events taken member
  rw [starts] at listed
  simp only [keyedRequests, List.mem_cons, List.mem_append, List.mem_replicate] at listed
  grind

theorem keyed_request_passes : isLoopback (enforceLoopbackIfNoKeys (some keyedStart.db)
      strictConfig "0.0.0.0") = false ∧
    ∃ trace final, Run (Does (perform sampleCrypto)) keyedStart trace final ∧
      ∃ task info, final.tasks 1 = some task ∧ task.phase = .done (.next info) ∧
        Credentialed sampleCrypto trace task info := by
  have exposed : isLoopback (enforceLoopbackIfNoKeys (some keyedStart.db)
      strictConfig "0.0.0.0") = false := by decide
  obtain ⟨trace, final, run, events, guarded, reached⟩ := @performed_allowed _ _ keyedStart
    (perform sampleCrypto) keyedRequests
    (fun s event => (perform sampleCrypto s event).any fun t => decide (0 < activeKeys t.db))
    (fun s => (s.tasks 1).any fun task =>
      task.phase = .done (.next (keyAuthenticated (verifiedOf adminRow)))) (by decide +kernel)
  obtain ⟨task, held, done⟩ := (Option.any_eq_true _ _).mp reached
  have steps : ∀ taken ∈ trace, Strict taken ∧ 0 < activeKeys taken.2.2.db := by
    intro taken member
    refine ⟨fun i config env request starts => ?_, ?_⟩
    · rw [(keyed_starts trace events taken member i config env request starts).1]
      rfl
    · have step : perform sampleCrypto taken.1 taken.2.1 = some taken.2.2 :=
        (run.transitions (fun _ => True) trivial (fun _ _ _ _ _ => trivial) taken member).2
      simpa [step] using guarded taken member
  have asked : ∀ apiKey, Asked trace apiKey → apiKey = "sk-proxy" ∨ apiKey = "sk-admin" := by
    rintro apiKey ⟨taken, member, i, config, env, request, starts, presented⟩
    rcases (keyed_starts trace events taken member i config env request starts).2 with rfl | rfl
    · exact .inl (Option.some.inj (presented.symm.trans (by decide)))
    · exact .inr (Option.some.inj (presented.symm.trans (by decide)))
  have distinct : Uncollided sampleCrypto trace := by
    intro apiKey other here there same
    rcases asked apiKey here with rfl | rfl <;> rcases asked other there with rfl | rfl
    · rfl
    · exact absurd same (by decide)
    · exact absurd same (by decide)
    · rfl
  refine ⟨exposed, trace, final, run, task, _, held, of_decide_eq_true done, ?_⟩
  exact exposed_server_guarded sampleCrypto strictConfig "0.0.0.0" keyedStart final trace run
    ⟨rfl, fun _ => rfl⟩ exposed rfl steps distinct 1 task held _ (of_decide_eq_true done)

end Ccflare.StartupBinding
