import Ccflare.Authentication

/-!
Requests under way beside calls that manage keys. Each access of the middleware to a
cache or to the key table is one step, so that other requests and the management of keys
come between any two of them. The handlers change the table alone, never a cache.
-/

namespace Ccflare.AuthTasks

open ProxyRequest Transition Authentication

/-- What a request does next with what it shares. -/
inductive Phase where
  | reading
  | counting
  | counted (count : Option Nat)
  | checking (authEnabled : Bool)
  | verifying (apiKey : String)
  | verified (apiKey : String) (result : Option VerifiedKey)
  | admitting (key : VerifiedKey)
  | done (outcome : Outcome)
  deriving DecidableEq

/-- The key that a task is about to be authenticated by, or was. -/
def Phase.keyId : Phase → Option String
  | .verified _ result => result.map VerifiedKey.id
  | .admitting key => some key.id
  | .done (.next info) => info.apiKeyId
  | _ => none

/-- A task that will be refused, or was, for want of a key. -/
def Phase.stalled : Phase → Prop
  | .counted none => True
  | .checking false => True
  | .verified _ none => True
  | .done (.refused refusal) => refusal ≠ scopeError ∧ refusal ≠ rateError
  | _ => False

structure Task where
  config : Config
  env : Option String
  request : Request
  phase : Phase
  deriving DecidableEq

structure State where
  db : Database
  now : Nat
  auth : AuthState
  tasks : Nat → Option Task

inductive Event where
  | start (task : Nat) (config : Config) (env : Option String) (request : Request)
  | advance (task : Nat)
  | disable (id : String)
  | enable (id : String)
  | delete (id : String)
  | create (row : ApiKey)
  | clearAll
  | setFails (countFails verifyFails : Bool)
  | tick (nanos : Nat)

def failed (task : Task) : Outcome :=
  .refused (authFailedResponse task.request.path (dashboardPassword task.env).isSome)

def firstPhase (config : Config) (request : Request) : Phase :=
  if isPathExempt request.path then .done (.next authenticated)
  else if config.allowUnauthenticated then .done (.next authenticated)
  else .reading

/-- Whether there are keys is known: the first-run case ends here. -/
def settled (task : Task) (enabled : Bool) : Phase :=
  match enabled, dashboardPassword task.env with
  | false, none =>
      if isDashboardGet task.request then .done (.next authenticated)
      else .done (.refused (authFailedResponse task.request.path false))
  | enabled, _ => .checking enabled

def answered (task : Task) : Option VerifiedKey → Phase
  | some key => .admitting key
  | none => .done (failed task)

def updateKeys (change : ApiKey → ApiKey) (id : String) (db : Database) : Database :=
  { db with keys := db.keys.map fun row => if row.id = id then change row else row }

def disableKey (id : String) : Database → Database :=
  updateKeys (fun row => { row with isActive := false }) id

def enableKey (id : String) : Database → Database :=
  updateKeys (fun row => { row with isActive := true }) id

def deleteKey (id : String) (db : Database) : Database :=
  { db with keys := db.keys.filter fun row => row.id ≠ id }

/-- The id and the hash of a key are unique. -/
def createKey (row : ApiKey) (db : Database) : Option Database :=
  if db.keys.any fun old => old.id = row.id || old.hashedKey = row.hashedKey then none
  else some { db with keys := db.keys ++ [row] }

section Steps

variable (crypto : Crypto)

def checked (task : Task) (enabled : Bool) (caches : Caches) (now : Nat) : Phase :=
  if failsCsrf task.request then .done (.refused csrfError)
  else if presentsPassword crypto task.env task.request.headers then .done (.next authenticated)
  else match enabled, extractApiKey task.request.headers with
    | true, some apiKey =>
        match freshKey crypto caches apiKey now with
        | some result => answered task result
        | none => .verifying apiKey
    | _, _ => .done (failed task)

def advance (db : Database) (now : Nat) (auth : AuthState) (task : Task) :
    Option (Phase × AuthState) :=
  match task.phase with
  | .reading =>
      match freshEnabled auth.caches now with
      | some enabled => some (settled task enabled, auth)
      | none => some (.counting, auth)
  | .counting => some (.counted (countActiveApiKeys db), auth)
  | .counted none =>
      match dashboardPassword task.env with
      | none => some (.done (.refused databaseError), auth)
      | some _ => some (.checking false, auth)
  -- The entry is stored with the time of the storing, not that of the count.
  | .counted (some count) =>
      let enabled := decide (0 < count)
      some (settled task enabled,
        { auth with caches := { auth.caches with enabled := some ⟨enabled, now⟩ } })
  | .checking enabled => some (checked crypto task enabled auth.caches now, auth)
  | .verifying apiKey => some (.verified apiKey (verifyApiKeySync crypto db apiKey), auth)
  -- Here too the time is read at the storing; a failed read is stored as a failure.
  | .verified apiKey result =>
      some (answered task result,
        { auth with caches := storeKey crypto auth.caches apiKey result now })
  | .admitting key =>
      let (outcome, auth) := admitKey task.config now task.request key auth
      some (.done outcome, auth)
  | .done _ => none

def perform (s : State) : Event → Option State
  | .start i config env request =>
      match s.tasks i with
      | some _ => none
      | none =>
          let task := ⟨config, env, request, firstPhase config request⟩
          some { s with tasks := Function.update s.tasks i (some task) }
  | .advance i => do
      let task ← s.tasks i
      let (phase, auth) ← advance crypto s.db s.now s.auth task
      some { s with auth := auth, tasks := Function.update s.tasks i (some { task with phase }) }
  | .disable id => some { s with db := disableKey id s.db }
  | .enable id => some { s with db := enableKey id s.db }
  | .delete id => some { s with db := deleteKey id s.db }
  | .create row => (createKey row s.db).map fun db => { s with db }
  | .clearAll => some { s with db := { s.db with keys := [] } }
  | .setFails countFails verifyFails =>
      some { s with db := { s.db with countFails, verifyFails } }
  | .tick nanos => some { s with now := s.now + nanos }

/-- A request that nothing comes between: its steps, to the last. -/
def alone (db : Database) (now : Nat) (task : Task) : Nat → Phase × AuthState → Phase × AuthState
  | 0, reached => reached
  | fuel + 1, (phase, auth) =>
      match advance crypto db now auth { task with phase } with
      | none => (phase, auth)
      | some next => alone db now task fuel next

def ended (answer : Outcome × AuthState) : Phase × AuthState := (.done answer.1, answer.2)

theorem alone_done (db : Database) (now : Nat) (task : Task) (fuel : Nat)
    (answer : Outcome × AuthState) :
    alone crypto db now task fuel (ended answer) = ended answer := by
  cases fuel <;> rfl

theorem alone_admitting (db : Database) (now : Nat) (task : Task) (fuel : Nat)
    (key : VerifiedKey) (auth : AuthState) :
    alone crypto db now task (fuel + 1) (.admitting key, auth) =
      ended (admitKey task.config now task.request key auth) :=
  alone_done crypto db now task fuel (admitKey task.config now task.request key auth)

theorem alone_answered (db : Database) (now : Nat) (task : Task) (fuel : Nat)
    (result : Option VerifiedKey) (auth : AuthState) :
    alone crypto db now task (fuel + 1) (answered task result, auth) =
      ended (match result with
        | some key => admitKey task.config now task.request key auth
        | none => (failed task, auth)) := by
  cases result with
  | some key => exact alone_admitting crypto db now task fuel key auth
  | none => exact alone_done crypto db now task (fuel + 1) (failed task, auth)

/-- From the credentials on, the steps are those of the middleware. -/
theorem alone_checking (db : Database) (now : Nat) (task : Task) (fuel : Nat) (enabled : Bool)
    (auth : AuthState) :
    alone crypto db now task (fuel + 4) (.checking enabled, auth) =
      ended (checkCredentials crypto task.config task.env (some db) now task.request enabled
        auth) := by
  change alone crypto db now task (fuel + 3) (checked crypto task enabled auth.caches now, auth) = _
  unfold checked checkCredentials
  split
  · exact alone_done crypto db now task (fuel + 3) (.refused csrfError, auth)
  · split
    · exact alone_done crypto db now task (fuel + 3) (.next authenticated, auth)
    · cases enabled with
      | false => exact alone_done crypto db now task (fuel + 3) (failed task, auth)
      | true =>
          cases extractApiKey task.request.headers with
          | none => exact alone_done crypto db now task (fuel + 3) (failed task, auth)
          | some apiKey =>
              simp only [verifyApiKeyCached]
              cases freshKey crypto auth.caches apiKey now with
              | some result =>
                  simp only [alone_answered]
                  cases result <;> rfl
              | none =>
                  change alone crypto db now task (fuel + 1) (answered task _, _) = _
                  rw [alone_answered]
                  cases verifyApiKeySync crypto db apiKey <;> rfl

theorem alone_settled (db : Database) (now : Nat) (task : Task) (fuel : Nat) (enabled : Bool)
    (auth : AuthState) :
    alone crypto db now task (fuel + 4) (settled task enabled, auth) =
      ended (match some enabled, dashboardPassword task.env with
        | some false, none =>
            if isDashboardGet task.request then (.next authenticated, auth)
            else (.refused (authFailedResponse task.request.path false), auth)
        | _, _ => checkCredentials crypto task.config task.env (some db) now task.request enabled
            auth) := by
  unfold settled
  cases enabled with
  | true => exact alone_checking crypto db now task fuel true auth
  | false =>
      cases dashboardPassword task.env with
      | some password => exact alone_checking crypto db now task fuel false auth
      | none =>
          cases isDashboardGet task.request with
          | true => exact alone_done crypto db now task (fuel + 4) (.next authenticated, auth)
          | false => exact alone_done crypto db now task (fuel + 4) (.refused _, auth)

/-- A request that nothing comes between is answered as the middleware answers it. -/
theorem alone_middleware (config : Config) (env : Option String) (db : Database) (now : Nat)
    (request : Request) (auth : AuthState) :
    alone crypto db now ⟨config, env, request, firstPhase config request⟩ 7
        (firstPhase config request, auth) =
      ended (authMiddleware crypto config env (some db) now request auth) := by
  unfold firstPhase authMiddleware
  split
  · exact alone_done crypto db now _ 7 (.next authenticated, auth)
  · split
    · exact alone_done crypto db now _ 7 (.next authenticated, auth)
    · simp only [readEnabled, isAuthEnabled]
      generalize start : (Task.mk config env request _) = task
      obtain ⟨rfl, rfl, rfl⟩ : task.config = config ∧ task.env = env ∧ task.request = request := by
        subst start
        exact ⟨rfl, rfl, rfl⟩
      cases fresh : freshEnabled auth.caches now with
      | some enabled =>
          have first : alone crypto db now task 7 (.reading, auth) =
              alone crypto db now task 6 (settled task enabled, auth) := by
            simp only [alone, advance, fresh]
            rfl
          rw [first, alone_settled crypto db now task 2 enabled auth]
          cases enabled <;> cases dashboardPassword task.env <;> rfl
      | none =>
          have first : alone crypto db now task 7 (.reading, auth) =
              alone crypto db now task 5 (.counted (countActiveApiKeys db), auth) := by
            simp only [alone, advance, fresh]
          rw [first]
          cases countActiveApiKeys db with
          | none =>
              cases unset : dashboardPassword task.env with
              | none =>
                  have last : alone crypto db now task 5 (.counted none, auth) =
                      alone crypto db now task 4 (.done (.refused databaseError), auth) := by
                    simp only [alone, advance, unset]
                  rw [last]
                  exact alone_done crypto db now task 4 (.refused databaseError, auth)
              | some password =>
                  have next : alone crypto db now task 5 (.counted none, auth) =
                      alone crypto db now task 4 (.checking false, auth) := by
                    simp only [alone, advance, unset]
                  rw [next]
                  exact alone_checking crypto db now task 0 false auth
          | some count =>
              change alone crypto db now task 4 (settled task (decide (0 < count)), _) = _
              rw [alone_settled crypto db now task 0]
              dsimp only
              cases decide (0 < count) <;> cases dashboardPassword task.env <;> rfl

/-- What a task can do next, with what its step reads and writes. -/
inductive Advances (db : Database) (now : Nat) (auth : AuthState) (task : Task) :
    Phase → AuthState → Prop where
  | enabledFresh (enabled : Bool) : task.phase = .reading →
      freshEnabled auth.caches now = some enabled →
      Advances db now auth task (settled task enabled) auth
  | enabledStale : task.phase = .reading → Advances db now auth task .counting auth
  | count : task.phase = .counting →
      Advances db now auth task (.counted (countActiveApiKeys db)) auth
  | unread : task.phase = .counted none →
      Advances db now auth task (.done (.refused databaseError)) auth
  | passwordOnly : task.phase = .counted none →
      Advances db now auth task (.checking false) auth
  | storeCount (count : Nat) : task.phase = .counted (some count) →
      Advances db now auth task (settled task (decide (0 < count)))
        { auth with caches := { auth.caches with enabled := some ⟨decide (0 < count), now⟩ } }
  | check (enabled : Bool) : task.phase = .checking enabled →
      Advances db now auth task (checked crypto task enabled auth.caches now) auth
  | verify (apiKey : String) : task.phase = .verifying apiKey →
      Advances db now auth task (.verified apiKey (verifyApiKeySync crypto db apiKey)) auth
  | storeKey (apiKey : String) (result : Option VerifiedKey) :
      task.phase = .verified apiKey result →
      Advances db now auth task (answered task result)
        { auth with caches := storeKey crypto auth.caches apiKey result now }
  | passKey (key : VerifiedKey) (outcome : Outcome) (after : AuthState) :
      task.phase = .admitting key →
      admitKey task.config now task.request key auth = (outcome, after) →
      Advances db now auth task (.done outcome) after

theorem advance_advances (db : Database) (now : Nat) (auth after : AuthState) (task : Task)
    (phase : Phase) (moved : advance crypto db now auth task = some (phase, after)) :
    Advances crypto db now auth task phase after := by
  unfold advance at moved
  cases held : task.phase with
  | reading =>
      rw [held] at moved
      cases fresh : freshEnabled auth.caches now with
      | some enabled =>
          simp only [fresh, Option.some.injEq, Prod.mk.injEq] at moved
          obtain ⟨rfl, rfl⟩ := moved
          exact .enabledFresh enabled held fresh
      | none =>
          simp only [fresh, Option.some.injEq, Prod.mk.injEq] at moved
          obtain ⟨rfl, rfl⟩ := moved
          exact .enabledStale held
  | counting =>
      rw [held] at moved
      cases moved
      exact .count held
  | counted count =>
      rw [held] at moved
      cases count with
      | none =>
          cases unset : dashboardPassword task.env with
          | none =>
              simp only [unset, Option.some.injEq, Prod.mk.injEq] at moved
              obtain ⟨rfl, rfl⟩ := moved
              exact .unread held
          | some password =>
              simp only [unset, Option.some.injEq, Prod.mk.injEq] at moved
              obtain ⟨rfl, rfl⟩ := moved
              exact .passwordOnly held
      | some count =>
          cases moved
          exact .storeCount count held
  | checking enabled =>
      rw [held] at moved
      cases moved
      exact .check enabled held
  | verifying apiKey =>
      rw [held] at moved
      cases moved
      exact .verify apiKey held
  | verified apiKey result =>
      rw [held] at moved
      cases moved
      exact .storeKey apiKey result held
  | admitting key =>
      rw [held] at moved
      cases moved
      exact .passKey key _ _ held rfl
  | done outcome =>
      rw [held] at moved
      cases moved

/-- A step leaves a task as it is, starts it or advances it. -/
inductive TaskStep (s : State) (event : Event) (t : State) (i : Nat) : Task → Prop where
  | kept (task : Task) : s.tasks i = some task → TaskStep s event t i task
  | started (config : Config) (env : Option String) (request : Request) :
      event = .start i config env request → s.tasks i = none →
      TaskStep s event t i ⟨config, env, request, firstPhase config request⟩
  | advanced (task : Task) (phase : Phase) : event = .advance i → s.tasks i = some task →
      Advances crypto s.db s.now s.auth task phase t.auth →
      TaskStep s event t i { task with phase }

theorem advance_step (s t : State) (j : Nat) (taken : Does (perform crypto) s (.advance j) t) :
    ∃ task phase, s.tasks j = some task ∧
      Advances crypto s.db s.now s.auth task phase t.auth ∧ t.db = s.db ∧ t.now = s.now ∧
      t.tasks = Function.update s.tasks j (some { task with phase }) := by
  change perform crypto s (.advance j) = some t at taken
  simp only [perform, Option.bind_eq_bind, Option.bind_eq_some_iff, Option.some.injEq] at taken
  obtain ⟨task, held, ⟨phase, auth⟩, moved, rfl⟩ := taken
  exact ⟨task, phase, held, advance_advances crypto _ _ _ _ task phase moved, rfl, rfl, rfl⟩

theorem start_step (s t : State) (j : Nat) (config : Config) (env : Option String)
    (request : Request) (taken : Does (perform crypto) s (.start j config env request) t) :
    s.tasks j = none ∧ t = { s with
      tasks := Function.update s.tasks j
        (some ⟨config, env, request, firstPhase config request⟩) } := by
  change perform crypto s (.start j config env request) = some t at taken
  unfold perform at taken
  cases held : s.tasks j with
  | some task => simp [held] at taken
  | none =>
      simp only [held, Option.some.injEq] at taken
      exact ⟨rfl, taken.symm⟩

/-- Only starts and advances change a task, and only advances a cache. -/
theorem step_kinds (s t : State) (event : Event) (taken : Does (perform crypto) s event t) :
    (∃ j config env request, event = .start j config env request ∧ s.tasks j = none ∧
      t.tasks = Function.update s.tasks j
        (some ⟨config, env, request, firstPhase config request⟩) ∧ t.auth = s.auth) ∨
    (∃ j task phase, event = .advance j ∧ s.tasks j = some task ∧
      Advances crypto s.db s.now s.auth task phase t.auth ∧
      t.tasks = Function.update s.tasks j (some { task with phase })) ∨
    (t.tasks = s.tasks ∧ t.auth = s.auth) := by
  cases event with
  | start j config env request =>
      obtain ⟨absent, rfl⟩ := start_step crypto s t j config env request taken
      exact Or.inl ⟨j, config, env, request, rfl, absent, rfl, rfl⟩
  | advance j =>
      obtain ⟨task, phase, held, moved, -, -, tasks⟩ := advance_step crypto s t j taken
      exact Or.inr (Or.inl ⟨j, task, phase, rfl, held, moved, tasks⟩)
  | create row =>
      obtain ⟨db, -, rfl⟩ := Option.map_eq_some_iff.mp taken
      exact Or.inr (Or.inr ⟨rfl, rfl⟩)
  | disable id => cases taken; exact Or.inr (Or.inr ⟨rfl, rfl⟩)
  | enable id => cases taken; exact Or.inr (Or.inr ⟨rfl, rfl⟩)
  | delete id => cases taken; exact Or.inr (Or.inr ⟨rfl, rfl⟩)
  | clearAll => cases taken; exact Or.inr (Or.inr ⟨rfl, rfl⟩)
  | setFails countFails verifyFails => cases taken; exact Or.inr (Or.inr ⟨rfl, rfl⟩)
  | tick nanos => cases taken; exact Or.inr (Or.inr ⟨rfl, rfl⟩)

theorem task_step (s t : State) (event : Event) (i : Nat) (task : Task)
    (taken : Does (perform crypto) s event t) (held : t.tasks i = some task) :
    TaskStep crypto s event t i task := by
  rcases step_kinds crypto s t event taken with
    ⟨j, config, env, request, starts, absent, tasks, -⟩ |
    ⟨j, old, phase, advances, before, moved, tasks⟩ | ⟨tasks, -⟩
  · rw [tasks] at held
    by_cases same : i = j
    · subst same
      simp only [Function.update_self, Option.some.injEq] at held
      subst held
      exact .started config env request starts absent
    · simp only [ne_eq, same, not_false_eq_true, Function.update_of_ne] at held
      exact .kept task held
  · rw [tasks] at held
    by_cases same : i = j
    · subst same
      simp only [Function.update_self, Option.some.injEq] at held
      subst held
      exact .advanced old phase advances before moved
    · simp only [ne_eq, same, not_false_eq_true, Function.update_of_ne] at held
      exact .kept task held
  · rw [tasks] at held
    exact .kept task held

theorem auth_step (s t : State) (event : Event) (taken : Does (perform crypto) s event t) :
    t.auth = s.auth ∨ ∃ j task phase, event = .advance j ∧ s.tasks j = some task ∧
      Advances crypto s.db s.now s.auth task phase t.auth := by
  rcases step_kinds crypto s t event taken with
    ⟨_, _, _, _, -, -, -, same⟩ | ⟨j, task, phase, advances, held, moved, -⟩ | ⟨-, same⟩
  · exact Or.inl same
  · exact Or.inr ⟨j, task, phase, advances, held, moved⟩
  · exact Or.inl same

inductive Settled (task : Task) (enabled : Bool) : Phase → Prop where
  | checking : Settled task enabled (.checking enabled)
  | firstRun : Settled task enabled (.done (.next authenticated))
  | refused : enabled = false → Settled task enabled (.done (failed task))

theorem settled_settled (task : Task) (enabled : Bool) :
    Settled task enabled (settled task enabled) := by
  unfold settled
  cases enabled with
  | true => exact .checking
  | false =>
      cases unset : dashboardPassword task.env with
      | some password => exact .checking
      | none =>
          cases isDashboardGet task.request with
          | true => exact .firstRun
          | false =>
              have same : failed task =
                  .refused (authFailedResponse task.request.path false) := by
                simp [failed, unset]
              exact same ▸ .refused rfl

inductive Checked (task : Task) (enabled : Bool) (caches : Caches) (now : Nat) : Phase → Prop where
  | csrf : failsCsrf task.request = true →
      Checked task enabled caches now (.done (.refused csrfError))
  | password : Checked task enabled caches now (.done (.next authenticated))
  | hit (apiKey : String) (result : Option VerifiedKey) : enabled = true →
      extractApiKey task.request.headers = some apiKey →
      freshKey crypto caches apiKey now = some result →
      Checked task enabled caches now (answered task result)
  | miss (apiKey : String) : extractApiKey task.request.headers = some apiKey →
      Checked task enabled caches now (.verifying apiKey)
  | closed : enabled = false ∨ extractApiKey task.request.headers = none →
      Checked task enabled caches now (.done (failed task))

theorem checked_checked (task : Task) (enabled : Bool) (caches : Caches) (now : Nat) :
    Checked crypto task enabled caches now (checked crypto task enabled caches now) := by
  unfold checked
  split
  · rename_i fails
    exact .csrf fails
  · split
    · exact .password
    · cases enabled with
      | false => exact .closed (Or.inl rfl)
      | true =>
          cases presented : extractApiKey task.request.headers with
          | none => exact .closed (Or.inr presented)
          | some apiKey =>
              cases fresh : freshKey crypto caches apiKey now with
              | some result =>
                  simp only [fresh]
                  exact .hit apiKey result rfl presented fresh
              | none =>
                  simp only [fresh]
                  exact .miss apiKey presented

abbrev Taken := State × Event × State

/-- Task `i` takes the step that `phase` is waiting for. -/
def Acts (taken : Taken) (i : Nat) (phase : Phase) : Prop :=
  taken.2.1 = .advance i ∧ ∃ task, taken.1.tasks i = some task ∧ task.phase = phase

def ReadsKeys (taken : Taken) (i : Nat) (apiKey : String) (result : Option VerifiedKey) : Prop :=
  Acts taken i (.verifying apiKey) ∧ verifyApiKeySync crypto taken.1.db apiKey = result

def StoresKey (taken : Taken) (i : Nat) (apiKey : String) (result : Option VerifiedKey) : Prop :=
  Acts taken i (.verified apiKey result)

def Counts (taken : Taken) (i : Nat) (count : Option Nat) : Prop :=
  Acts taken i .counting ∧ countActiveApiKeys taken.1.db = count

def StoresCount (taken : Taken) (i count : Nat) : Prop := Acts taken i (.counted (some count))

/-- Task `i` finds a fresh entry for its key. -/
def LooksUp (taken : Taken) (i : Nat) (apiKey : String) (result : Option VerifiedKey) : Prop :=
  taken.2.1 = .advance i ∧
    (∃ task, taken.1.tasks i = some task ∧ task.phase = .checking true ∧
      extractApiKey task.request.headers = some apiKey) ∧
    freshKey crypto taken.1.auth.caches apiKey taken.1.now = some result

def LooksEnabled (taken : Taken) (i : Nat) (enabled : Bool) : Prop :=
  Acts taken i .reading ∧ freshEnabled taken.1.auth.caches taken.1.now = some enabled

def Asked (trace : List Taken) (apiKey : String) : Prop :=
  ∃ taken ∈ trace, ∃ i config env request, taken.2.1 = .start i config env request ∧
    extractApiKey request.headers = some apiKey

/-- What a task waits with was read by itself, for the key it presents. -/
def Explained (trace : List Taken) (i : Nat) (task : Task) : Prop :=
  match task.phase with
  | .counted count => ∃ read ∈ trace, Counts read i count
  | .verifying apiKey => extractApiKey task.request.headers = some apiKey
  | .verified apiKey result => extractApiKey task.request.headers = some apiKey ∧
      ∃ read ∈ trace, ReadsKeys crypto read i apiKey result
  | _ => True

def KeySource (trace : List Taken) (entry : String × CachedKeyResult) : Prop :=
  ∃ i apiKey, crypto.hashForCache apiKey = entry.1 ∧ Asked trace apiKey ∧
    (∃ stored ∈ trace, StoresKey stored i apiKey entry.2.result ∧
      stored.1.now = entry.2.verifiedAt) ∧
    ∃ read ∈ trace, ReadsKeys crypto read i apiKey entry.2.result

def EnabledSource (trace : List Taken) (entry : AuthEnabledCache) : Prop :=
  ∃ i count, entry.enabled = decide (0 < count) ∧
    (∃ stored ∈ trace, StoresCount stored i count ∧ stored.1.now = entry.checkedAt) ∧
    ∃ read ∈ trace, Counts read i (some count)

/-- Both caches hold what some task read and stored. -/
structure History (trace : List Taken) (s : State) : Prop where
  asked : ∀ i task, s.tasks i = some task → ∃ taken ∈ trace,
    taken.2.1 = .start i task.config task.env task.request
  explained : ∀ i task, s.tasks i = some task → Explained crypto trace i task
  keys : ∀ entry ∈ s.auth.caches.keys, KeySource crypto trace entry
  enabled : ∀ entry, s.auth.caches.enabled = some entry → EnabledSource trace entry

theorem explained_later (trace : List Taken) (taken : Taken) (i : Nat) (task : Task)
    (explained : Explained crypto trace i task) :
    Explained crypto (trace ++ [taken]) i task := by
  unfold Explained at *
  cases held : task.phase with
  | counted count =>
      rw [held] at explained
      exact seen_later _ [taken] explained
  | verifying apiKey =>
      rw [held] at explained
      exact explained
  | verified apiKey result =>
      rw [held] at explained
      obtain ⟨presented, read⟩ := explained
      exact ⟨presented, seen_later _ [taken] read⟩
  | reading => trivial
  | counting => trivial
  | checking enabled => trivial
  | admitting key => trivial
  | done outcome => trivial

theorem first_explained (trace : List Taken) (i : Nat) (config : Config) (env : Option String)
    (request : Request) :
    Explained crypto trace i ⟨config, env, request, firstPhase config request⟩ := by
  unfold firstPhase
  split
  · trivial
  · split <;> trivial

theorem settled_explained (trace : List Taken) (i : Nat) (task : Task) (enabled : Bool) :
    Explained crypto trace i { task with phase := settled task enabled } := by
  have shape := settled_settled task enabled
  generalize settled task enabled = phase at shape ⊢
  cases shape <;> trivial

theorem answered_explained (trace : List Taken) (i : Nat) (task : Task)
    (result : Option VerifiedKey) :
    Explained crypto trace i { task with phase := answered task result } := by
  cases result <;> trivial

/-- A step explains the phase it leaves its task in. -/
theorem advanced_explained (trace : List Taken) (s t : State) (i : Nat) (task : Task)
    (phase : Phase) (held : s.tasks i = some task) (explained : Explained crypto trace i task)
    (moved : Advances crypto s.db s.now s.auth task phase t.auth) :
    Explained crypto (trace ++ [(s, .advance i, t)]) i { task with phase } := by
  have last : (s, Event.advance i, t) ∈ trace ++ [(s, .advance i, t)] := by simp
  generalize auth : t.auth = after at moved
  cases moved with
  | enabledFresh enabled => exact settled_explained crypto _ i task enabled
  | enabledStale => trivial
  | count counting => exact ⟨_, last, ⟨rfl, task, held, counting⟩, rfl⟩
  | unread => trivial
  | passwordOnly => trivial
  | storeCount count => exact settled_explained crypto _ i task _
  | check enabled =>
      have shape := checked_checked crypto task enabled s.auth.caches s.now
      generalize checked crypto task enabled s.auth.caches s.now = phase at shape ⊢
      cases shape with
      | csrf => trivial
      | password => trivial
      | hit apiKey result => exact answered_explained crypto _ i task result
      | miss apiKey presented => exact presented
      | closed => trivial
  | verify apiKey verifying =>
      have presented : extractApiKey task.request.headers = some apiKey := by
        unfold Explained at explained
        rw [verifying] at explained
        exact explained
      exact ⟨presented, _, last, ⟨rfl, task, held, verifying⟩, rfl⟩
  | storeKey apiKey result => exact answered_explained crypto _ i task result
  | passKey key => trivial

theorem key_source_later (trace : List Taken) (taken : Taken) (entry : String × CachedKeyResult)
    (source : KeySource crypto trace entry) : KeySource crypto (trace ++ [taken]) entry := by
  obtain ⟨i, apiKey, hashed, asked, stored, read⟩ := source
  exact ⟨i, apiKey, hashed, seen_later _ [taken] asked, seen_later _ [taken] stored,
    seen_later _ [taken] read⟩

theorem enabled_source_later (trace : List Taken) (taken : Taken) (entry : AuthEnabledCache)
    (source : EnabledSource trace entry) : EnabledSource (trace ++ [taken]) entry := by
  obtain ⟨i, count, enabled, stored, read⟩ := source
  exact ⟨i, count, enabled, seen_later _ [taken] stored, seen_later _ [taken] read⟩

/-- Only the two storing steps write to a cache. -/
theorem advances_caches (db : Database) (now : Nat) (auth after : AuthState) (task : Task)
    (phase : Phase) (moved : Advances crypto db now auth task phase after) :
    after.caches = auth.caches ∨
      (∃ count, task.phase = .counted (some count) ∧ after.caches =
        { auth.caches with enabled := some ⟨decide (0 < count), now⟩ }) ∨
      ∃ apiKey result, task.phase = .verified apiKey result ∧
        after.caches = storeKey crypto auth.caches apiKey result now := by
  cases moved with
  | enabledFresh => exact Or.inl rfl
  | enabledStale => exact Or.inl rfl
  | count => exact Or.inl rfl
  | unread => exact Or.inl rfl
  | passwordOnly => exact Or.inl rfl
  | storeCount count counted => exact Or.inr (Or.inl ⟨count, counted, rfl⟩)
  | check => exact Or.inl rfl
  | verify => exact Or.inl rfl
  | storeKey apiKey result verified => exact Or.inr (Or.inr ⟨apiKey, result, verified, rfl⟩)
  | passKey key outcome _ _ admitted =>
      have same := admit_caches task.config now task.request key auth
      rw [admitted] at same
      exact Or.inl same

theorem step_asked (trace : List Taken) (s t : State) (event : Event)
    (history : History crypto trace s) (taken : Does (perform crypto) s event t) (i : Nat)
    (task : Task) (held : t.tasks i = some task) :
    ∃ taken ∈ trace ++ [(s, event, t)],
      taken.2.1 = .start i task.config task.env task.request := by
  have earlier : ∀ old, s.tasks i = some old → ∃ taken ∈ trace ++ [(s, event, t)],
      taken.2.1 = .start i old.config old.env old.request := by
    intro old before
    exact seen_later _ _ (history.asked i old before)
  cases task_step crypto s t event i task taken held with
  | kept _ before => exact earlier task before
  | started config env request starts => exact ⟨(s, event, t), by simp, starts⟩
  | advanced old phase _ before => exact earlier old before

theorem step_explained (trace : List Taken) (s t : State) (event : Event)
    (history : History crypto trace s) (taken : Does (perform crypto) s event t) (i : Nat)
    (task : Task) (held : t.tasks i = some task) :
    Explained crypto (trace ++ [(s, event, t)]) i task := by
  cases task_step crypto s t event i task taken held with
  | kept _ before => exact explained_later crypto trace _ i task (history.explained i task before)
  | started config env request => exact first_explained crypto _ i config env request
  | advanced old phase acts before moved =>
      subst acts
      exact advanced_explained crypto trace s t i old phase before (history.explained i old before)
        moved

theorem step_keys (trace : List Taken) (s t : State) (event : Event)
    (history : History crypto trace s) (taken : Does (perform crypto) s event t)
    (entry : String × CachedKeyResult) (held : entry ∈ t.auth.caches.keys) :
    KeySource crypto (trace ++ [(s, event, t)]) entry := by
  have earlier : entry ∈ s.auth.caches.keys → KeySource crypto (trace ++ [(s, event, t)]) entry :=
    fun before => key_source_later crypto trace _ entry (history.keys entry before)
  rcases auth_step crypto s t event taken with same | ⟨j, task, phase, acts, before, moved⟩
  · rw [same] at held
    exact earlier held
  · rcases advances_caches crypto _ _ _ _ task phase moved with
      same | ⟨count, -, written⟩ | ⟨apiKey, result, verified, written⟩
    · rw [same] at held
      exact earlier held
    · rw [written] at held
      exact earlier held
    · rw [written] at held
      rcases stored_keys crypto _ apiKey result s.now entry held with rfl | old
      · have explained := history.explained j task before
        unfold Explained at explained
        rw [verified] at explained
        obtain ⟨presented, read⟩ := explained
        obtain ⟨start, asked, starts⟩ := history.asked j task before
        have sent : Asked trace apiKey := ⟨start, asked, j, _, _, _, starts, presented⟩
        exact ⟨j, apiKey, rfl, seen_later _ _ sent,
          ⟨(s, event, t), by simp, ⟨acts, task, before, verified⟩, rfl⟩, seen_later _ _ read⟩
      · exact earlier old

theorem step_enabled (trace : List Taken) (s t : State) (event : Event)
    (history : History crypto trace s) (taken : Does (perform crypto) s event t)
    (entry : AuthEnabledCache) (held : t.auth.caches.enabled = some entry) :
    EnabledSource (trace ++ [(s, event, t)]) entry := by
  have earlier : s.auth.caches.enabled = some entry →
      EnabledSource (trace ++ [(s, event, t)]) entry :=
    fun before => enabled_source_later trace _ entry (history.enabled entry before)
  rcases auth_step crypto s t event taken with same | ⟨j, task, phase, acts, before, moved⟩
  · rw [same] at held
    exact earlier held
  · rcases advances_caches crypto _ _ _ _ task phase moved with
      same | ⟨count, counted, written⟩ | ⟨apiKey, result, -, written⟩
    · rw [same] at held
      exact earlier held
    · rw [written] at held
      cases held
      have explained := history.explained j task before
      unfold Explained at explained
      rw [counted] at explained
      exact ⟨j, count, rfl, ⟨(s, event, t), by simp, ⟨acts, task, before, counted⟩, rfl⟩,
        seen_later _ _ explained⟩
    · rw [written] at held
      exact earlier held

def Fresh (s : State) : Prop := s.auth.caches = emptyCaches ∧ ∀ i, s.tasks i = none

theorem run_history (start s : State) (trace : List Taken) (fresh : Fresh start)
    (run : Run (Does (perform crypto)) start trace s) : History crypto trace s := by
  apply run.history (History crypto)
  · obtain ⟨caches, tasks⟩ := fresh
    constructor
    · intro i task held
      rw [tasks] at held
      cases held
    · intro i task held
      rw [tasks] at held
      cases held
    · rw [caches]
      rintro _ ⟨⟩
    · rw [caches]
      rintro _ ⟨⟩
  · intro before source event target history taken
    constructor
    · exact step_asked crypto before source target event history taken
    · exact step_explained crypto before source target event history taken
    · exact step_keys crypto before source target event history taken
    · exact step_enabled crypto before source target event history taken

end Steps

end Ccflare.AuthTasks
