import Mathlib.Logic.Function.Basic
import Ccflare.ProxyRequest
import Ccflare.Transition

/-!
The authentication middleware: a chain of early returns over two kinds of credentials,
two caches and the key table, in the order of the source. The hash and the readers it
takes from libraries are a record of functions. An instant is a count of nanoseconds.
-/

namespace Ccflare.Authentication

open ProxyRequest Transition

inductive KeyScope where
  | admin
  | proxy
  deriving DecidableEq

/-- Unknown values default to admin. -/
def KeyScope.fromDb (scope : String) : KeyScope := if scope = "proxy" then .proxy else .admin

/-- What the verification reads of a row of `api_keys`. -/
structure ApiKey where
  id : String
  name : String
  hashedKey : String
  isActive : Bool
  scope : Option String
  deriving DecidableEq

structure VerifiedKey where
  id : String
  name : String
  scope : KeyScope
  deriving DecidableEq

structure AuthInfo where
  isAuthenticated : Bool
  apiKeyId : Option String
  apiKeyName : Option String
  keyScope : Option KeyScope
  deriving DecidableEq

/-- The rows, and which of the two queries fail. -/
structure Database where
  keys : List ApiKey
  countFails : Bool
  verifyFails : Bool
  deriving DecidableEq

/-- `verify_api_key` holds on a key and a stored hash when it is `Ok(true)`. -/
structure Crypto where
  verifyApiKey : String → String → Bool
  hashForCache : String → String
  decodeBase64 : String → Option String

structure CachedKeyResult where
  result : Option VerifiedKey
  verifiedAt : Nat
  deriving DecidableEq

structure AuthEnabledCache where
  enabled : Bool
  checkedAt : Nat
  deriving DecidableEq

structure Caches where
  enabled : Option AuthEnabledCache
  keys : List (String × CachedKeyResult)
  deriving DecidableEq

def apiKeyCacheTtlSecs : Nat := 300

def apiKeyNegativeCacheTtlSecs : Nat := 30

def authEnabledCacheTtlSecs : Nat := 10

def apiKeyCacheMaxSize : Nat := 1000

/-- `earlier.elapsed().as_secs()`. -/
def elapsedSecs (earlier now : Nat) : Nat := (now - earlier) / 1000000000

/-- The configuration as its getters read it. -/
structure Config where
  allowUnauthenticated : Bool
  maxRequestsPerMinutePerKey : Option Nat
  deriving DecidableEq

structure Request where
  method : String
  path : String
  headers : Headers
  deriving DecidableEq

structure Refusal where
  status : Nat
  message : String
  headers : Headers
  deriving DecidableEq

/-- The middleware calls `next` with an extension, or answers itself. -/
inductive Outcome where
  | next (info : AuthInfo)
  | refused (refusal : Refusal)
  deriving DecidableEq

abbrev RpmTracker := String → List Nat

structure AuthState where
  caches : Caches
  rpm : RpmTracker

def nonEmpty (text : String) : Option String := if text = "" then none else some text

def textHeader (headers : Headers) (name : String) : Option String :=
  (headerGet headers name).bind headerText

def extractApiKey (headers : Headers) : Option String :=
  ((textHeader headers "x-api-key").bind fun value => nonEmpty (Text.trim value)).or
    (((textHeader headers "authorization").bind (Text.stripPrefix "Bearer ")).bind fun token =>
      nonEmpty (Text.trim token))

/-- `splitn(2, ':').nth(1)`. -/
def afterColon (text : String) : Option String :=
  match text.toList.dropWhile (· ≠ ':') with
  | [] => none
  | _ :: rest => some (String.ofList rest)

def normalizePath (path : String) : String :=
  "/" ++ String.ofList (path.toList.dropWhile (· = '/'))

def isPathExempt (path : String) : Bool :=
  let path := normalizePath path
  path = "/health" || path = "/api/oauth/callback" || Text.startsWith "/dashboard/assets/" path

def isApiPath (path : String) : Bool := Text.startsWith "/api/" (normalizePath path)

/-- A GET of the dashboard or of a path below it. -/
def isDashboardGet (request : Request) : Bool :=
  let path := normalizePath request.path
  request.method = "GET" && (path = "/dashboard" || Text.startsWith "/dashboard/" path)

def authenticated : AuthInfo := ⟨true, none, none, none⟩

def keyAuthenticated (key : VerifiedKey) : AuthInfo :=
  ⟨true, some key.id, some key.name, some key.scope⟩

def authFailedResponse (path : String) (hasDashboardPassword : Bool) : Refusal :=
  let normalized := normalizePath path
  let isBrowserPath := !Text.startsWith "/api/" normalized && !Text.startsWith "/v1/" normalized &&
    !Text.startsWith "/messages/" normalized
  { status := 401
    message :=
      "API key required. Include it in the 'x-api-key' header or Authorization: Bearer <key>"
    headers := if isBrowserPath && hasDashboardPassword then
      [("www-authenticate", "Basic realm=\"dashboard\"")] else [] }

def databaseError : Refusal :=
  ⟨500, "Authentication check failed due to a database error", []⟩

def csrfError : Refusal :=
  ⟨403, "CSRF check failed: missing X-Requested-With or application/json content type", []⟩

def scopeError : Refusal :=
  ⟨403, "This API key does not have permission to access management endpoints", []⟩

def rateError : Refusal := ⟨429, "API key rate limit exceeded", [("retry-after", "60")]⟩

def isMutatingMethod (method : String) : Bool :=
  method = "POST" || method = "PUT" || method = "DELETE" || method = "PATCH"

def failsCsrf (request : Request) : Bool :=
  isMutatingMethod request.method && isApiPath request.path &&
    (extractApiKey request.headers).isNone &&
    (headerGet request.headers "x-requested-with").isNone &&
    !(textHeader request.headers "content-type").any (Text.startsWith "application/json")

def countActiveApiKeys (db : Database) : Option Nat :=
  if db.countFails then none else some (db.keys.countP ApiKey.isActive)

/-- The entry of the enabled cache while it is younger than its TTL. -/
def freshEnabled (caches : Caches) (now : Nat) : Option Bool :=
  (caches.enabled.filter fun entry =>
    elapsedSecs entry.checkedAt now < authEnabledCacheTtlSecs).map AuthEnabledCache.enabled

def isAuthEnabled (db : Database) (caches : Caches) (now : Nat) : Option Bool × Caches :=
  match freshEnabled caches now with
  | some enabled => (some enabled, caches)
  | none =>
      match countActiveApiKeys db with
      | none => (none, caches)
      | some count =>
          let enabled := decide (0 < count)
          (some enabled, { caches with enabled := some ⟨enabled, now⟩ })

/-- `retain` below the window, then the limit. -/
def checkAndRecord (tracker : RpmTracker) (keyId : String) (rpmLimit now : Nat) :
    Bool × RpmTracker :=
  let queue := (tracker keyId).dropWhile fun t => 60000000000 < now - t
  if rpmLimit ≤ queue.length then (false, Function.update tracker keyId queue)
  else (true, Function.update tracker keyId (queue ++ [now]))

/-- `get_dashboard_password`. -/
def dashboardPassword (env : Option String) : Option String := env.bind nonEmpty

section Middleware

variable (crypto : Crypto)

def extractBasicAuthPassword (headers : Headers) : Option String :=
  ((((textHeader headers "authorization").bind (Text.stripPrefix "Basic ")).bind fun encoded =>
    crypto.decodeBase64 (Text.trim encoded)).bind afterColon).bind nonEmpty

def verifyRow (apiKey : String) (row : ApiKey) : Bool :=
  row.isActive && crypto.verifyApiKey apiKey row.hashedKey

def verifiedOf (row : ApiKey) : VerifiedKey := ⟨row.id, row.name, .fromDb (row.scope.getD "")⟩

def verifyApiKeySync (db : Database) (apiKey : String) : Option VerifiedKey :=
  -- A failed query answers as an unknown key does.
  if db.verifyFails then none
  else (db.keys.find? (verifyRow crypto apiKey)).map verifiedOf

/-- An entry lives longer when it is of a success. -/
def ttlOf (entry : CachedKeyResult) : Nat :=
  if entry.result.isSome then apiKeyCacheTtlSecs else apiKeyNegativeCacheTtlSecs

def lookupKey (caches : Caches) (cacheKey : String) : Option CachedKeyResult :=
  (caches.keys.find? fun entry => entry.1 = cacheKey).map Prod.snd

/-- What the key cache says of a key while its entry is younger than its TTL. -/
def freshKey (caches : Caches) (apiKey : String) (now : Nat) : Option (Option VerifiedKey) :=
  ((lookupKey caches (crypto.hashForCache apiKey)).filter fun entry =>
    elapsedSecs entry.verifiedAt now < ttlOf entry).map CachedKeyResult.result

/-- A full cache is cleared before the insertion. -/
def storeKey (caches : Caches) (apiKey : String) (result : Option VerifiedKey) (now : Nat) :
    Caches :=
  let kept := if apiKeyCacheMaxSize ≤ caches.keys.length then [] else caches.keys
  let cacheKey := crypto.hashForCache apiKey
  { caches with
    keys := (cacheKey, ⟨result, now⟩) :: kept.filter fun entry => entry.1 ≠ cacheKey }

def verifyApiKeyCached (db : Database) (caches : Caches) (apiKey : String) (now : Nat) :
    Option VerifiedKey × Caches :=
  match freshKey crypto caches apiKey now with
  | some result => (result, caches)
  | none =>
      let result := verifyApiKeySync crypto db apiKey
      (result, storeKey crypto caches apiKey result now)

/-- The dashboard password, as a Basic password or in the place of a key. -/
def presentsPassword (env : Option String) (headers : Headers) : Bool :=
  (dashboardPassword env).any fun expected =>
    extractBasicAuthPassword crypto headers = some expected ||
      extractApiKey headers = some expected

/-- Scope and rate of a verified key. -/
def admitKey (config : Config) (now : Nat) (request : Request) (key : VerifiedKey)
    (state : AuthState) : Outcome × AuthState :=
  -- The one place where a scope is looked at: what is not under /api/ passes.
  if key.scope = .proxy ∧ isApiPath request.path then (.refused scopeError, state)
  else match config.maxRequestsPerMinutePerKey with
    | none => (.next (keyAuthenticated key), state)
    | some limit =>
        let (allowed, rpm) := checkAndRecord state.rpm key.id limit now
        (if allowed then .next (keyAuthenticated key) else .refused rateError, { state with rpm })

def checkCredentials (config : Config) (env : Option String) (pool : Option Database) (now : Nat)
    (request : Request) (authEnabled : Bool) (state : AuthState) : Outcome × AuthState :=
  let failed := Outcome.refused
    (authFailedResponse request.path (dashboardPassword env).isSome)
  if failsCsrf request then (.refused csrfError, state)
  else if presentsPassword crypto env request.headers then (.next authenticated, state)
  else match authEnabled, extractApiKey request.headers, pool with
    | true, some apiKey, some db =>
        match verifyApiKeyCached crypto db state.caches apiKey now with
        | (some key, caches) => admitKey config now request key { state with caches }
        | (none, caches) => (failed, { state with caches })
    | _, _, _ => (failed, state)

/-- Whether there are keys; no pool counts as none, `none` is a failed query. -/
def readEnabled (pool : Option Database) (caches : Caches) (now : Nat) : Option Bool × Caches :=
  match pool with
  | none => (some false, caches)
  | some db => isAuthEnabled db caches now

def authMiddleware (config : Config) (env : Option String) (pool : Option Database) (now : Nat)
    (request : Request) (state : AuthState) : Outcome × AuthState :=
  if isPathExempt request.path then (.next authenticated, state)
  else if config.allowUnauthenticated then (.next authenticated, state)
  else
    let (enabled, caches) := readEnabled pool state.caches now
    let state := { state with caches }
    match enabled, dashboardPassword env with
    -- A database error fails closed, unless the password stands in for the keys.
    | none, none => (.refused databaseError, state)
    | none, some _ => checkCredentials crypto config env pool now request false state
    -- Nothing to authenticate against yet: the dashboard opens for the first run.
    | some false, none =>
        if isDashboardGet request then (.next authenticated, state)
        else (.refused (authFailedResponse request.path false), state)
    | some enabled, _ => checkCredentials crypto config env pool now request enabled state

end Middleware

structure System where
  pool : Option Database
  now : Nat
  auth : AuthState

inductive Event where
  | request (config : Config) (env : Option String) (request : Request)
  | setPool (pool : Option Database)
  | tick (nanos : Nat)

def perform (crypto : Crypto) (s : System) : Event → Option System
  | .request config env request =>
      some { s with auth := (authMiddleware crypto config env s.pool s.now request s.auth).2 }
  | .setPool pool => some { s with pool := pool }
  | .tick nanos => some { s with now := s.now + nanos }

abbrev Taken := System × Event × System

def emptyCaches : Caches := ⟨none, []⟩

section Soundness

variable (crypto : Crypto)

/-- The states in which the requests so far and the present one were handled. -/
def seen (trace : List Taken) (s : System) : List System := trace.map (fun taken => taken.1) ++ [s]

def CountedZero (trace : List Taken) (s : System) : Prop :=
  ∃ earlier ∈ seen trace s, elapsedSecs earlier.now s.now < authEnabledCacheTtlSecs ∧
    ∃ db, earlier.pool = some db ∧ countActiveApiKeys db = some 0

def VerifiedRecently (trace : List Taken) (s : System) (apiKey : String) : Prop :=
  ∃ earlier ∈ seen trace s, elapsedSecs earlier.now s.now < apiKeyCacheTtlSecs ∧
    ∃ db row, earlier.pool = some db ∧ row ∈ db.keys ∧ row.isActive = true ∧
      crypto.verifyApiKey apiKey row.hashedKey = true

/-- What a request may be let through for. -/
inductive Justified (trace : List Taken) (s : System) (config : Config) (env : Option String)
    (request : Request) : Prop where
  | exempt : isPathExempt request.path = true → Justified trace s config env request
  | allowed : config.allowUnauthenticated = true → Justified trace s config env request
  | firstRun : dashboardPassword env = none → isDashboardGet request = true →
      s.pool = none ∨ CountedZero trace s → Justified trace s config env request
  | password (expected : String) : dashboardPassword env = some expected →
      extractBasicAuthPassword crypto request.headers = some expected ∨
        extractApiKey request.headers = some expected →
      Justified trace s config env request
  | key (apiKey : String) : extractApiKey request.headers = some apiKey →
      VerifiedRecently crypto trace s apiKey → Justified trace s config env request

def Presented (trace : List Taken) (apiKey : String) : Prop :=
  ∃ taken ∈ trace, ∃ config env request, taken.2.1 = .request config env request ∧
    extractApiKey request.headers = some apiKey

/-- The cache does not take the presented key for another one. -/
def Uncollided (trace : List Taken) (request : Request) : Prop :=
  ∀ apiKey other, extractApiKey request.headers = some apiKey → Presented trace other →
    crypto.hashForCache other = crypto.hashForCache apiKey → other = apiKey

/-- The entries of both caches were read from the database at the instant they bear. -/
structure Honest (trace : List Taken) (caches : Caches) : Prop where
  enabled : ∀ entry, caches.enabled = some entry →
    ∃ earlier ∈ trace.map (fun taken => taken.1), earlier.now = entry.checkedAt ∧
      ∃ db count, earlier.pool = some db ∧ countActiveApiKeys db = some count ∧
        entry.enabled = decide (0 < count)
  keys : ∀ stored ∈ caches.keys, ∀ key, stored.2.result = some key →
    ∃ apiKey, crypto.hashForCache apiKey = stored.1 ∧ Presented trace apiKey ∧
      ∃ earlier ∈ trace.map (fun taken => taken.1), earlier.now = stored.2.verifiedAt ∧
        ∃ db, earlier.pool = some db ∧ verifyApiKeySync crypto db apiKey = some key

theorem verified_row (db : Database) (apiKey : String) (key : VerifiedKey)
    (verified : verifyApiKeySync crypto db apiKey = some key) :
    ∃ row ∈ db.keys, row.isActive = true ∧ crypto.verifyApiKey apiKey row.hashedKey = true ∧
      key = verifiedOf row := by
  unfold verifyApiKeySync at verified
  split at verified
  · cases verified
  · obtain ⟨row, found, rfl⟩ := Option.map_eq_some_iff.mp verified
    have holds := List.find?_some found
    obtain ⟨active, matched⟩ := Bool.and_eq_true_iff.mp holds
    exact ⟨row, List.mem_of_find?_eq_some found, active, matched, rfl⟩

/-- The enabled cache keeps its entry or takes the count that was read now. -/
theorem enabled_caches (db : Database) (caches : Caches) (now : Nat) :
    (isAuthEnabled db caches now).2 = caches ∨
      ∃ count, countActiveApiKeys db = some count ∧ (isAuthEnabled db caches now).2 =
        { caches with enabled := some ⟨decide (0 < count), now⟩ } := by
  unfold isAuthEnabled
  cases freshEnabled caches now with
  | some enabled => exact Or.inl rfl
  | none =>
      cases counted : countActiveApiKeys db with
      | none => exact Or.inl rfl
      | some count => exact Or.inr ⟨count, rfl, rfl⟩

theorem verified_caches (db : Database) (caches : Caches) (apiKey : String) (now : Nat) :
    (verifyApiKeyCached crypto db caches apiKey now).2 = caches ∨
      (verifyApiKeyCached crypto db caches apiKey now).2 =
        storeKey crypto caches apiKey (verifyApiKeySync crypto db apiKey) now := by
  unfold verifyApiKeyCached
  cases freshKey crypto caches apiKey now with
  | some result => exact Or.inl rfl
  | none => exact Or.inr rfl

/-- The key cache gains the stored entry and no other. -/
theorem stored_keys (caches : Caches) (apiKey : String) (result : Option VerifiedKey) (now : Nat)
    (entry : String × CachedKeyResult)
    (held : entry ∈ (storeKey crypto caches apiKey result now).keys) :
    entry = (crypto.hashForCache apiKey, ⟨result, now⟩) ∨ entry ∈ caches.keys := by
  rcases List.mem_cons.mp held with new | kept
  · exact Or.inl new
  · have old := List.mem_of_mem_filter kept
    split at old
    · cases old
    · exact Or.inr old

theorem admit_caches (config : Config) (now : Nat) (request : Request) (key : VerifiedKey)
    (state : AuthState) : (admitKey config now request key state).2.caches = state.caches := by
  unfold admitKey
  split
  · rfl
  · split <;> rfl

/-- The credentials change the key cache by at most one verification. -/
theorem check_caches (config : Config) (env : Option String) (pool : Option Database) (now : Nat)
    (request : Request) (authEnabled : Bool) (state : AuthState) :
    (checkCredentials crypto config env pool now request authEnabled state).2.caches =
        state.caches ∨
      ∃ db apiKey, pool = some db ∧ extractApiKey request.headers = some apiKey ∧
        (checkCredentials crypto config env pool now request authEnabled state).2.caches =
          (verifyApiKeyCached crypto db state.caches apiKey now).2 := by
  unfold checkCredentials
  split
  · exact Or.inl rfl
  · split
    · exact Or.inl rfl
    · split
      · rename_i apiKey db presented
        refine Or.inr ⟨db, apiKey, rfl, presented, ?_⟩
        split
        · rename_i key caches verified
          rw [admit_caches, verified]
        · rename_i caches refused
          rw [refused]
      · exact Or.inl rfl

theorem read_caches (pool : Option Database) (caches : Caches) (now : Nat) :
    (readEnabled pool caches now).2 = caches ∨
      ∃ db, pool = some db ∧ (readEnabled pool caches now).2 = (isAuthEnabled db caches now).2 := by
  cases pool with
  | none => exact Or.inl rfl
  | some db => exact Or.inr ⟨db, rfl, rfl⟩

/-- A request leaves the caches as they are, or reads the count, or verifies behind it. -/
theorem middleware_caches (config : Config) (env : Option String) (pool : Option Database)
    (now : Nat) (request : Request) (state : AuthState) :
    let after := (authMiddleware crypto config env pool now request state).2.caches
    let read := (readEnabled pool state.caches now).2
    after = state.caches ∨ after = read ∨
      ∃ db apiKey, pool = some db ∧ extractApiKey request.headers = some apiKey ∧
        after = (verifyApiKeyCached crypto db read apiKey now).2 := by
  intro after read
  have checked : ∀ enabled, (checkCredentials crypto config env pool now request enabled
        { state with caches := read }).2.caches = read ∨
      ∃ db apiKey, pool = some db ∧ extractApiKey request.headers = some apiKey ∧
        (checkCredentials crypto config env pool now request enabled
          { state with caches := read }).2.caches =
            (verifyApiKeyCached crypto db read apiKey now).2 :=
    fun enabled => check_caches crypto config env pool now request enabled _
  unfold after authMiddleware
  split
  · exact Or.inl rfl
  · split
    · exact Or.inl rfl
    · dsimp only
      split
      · exact Or.inr (Or.inl rfl)
      · exact Or.inr (checked false)
      · split
        · exact Or.inr (Or.inl rfl)
        · exact Or.inr (Or.inl rfl)
      · exact Or.inr (checked _)

/-- The grounds of a call of `next`, read off the chain of returns. -/
inductive Passes (config : Config) (env : Option String) (pool : Option Database) (now : Nat)
    (request : Request) (state : AuthState) : AuthInfo → Prop where
  | exempt : isPathExempt request.path = true →
      Passes config env pool now request state authenticated
  | allowed : config.allowUnauthenticated = true →
      Passes config env pool now request state authenticated
  | firstRun : (readEnabled pool state.caches now).1 = some false →
      dashboardPassword env = none → isDashboardGet request = true →
      Passes config env pool now request state authenticated
  | password : presentsPassword crypto env request.headers = true →
      Passes config env pool now request state authenticated
  | key (db : Database) (apiKey : String) (key : VerifiedKey) : pool = some db →
      extractApiKey request.headers = some apiKey →
      (readEnabled pool state.caches now).1 = some true →
      (verifyApiKeyCached crypto db (readEnabled pool state.caches now).2 apiKey now).1 =
        some key →
      ¬(key.scope = .proxy ∧ isApiPath request.path = true) →
      Passes config env pool now request state (keyAuthenticated key)

theorem admit_next (config : Config) (now : Nat) (request : Request) (key : VerifiedKey)
    (state after : AuthState) (info : AuthInfo)
    (passed : admitKey config now request key state = (.next info, after)) :
    info = keyAuthenticated key ∧ ¬(key.scope = .proxy ∧ isApiPath request.path = true) := by
  unfold admitKey at passed
  split at passed
  · cases passed
  · rename_i inScope
    split at passed
    · cases passed
      exact ⟨rfl, inScope⟩
    · dsimp only at passed
      split at passed
      · cases passed
        exact ⟨rfl, inScope⟩
      · cases passed

theorem check_next (config : Config) (env : Option String) (pool : Option Database) (now : Nat)
    (request : Request) (authEnabled : Bool) (state after : AuthState) (info : AuthInfo)
    (passed : checkCredentials crypto config env pool now request authEnabled state =
      (.next info, after)) :
    (presentsPassword crypto env request.headers = true ∧ info = authenticated) ∨
      ∃ db apiKey key, authEnabled = true ∧ pool = some db ∧
        extractApiKey request.headers = some apiKey ∧
        (verifyApiKeyCached crypto db state.caches apiKey now).1 = some key ∧
        info = keyAuthenticated key ∧ ¬(key.scope = .proxy ∧ isApiPath request.path = true) := by
  unfold checkCredentials at passed
  dsimp only at passed
  split at passed
  · cases passed
  · split at passed
    · rename_i password
      cases passed
      exact Or.inl ⟨password, rfl⟩
    · split at passed
      · rename_i apiKey db presented
        split at passed
        · rename_i key caches verified
          have grounds := admit_next config now request key _ after info passed
          exact Or.inr ⟨db, apiKey, key, rfl, rfl, presented, by rw [verified], grounds⟩
        · cases passed
      · cases passed

theorem middleware_passes (config : Config) (env : Option String) (pool : Option Database)
    (now : Nat) (request : Request) (state after : AuthState) (info : AuthInfo)
    (passed : authMiddleware crypto config env pool now request state = (.next info, after)) :
    Passes crypto config env pool now request state info := by
  unfold authMiddleware at passed
  split at passed
  · rename_i exempt
    cases passed
    exact .exempt exempt
  · split at passed
    · rename_i allowed
      cases passed
      exact .allowed allowed
    · dsimp only at passed
      split at passed
      · cases passed
      · rcases check_next crypto _ _ _ _ _ _ _ _ _ passed with
          ⟨password, rfl⟩ | ⟨db, apiKey, key, enabled, -⟩
        · exact .password password
        · cases enabled
      · rename_i empty unset
        split at passed
        · rename_i dashboard
          cases passed
          exact .firstRun empty unset dashboard
        · cases passed
      · rename_i enabled _ read _
        rcases check_next crypto _ _ _ _ _ _ _ _ _ passed with
          ⟨password, rfl⟩ | ⟨db, apiKey, key, rfl, pooled, presented, verified, rfl, inScope⟩
        · exact .password password
        · exact .key db apiKey key pooled presented read verified inScope

theorem honest_later (trace : List Taken) (taken : Taken) (caches : Caches)
    (honest : Honest crypto trace caches) : Honest crypto (trace ++ [taken]) caches where
  enabled := by
    intro entry held
    obtain ⟨earlier, member, source⟩ := honest.enabled entry held
    exact ⟨earlier, by simp [member], source⟩
  keys := by
    intro stored held key result
    obtain ⟨apiKey, hashed, ⟨request, asked, presented⟩, earlier, member, source⟩ :=
      honest.keys stored held key result
    exact ⟨apiKey, hashed, ⟨request, by simp [asked], presented⟩, earlier, by simp [member], source⟩

theorem honest_read (trace : List Taken) (s : System) (event : Event) (target : System)
    (taken : (s, event, target) ∈ trace) (honest : Honest crypto trace s.auth.caches) :
    Honest crypto trace (readEnabled s.pool s.auth.caches s.now).2 := by
  rcases read_caches s.pool s.auth.caches s.now with same | ⟨db, pooled, read⟩
  · rw [same]
    exact honest
  · rw [read]
    rcases enabled_caches db s.auth.caches s.now with same | ⟨count, counted, stored⟩
    · rw [same]
      exact honest
    · rw [stored]
      constructor
      · intro entry held
        cases held
        exact ⟨s, List.mem_map.mpr ⟨_, taken, rfl⟩, rfl, db, count, pooled, counted, rfl⟩
      · exact honest.keys

theorem honest_verify (trace : List Taken) (s : System) (event : Event) (target : System)
    (taken : (s, event, target) ∈ trace) (db : Database) (pooled : s.pool = some db)
    (caches : Caches) (apiKey : String) (presented : Presented trace apiKey)
    (honest : Honest crypto trace caches) :
    Honest crypto trace (verifyApiKeyCached crypto db caches apiKey s.now).2 := by
  rcases verified_caches crypto db caches apiKey s.now with same | stored
  · rw [same]
    exact honest
  · rw [stored]
    constructor
    · exact honest.enabled
    · intro entry held key result
      rcases stored_keys crypto caches apiKey _ s.now entry held with rfl | kept
      · exact ⟨apiKey, rfl, presented, s, List.mem_map.mpr ⟨_, taken, rfl⟩, rfl, db, pooled, result⟩
      · exact honest.keys entry kept key result

/-- A step keeps the caches honest. -/
theorem step_honest (trace : List Taken) (s target : System) (event : Event)
    (honest : Honest crypto trace s.auth.caches) (taken : Does (perform crypto) s event target) :
    Honest crypto (trace ++ [(s, event, target)]) target.auth.caches := by
  have last : (s, event, target) ∈ trace ++ [(s, event, target)] := by simp
  have before := honest_later crypto trace (s, event, target) _ honest
  change perform crypto s event = some target at taken
  cases event with
  | setPool pool =>
      cases taken
      exact before
  | tick nanos =>
      cases taken
      exact before
  | request config env request =>
      have read := honest_read crypto _ s _ target last before
      have reached : target.auth =
          (authMiddleware crypto config env s.pool s.now request s.auth).2 := by
        cases taken
        rfl
      rw [reached]
      rcases middleware_caches crypto config env s.pool s.now request s.auth with
        same | counted | ⟨db, apiKey, pooled, presented, verified⟩
      · rw [same]
        exact before
      · rw [counted]
        exact read
      · rw [verified]
        exact honest_verify crypto _ s _ target last db pooled _ apiKey
          ⟨_, last, config, env, request, rfl, presented⟩ read

theorem run_honest (start s : System) (trace : List Taken) (fresh : start.auth.caches = emptyCaches)
    (run : Run (Does (perform crypto)) start trace s) : Honest crypto trace s.auth.caches := by
  apply run.history fun trace s => Honest crypto trace s.auth.caches
  · rw [fresh]
    constructor
    · rintro _ ⟨⟩
    · rintro _ ⟨⟩
  · intro before source event target honest taken
    exact step_honest crypto before source target event honest taken

theorem read_keys (pool : Option Database) (caches : Caches) (now : Nat) :
    (readEnabled pool caches now).2.keys = caches.keys := by
  rcases read_caches pool caches now with same | ⟨db, -, read⟩
  · rw [same]
  · rw [read]
    rcases enabled_caches db caches now with same | ⟨count, -, stored⟩
    · rw [same]
    · rw [stored]

/-- No keys, as the middleware sees it, is no pool or a count of zero in the last seconds. -/
theorem counted_zero (trace : List Taken) (s : System)
    (honest : Honest crypto trace s.auth.caches)
    (empty : (readEnabled s.pool s.auth.caches s.now).1 = some false) :
    s.pool = none ∨ CountedZero trace s := by
  cases pooled : s.pool with
  | none => exact Or.inl rfl
  | some db =>
      apply Or.inr
      rw [pooled] at empty
      unfold readEnabled isAuthEnabled at empty
      cases fresh : freshEnabled s.auth.caches s.now with
      | some enabled =>
          rw [fresh] at empty
          obtain rfl := Option.some.inj empty
          -- A cached answer leads back to the count that was stored with it.
          obtain ⟨entry, held, disabled⟩ := Option.map_eq_some_iff.mp fresh
          obtain ⟨held, young⟩ := Option.filter_eq_some_iff.mp held
          obtain ⟨earlier, member, stamped, old, count, source, counted, zero⟩ :=
            honest.enabled entry held
          refine ⟨earlier, List.mem_append_left _ member, ?_, old, source, ?_⟩
          · rw [stamped]
            exact of_decide_eq_true young
          · have none : count = 0 := by
              rw [disabled] at zero
              simpa using zero.symm
            rw [counted, none]
      | none =>
          rw [fresh] at empty
          cases counted : countActiveApiKeys db with
          | none => simp [counted] at empty
          | some count =>
              have none : count = 0 := by simpa [counted] using empty
              refine ⟨s, by simp [seen], by simp [elapsedSecs, authEnabledCacheTtlSecs], db,
                pooled, ?_⟩
              rw [counted, none]

/-- A key counts as verified only when a row verified it in the last minutes. -/
theorem verified_recently (trace : List Taken) (s : System) (request : Request) (db : Database)
    (apiKey : String) (key : VerifiedKey) (caches : Caches)
    (honest : Honest crypto trace s.auth.caches) (distinct : Uncollided crypto trace request)
    (pooled : s.pool = some db) (presented : extractApiKey request.headers = some apiKey)
    (same : caches.keys = s.auth.caches.keys)
    (verified : (verifyApiKeyCached crypto db caches apiKey s.now).1 = some key) :
    VerifiedRecently crypto trace s apiKey := by
  unfold verifyApiKeyCached at verified
  cases fresh : freshKey crypto caches apiKey s.now with
  | some result =>
      rw [fresh] at verified
      obtain rfl : result = some key := verified
      obtain ⟨entry, held, success⟩ := Option.map_eq_some_iff.mp fresh
      obtain ⟨held, young⟩ := Option.filter_eq_some_iff.mp held
      obtain ⟨stored, found, rfl⟩ := Option.map_eq_some_iff.mp held
      have named : stored.1 = crypto.hashForCache apiKey := by
        simpa using List.find?_some found
      have member := List.mem_of_find?_eq_some found
      rw [same] at member
      obtain ⟨other, hashed, asked, earlier, seen, stamped, old, source, read⟩ :=
        honest.keys stored member key success
      -- The entry may have been stored for another key; the hash tells it is this one.
      obtain rfl := distinct apiKey other presented asked (hashed.trans named)
      obtain ⟨row, listed, active, matched, -⟩ := verified_row crypto old other key read
      refine ⟨earlier, List.mem_append_left _ seen, ?_, old, row, source, listed, active, matched⟩
      rw [stamped]
      simpa [ttlOf, success] using young
  | none =>
      rw [fresh] at verified
      obtain ⟨row, listed, active, matched, -⟩ := verified_row crypto db apiKey key verified
      exact ⟨s, by simp [seen], by simp [elapsedSecs, apiKeyCacheTtlSecs], db, row, pooled, listed,
        active, matched⟩

/-- A failed count fails closed when no password can stand in for the keys. -/
def FailsClosed (config : Config) (env : Option String) (db : Database) (now : Nat)
    (request : Request) (state : AuthState) : Prop :=
  countActiveApiKeys db = none → dashboardPassword env = none →
    isPathExempt request.path = false →
      ∀ info, (authMiddleware crypto config env (some db) now request state).1 ≠ .next info

/-- A request is passed on for one of the five grounds; when the count has to be read
and cannot be, it is not passed on. -/
theorem authentication_sound (start s : System) (trace : List Taken) (config : Config)
    (env : Option String) (request : Request) (fresh : start.auth.caches = emptyCaches)
    (run : Run (Does (perform crypto)) start trace s)
    (distinct : Uncollided crypto trace request) :
    (∀ info, (authMiddleware crypto config env s.pool s.now request s.auth).1 = .next info →
      Justified crypto trace s config env request) ∧
    ∀ db now state, config.allowUnauthenticated = false →
      freshEnabled state.caches now = none →
      FailsClosed crypto config env db now request state := by
  constructor
  · intro info passed
    have honest := run_honest crypto start s trace fresh run
    cases middleware_passes crypto config env s.pool s.now request s.auth _ info
        (Prod.ext passed rfl) with
    | exempt exempt => exact .exempt exempt
    | allowed allowed => exact .allowed allowed
    | firstRun empty unset dashboard =>
        exact .firstRun unset dashboard (counted_zero crypto trace s honest empty)
    | password password =>
        unfold presentsPassword at password
        cases set : dashboardPassword env with
        | none => simp [set] at password
        | some expected =>
            rw [set] at password
            exact .password expected set (by simpa using password)
    | key db apiKey key pooled presented enabled verified inScope =>
        exact .key apiKey presented (verified_recently crypto trace s request db apiKey key _
          honest distinct pooled presented (read_keys s.pool s.auth.caches s.now) verified)
  · intro db now state guarded stale counted unset closed info
    have unread : (readEnabled (some db) state.caches now).1 = none := by
      simp [readEnabled, isAuthEnabled, stale, counted]
    simp [authMiddleware, closed, guarded, unread, unset]

end Soundness

/-- SHA-256 on the two keys of the samples, which are stored under their plain digests. -/
def sampleHash (apiKey : String) : String :=
  if apiKey = "sk-admin" then
    "46db358cf47822ef17fa2cea371f2dd33512fb20ae94b092a5efb955d515b410"
  else if apiKey = "sk-proxy" then
    "946bcbef196665b410dd95685673c8bd7d9d27209f1ae9b9e80aac336d57b26c"
  else apiKey

def sampleCrypto : Crypto where
  verifyApiKey apiKey stored := stored = sampleHash apiKey
  hashForCache := sampleHash
  decodeBase64 _ := none

def adminRow : ApiKey := ⟨"k1", "ops", sampleHash "sk-admin", true, some "admin"⟩

def proxyRow : ApiKey := ⟨"k2", "ci", sampleHash "sk-proxy", true, some "proxy"⟩

def strictConfig : Config := ⟨false, none⟩

def keyedGet (path apiKey : String) : Request := ⟨"GET", path, [("x-api-key", apiKey)]⟩

def freshState : AuthState := ⟨emptyCaches, fun _ => []⟩

/-- A verified key passes from the cache when the query fails. -/
theorem sound_on_failing_queries :
    ∃ trace s, Run (Does (perform sampleCrypto)) ⟨some ⟨[adminRow], false, false⟩, 0, freshState⟩
        trace s ∧
      (authMiddleware sampleCrypto strictConfig none s.pool s.now
        (keyedGet "/api/config" "sk-admin") s.auth).1 =
          .next (keyAuthenticated (verifiedOf adminRow)) ∧
      Justified sampleCrypto trace s strictConfig none (keyedGet "/api/config" "sk-admin") := by
  obtain ⟨trace, s, run, events, reached⟩ := @performed System Event
    ⟨some ⟨[adminRow], false, false⟩, 0, freshState⟩ (perform sampleCrypto)
    [.request strictConfig none (keyedGet "/api/config" "sk-admin"),
      .setPool (some ⟨[], true, true⟩), .tick 5000000000]
    (fun s => (authMiddleware sampleCrypto strictConfig none s.pool s.now
        (keyedGet "/api/config" "sk-admin") s.auth).1 =
      .next (keyAuthenticated (verifiedOf adminRow))) (by decide +kernel)
  have passed := of_decide_eq_true reached
  have distinct : Uncollided sampleCrypto trace (keyedGet "/api/config" "sk-admin") := by
    rintro apiKey other shown ⟨taken, member, config, env, asked, event, presented⟩ -
    have listed := event_listed _ events taken member
    rw [event] at listed
    obtain ⟨-, -, rfl⟩ : config = strictConfig ∧ env = none ∧ asked = _ := by simpa using listed
    exact Option.some.inj (presented.symm.trans shown)
  exact ⟨trace, s, run, passed, (authentication_sound sampleCrypto _ s trace strictConfig none
    (keyedGet "/api/config" "sk-admin") rfl run distinct).1 _ passed⟩

/-- With `allow_unauthenticated` the count is not read at all. -/
theorem opt_in_passes_without_count :
    ¬∀ config env db now request state,
      FailsClosed sampleCrypto config env db now request state := by
  intro closed
  exact closed ⟨true, none⟩ none ⟨[], true, true⟩ 0 ⟨"GET", "/api/config", []⟩ freshState
    (by decide) (by decide) (by decide +kernel) authenticated (by decide +kernel)

end Ccflare.Authentication
