import Ccflare.Authentication

/-!
What a request reaches whose only credential is a key of scope proxy. The check of the
middleware names the paths such a key may not take, where the documentation names
the ones it may.
-/

namespace Ccflare.ProxyKeyScope

open Authentication

/-- The endpoints a proxy key is documented for. -/
def isProxyEndpoint (path : String) : Bool :=
  let path := normalizePath path
  Text.startsWith "/v1/" path || Text.startsWith "/messages" path

/-- The key has no request left in the present window. -/
def spent (config : Config) (rpm : RpmTracker) (keyId : String) (now : Nat) : Bool :=
  config.maxRequestsPerMinutePerKey.any fun limit => !(checkAndRecord rpm keyId limit now).1

section Scope

variable (crypto : Crypto)

/-- A key of scope proxy is the one valid credential of the request. -/
structure ProxyKeyed (env : Option String) (db : Database) (now : Nat) (request : Request)
    (caches : Caches) (key : VerifiedKey) : Prop where
  presented : ∃ apiKey, extractApiKey request.headers = some apiKey ∧
    (verifyApiKeyCached crypto db caches apiKey now).1 = some key
  noPassword : presentsPassword crypto env request.headers = false
  scope : key.scope = .proxy

/-- What the middleware refuses the key once it looks at credentials. -/
def TurnedAway (config : Config) (env : Option String) (db : Database) (now : Nat)
    (request : Request) (state : AuthState) (key : VerifiedKey) : Prop :=
  match (readEnabled (some db) state.caches now).1 with
  | none => True
  | some true => isApiPath request.path = true ∨ spent config state.rpm key.id now = true
  | some false => ¬(dashboardPassword env = none ∧ isDashboardGet request = true)

/-- The requests that do not take a proxy key beyond the proxy endpoints. -/
def Confined (config : Config) (env : Option String) (db : Database) (now : Nat)
    (request : Request) (state : AuthState) (key : VerifiedKey) : Prop :=
  isPathExempt request.path = true ∨ isProxyEndpoint request.path = true ∨
    (config.allowUnauthenticated = false ∧ TurnedAway config env db now request state key)

theorem verified_of_keys (db : Database) (caches other : Caches) (apiKey : String) (now : Nat)
    (same : caches.keys = other.keys) :
    (verifyApiKeyCached crypto db caches apiKey now).1 =
      (verifyApiKeyCached crypto db other apiKey now).1 := by
  have fresh : freshKey crypto caches apiKey now = freshKey crypto other apiKey now := by
    simp only [freshKey, lookupKey, same]
  simp only [verifyApiKeyCached, fresh]
  cases freshKey crypto other apiKey now <;> rfl

theorem keyed_not_csrf (request : Request) (apiKey : String)
    (presented : extractApiKey request.headers = some apiKey) : failsCsrf request = false := by
  simp [failsCsrf, presented]

theorem admit_outcome (config : Config) (now : Nat) (request : Request) (key : VerifiedKey)
    (state : AuthState) (scope : key.scope = .proxy) :
    (admitKey config now request key state).1 =
      if isApiPath request.path then .refused scopeError
      else if spent config state.rpm key.id now then .refused rateError
      else .next (keyAuthenticated key) := by
  unfold admitKey spent
  by_cases api : isApiPath request.path = true
  · simp [scope, api]
  · simp only [api]
    cases config.maxRequestsPerMinutePerKey with
    | none => simp
    | some limit =>
        cases allowed : (checkAndRecord state.rpm key.id limit now).1 <;> simp [allowed]

theorem keyed_outcome (config : Config) (env : Option String) (db : Database) (now : Nat)
    (request : Request) (authEnabled : Bool) (state : AuthState) (key : VerifiedKey)
    (keyed : ProxyKeyed crypto env db now request state.caches key) :
    (checkCredentials crypto config env (some db) now request authEnabled state).1 =
      if authEnabled then
        if isApiPath request.path then .refused scopeError
        else if spent config state.rpm key.id now then .refused rateError
        else .next (keyAuthenticated key)
      else .refused (authFailedResponse request.path (dashboardPassword env).isSome) := by
  obtain ⟨apiKey, presented, verified⟩ := keyed.presented
  unfold checkCredentials
  simp only [keyed_not_csrf request apiKey presented, keyed.noPassword, presented,
    Bool.false_eq_true, if_false]
  cases authEnabled with
  | false => rfl
  | true =>
      simp only [if_true]
      cases result : verifyApiKeyCached crypto db state.caches apiKey now with
      | mk found caches =>
          rw [result] at verified
          obtain rfl : found = some key := verified
          exact admit_outcome config now request key _ keyed.scope

theorem keyed_after_read (env : Option String) (db : Database) (now : Nat) (request : Request)
    (caches : Caches) (key : VerifiedKey)
    (keyed : ProxyKeyed crypto env db now request caches key) :
    ProxyKeyed crypto env db now request (readEnabled (some db) caches now).2 key where
  presented := by
    obtain ⟨apiKey, presented, verified⟩ := keyed.presented
    refine ⟨apiKey, presented, ?_⟩
    rw [verified_of_keys crypto db _ caches apiKey now (read_keys (some db) caches now)]
    exact verified
  noPassword := keyed.noPassword
  scope := keyed.scope

/-- Past the exempt paths and the opt-in bypass, the key opens all that is not refused. -/
theorem proxy_key_next (config : Config) (env : Option String) (db : Database) (now : Nat)
    (request : Request) (state : AuthState) (key : VerifiedKey)
    (keyed : ProxyKeyed crypto env db now request state.caches key) :
    (∃ info, (authMiddleware crypto config env (some db) now request state).1 = .next info) ↔
      isPathExempt request.path = true ∨ config.allowUnauthenticated = true ∨
        ¬TurnedAway config env db now request state key := by
  have credentials := fun enabled => keyed_outcome crypto config env db now request enabled
    { state with caches := (readEnabled (some db) state.caches now).2 } key
    (keyed_after_read crypto env db now request state.caches key keyed)
  unfold authMiddleware TurnedAway
  cases isPathExempt request.path with
  | true => simp
  | false =>
      cases config.allowUnauthenticated with
      | true => simp
      | false =>
          simp only [Bool.false_eq_true, if_false, false_or]
          cases (readEnabled (some db) state.caches now).1 with
          | none => cases dashboardPassword env <;> simp [credentials]
          | some enabled =>
              cases enabled with
              | true =>
                  simp only [credentials, if_true]
                  cases isApiPath request.path <;> cases spent config state.rpm key.id now <;> simp
              | false =>
                  cases dashboardPassword env with
                  | none => cases isDashboardGet request <;> simp
                  | some password => simp [credentials]

/-- A proxy key stays within the proxy endpoints on the confined requests alone. -/
theorem proxy_key_confined_iff (config : Config) (env : Option String) (db : Database) (now : Nat)
    (request : Request) (state : AuthState) (key : VerifiedKey)
    (keyed : ProxyKeyed crypto env db now request state.caches key) :
    (∀ info, (authMiddleware crypto config env (some db) now request state).1 = .next info →
        isPathExempt request.path = true ∨ isProxyEndpoint request.path = true) ↔
      Confined config env db now request state key := by
  have passed := proxy_key_next crypto config env db now request state key keyed
  unfold Confined
  constructor
  · intro within
    by_cases turned : TurnedAway config env db now request state key
    · cases strict : config.allowUnauthenticated with
      | false => exact Or.inr (Or.inr ⟨rfl, turned⟩)
      | true =>
          obtain ⟨info, next⟩ := passed.mpr (Or.inr (Or.inl strict))
          exact (within info next).imp_right Or.inl
    · obtain ⟨info, next⟩ := passed.mpr (Or.inr (Or.inr turned))
      exact (within info next).imp_right Or.inl
  · rintro (exempt | endpoint | ⟨strict, turned⟩) info next
    · exact Or.inl exempt
    · exact Or.inr endpoint
    · rcases passed.mp ⟨info, next⟩ with exempt | opened | notTurned
      · exact Or.inl exempt
      · rw [strict] at opened
        cases opened
      · exact absurd turned notTurned

end Scope

/-- The dashboard with the only key of the table, a proxy key. -/
theorem dashboard_not_turned_away :
    ¬∀ config env db now request state key,
      ProxyKeyed sampleCrypto env db now request state.caches key →
      ∀ info, (authMiddleware sampleCrypto config env (some db) now request state).1 =
          .next info →
        isPathExempt request.path = true ∨ isProxyEndpoint request.path = true := by
  intro confined
  have keyed : ProxyKeyed sampleCrypto none ⟨[proxyRow], false, false⟩ 0
      (keyedGet "/dashboard" "sk-proxy") emptyCaches (verifiedOf proxyRow) :=
    ⟨⟨"sk-proxy", by decide +kernel, by decide +kernel⟩, by decide +kernel, rfl⟩
  have beyond := confined strictConfig none ⟨[proxyRow], false, false⟩ 0
    (keyedGet "/dashboard" "sk-proxy") freshState (verifiedOf proxyRow) keyed
    (keyAuthenticated (verifiedOf proxyRow)) (by decide +kernel)
  exact absurd beyond (by decide +kernel)

theorem management_turned_away :
    (∀ info, (authMiddleware sampleCrypto strictConfig none (some ⟨[proxyRow], false, false⟩) 0
        (keyedGet "/api/config" "sk-proxy") freshState).1 = .next info →
      isPathExempt "/api/config" = true ∨ isProxyEndpoint "/api/config" = true) ↔
    Confined strictConfig none ⟨[proxyRow], false, false⟩ 0 (keyedGet "/api/config" "sk-proxy")
      freshState (verifiedOf proxyRow) :=
  proxy_key_confined_iff sampleCrypto strictConfig none ⟨[proxyRow], false, false⟩ 0
    (keyedGet "/api/config" "sk-proxy") freshState (verifiedOf proxyRow)
    ⟨⟨"sk-proxy", by decide +kernel, by decide +kernel⟩, by decide +kernel, rfl⟩

end Ccflare.ProxyKeyScope
