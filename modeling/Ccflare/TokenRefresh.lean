import Ccflare.Account
import Ccflare.JsonValue
import Ccflare.Text

/-!
The paths on which fresh tokens reach the account row: the token manager with its
two persisters, the usage poller and the OAuth code exchange. They read the same
answers of the token endpoint but keep their own conventions for a missing expiry
and an absent refresh token, and only one of the statements they write with stamps
the time of the refresh token.
-/

namespace Ccflare.TokenRefresh

open JsonValue MachineNumber

/-- A reading of the system clock, which does not go back before the epoch. -/
structure Clock where
  millis : Int
  afterEpoch : 0 ≤ millis
  inRange : millis ≤ i64Max

/-- An answer over HTTP; `none` stands for a request that fails to be sent. -/
structure HttpAnswer where
  status : Nat
  text : String

/-- What a refresh meets: the endpoints, the configuration and the clock, once when
the answer is read and once when a statement is stamped. -/
structure World where
  codec : Codec
  tokenEndpoint : Json → Option HttpAnswer
  fetchSubscriptionTier : String → Option String
  clientId : String
  now : Clock
  stamp : Clock

def isSuccess (status : Nat) : Bool := 200 ≤ status && status < 300

structure TokenRefreshResult where
  accessToken : String
  expiresAt : Int
  refreshToken : String
  subscriptionTier : Option String
  email : Option String
  deriving DecidableEq

def refreshRequest (refreshToken clientId : String) : Json :=
  Json.make [("grant_type", .string "refresh_token"), ("refresh_token", .string refreshToken),
    ("client_id", .string clientId)]

def redirectUri : String := "https://console.anthropic.com/oauth/code/callback"

def codeRequest (code state verifier clientId : String) : Json :=
  let actualCode := String.ofList (code.toList.takeWhile (· ≠ '#'))
  Json.make [("code", .string actualCode), ("state", .string state),
    ("grant_type", .string "authorization_code"), ("client_id", .string clientId),
    ("redirect_uri", .string redirectUri), ("code_verifier", .string verifier)]

def expiresIn (json : Json) : Option Int := (json.get "expires_in").bind Json.asI64

def millisAfter (now : Clock) (seconds : Int) : Int :=
  wrappingAdd now.millis (wrappingMul seconds 1000)

section Provider

variable (world : World)

/-- The words of the JSON parser and of the HTTP client are left out of their errors. -/
def parseTokenResponse (text : String) : Except ProviderError TokenRefreshResult :=
  match world.codec.fromStr text with
  | none => .error (.json "")
  | some json =>
      match json.getStr "access_token" with
      | none => .error (.tokenRefresh "Missing access_token")
      | some accessToken => .ok
          { accessToken
            expiresAt := millisAfter world.now ((expiresIn json).getD 3600)
            refreshToken := (json.getStr "refresh_token").getD ""
            subscriptionTier := none
            email := (json.get "account").bind (Json.getStr "email_address") }

def doRefresh (refreshToken : String) : Except ProviderError TokenRefreshResult :=
  match world.tokenEndpoint (refreshRequest refreshToken world.clientId) with
  | none => .error (.http "")
  | some answer =>
      if isSuccess answer.status then parseTokenResponse world answer.text
      else
        let errType := ((world.codec.fromStr answer.text).bind (Json.getStr "error")).getD ""
        if errType = "invalid_grant" ∨ errType = "invalid_refresh_token" then
          .error (.tokenRefresh "Refresh token revoked — account needs re-authentication")
        else .error (.tokenRefresh
          ("Token refresh failed (" ++ toString answer.status ++ "): " ++ answer.text))

/-- `ClaudeOAuthProvider::refresh_token`. -/
def refreshToken (account : Account) : Except ProviderError TokenRefreshResult :=
  match account.apiKey with
  | some key => .ok ⟨key, millisAfter world.now (24 * 60 * 60), "", none, none⟩
  | none =>
      if account.refreshToken = "" then .error (.tokenRefresh "No refresh token available")
      else (doRefresh world account.refreshToken).map fun result =>
        { result with
          refreshToken :=
            if result.refreshToken = "" then account.refreshToken else result.refreshToken
          subscriptionTier := world.fetchSubscriptionTier result.accessToken }

/-- `ClaudeOAuthProvider::token_exchange`. -/
def exchangeCode (code state verifier : String) : Except ProviderError TokenRefreshResult :=
  match world.tokenEndpoint (codeRequest code state verifier world.clientId) with
  | none => .error (.http "")
  | some answer =>
      if isSuccess answer.status then
        (parseTokenResponse world answer.text).map fun result =>
          { result with subscriptionTier := world.fetchSubscriptionTier result.accessToken }
      else .error (.tokenRefresh ("Token exchange failed (" ++ toString answer.status ++ "): " ++
        String.ofList (answer.text.toList.take 200)))

end Provider

/-- The statements of a persister, each on the row with the account's id. -/
structure TokenPersister where
  persistTokens : String → Int → String → Account → Account
  persistSubscriptionTier : Option String → Account → Account
  persistEmail : Option String → Account → Account

/-- `UPDATE accounts SET access_token, expires_at, refresh_token`. -/
def writeTokens (accessToken : String) (expiresAt : Int) (refreshToken : String)
    (row : Account) : Account :=
  { row with
    accessToken := some accessToken
    expiresAt := some expiresAt
    refreshToken := refreshToken }

def setSubscriptionTier (tier : Option String) (row : Account) : Account :=
  { row with subscriptionTier := tier }

def setEmail (email : Option String) (row : Account) : Account := { row with email := email }

def dbPersister : TokenPersister := ⟨writeTokens, setSubscriptionTier, setEmail⟩

/-- The persister of the start-up keeps the defaults of the trait, which do nothing. -/
def startupPersister : TokenPersister := ⟨writeTokens, fun _ row => row, fun _ row => row⟩

/-- What `refresh_access_token` writes after a successful refresh. -/
def persistResult (persister : TokenPersister) (result : TokenRefreshResult) (row : Account) :
    Account :=
  let tokens := persister.persistTokens result.accessToken result.expiresAt result.refreshToken row
  let tier := if result.subscriptionTier.isSome then
    persister.persistSubscriptionTier result.subscriptionTier tokens else tokens
  if result.email.isSome then persister.persistEmail result.email tier else tier

/-- Only a statement with a refresh token stamps the time of it. -/
def updateTokens (stamp : Clock) (accessToken : String) (expiresAt : Int)
    (refreshToken : Option String) (row : Account) : Account :=
  match refreshToken with
  | some rt =>
      { writeTokens accessToken expiresAt rt row with refreshTokenUpdatedAt := some stamp.millis }
  | none => writeTokens accessToken expiresAt row.refreshToken row

structure RefreshedToken where
  accessToken : String
  refreshToken : String
  expiresAt : Option Int

inductive TokenRefreshError where
  | permanentlyRevoked
  | transient
  deriving DecidableEq

/-- `refresh_oauth_token` of the usage poller. -/
def refreshOauthToken (world : World) (refreshToken : String) :
    Except TokenRefreshError RefreshedToken :=
  match world.tokenEndpoint (refreshRequest refreshToken world.clientId) with
  | none => .error .transient
  | some answer =>
      if isSuccess answer.status then
        match world.codec.fromStr answer.text with
        | none => .error .transient
        | some json =>
            match json.getStr "access_token" with
            | none => .error .transient
            | some accessToken => .ok ⟨accessToken,
                (json.getStr "refresh_token").getD refreshToken,
                (expiresIn json).map (millisAfter world.now)⟩
      else if (world.codec.fromStr answer.text).bind (Json.getStr "error") =
          some "invalid_grant" then
        .error .permanentlyRevoked
      else .error .transient

/-- `DbAccountSource::persist_refreshed_token`. -/
def persistRefreshedToken (stamp : Clock) (token : RefreshedToken) (row : Account) : Account :=
  updateTokens stamp token.accessToken (token.expiresAt.getD 0)
    (if token.refreshToken = "" then none else some token.refreshToken) row

/-- What `exchange_and_persist` writes once the code is exchanged. -/
def persistExchange (stamp : Clock) (tokens : TokenRefreshResult) (row : Account) : Account :=
  let updated := updateTokens stamp tokens.accessToken tokens.expiresAt
    (some tokens.refreshToken) row
  let cleared := { updated with
    rateLimitStatus := none
    rateLimitReset := none
    rateLimitRemaining := none
    rateLimitedUntil := none }
  let tier := match tokens.subscriptionTier with
    | some tier => setSubscriptionTier (some tier) cleared
    | none => cleared
  match tokens.email with
  | some email => setEmail (some email) tier
  | none => tier

inductive RefreshPath where
  | tokenManagerDb
  | tokenManagerStartup
  | usagePoller
  | oauthExchange (code state verifier : String)

/-- A path from the account it works for to the row, with the new access token; `none`
where the refresh fails. -/
def refreshRow (world : World) (account row : Account) : RefreshPath → Option (String × Account)
  | .tokenManagerDb => (refreshToken world account).toOption.map fun result =>
      (result.accessToken, persistResult dbPersister result row)
  | .tokenManagerStartup => (refreshToken world account).toOption.map fun result =>
      (result.accessToken, persistResult startupPersister result row)
  | .usagePoller =>
      if account.refreshToken = "" then none
      else (refreshOauthToken world account.refreshToken).toOption.map fun token =>
        (token.accessToken, persistRefreshedToken world.stamp token row)
  | .oauthExchange code state verifier =>
      (exchangeCode world code state verifier).toOption.map fun tokens =>
        (tokens.accessToken, persistExchange world.stamp tokens row)

/-- What every path owes the row: the new access token, an expiry ahead of the
refresh, no loss of a refresh token and a stamp newer than before for a new one. -/
structure Agrees (now : Clock) (accessToken : String) (before after : Account) : Prop where
  access : after.accessToken = some accessToken
  ahead : ∃ expiry ∈ after.expiresAt, now.millis < expiry
  kept : before.refreshToken ≠ "" → after.refreshToken ≠ ""
  stamped : after.refreshToken ≠ before.refreshToken →
    ∃ stamp ∈ after.refreshTokenUpdatedAt, ∀ old ∈ before.refreshTokenUpdatedAt, old < stamp

def Ahead (now : Clock) (seconds : Int) : Prop :=
  0 < wrappingMul seconds 1000 ∧ now.millis + wrappingMul seconds 1000 ≤ i64Max

def StampedLater (stamp : Clock) (row : Account) : Prop :=
  ∀ old ∈ row.refreshTokenUpdatedAt, old < stamp.millis

/-- The document of a successful answer. -/
def grant (world : World) (request : Json) : Option Json :=
  (world.tokenEndpoint request).bind fun answer =>
    if isSuccess answer.status then world.codec.fromStr answer.text else none

-- The manager never stamps, so the refresh token it writes is the one that is there.
def ManagerSound (world : World) (account row : Account) : Prop :=
  if account.apiKey.isSome then Ahead world.now (24 * 60 * 60) ∧ row.refreshToken = ""
  else ∃ json ∈ grant world (refreshRequest account.refreshToken world.clientId),
    Ahead world.now ((expiresIn json).getD 3600) ∧
      let given := (json.getStr "refresh_token").getD ""
      row.refreshToken = if given = "" then account.refreshToken else given

def PollerSound (world : World) (account row : Account) : Prop :=
  ∃ json ∈ grant world (refreshRequest account.refreshToken world.clientId),
    (∃ seconds ∈ expiresIn json, Ahead world.now seconds) ∧
      let given := (json.getStr "refresh_token").getD account.refreshToken
      given = "" ∨ given = row.refreshToken ∨ StampedLater world.stamp row

def ExchangeSound (world : World) (request : Json) (row : Account) : Prop :=
  ∃ json ∈ grant world request, Ahead world.now ((expiresIn json).getD 3600) ∧
    let given := (json.getStr "refresh_token").getD ""
    (given = "" → row.refreshToken = "") ∧
      (given = row.refreshToken ∨ StampedLater world.stamp row)

def Sound (world : World) (account row : Account) : RefreshPath → Prop
  | .tokenManagerDb | .tokenManagerStartup => ManagerSound world account row
  | .usagePoller => PollerSound world account row
  | .oauthExchange code state verifier =>
      ExchangeSound world (codeRequest code state verifier world.clientId) row

theorem millis_after_ahead (now : Clock) (seconds : Int) :
    now.millis < millisAfter now seconds ↔ Ahead now seconds := by
  have product := wrap_in_i64 (seconds * 1000)
  have start := now.afterEpoch
  have last := now.inRange
  unfold InI64 i64Min i64Max at product
  unfold Ahead millisAfter wrappingAdd wrappingMul i64Max at *
  generalize wrapI64 (seconds * 1000) = millis at *
  unfold wrapI64
  omega

section Rows

variable (now stamp : Clock) (accessToken token : String) (expiresAt : Int) (row after : Account)

/-- A statement that does not stamp agrees when it writes the token that is there. -/
theorem unstamped_agrees (access : after.accessToken = some accessToken)
    (expiry : after.expiresAt = some expiresAt) (written : after.refreshToken = token)
    (unstamped : after.refreshTokenUpdatedAt = row.refreshTokenUpdatedAt) :
    Agrees now accessToken row after ↔ now.millis < expiresAt ∧ row.refreshToken = token := by
  constructor
  · rintro ⟨-, ⟨expiry', member, ahead⟩, -, stamped⟩
    obtain rfl : expiresAt = expiry' := by simpa [expiry] using member
    refine ⟨ahead, Classical.byContradiction fun changed => ?_⟩
    obtain ⟨same, member, later⟩ := stamped (by rw [written]; exact Ne.symm changed)
    rw [unstamped] at member
    exact lt_irrefl _ (later same member)
  · rintro ⟨ahead, same⟩
    constructor
    · exact access
    · exact ⟨expiresAt, expiry, ahead⟩
    · rw [written, same]
      exact id
    · intro changed
      exact absurd (written.trans same.symm) changed

theorem stamped_agrees (access : after.accessToken = some accessToken)
    (expiry : after.expiresAt = some expiresAt) (written : after.refreshToken = token)
    (stamped : after.refreshTokenUpdatedAt = some stamp.millis) :
    Agrees now accessToken row after ↔ now.millis < expiresAt ∧
      (token = "" → row.refreshToken = "") ∧
      (token = row.refreshToken ∨ StampedLater stamp row) := by
  constructor
  · rintro ⟨-, ⟨expiry', member, ahead⟩, kept, newer⟩
    obtain rfl : expiresAt = expiry' := by simpa [expiry] using member
    refine ⟨ahead, fun empty => ?_, or_iff_not_imp_left.mpr fun changed => ?_⟩
    · by_contra held
      exact kept held (written.trans empty)
    · obtain ⟨time, member, later⟩ := newer (by rw [written]; exact changed)
      obtain rfl : stamp.millis = time := by simpa [stamped] using member
      exact later
  · rintro ⟨ahead, kept, newer⟩
    constructor
    · exact access
    · exact ⟨expiresAt, expiry, ahead⟩
    · intro held empty
      exact held (kept (written.symm.trans empty))
    · intro changed
      rcases newer with same | later
      · exact absurd (written.trans same) changed
      · exact ⟨stamp.millis, stamped, later⟩

end Rows

theorem map_ok {α β ε : Type} (change : α → β) (outcome : Except ε α) (value : β)
    (success : outcome.map change = .ok value) : ∃ inner, outcome = .ok inner ∧ change inner = value := by
  cases outcome with
  | error reason => cases success
  | ok inner => exact ⟨inner, rfl, Except.ok.inj success⟩

theorem option_ok {α ε : Type} (outcome : Except ε α) (value : α)
    (success : outcome.toOption = some value) : outcome = .ok value := by
  cases outcome with
  | error reason => cases success
  | ok inner => exact congrArg _ (Option.some.inj success)

section Answers

variable (world : World) (request : Json) (answer : HttpAnswer)

theorem granted (json : Json) (answered : world.tokenEndpoint request = some answer)
    (success : isSuccess answer.status = true)
    (parsed : world.codec.fromStr answer.text = some json) : grant world request = some json := by
  simp [grant, answered, success, parsed]

theorem token_response_ok (result : TokenRefreshResult)
    (success : parseTokenResponse world answer.text = .ok result) :
    ∃ json, world.codec.fromStr answer.text = some json ∧
      result.expiresAt = millisAfter world.now ((expiresIn json).getD 3600) ∧
      result.refreshToken = (json.getStr "refresh_token").getD "" := by
  unfold parseTokenResponse at success
  split at success
  · cases success
  · rename_i json parsed
    split at success
    · cases success
    · obtain rfl := Except.ok.inj success
      exact ⟨json, parsed, rfl, rfl⟩

theorem do_refresh_ok (refreshToken : String) (result : TokenRefreshResult)
    (success : doRefresh world refreshToken = .ok result) :
    ∃ json, grant world (refreshRequest refreshToken world.clientId) = some json ∧
      result.expiresAt = millisAfter world.now ((expiresIn json).getD 3600) ∧
      result.refreshToken = (json.getStr "refresh_token").getD "" := by
  unfold doRefresh at success
  split at success
  · cases success
  · rename_i answer answered
    split at success
    · rename_i accepted
      obtain ⟨json, parsed, values⟩ := token_response_ok world answer result success
      exact ⟨json, granted world _ answer json answered accepted parsed, values⟩
    · dsimp only at success
      split at success <;> cases success

theorem exchange_code_ok (code state verifier : String) (result : TokenRefreshResult)
    (success : exchangeCode world code state verifier = .ok result) :
    ∃ json, grant world (codeRequest code state verifier world.clientId) = some json ∧
      result.expiresAt = millisAfter world.now ((expiresIn json).getD 3600) ∧
      result.refreshToken = (json.getStr "refresh_token").getD "" := by
  unfold exchangeCode at success
  split at success
  · cases success
  · rename_i answer answered
    split at success
    · rename_i accepted
      obtain ⟨tokens, response, rfl⟩ := map_ok _ _ result success
      obtain ⟨json, parsed, values⟩ := token_response_ok world answer tokens response
      exact ⟨json, granted world _ answer json answered accepted parsed, values⟩
    · cases success

theorem refresh_oauth_token_ok (refreshToken : String) (token : RefreshedToken)
    (success : refreshOauthToken world refreshToken = .ok token) :
    ∃ json, grant world (refreshRequest refreshToken world.clientId) = some json ∧
      token.expiresAt = (expiresIn json).map (millisAfter world.now) ∧
      token.refreshToken = (json.getStr "refresh_token").getD refreshToken := by
  unfold refreshOauthToken at success
  split at success
  · cases success
  · rename_i answer answered
    split at success
    · rename_i accepted
      split at success
      · cases success
      · rename_i json parsed
        split at success
        · cases success
        · obtain rfl := Except.ok.inj success
          exact ⟨json, granted world _ answer json answered accepted parsed, rfl, rfl⟩
    · split at success <;> cases success

end Answers

/-- Both persisters write the tokens and leave the stamp alone. -/
theorem persist_result_fields (persister : TokenPersister) (result : TokenRefreshResult)
    (row : Account) (known : persister = dbPersister ∨ persister = startupPersister) :
    (persistResult persister result row).accessToken = some result.accessToken ∧
      (persistResult persister result row).expiresAt = some result.expiresAt ∧
      (persistResult persister result row).refreshToken = result.refreshToken ∧
      (persistResult persister result row).refreshTokenUpdatedAt = row.refreshTokenUpdatedAt := by
  rcases known with rfl | rfl
  · cases tier : result.subscriptionTier <;> cases email : result.email <;>
      simp [persistResult, dbPersister, writeTokens, setSubscriptionTier, setEmail, tier, email]
  · cases tier : result.subscriptionTier <;> cases email : result.email <;>
      simp [persistResult, startupPersister, writeTokens, tier, email]

theorem persist_exchange_fields (stamp : Clock) (tokens : TokenRefreshResult) (row : Account) :
    (persistExchange stamp tokens row).accessToken = some tokens.accessToken ∧
      (persistExchange stamp tokens row).expiresAt = some tokens.expiresAt ∧
      (persistExchange stamp tokens row).refreshToken = tokens.refreshToken ∧
      (persistExchange stamp tokens row).refreshTokenUpdatedAt = some stamp.millis := by
  cases tier : tokens.subscriptionTier <;> cases email : tokens.email <;>
    simp [persistExchange, updateTokens, writeTokens, setSubscriptionTier, setEmail, tier, email]

section Paths

variable (world : World) (account row : Account)

theorem manager_agrees (persister : TokenPersister) (result : TokenRefreshResult)
    (known : persister = dbPersister ∨ persister = startupPersister)
    (success : refreshToken world account = .ok result) :
    Agrees world.now result.accessToken row (persistResult persister result row) ↔
      ManagerSound world account row := by
  obtain ⟨access, expiry, written, unstamped⟩ := persist_result_fields persister result row known
  rw [unstamped_agrees world.now result.accessToken result.refreshToken result.expiresAt row _
    access expiry written unstamped]
  cases key : account.apiKey with
  | some value =>
      simp only [refreshToken, key, Except.ok.injEq] at success
      subst success
      simp [ManagerSound, key, millis_after_ahead]
  | none =>
      by_cases held : account.refreshToken = ""
      · simp [refreshToken, key, held] at success
      · simp only [refreshToken, key, held, ↓reduceIte] at success
        obtain ⟨tokens, answered, rfl⟩ := map_ok _ _ result success
        obtain ⟨json, given, expires, token⟩ :=
          do_refresh_ok world account.refreshToken tokens answered
        simp [ManagerSound, key, given, expires, token, millis_after_ahead]

theorem poller_agrees (token : RefreshedToken)
    (success : refreshOauthToken world account.refreshToken = .ok token) :
    Agrees world.now token.accessToken row (persistRefreshedToken world.stamp token row) ↔
      PollerSound world account row := by
  obtain ⟨json, given, expires, refresh⟩ :=
    refresh_oauth_token_ok world account.refreshToken token success
  have future : world.now.millis < token.expiresAt.getD 0 ↔
      ∃ seconds ∈ expiresIn json, Ahead world.now seconds := by
    rw [expires]
    cases expiresIn json with
    | none => simpa using world.now.afterEpoch
    | some seconds => simp [millis_after_ahead]
  have sound : PollerSound world account row ↔ world.now.millis < token.expiresAt.getD 0 ∧
      (token.refreshToken = "" ∨ token.refreshToken = row.refreshToken ∨
        StampedLater world.stamp row) := by
    simp [PollerSound, given, future, refresh]
  rw [sound]
  by_cases empty : token.refreshToken = ""
  · rw [unstamped_agrees world.now token.accessToken row.refreshToken (token.expiresAt.getD 0) row]
    all_goals simp [persistRefreshedToken, updateTokens, writeTokens, empty]
  · rw [stamped_agrees world.now world.stamp token.accessToken token.refreshToken
      (token.expiresAt.getD 0) row]
    all_goals simp [persistRefreshedToken, updateTokens, writeTokens, empty]

theorem exchange_agrees (code state verifier : String) (tokens : TokenRefreshResult)
    (success : exchangeCode world code state verifier = .ok tokens) :
    Agrees world.now tokens.accessToken row (persistExchange world.stamp tokens row) ↔
      ExchangeSound world (codeRequest code state verifier world.clientId) row := by
  obtain ⟨json, given, expires, token⟩ :=
    exchange_code_ok world code state verifier tokens success
  obtain ⟨access, expiry, written, stamped⟩ :=
    persist_exchange_fields world.stamp tokens row
  rw [stamped_agrees world.now world.stamp tokens.accessToken tokens.refreshToken
    tokens.expiresAt row _ access expiry written stamped]
  simp [ExchangeSound, given, expires, token, millis_after_ahead]

/-- A path keeps the row in agreement exactly when its conventions suit the answer. -/
theorem refresh_agrees_iff (path : RefreshPath) (token : String) (after : Account)
    (success : refreshRow world account row path = some (token, after)) :
    Agrees world.now token row after ↔ Sound world account row path := by
  cases path with
  | tokenManagerDb =>
      obtain ⟨result, refreshed, same⟩ := Option.map_eq_some_iff.mp success
      cases same
      exact manager_agrees world account row dbPersister result (Or.inl rfl)
        (option_ok _ result refreshed)
  | tokenManagerStartup =>
      obtain ⟨result, refreshed, same⟩ := Option.map_eq_some_iff.mp success
      cases same
      exact manager_agrees world account row startupPersister result (Or.inr rfl)
        (option_ok _ result refreshed)
  | usagePoller =>
      simp only [refreshRow] at success
      split at success
      · cases success
      · obtain ⟨result, refreshed, same⟩ := Option.map_eq_some_iff.mp success
        cases same
        exact poller_agrees world account row result (option_ok _ result refreshed)
  | oauthExchange code state verifier =>
      obtain ⟨tokens, exchanged, same⟩ := Option.map_eq_some_iff.mp success
      cases same
      exact exchange_agrees world row code state verifier tokens (option_ok _ tokens exchanged)

end Paths

def rotationText : String :=
  "\x7b\"access_token\":\"a1\",\"expires_in\":28800,\"refresh_token\":\"r1\"\x7d"

def rotationCodec : Codec := .ofTable [(rotationText, Json.make
  [("access_token", .string "a1"), ("expires_in", .ofInt 28800), ("refresh_token", .string "r1")])]

def rotationWorld : World where
  codec := rotationCodec
  tokenEndpoint request :=
    if request.getStr "refresh_token" = some "r0" then some ⟨200, rotationText⟩ else none
  fetchSubscriptionTier _ := none
  clientId := "client"
  now := ⟨1700000000000, by decide, by decide⟩
  stamp := ⟨1700000000001, by decide, by decide⟩

def rotationRow : Account :=
  { makeAccount "a" "anthropic" 0 with
    accessToken := some "a0"
    expiresAt := some 1699999999000
    refreshToken := "r0"
    refreshTokenUpdatedAt := some 1699000000000 }

/-- The poller keeps the row in agreement over a rotation. -/
theorem polled_rotation_agrees :
    Agrees rotationWorld.now "a1" rotationRow
      { rotationRow with
        accessToken := some "a1"
        expiresAt := some 1700028800000
        refreshToken := "r1"
        refreshTokenUpdatedAt := some 1700000000001 } := by
  apply (refresh_agrees_iff rotationWorld rotationRow rotationRow .usagePoller "a1" _
    (by decide +kernel)).mpr
  refine ⟨_, rfl, ⟨28800, by decide +kernel, ?_⟩, Or.inr (Or.inr ?_)⟩
  · exact ⟨by decide, by decide⟩
  · intro old held
    obtain rfl := Option.some.inj held
    decide

/-- The manager stores the rotated token under the stamp of the one it replaces. -/
theorem managed_rotation_unstamped :
    refreshRow rotationWorld rotationRow rotationRow .tokenManagerDb = some ("a1",
      { rotationRow with
        accessToken := some "a1"
        expiresAt := some 1700028800000
        refreshToken := "r1" }) ∧
      ¬ Agrees rotationWorld.now "a1" rotationRow
        { rotationRow with
          accessToken := some "a1"
          expiresAt := some 1700028800000
          refreshToken := "r1" } := by
  constructor
  · decide +kernel
  · intro agrees
    obtain ⟨stamp, member, later⟩ := agrees.stamped (by decide)
    exact lt_irrefl _ (later stamp member)

end Ccflare.TokenRefresh
