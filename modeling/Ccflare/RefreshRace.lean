import Mathlib.Logic.Function.Basic
import Ccflare.RotatingSecret
import Ccflare.TokenRefresh
import Ccflare.Transition

/-!
Proxied requests and the usage poller refresh the same accounts. A request loads a
row, takes the lock of its account, refreshes and persists; the poller works through
a snapshot of all rows without the lock, refreshes after a 401 with the token of its
snapshot, and marks the account when that token is refused. The server rotates.
-/

namespace Ccflare.RefreshRace

open JsonValue RotatingSecret TokenRefresh Transition

/-- What the poller takes of a row. -/
structure PollableAccount where
  id : String
  provider : String
  accessToken : Option String
  refreshToken : Option String
  clientId : Option String
  apiKey : Option String
  customEndpoint : Option String
  paused : Bool
  deriving DecidableEq

def supportsUsageTracking (provider : String) : Bool :=
  provider = "claude-oauth" || provider = "anthropic" || provider = "nanogpt" || provider = "zai"

def isOAuth (provider : String) : Bool := provider = "claude-oauth" || provider = "anthropic"

def pollable (clientId : String) (a : Account) : PollableAccount where
  id := a.id
  provider := a.provider
  accessToken := a.accessToken
  refreshToken := if a.refreshToken = "" then none else some a.refreshToken
  clientId := if isOAuth a.provider then some clientId else none
  apiKey := a.apiKey
  customEndpoint := a.customEndpoint
  paused := a.paused

def getPollableAccounts (clientId : String) (rows : List Account) : List PollableAccount :=
  ((rows.filter fun a => !a.paused).filter fun a => supportsUsageTracking a.provider).map
    (pollable clientId)

/-- `UPDATE accounts SET refresh_token = '', access_token = NULL, expires_at = NULL`. -/
def markTokenRevoked (row : Account) : Account :=
  { row with
    refreshToken := ""
    accessToken := none
    expiresAt := none }

def updateRow (id : String) (change : Account → Account) (rows : List Account) : List Account :=
  rows.map fun row => if row.id = id then change row else row

/-- The accounts `get_valid_access_token` may refresh. -/
def refreshes (account : Account) : Bool :=
  !isApiKeyProvider account.provider && !(account.refreshToken = "" && account.apiKey.isSome)

/-- A proxied request in `get_valid_access_token`. -/
inductive Request where
  | idle
  | loaded (account : Account)
  | holding (account : Account)
  | refreshed (accountId : String) (result : TokenRefreshResult)

/-- The poller, with the accounts of its snapshot that are still to come. -/
inductive Poller where
  | idle
  | polling (account : PollableAccount) (rest : List PollableAccount)
  | granted (account : PollableAccount) (token : RefreshedToken) (rest : List PollableAccount)
  | revoked (account : PollableAccount) (rest : List PollableAccount)

def nextPoll : List PollableAccount → Poller
  | [] => .idle
  | account :: rest => .polling account rest

def afterRefresh (account : PollableAccount) (rest : List PollableAccount) :
    Except TokenRefreshError RefreshedToken → Poller
  | .ok token => .granted account token rest
  | .error .permanentlyRevoked => .revoked account rest
  | .error .transient => nextPoll rest

structure State where
  rows : List Account
  server : Authority String
  locks : String → Option Nat
  requests : Nat → Request
  poller : Poller

inductive Event where
  | load (task : Nat)
  | leave (task : Nat)
  | acquire (task : Nat)
  | unlock (task : Nat)
  | refresh (task : Nat)
  | persist (task : Nat)
  | snapshot
  | pollNext
  | pollRefresh
  | pollPersist
  | markTokenRevoked (account : PollableAccount)
  | revoke (token : String)

/-- What an answer of the token endpoint tells of the server's reaction. -/
def Tells (codec : Codec) (answer : Option HttpAnswer) : Reaction String → Prop
  | .granted fresh => ∃ reply json, answer = some reply ∧ isSuccess reply.status = true ∧
      codec.fromStr reply.text = some json ∧ (json.getStr "access_token").isSome ∧
      json.getStr "refresh_token" = some fresh
  | .refused => ∃ reply, answer = some reply ∧ isSuccess reply.status = false ∧
      (codec.fromStr reply.text).bind (Json.getStr "error") = some "invalid_grant"
  | .failed => ∀ reply, answer = some reply →
      if isSuccess reply.status = true then
        (codec.fromStr reply.text).bind (Json.getStr "access_token") = none
      else (codec.fromStr reply.text).bind (Json.getStr "error") ≠ some "invalid_grant"

/-- One refresh call: the server rotates, refuses or fails, and answers so. -/
def Calls (world : World) (before : Authority String) (token : String)
    (after : Authority String) : Prop :=
  ∃ reaction, Serves before token reaction after ∧
    Tells world.codec (world.tokenEndpoint (refreshRequest token world.clientId)) reaction

/-- The provider asks the server for accounts with a refresh token and no API key. -/
def Asks (world : World) (before : Authority String) (account : Account)
    (after : Authority String) : Prop :=
  if account.apiKey = none ∧ account.refreshToken ≠ "" then
    Calls world before account.refreshToken after
  else after = before

def leaveTask (s : State) (task : Nat) : Nat → Request := Function.update s.requests task .idle

inductive Step (codec : Codec) (clientId : String) : State → Event → State → Prop where
  | load (s : State) (task : Nat) (account : Account) :
      s.requests task = .idle → account ∈ s.rows →
      Step codec clientId s (.load task)
        { s with requests := Function.update s.requests task (.loaded account) }
  -- The token is still good, or the account is in backoff.
  | leave (s : State) (task : Nat) (account : Account) :
      s.requests task = .loaded account →
      Step codec clientId s (.leave task) { s with requests := leaveTask s task }
  | acquire (s : State) (task : Nat) (account : Account) :
      s.requests task = .loaded account → refreshes account = true →
      s.locks account.id = none →
      Step codec clientId s (.acquire task)
        { s with
          locks := Function.update s.locks account.id (some task)
          requests := Function.update s.requests task (.holding account) }
  | unlock (s : State) (task : Nat) (account : Account) :
      s.requests task = .holding account →
      Step codec clientId s (.unlock task)
        { s with
          locks := Function.update s.locks account.id none
          requests := leaveTask s task }
  | refresh (s : State) (task : Nat) (account : Account) (world : World)
      (server : Authority String) (result : TokenRefreshResult) :
      world.codec = codec → world.clientId = clientId →
      s.requests task = .holding account → Asks world s.server account server →
      refreshToken world account = .ok result →
      Step codec clientId s (.refresh task)
        { s with
          server := server
          requests := Function.update s.requests task (.refreshed account.id result) }
  | refreshFails (s : State) (task : Nat) (account : Account) (world : World)
      (server : Authority String) (reason : ProviderError) :
      world.codec = codec → world.clientId = clientId →
      s.requests task = .holding account → Asks world s.server account server →
      refreshToken world account = .error reason →
      Step codec clientId s (.refresh task)
        { s with
          server := server
          locks := Function.update s.locks account.id none
          requests := leaveTask s task }
  | persist (s : State) (task : Nat) (accountId : String) (result : TokenRefreshResult) :
      s.requests task = .refreshed accountId result →
      Step codec clientId s (.persist task)
        { s with
          rows := updateRow accountId (persistResult dbPersister result) s.rows
          locks := Function.update s.locks accountId none
          requests := leaveTask s task }
  | snapshot (s : State) :
      s.poller = .idle →
      Step codec clientId s .snapshot
        { s with poller := nextPoll (getPollableAccounts clientId s.rows) }
  -- The usage is read, or the poll of the account fails without a refresh.
  | pollNext (s : State) (account : PollableAccount) (rest : List PollableAccount) :
      s.poller = .polling account rest →
      Step codec clientId s .pollNext { s with poller := nextPoll rest }
  -- The usage endpoint answers 401.
  | pollRefresh (s : State) (account : PollableAccount) (rest : List PollableAccount)
      (world : World) (token : String) (server : Authority String) :
      world.codec = codec → account.clientId = some world.clientId →
      s.poller = .polling account rest → isOAuth account.provider = true →
      account.refreshToken = some token → Calls world s.server token server →
      Step codec clientId s .pollRefresh
        { s with
          server := server
          poller := afterRefresh account rest (refreshOauthToken world token) }
  -- After a refresh the loop polls the same account of the snapshot again.
  | pollPersist (s : State) (account : PollableAccount) (token : RefreshedToken)
      (rest : List PollableAccount) (stamp : Clock) :
      s.poller = .granted account token rest →
      Step codec clientId s .pollPersist
        { s with
          rows := updateRow account.id (persistRefreshedToken stamp token) s.rows
          poller := .polling account rest }
  | markTokenRevoked (s : State) (account : PollableAccount) (rest : List PollableAccount) :
      s.poller = .revoked account rest →
      Step codec clientId s (.markTokenRevoked account)
        { s with
          rows := updateRow account.id markTokenRevoked s.rows
          poller := nextPoll rest }
  | revoke (s : State) (token : String) :
      Step codec clientId s (.revoke token) { s with server := s.server.revoke token }

/-- Nothing is under way, and the server never issued the empty token. -/
structure Initial (s : State) : Prop where
  empty : s.server.Dead ""
  requests : ∀ task, s.requests task = .idle
  locks : ∀ id, s.locks id = none
  poller : s.poller = .idle

abbrev Taken := State × Event × State

/-- The row of an account that is marked holds the token that was refused, or none. -/
def Undisturbed (taken : Taken) : Prop :=
  ∀ account, taken.2.1 = .markTokenRevoked account → ∀ row ∈ taken.1.rows, row.id = account.id →
    some row.refreshToken = account.refreshToken ∨ row.refreshToken = ""

/-- An account is marked only when the server rejects the token of its row. -/
def RightlyMarked (taken : Taken) : Prop :=
  ∀ account, taken.2.1 = .markTokenRevoked account → ∀ row ∈ taken.1.rows, row.id = account.id →
    row.refreshToken ∉ taken.1.server.live

/-- The token that was refused to the poller stays dead until the account is marked. -/
structure Inv (s : State) : Prop where
  empty : s.server.Dead ""
  refused : ∀ account rest, s.poller = .revoked account rest →
    ∃ token, account.refreshToken = some token ∧ s.server.Dead token

-- Only a refusal reads as a revoked token.
theorem revoked_refused (world : World) (token : String) (reaction : Reaction String)
    (told : Tells world.codec (world.tokenEndpoint (refreshRequest token world.clientId)) reaction)
    (revoked : refreshOauthToken world token = .error .permanentlyRevoked) :
    reaction = .refused := by
  cases reaction with
  | granted fresh =>
      obtain ⟨reply, json, answered, success, parsed, hasAccess, -⟩ := told
      obtain ⟨access, held⟩ := Option.isSome_iff_exists.mp hasAccess
      simp [refreshOauthToken, answered, success, parsed, held] at revoked
  | refused => rfl
  | failed =>
      cases answered : world.tokenEndpoint (refreshRequest token world.clientId) with
      | none => simp [refreshOauthToken, answered] at revoked
      | some reply =>
          have silent := told reply answered
          by_cases success : isSuccess reply.status = true
          · cases parsed : world.codec.fromStr reply.text with
            | none => simp [refreshOauthToken, answered, success, parsed] at revoked
            | some json =>
                have bare : json.getStr "access_token" = none := by
                  simpa [success, parsed] using silent
                simp [refreshOauthToken, answered, success, parsed, bare] at revoked
          · rw [if_neg success] at silent
            simp [refreshOauthToken, answered, success, silent] at revoked

theorem calls_keep_dead (world : World) (before after : Authority String) (token secret : String)
    (called : Calls world before token after) (dead : before.Dead secret) : after.Dead secret := by
  obtain ⟨reaction, served, -⟩ := called
  exact served.keeps_dead secret dead

theorem asks_keep_dead (world : World) (before after : Authority String) (account : Account)
    (secret : String) (asked : Asks world before account after) (dead : before.Dead secret) :
    after.Dead secret := by
  unfold Asks at asked
  split at asked
  · exact calls_keep_dead world before after _ secret asked dead
  · exact asked ▸ dead

theorem next_poll_unrevoked (accounts : List PollableAccount) (account : PollableAccount)
    (rest : List PollableAccount) : nextPoll accounts ≠ .revoked account rest := by
  cases accounts <;> simp [nextPoll]

/-- The poller comes to hold a refused token only by a refusal of the server. -/
theorem after_refresh_revoked (world : World) (before after : Authority String) (token : String)
    (called : Calls world before token after) (account other : PollableAccount)
    (rest others : List PollableAccount)
    (revoked : afterRefresh account rest (refreshOauthToken world token) = .revoked other others) :
    account = other ∧ after.Dead token := by
  obtain ⟨reaction, served, told⟩ := called
  cases outcome : refreshOauthToken world token with
  | ok refreshed => simp [outcome, afterRefresh] at revoked
  | error reason =>
      cases reason with
      | transient =>
          rw [outcome] at revoked
          exact absurd revoked (next_poll_unrevoked rest other others)
      | permanentlyRevoked =>
          obtain rfl := revoked_refused world token reaction told outcome
          simp only [outcome, afterRefresh, Poller.revoked.injEq] at revoked
          exact ⟨revoked.1, served.refused_dead⟩

section Steps

variable (codec : Codec) (clientId : String)

/-- A change of the server that revives nothing keeps what the poller was refused. -/
theorem Inv.server_changed (s : State) (inv : Inv s) (server : Authority String)
    (kept : ∀ secret, s.server.Dead secret → server.Dead secret) :
    Inv { s with server := server } := by
  constructor
  · exact kept "" inv.empty
  · intro account rest revoked
    obtain ⟨token, held, dead⟩ := inv.refused account rest revoked
    exact ⟨token, held, kept token dead⟩

theorem Inv.poller_free (s : State) (inv : Inv s) (poller : Poller)
    (free : ∀ account rest, poller ≠ .revoked account rest) : Inv { s with poller := poller } := by
  constructor
  · exact inv.empty
  · intro account rest revoked
    exact absurd revoked (free account rest)

theorem step_inv (s t : State) (event : Event) (inv : Inv s)
    (step : Step codec clientId s event t) : Inv t := by
  cases step with
  | load task account _ _ => exact ⟨inv.empty, inv.refused⟩
  | leave task account _ => exact ⟨inv.empty, inv.refused⟩
  | acquire task account _ _ _ => exact ⟨inv.empty, inv.refused⟩
  | unlock task account _ => exact ⟨inv.empty, inv.refused⟩
  | refresh task account world server result _ _ _ asked _ =>
      have changed := inv.server_changed s server fun secret =>
        asks_keep_dead world s.server server account secret asked
      exact ⟨changed.empty, changed.refused⟩
  | refreshFails task account world server reason _ _ _ asked _ =>
      have changed := inv.server_changed s server fun secret =>
        asks_keep_dead world s.server server account secret asked
      exact ⟨changed.empty, changed.refused⟩
  | persist task accountId result _ => exact ⟨inv.empty, inv.refused⟩
  | snapshot _ => exact inv.poller_free s _ (next_poll_unrevoked _)
  | pollNext account rest _ => exact inv.poller_free s _ (next_poll_unrevoked rest)
  -- Only here the poller learns of a refusal: the token it asked with is dead.
  | pollRefresh account rest world token server _ _ _ _ held called =>
      constructor
      · exact calls_keep_dead world s.server server token "" called inv.empty
      · intro other others revoked
        obtain ⟨rfl, dead⟩ := after_refresh_revoked world s.server server token called account
          other rest others revoked
        exact ⟨token, held, dead⟩
  | pollPersist account token rest stamp _ =>
      have free := inv.poller_free s (.polling account rest) (by simp)
      exact ⟨free.empty, free.refused⟩
  | markTokenRevoked account rest _ =>
      have free := inv.poller_free s (nextPoll rest) (next_poll_unrevoked rest)
      exact ⟨free.empty, free.refused⟩
  | revoke token => exact inv.server_changed s _ (revoke_dead s.server token)

theorem step_marked (s t : State) (event : Event) (inv : Inv s)
    (step : Step codec clientId s event t) (undisturbed : Undisturbed (s, event, t)) :
    RightlyMarked (s, event, t) := by
  rintro account rfl row member same
  cases step with
  | markTokenRevoked _ rest marking =>
      obtain ⟨token, polled, dead⟩ := inv.refused account rest marking
      rcases undisturbed account rfl row member same with held | empty
      · rw [polled] at held
        obtain rfl := Option.some.inj held
        exact dead.2
      · rw [empty]
        exact inv.empty.2

theorem initial_inv (s : State) (initial : Initial s) : Inv s := by
  constructor
  · exact initial.empty
  · intro account rest revoked
    rw [initial.poller] at revoked
    cases revoked

/-- In a run whose markings find the polled token still in the row, no live token is
wiped. -/
theorem marked_rightly (start final : State) (trace : List Taken) (initial : Initial start)
    (run : Run (Step codec clientId) start trace final)
    (undisturbed : ∀ taken ∈ trace, Undisturbed taken) :
    ∀ taken ∈ trace, RightlyMarked taken := by
  intro taken member
  obtain ⟨inv, step⟩ := run.transitions Inv (initial_inv start initial)
    (fun source event target inv step => step_inv codec clientId source target event inv step)
    taken member
  exact step_marked codec clientId taken.1 taken.2.2 taken.2.1 inv step (undisturbed taken member)

end Steps

def refusalText : String := "\x7b\"error\":\"invalid_grant\"\x7d"

def raceCodec : Codec := .ofTable [(rotationText, Json.make [("access_token", .string "a1"),
  ("expires_in", .ofInt 28800), ("refresh_token", .string "r1")]),
  (refusalText, Json.make [("error", .string "invalid_grant")])]

/-- The world of a call that is answered so. -/
def answering (status : Nat) (text : String) : World :=
  { rotationWorld with
    codec := raceCodec
    tokenEndpoint := fun _ => some ⟨status, text⟩ }

def raceStart : State where
  rows := [rotationRow]
  server := ⟨{"r0"}, {"", "r0"}, by simp⟩
  locks _ := none
  requests _ := .idle
  poller := .idle

def racePolled : PollableAccount := pollable "client" rotationRow

def raceResult : TokenRefreshResult := ⟨"a1", 1700028800000, "r1", none, none⟩

theorem race_initial : Initial raceStart := by
  constructor
  · simp [raceStart, Authority.Dead]
  · exact fun _ => rfl
  · exact fun _ => rfl
  · rfl

theorem race_refused (server : Authority String) (spent : "r0" ∉ server.live) :
    Calls (answering 400 refusalText) server "r0" (server.present "r0") := by
  refine ⟨.refused, .refused spent, ⟨400, refusalText⟩, rfl, rfl, ?_⟩
  decide +kernel

theorem race_read : refreshOauthToken (answering 400 refusalText) "r0" =
    .error .permanentlyRevoked := by
  have refusal : raceCodec.fromStr refusalText =
      some (Json.make [("error", .string "invalid_grant")]) := by
    decide +kernel
  simp [refreshOauthToken, answering, isSuccess, refusal, Json.getStr, Json.get_make, Json.field,
    Json.asStr]

theorem race_rotated : Asks (answering 200 rotationText) raceStart.server rotationRow
    (raceStart.server.rotate "r0" "r1") := by
  have asks : rotationRow.apiKey = none ∧ rotationRow.refreshToken ≠ "" := by
    decide
  rw [Asks, if_pos asks]
  refine ⟨.granted "r1", .rotated "r1" (by simp [raceStart, rotationRow]) (by simp [raceStart]),
    ⟨200, rotationText⟩, _, rfl, rfl, rfl, ?_, ?_⟩ <;> decide +kernel

theorem race_result : refreshToken (answering 200 rotationText) rotationRow = .ok raceResult := by
  decide +kernel

/-- A token that its owner revokes is marked, and rightly so. -/
theorem revoked_token_marked :
    ∃ trace final, Run (Step raceCodec "client") raceStart trace final ∧
      (∃ taken ∈ trace, taken.2.1 = .markTokenRevoked racePolled) ∧
      ∀ taken ∈ trace, RightlyMarked taken := by
  have snapshot : Step raceCodec "client" raceStart .snapshot _ := .snapshot raceStart rfl
  have revoke : Step raceCodec "client" _ (.revoke "r0") _ :=
    .revoke { raceStart with poller := .polling racePolled [] } "r0"
  have refused : Step raceCodec "client" _ .pollRefresh _ :=
    .pollRefresh { raceStart with
      server := raceStart.server.revoke "r0"
      poller := .polling racePolled [] } racePolled [] (answering 400 refusalText) "r0" _
      rfl rfl rfl rfl rfl (race_refused _ (by simp [raceStart, Authority.revoke]))
  rw [race_read] at refused
  have marked : Step raceCodec "client" _ (.markTokenRevoked racePolled) _ :=
    .markTokenRevoked { raceStart with
      server := (raceStart.server.revoke "r0").present "r0"
      poller := .revoked racePolled [] } racePolled [] rfl
  have run := (((Run.nil.snoc snapshot).snoc revoke).snoc refused).snoc marked
  refine ⟨_, _, run, ⟨_, List.mem_append_right _ (List.mem_singleton_self _), rfl⟩, ?_⟩
  apply marked_rightly raceCodec "client" raceStart _ _ race_initial run
  intro taken member account marking row held _
  simp only [List.nil_append, List.cons_append, List.mem_cons, List.not_mem_nil, or_false] at member
  rcases member with rfl | rfl | rfl | rfl
  · cases marking
  · cases marking
  · cases marking
  · obtain rfl := Event.markTokenRevoked.inj marking
    obtain rfl := List.mem_singleton.mp held
    exact Or.inl rfl

def raceSnapshot : State := { raceStart with poller := .polling racePolled [] }

def raceLoaded : State :=
  { raceSnapshot with requests := Function.update raceSnapshot.requests 0 (.loaded rotationRow) }

def raceHolding : State :=
  { raceLoaded with
    locks := Function.update raceLoaded.locks "a" (some 0)
    requests := Function.update raceLoaded.requests 0 (.holding rotationRow) }

def raceRefreshed : State :=
  { raceHolding with
    server := raceStart.server.rotate "r0" "r1"
    requests := Function.update raceHolding.requests 0 (.refreshed "a" raceResult) }

def racePersisted : State :=
  { raceRefreshed with
    rows := updateRow "a" (persistResult dbPersister raceResult) raceRefreshed.rows
    locks := Function.update raceRefreshed.locks "a" none
    requests := leaveTask raceRefreshed 0 }

def raceRefused : State :=
  { racePersisted with
    server := (raceStart.server.rotate "r0" "r1").present "r0"
    poller := .revoked racePolled [] }

def raceWiped : State :=
  { raceRefused with
    rows := updateRow "a" markTokenRevoked raceRefused.rows
    poller := .idle }

theorem race_poll_refused :
    Step raceCodec "client" racePersisted .pollRefresh raceRefused := by
  have spent : "r0" ∉ (raceStart.server.rotate "r0" "r1").live := by
    simp [raceStart, Authority.rotate]
  have refused : Step raceCodec "client" racePersisted .pollRefresh _ :=
    .pollRefresh racePersisted racePolled [] (answering 400 refusalText) "r0" _
      rfl rfl rfl rfl rfl (race_refused _ spent)
  rw [race_read] at refused
  exact refused

/-- A request rotates the token the poller has in its snapshot; the poller presents
the old one, is refused, and wipes the new one. -/
theorem rotated_token_wiped :
    Initial raceStart ∧ ∃ trace, Run (Step raceCodec "client") raceStart trace raceWiped ∧
      ∃ taken ∈ trace, ¬ RightlyMarked taken := by
  have snapshot : Step raceCodec "client" raceStart .snapshot raceSnapshot :=
    .snapshot raceStart rfl
  have load : Step raceCodec "client" raceSnapshot (.load 0) raceLoaded :=
    .load raceSnapshot 0 rotationRow rfl (List.mem_singleton_self _)
  have acquire : Step raceCodec "client" raceLoaded (.acquire 0) raceHolding :=
    .acquire raceLoaded 0 rotationRow rfl rfl rfl
  have refresh : Step raceCodec "client" raceHolding (.refresh 0) raceRefreshed :=
    .refresh raceHolding 0 rotationRow (answering 200 rotationText) _ raceResult rfl rfl rfl
      race_rotated race_result
  have persist : Step raceCodec "client" raceRefreshed (.persist 0) racePersisted :=
    .persist raceRefreshed 0 "a" raceResult rfl
  have wipe : Step raceCodec "client" raceRefused (.markTokenRevoked racePolled) raceWiped :=
    .markTokenRevoked raceRefused racePolled [] rfl
  have run := ((((((Run.nil.snoc snapshot).snoc load).snoc acquire).snoc refresh).snoc
    persist).snoc race_poll_refused).snoc wipe
  refine ⟨race_initial, _, run, _, List.mem_append_right _ (List.mem_singleton_self _), ?_⟩
  intro right
  have stored : persistResult dbPersister raceResult rotationRow ∈ raceRefused.rows :=
    List.mem_singleton_self _
  exact right racePolled rfl _ stored rfl (Set.mem_insert _ _)

end Ccflare.RefreshRace
