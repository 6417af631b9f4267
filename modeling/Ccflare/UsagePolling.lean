import Ccflare.JsonValue
import Ccflare.MachineNumber
import Ccflare.Text

/-!
One poll of an account's usage. The loop for OAuth accounts fetches with the token it holds and,
where that is refused, exchanges the refresh token it was given with the account; it goes on as
long as the exchange succeeds. The endpoints answer as they like, so a poll may never end: it runs
as long as it is given fuel.
-/

namespace Ccflare.UsagePolling

open JsonValue MachineNumber

structure PollableAccount where
  provider : String
  accessToken : Option String
  refreshToken : Option String
  clientId : Option String
  apiKey : Option String

/-- An answer of an endpoint, with its `retry-after` header as the number it holds. -/
structure HttpAnswer where
  status : Nat
  retryAfter : Option Nat
  body : ByteArray

def HttpAnswer.isSuccess (answer : HttpAnswer) : Bool :=
  decide (200 ≤ answer.status ∧ answer.status < 300)

/-- What the endpoints answer, one after another; a request without an answer has failed. -/
structure Client where
  codec : Codec
  text : ByteArray → String
  now : Nat → Int
  usage : Nat → Option HttpAnswer
  token : Nat → Option HttpAnswer
  other : Nat → Option Json

inductive AnthropicUsageResult where
  | ok (data : List (String × Json))
  | unauthorized
  | rateLimited (retryAfter : Nat)
  | error
  deriving DecidableEq

structure RefreshedToken where
  accessToken : String
  refreshToken : String
  expiresAt : Option Int
  deriving DecidableEq

inductive TokenRefreshError where
  | permanentlyRevoked
  | transient
  deriving DecidableEq

/-- What a poll does to the world, in order. -/
inductive Effect where
  | fetch (accessToken : String)
  | refresh (refreshToken clientId : String) (result : Except TokenRefreshError RefreshedToken)
  | persistRefreshedToken (token : RefreshedToken)
  | markTokenRevoked
  | setUsage (data : Json)
  | removeUsage

section Poll
variable (client : Client)

def fetchAnthropicUsage (n : Nat) : AnthropicUsageResult :=
  match client.usage n with
  | none => .error
  | some answer =>
      if answer.isSuccess then
        match (client.codec.fromSlice answer.body).bind Json.asObject with
        | some data => .ok data
        | none => .error
      else if answer.status = 401 then .unauthorized
      else if answer.status = 429 then .rateLimited (max (answer.retryAfter.getD 30) 60)
      else .error

def refreshOauthToken (n : Nat) (refreshToken : String) :
    Except TokenRefreshError RefreshedToken :=
  match client.token n with
  | none => .error .transient
  | some answer =>
      if answer.isSuccess then
        match client.codec.fromSlice answer.body with
        | none => .error .transient
        | some json =>
            match json.getStr "access_token" with
            | none => .error .transient
            | some accessToken => .ok
                { accessToken := accessToken
                  refreshToken := (json.getStr "refresh_token").getD refreshToken
                  expiresAt := ((json.get "expires_in").bind Json.asI64).map fun secs =>
                    wrapI64 (client.now n + wrapI64 (secs * 1000)) }
      else if (client.codec.fromStr (client.text answer.body)).bind (Json.getStr "error") =
          some "invalid_grant" then .error .permanentlyRevoked
      else .error .transient

inductive Next where
  | again (currentToken : String)
  | done (rateLimited : Bool)

variable (account : PollableAccount)

/-- One pass of the loop. Every pass before it has fetched once and refreshed once. -/
def pollOnce (n : Nat) (currentToken : String) : List Effect × Next :=
  match fetchAnthropicUsage client n with
  | .ok data => ([.fetch currentToken, .setUsage (.object data)], .done false)
  | .rateLimited _ => ([.fetch currentToken], .done true)
  | .unauthorized =>
      match account.refreshToken, account.clientId with
      | some refreshToken, some clientId =>
          let result := refreshOauthToken client n refreshToken
          let presented : List Effect := [.fetch currentToken, .refresh refreshToken clientId result]
          match result with
          | .ok refreshed =>
              (presented ++ [.persistRefreshedToken refreshed], .again refreshed.accessToken)
          | .error .permanentlyRevoked => (presented ++ [.markTokenRevoked, .removeUsage], .done false)
          | .error .transient => (presented, .done false)
      | _, _ => ([.fetch currentToken], .done false)
  | .error => ([.fetch currentToken], .done false)

/-- The loop for OAuth accounts; without a result it has not ended yet. -/
def pollLoop : Nat → Nat → String → List Effect × Option Bool
  | 0, _, _ => ([], none)
  | fuel + 1, n, currentToken =>
      match pollOnce client account n currentToken with
      | (effects, .done rateLimited) => (effects, some rateLimited)
      | (effects, .again next) =>
          let (later, result) := pollLoop fuel (n + 1) next
          (effects ++ later, result)

def maxRetries : Nat := 2

/-- The attempts for the other providers. -/
def pollOther (token : String) : Nat → Nat → List Effect
  | 0, _ => []
  | left + 1, n =>
      .fetch token :: match client.other n with
        | some data => [.setUsage data]
        | none => pollOther token left (n + 1)

def isOauthProvider : Bool :=
  account.provider = "claude-oauth" ∨ account.provider = "anthropic"

/-- The token a poll starts with, unless there is none to use. -/
def startToken : Option String :=
  (account.accessToken <|> account.apiKey).filter fun token => Text.trim token ≠ ""

def pollSingleAccount (fuel : Nat) : List Effect × Option Bool :=
  match startToken account with
  | none => ([], some false)
  | some token =>
      if isOauthProvider account then pollLoop client account fuel 0 token
      else (pollOther client token maxRetries 0, some false)

def Effect.isFetch : Effect → Bool
  | .fetch _ => true
  | _ => false

def Effect.isRefresh : Effect → Bool
  | .refresh _ _ _ => true
  | _ => false

/-- No refresh token is presented after it was exchanged for another one. -/
def PresentsNoneAgain (effects : List Effect) : Prop :=
  ∀ before refreshToken clientId refreshed after,
    effects = before ++ .refresh refreshToken clientId (.ok refreshed) :: after →
      refreshed.refreshToken ≠ refreshToken →
        ∀ clientId result, .refresh refreshToken clientId result ∉ after

/-- The poll ends after two fetches and one refresh at most, and presents no refresh token again
that it has exchanged. -/
def PollEnds : Prop :=
  ∃ fuel effects rateLimited, pollSingleAccount client account fuel = (effects, some rateLimited) ∧
    effects.countP Effect.isFetch ≤ 2 ∧ effects.countP Effect.isRefresh ≤ 1 ∧
    PresentsNoneAgain effects

/-- The token that was got for the refused one is refused as well. -/
def RefusedTwice : Prop :=
  isOauthProvider account = true ∧ (startToken account).isSome = true ∧
    account.clientId.isSome = true ∧
    fetchAnthropicUsage client 0 = .unauthorized ∧
    (∃ refreshToken refreshed, account.refreshToken = some refreshToken ∧
      refreshOauthToken client 0 refreshToken = .ok refreshed) ∧
    fetchAnthropicUsage client 1 = .unauthorized

end Poll

section Ends
variable {client : Client} {account : PollableAccount}

theorem one_refresh (effects : List Effect) (few : effects.countP Effect.isRefresh ≤ 1) :
    PresentsNoneAgain effects := by
  rintro before refreshToken clientId refreshed after rfl - otherId result later
  have one : 1 ≤ after.countP Effect.isRefresh := List.one_le_countP_iff.mpr ⟨_, later, rfl⟩
  rw [List.countP_append, List.countP_cons_of_pos rfl] at few
  omega

/-- The effects of a pass that goes on. -/
def exchange (currentToken refreshToken clientId : String) (refreshed : RefreshedToken) :
    List Effect :=
  [.fetch currentToken, .refresh refreshToken clientId (.ok refreshed),
    .persistRefreshedToken refreshed]

theorem exchanged_pass (n : Nat) (currentToken refreshToken clientId : String)
    (refreshed : RefreshedToken) (refused : fetchAnthropicUsage client n = .unauthorized)
    (hasToken : account.refreshToken = some refreshToken)
    (hasClient : account.clientId = some clientId)
    (exchanged : refreshOauthToken client n refreshToken = .ok refreshed) :
    pollOnce client account n currentToken =
      (exchange currentToken refreshToken clientId refreshed, .again refreshed.accessToken) := by
  unfold pollOnce
  rw [refused, hasToken, hasClient]
  dsimp only
  rw [exchanged]
  rfl

theorem failed_pass (n : Nat) (currentToken refreshToken clientId : String)
    (reason : TokenRefreshError) (refused : fetchAnthropicUsage client n = .unauthorized)
    (hasToken : account.refreshToken = some refreshToken)
    (hasClient : account.clientId = some clientId)
    (failed : refreshOauthToken client n refreshToken = .error reason) :
    ∃ rest, pollOnce client account n currentToken =
        (.fetch currentToken :: .refresh refreshToken clientId (.error reason) :: rest, .done false) ∧
      rest.countP Effect.isFetch = 0 ∧ rest.countP Effect.isRefresh = 0 := by
  unfold pollOnce
  rw [refused, hasToken, hasClient]
  dsimp only
  rw [failed]
  cases reason with
  | permanentlyRevoked => exact ⟨[.markTokenRevoked, .removeUsage], rfl, rfl, rfl⟩
  | transient => exact ⟨[], rfl, rfl, rfl⟩

/-- A pass goes on after an exchange, or it ends the poll. -/
theorem pass_cases (client : Client) (account : PollableAccount) (n : Nat) (currentToken : String) :
    (∃ refreshToken clientId refreshed, fetchAnthropicUsage client n = .unauthorized ∧
      account.refreshToken = some refreshToken ∧ account.clientId = some clientId ∧
      refreshOauthToken client n refreshToken = .ok refreshed ∧
      pollOnce client account n currentToken =
        (exchange currentToken refreshToken clientId refreshed, .again refreshed.accessToken)) ∨
    ∃ effects rateLimited, pollOnce client account n currentToken = (effects, .done rateLimited) ∧
      effects.countP Effect.isFetch = 1 ∧ effects.countP Effect.isRefresh ≤ 1 ∧
      (fetchAnthropicUsage client n ≠ .unauthorized → effects.countP Effect.isRefresh = 0) := by
  cases answer : fetchAnthropicUsage client n with
  | ok data =>
      exact Or.inr ⟨_, _, by rw [pollOnce, answer], rfl, Nat.zero_le _, fun _ => rfl⟩
  | rateLimited retryAfter =>
      exact Or.inr ⟨_, _, by rw [pollOnce, answer], rfl, Nat.zero_le _, fun _ => rfl⟩
  | error => exact Or.inr ⟨_, _, by rw [pollOnce, answer], rfl, Nat.zero_le _, fun _ => rfl⟩
  | unauthorized =>
      cases hasToken : account.refreshToken with
      | none =>
          exact Or.inr ⟨_, _, by rw [pollOnce, answer, hasToken], rfl, Nat.zero_le _, fun _ => rfl⟩
      | some refreshToken =>
          cases hasClient : account.clientId with
          | none =>
              exact Or.inr ⟨_, _, by rw [pollOnce, answer, hasToken, hasClient], rfl,
                Nat.zero_le _, fun _ => rfl⟩
          | some clientId =>
              cases refreshed : refreshOauthToken client n refreshToken with
              | ok token =>
                  exact Or.inl ⟨refreshToken, clientId, token, rfl, rfl, rfl, refreshed,
                    exchanged_pass n currentToken refreshToken clientId token answer hasToken hasClient
                      refreshed⟩
              | error reason =>
                  obtain ⟨rest, passed, fetches, refreshes⟩ := failed_pass n currentToken refreshToken
                    clientId reason answer hasToken hasClient refreshed
                  refine Or.inr ⟨_, false, passed, ?_, ?_, fun refused => absurd rfl refused⟩
                  · simp [List.countP_cons, Effect.isFetch, fetches]
                  · simp [List.countP_cons, Effect.isRefresh, refreshes]

theorem refused_pass (n : Nat) (currentToken refreshToken clientId : String)
    (refused : fetchAnthropicUsage client n = .unauthorized)
    (hasToken : account.refreshToken = some refreshToken)
    (hasClient : account.clientId = some clientId) :
    (pollOnce client account n currentToken).1.countP Effect.isRefresh = 1 := by
  cases result : refreshOauthToken client n refreshToken with
  | ok refreshed =>
      rw [exchanged_pass n currentToken refreshToken clientId refreshed refused hasToken hasClient
        result]
      rfl
  | error reason =>
      obtain ⟨rest, passed, -, refreshes⟩ := failed_pass n currentToken refreshToken clientId reason
        refused hasToken hasClient result
      simp [passed, List.countP_cons, Effect.isRefresh, refreshes]

theorem loop_done (fuel n : Nat) (currentToken : String) (effects : List Effect)
    (rateLimited : Bool)
    (passed : pollOnce client account n currentToken = (effects, .done rateLimited)) :
    pollLoop client account (fuel + 1) n currentToken = (effects, some rateLimited) := by
  rw [pollLoop, passed]

theorem loop_again (fuel n : Nat) (currentToken next : String) (effects : List Effect)
    (passed : pollOnce client account n currentToken = (effects, .again next)) :
    pollLoop client account (fuel + 1) n currentToken =
      (effects ++ (pollLoop client account fuel (n + 1) next).1,
        (pollLoop client account fuel (n + 1) next).2) := by
  rw [pollLoop, passed]

theorem poll_starts (fuel : Nat) (token : String) (usable : startToken account = some token)
    (oauth : isOauthProvider account = true) :
    pollSingleAccount client account fuel = pollLoop client account fuel 0 token := by
  rw [pollSingleAccount, usable]
  simp [oauth]

/-- The effects of a poll count both passes of the loop. -/
theorem second_pass_counts (fuel n : Nat) (currentToken : String) (f : Effect → Bool) :
    (pollOnce client account n currentToken).1.countP f ≤
      (pollLoop client account (fuel + 1) n currentToken).1.countP f := by
  cases passed : pollOnce client account n currentToken with
  | mk effects next =>
      cases next with
      | done rateLimited => rw [loop_done fuel n currentToken effects rateLimited passed]
      | again token =>
          rw [loop_again fuel n currentToken token effects passed, List.countP_append]
          exact Nat.le_add_right _ _

theorem refused_twice_goes_on (refused : RefusedTwice client account) :
    ¬ PollEnds client account := by
  obtain ⟨oauth, usable, hasClient, first, ⟨refreshToken, refreshed, hasToken, exchanged⟩, second⟩ :=
    refused
  obtain ⟨token, usable⟩ := Option.isSome_iff_exists.mp usable
  obtain ⟨clientId, hasClient⟩ := Option.isSome_iff_exists.mp hasClient
  have passed := exchanged_pass 0 token refreshToken clientId refreshed first hasToken hasClient
    exchanged
  rintro ⟨fuel, effects, rateLimited, ended, -, few, -⟩
  rw [poll_starts fuel token usable oauth] at ended
  match fuel with
  | 0 => cases ended
  | 1 =>
      rw [loop_again 0 0 token _ _ passed] at ended
      cases ended
  | fuel + 2 =>
      rw [loop_again (fuel + 1) 0 token _ _ passed, Nat.zero_add] at ended
      have again : (pollOnce client account 1 refreshed.accessToken).1.countP Effect.isRefresh ≤
          (pollLoop client account (fuel + 1) 1 refreshed.accessToken).1.countP Effect.isRefresh :=
        second_pass_counts fuel 1 refreshed.accessToken Effect.isRefresh
      rw [refused_pass 1 _ refreshToken clientId second hasToken hasClient] at again
      rw [← (Prod.mk.inj ended).1, List.countP_append] at few
      have before : (exchange token refreshToken clientId refreshed).countP Effect.isRefresh = 1 := rfl
      omega

theorem other_counts (token : String) (left n : Nat) :
    (pollOther client token left n).countP Effect.isFetch ≤ left ∧
      (pollOther client token left n).countP Effect.isRefresh = 0 := by
  induction left generalizing n with
  | zero => exact ⟨Nat.le_refl 0, rfl⟩
  | succ left ih =>
      rw [pollOther, List.countP_cons_of_pos rfl, List.countP_cons_of_neg (by simp [Effect.isRefresh])]
      cases client.other n with
      | none => exact ⟨Nat.succ_le_succ (ih (n + 1)).1, (ih (n + 1)).2⟩
      | some data => exact ⟨Nat.succ_le_succ (Nat.zero_le left), rfl⟩

/-- A poll ends as its comment says exactly where the token it gets for a refused one is not
refused in turn. -/
theorem poll_ends_iff (client : Client) (account : PollableAccount) :
    PollEnds client account ↔ ¬ RefusedTwice client account := by
  refine ⟨fun ends refused => refused_twice_goes_on refused ends, fun accepted => ?_⟩
  cases usable : startToken account with
  | none =>
      exact ⟨0, [], false, by simp [pollSingleAccount, usable], by simp, by simp,
        one_refresh _ (by simp)⟩
  | some token =>
      cases oauth : isOauthProvider account with
      | false =>
          obtain ⟨fetches, refreshes⟩ : (pollOther client token maxRetries 0).countP
                Effect.isFetch ≤ maxRetries ∧
              (pollOther client token maxRetries 0).countP Effect.isRefresh = 0 :=
            other_counts token maxRetries 0
          exact ⟨0, _, false, by simp [pollSingleAccount, usable, oauth], fetches, by omega,
            one_refresh _ (by omega)⟩
      | true =>
          rcases pass_cases client account 0 token with
            ⟨refreshToken, clientId, refreshed, first, hasToken, hasClient, exchanged, passed⟩ |
            ⟨effects, rateLimited, passed, fetches, refreshes, -⟩
          · have second : fetchAnthropicUsage client 1 ≠ .unauthorized := fun second =>
              accepted ⟨oauth, by rw [usable]; rfl, by rw [hasClient]; rfl, first,
                ⟨refreshToken, refreshed, hasToken, exchanged⟩, second⟩
            rcases pass_cases client account 1 refreshed.accessToken with
              ⟨_, _, _, again, -⟩ | ⟨effects, rateLimited, ended, fetches, -, quiet⟩
            · exact absurd again second
            · have exchangeFetches : (exchange token refreshToken clientId refreshed).countP
                  Effect.isFetch = 1 := rfl
              have exchangeRefreshes : (exchange token refreshToken clientId refreshed).countP
                  Effect.isRefresh = 1 := rfl
              have few : (exchange token refreshToken clientId refreshed ++ effects).countP
                  Effect.isRefresh ≤ 1 := by
                rw [List.countP_append, exchangeRefreshes, quiet second]
              refine ⟨2, _, rateLimited, ?_, ?_, few, one_refresh _ few⟩
              · rw [poll_starts 2 token usable oauth, loop_again 1 0 token _ _ passed,
                  loop_done 0 1 _ effects rateLimited ended]
              · rw [List.countP_append, exchangeFetches, fetches]
          · refine ⟨1, effects, rateLimited, ?_, by omega, refreshes, one_refresh _ refreshes⟩
            rw [poll_starts 1 token usable oauth, loop_done 0 0 token _ _ passed]

end Ends

def expired : PollableAccount where
  provider := "claude-oauth"
  accessToken := some "at-0"
  refreshToken := some "rt-0"
  clientId := some "client"
  apiKey := none

def rotatedText : String := "\x7b\"access_token\":\"at-1\",\"refresh_token\":\"rt-1\"\x7d"

def rotated : Json :=
  Json.make [("access_token", .string "at-1"), ("refresh_token", .string "rt-1")]

/-- The usage endpoint refuses every token, and the token endpoint always has another one. -/
def refusing : Client where
  codec := .ofTable [(rotatedText, rotated)]
  text _ := ""
  now _ := 0
  usage _ := some ⟨401, none, "".toUTF8⟩
  token _ := some ⟨200, none, rotatedText.toUTF8⟩
  other _ := none

theorem refusing_pass (n : Nat) (currentToken : String) :
    pollOnce refusing expired n currentToken =
      (exchange currentToken "rt-0" "client" ⟨"at-1", "rt-1", none⟩, .again "at-1") := by
  have exchanged : refreshOauthToken refusing n "rt-0" = .ok ⟨"at-1", "rt-1", none⟩ := by
    have parsed : refusing.codec.fromSlice rotatedText.toUTF8 = some rotated :=
      Codec.of_table_reads _ (by decide) _ _ (by simp)
    simp only [refreshOauthToken, show refusing.token n = some ⟨200, none, rotatedText.toUTF8⟩ from
      rfl, parsed]
    rfl
  exact exchanged_pass n currentToken "rt-0" "client" _ rfl rfl rfl exchanged

/-- The poll never ends, and every pass presents the refresh token that the first has exchanged. -/
theorem refused_poll_endless :
    (∀ fuel, (pollSingleAccount refusing expired fuel).2 = none) ∧
      ¬ PresentsNoneAgain (pollSingleAccount refusing expired 2).1 ∧
      ¬ PollEnds refusing expired := by
  have endless (fuel n : Nat) (token : String) :
      (pollLoop refusing expired fuel n token).2 = none := by
    induction fuel generalizing n token with
    | zero => rfl
    | succ fuel ih =>
        rw [loop_again fuel n token "at-1" _ (refusing_pass n token)]
        exact ih (n + 1) "at-1"
  have started (fuel : Nat) : pollSingleAccount refusing expired fuel =
      pollLoop refusing expired fuel 0 "at-0" := poll_starts fuel "at-0" (by decide) rfl
  refine ⟨fun fuel => by rw [started, endless], fun once => ?_, ?_⟩
  · rw [started, loop_again 1 0 _ _ _ (refusing_pass 0 _), loop_again 0 1 _ _ _ (refusing_pass 1 _)]
      at once
    exact once [.fetch "at-0"] "rt-0" "client" ⟨"at-1", "rt-1", none⟩ _ rfl (by decide)
      "client" (.ok ⟨"at-1", "rt-1", none⟩) (by simp [exchange])
  · rintro ⟨fuel, effects, rateLimited, ended, -⟩
    have result := endless fuel 0 "at-0"
    rw [← started, ended] at result
    cases result

end Ccflare.UsagePolling
