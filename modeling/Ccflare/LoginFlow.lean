import Ccflare.AuthorizeUrls
import Ccflare.OAuthCodes
import Ccflare.OAuthSessions
import Ccflare.Transition

/-!
A browser login from its start to its end. The state that the page shows finds the entry that
the start stored, as long as the entry is neither redeemed nor out of date; other logins,
purges, failures and restarts in between do not take it away.
-/

namespace Ccflare.LoginFlow

open ApiKeyHashes AuthorizeUrls JsonValue OAuthCodes OAuthSessions Transition

/-- A purge deletes what was out of date when its call began, at the latest. -/
def PurgesPast (s : State) : Prop :=
  ∀ i pending now, s.calls i = some (.purging pending now) → now ≤ s.now

section Stored
variable (decode : String → Option String)

theorem step_purges (s t : State) (event : Event) (past : PurgesPast s)
    (taken : Does (perform decode) s event t) : PurgesPast t := by
  intro i pending now held
  have forward := now_step decode s t event taken
  cases phase_step decode s t event i _ taken held with
  | kept _ before => exact (past i pending now before).trans forward
  | advanced fails before _ acts earlier moved =>
      cases before with
      | opening other =>
          cases fails with
          | true => cases moved
          | false =>
              simp only [advance, Bool.false_eq_true, if_false, Option.some.injEq, Prod.mk.injEq,
                Phase.purging.injEq] at moved
              obtain ⟨⟨-, rfl⟩, -⟩ := moved
              exact forward
      | purging other stamp => cases moved
      | inserting other stamp => cases fails <;> cases moved
      | seeking token => cases fails <;> cases moved
      | taking token stamp =>
          unfold advance at moved
          dsimp only at moved
          split at moved <;> cases moved
      | stored success => cases moved
      | took result => cases moved
      | rejected message => cases moved

/-- A row that is not out of date leaves the table only when its token is redeemed. -/
theorem row_kept (trace : List Taken) (s t : State) (event : Event) (row : Session)
    (ledger : Ledger trace s) (past : PurgesPast s) (taken : Does (perform decode) s event t)
    (unredeemed : ∀ j pair, ¬Redeems (s, event, t) j row.id pair) (early : s.now ≤ row.expiresAt)
    (held : row ∈ s.sessions) : row ∈ t.sessions := by
  cases call_step decode s t event taken with
  | opened j other _ _ reached => subst reached; exact held
  | sought j other _ _ _ reached => subst reached; exact held
  | ticked millis _ reached => subst reached; exact held
  | restarted _ reached => subst reached; exact held
  | advanced i fails phase next sessions acts before moved reached =>
      subst reached
      cases phase with
      | opening pending => cases moved; exact held
      | purging pending now =>
          cases moved
          cases fails with
          | true => exact held
          | false =>
              have began := past i pending now before
              have alive : ¬row.expiresAt < now := by omega
              exact List.mem_filter.mpr ⟨held, by simpa using alive⟩
      | inserting pending now =>
          cases fails with
          | true => cases moved; exact held
          | false =>
              cases moved
              have other := ledger.unstored i pending ⟨_, before, rfl⟩ row held
              exact List.mem_append_left _ (List.mem_filter.mpr ⟨held, by simpa using other⟩)
      | seeking token => cases moved; exact held
      | taking token now =>
          unfold advance at moved
          dsimp only at moved
          split at moved
          · next found _ =>
              cases moved
              by_cases same : row.id = token
              · subst same
                exact absurd ⟨⟨now, before⟩, by simp⟩
                  (unredeemed i (found.accountName, found.verifier))
              · exact List.mem_filter.mpr ⟨held, by simpa using same⟩
          · cases moved
            exact held
      | stored success => cases moved
      | took result => cases moved
      | rejected message => cases moved

theorem stores_step (s t : State) (event : Event) (i : Nat) (pending : Pending) (stored : Nat)
    (taken : Does (perform decode) s event t) (stores : Stores (s, event, t) i pending stored) :
    pending.session stored ∈ t.sessions := by
  obtain ⟨acts, inserting⟩ := stores
  dsimp only at acts inserting
  subst acts
  simp only [Does, perform, inserting, advance, Bool.false_eq_true, if_false, Option.bind_eq_bind,
    Option.bind_some, Option.some.injEq] at taken
  subst taken
  exact List.mem_append_right _ (List.mem_singleton_self _)

/-- No call has returned the pair of a token. -/
def Unredeemed (trace : List Taken) (token : String) : Prop :=
  ∀ taken ∈ trace, ∀ j pair, ¬Redeems taken j token pair

theorem stored_kept (start s : State) (trace : List Taken) (fresh : Fresh start)
    (run : Run (Does (perform decode)) start trace s) (distinct : (tokens trace).Nodup) :
    PurgesPast s ∧ ∀ taken ∈ trace, ∀ i pending stored, Stores taken i pending stored →
      Unredeemed trace pending.csrfToken → s.now ≤ stored + pendingTtlMs →
      pending.session stored ∈ s.sessions := by
  induction run with
  | nil =>
      constructor
      · intro i pending now held
        rw [fresh.2] at held
        cases held
      · rintro _ ⟨⟩
  | @snoc trace source target event run step ih =>
      have prior : (tokens trace).Nodup := by
        unfold tokens at *
        rw [started_append, List.map_append] at distinct
        exact (List.nodup_append.mp distinct).1
      obtain ⟨past, kept⟩ := ih prior
      refine ⟨step_purges decode source target event past step, ?_⟩
      intro taken member i pending stored stores unredeemed early
      rcases List.mem_append.mp member with old | new
      · have forward := now_step decode source target event step
        have ledger := run_ledger decode start source trace fresh prior run
        have held := kept taken old i pending stored stores
          (fun earlier place => unredeemed earlier (List.mem_append_left _ place)) (by omega)
        exact row_kept decode trace source target event _ ledger past step
          (unredeemed _ (List.mem_append_right _ (List.mem_singleton_self _)))
          (Nat.le_trans forward early) held
      · obtain rfl := List.mem_singleton.mp new
        exact stores_step decode source target event i pending stored step stores

/-- The table finds what was stored for a token, by whatever row it has. -/
theorem stored_found (start s : State) (trace : List Taken) (fresh : Fresh start)
    (run : Run (Does (perform decode)) start trace s) (distinct : (tokens trace).Nodup)
    (taken : Taken) (member : taken ∈ trace) (i : Nat) (pending : Pending) (stored : Nat)
    (stores : Stores taken i pending stored) (unredeemed : Unredeemed trace pending.csrfToken)
    (early : s.now < stored + pendingTtlMs) :
    ∃ row, findPending pending.csrfToken s.now s.sessions = some row ∧
      row.accountName = pending.accountId ∧ row.verifier = pending.verifier := by
  have held := (stored_kept decode start s trace fresh run distinct).2 taken member i pending stored
    stores unredeemed (Nat.le_of_lt early)
  have ledger := run_ledger decode start s trace fresh distinct run
  cases found : findPending pending.csrfToken s.now s.sessions with
  | none =>
      have absent := List.find?_eq_none.mp found _ held
      simp [Pending.session, early] at absent
  | some row =>
      obtain ⟨place, named, -⟩ := found_row _ s.now s.sessions row found
      obtain ⟨-, other, now, rfl, asked, -⟩ := ledger.rows row place
      obtain ⟨-, first, stamp, same, listed, -⟩ := ledger.rows _ held
      have token : pending.csrfToken = first.csrfToken := congrArg Session.id same
      obtain rfl : other = first := List.inj_on_of_nodup_map distinct asked listed
        (named.trans token)
      exact ⟨_, rfl, (congrArg Session.accountName same).symm,
        (congrArg Session.verifier same).symm⟩

/-- A call that seeks a token for which the table has a row takes its pair. -/
theorem seeking_takes (s : State) (j : Nat) (token : String) (row : Session)
    (seeking : s.calls j = some (.seeking token))
    (found : findPending token s.now s.sessions = some row) :
    ∃ t, ([.advance j false, .advance j false] : List Event).foldlM (perform decode) s = some t ∧
      t.calls j = some (.took (some (row.accountName, row.verifier))) := by
  let waiting : State := { s with
    calls := Function.update s.calls j (some (.taking token s.now)) }
  have first : perform decode s (.advance j false) = some waiting := by
    simp [perform, seeking, advance, waiting]
  let final : State := { waiting with
    sessions := s.sessions.filter fun other => other.id ≠ token
    calls := Function.update waiting.calls j
      (some (.took (some (row.accountName, row.verifier)))) }
  have second : perform decode waiting (.advance j false) = some final := by
    simp [perform, advance, waiting, final, found]
  refine ⟨final, ?_, Function.update_self j _ waiting.calls⟩
  rw [List.foldlM_cons, first]
  exact congrArg (Option.bind · some) second

/-- An input that carries a code and a state asks for the entry of the state. -/
theorem complete_seeks (s : State) (j : Nat) (input code state token : String)
    (idle : s.calls j = none) (read : oauthComplete input = some (code, state))
    (named : decode state = some token) :
    perform decode s (.complete j input) =
      some { s with calls := Function.update s.calls j (some (.seeking token)) } := by
  cases found : extractCodeFromInput input with
  | mk codeInput explicitState =>
      rw [oauthComplete, found] at read
      dsimp only at read
      have asks : exchange decode codeInput explicitState = .seeking token := by
        rw [exchange_eq, read]
        dsimp only
        rw [named]
      rw [perform, found]
      dsimp only
      rw [asks, startCall, idle]

end Stored

section Login

theorem pasted_read {code state text left right : String} (codeSafe : UrlSafe code)
    (stateSafe : UrlSafe state) (pasted : Pasted code state text)
    (before : ∀ c ∈ left.toList, Text.isWhiteSpace c = true)
    (after : ∀ c ∈ right.toList, Text.isWhiteSpace c = true) :
    oauthComplete (left ++ text ++ right) = some (code, state) := by
  cases pasted with
  | parameters location params located coded stated each =>
      exact complete_parameters codeSafe stateSafe before after location params located coded stated
        each
  | fragment location located =>
      exact complete_fragment codeSafe stateSafe before after location located
  | escaped location located =>
      exact complete_escaped codeSafe stateSafe before after location located
  | bare other => exact complete_bare codeSafe stateSafe before after other

variable (engine : Engine) (codec : Codec)

def csrfTokenOf (encoded : String) : Option String :=
  (CsrfState.decode engine codec encoded).map CsrfState.csrfToken

/-- The two messages of the end of a login, and the statements of its exchange. -/
def completion (call : Nat) (input : String) : List Event :=
  [.complete call input, .advance call false, .advance call false]

/-- A login that was started is completed by its code and the state that its page shows,
however they are pasted, with the verifier of the challenge that the page was asked for. -/
theorem login_completes (sha256 : List UInt8 → List UInt8) (documented : engine.Documented)
    (account : Account) (clientId url : String) (plain : Plain clientId)
    (csrfBytes pkceBytes : List UInt8) (stamp : Int64)
    (printed : Printed codec (.generate csrfBytes stamp)) (pending : Pending)
    (started : oauthInit engine codec sha256 (some account) clientId csrfBytes pkceBytes stamp =
      .ok (url, pending))
    (start s : State) (trace : List Taken) (fresh : Fresh start)
    (run : Run (Does (perform (csrfTokenOf engine codec))) start trace s)
    (distinct : (tokens trace).Nodup) (taken : Taken) (member : taken ∈ trace) (i : Nat)
    (stored : Nat) (stores : Stores taken i pending stored)
    (unredeemed : Unredeemed trace pending.csrfToken) (early : s.now < stored + pendingTtlMs)
    (j : Nat) (idle : s.calls j = none) :
    ∃ page state, authorizePage .claudeOAuth url = some page ∧
      parameter "state" page = some state ∧
      parameter "code_challenge" page =
        some (engine.encode (sha256 (asBytes pending.verifier))) ∧
      ∀ code text left right, UrlSafe code → Pasted code state text →
        (∀ c ∈ left.toList, Text.isWhiteSpace c = true) →
        (∀ c ∈ right.toList, Text.isWhiteSpace c = true) →
        oauthComplete (left ++ text ++ right) = some (code, state) ∧
          ∃ t, (completion j (left ++ text ++ right)).foldlM
              (perform (csrfTokenOf engine codec)) s = some t ∧
            t.calls j = some (.took (some (account.id, pending.verifier))) := by
  obtain ⟨found, same, -, made, rfl⟩ := init_started started
  obtain rfl := Option.some.inj same
  have stateSafe := state_safe documented printed
  obtain ⟨page, opened, reads⟩ := authorize_page .claudeOAuth (safe_plain _ stateSafe.alphabet) plain
    (safe_plain _ (documented.alphabet (sha256 (asBytes pending.verifier))))
  have shown := reads ("state", (CsrfState.generate csrfBytes stamp).encode engine codec)
    (by simp [authorizeEntries])
  have asked := reads ("code_challenge", engine.encode (sha256 (asBytes pending.verifier)))
    (by simp [authorizeEntries])
  refine ⟨page, (CsrfState.generate csrfBytes stamp).encode engine codec, opened, shown, asked, ?_⟩
  intro code text left right codeSafe pasted before after
  have read := pasted_read codeSafe stateSafe pasted before after
  have named : csrfTokenOf engine codec ((CsrfState.generate csrfBytes stamp).encode engine codec) =
      some pending.csrfToken := by
    rw [csrfTokenOf, decode_encode documented printed, Option.map_some]
    exact congrArg some (congrArg Pending.csrfToken made).symm
  obtain ⟨row, held, owner, verifier⟩ := stored_found _ start s trace fresh run distinct taken member
    i pending stored stores unredeemed early
  have seeks := complete_seeks (csrfTokenOf engine codec) s j _ code _ _ idle read named
  obtain ⟨t, finished, took⟩ := seeking_takes (csrfTokenOf engine codec)
    { s with calls := Function.update s.calls j (some (.seeking pending.csrfToken)) } j
    pending.csrfToken row (Function.update_self j _ s.calls) held
  refine ⟨read, t, ?_, ?_⟩
  · rw [completion, List.foldlM_cons, seeks]
    exact finished
  · rw [took, owner, verifier, made]

end Login

def samplePending : Pending :=
  ⟨sampleLogin.csrfToken, "acc-1", base64Url.encode [1, 2, 3]⟩

theorem sample_completed : ∃ url page state s t,
    oauthInit base64Url sampleCodec id (some sampleAccount) "client-1" [0xab] [1, 2, 3] 5 =
      .ok (url, samplePending) ∧
    authorizePage .claudeOAuth url = some page ∧ parameter "state" page = some state ∧
    (completion 1 ("" ++ ("code-1" ++ "#" ++ state) ++ "\n")).foldlM
      (perform (csrfTokenOf base64Url sampleCodec)) s = some t ∧
    t.calls 1 = some (.took (some ("acc-1", samplePending.verifier))) := by
  let decode := csrfTokenOf base64Url sampleCodec
  obtain ⟨before, source, run, events, ready⟩ := @performed State Event
    ⟨[], 100, fun _ => none⟩ (perform decode)
    [.init 0 samplePending, .advance 0 false, .advance 0 false]
    (fun s => decide (s.calls 0 = some (.inserting samplePending 100)) &&
      (perform decode s (.advance 0 false)).any fun (t : State) =>
        decide (t.calls 1 = none) && decide (t.now = 100)) (by decide +kernel)
  obtain ⟨inserting, storing⟩ := Bool.and_eq_true_iff.mp ready
  obtain ⟨target, step, reached⟩ := performed_once (perform decode) _ _ storing
  obtain ⟨idle, clock⟩ := Bool.and_eq_true_iff.mp reached
  have stores : Stores (source, .advance 0 false, target) 0 samplePending 100 :=
    ⟨rfl, of_decide_eq_true inserting⟩
  have fresh : Fresh ⟨[], 100, fun _ => none⟩ := ⟨rfl, fun _ => rfl⟩
  have distinct : (tokens (before ++ [(source, .advance 0 false, target)])).Nodup := by
    have asked : started before = (before.map fun taken => taken.2.1).filterMap initOf := by
      unfold started
      rw [List.filterMap_map]
      rfl
    unfold tokens
    rw [started_append, asked, events]
    exact List.nodup_singleton samplePending.csrfToken
  have unredeemed := (run_ledger decode _ target _ fresh distinct (run.snoc step)).spent _
    (stores_step decode source target _ 0 samplePending 100 step stores)
  have early : target.now < 100 + pendingTtlMs := by
    rw [of_decide_eq_true clock]
    decide
  have started := @init_starts base64Url sampleCodec id "client-1" [0xab] [1, 2, 3] 5 sampleAccount
    (Or.inr rfl)
  obtain ⟨page, state, opened, shown, -, completes⟩ := login_completes base64Url sampleCodec id
    base64_url_documented sampleAccount "client-1" _ (by decide) [0xab] [1, 2, 3] 5 sample_printed
    samplePending started _ target _ fresh (run.snoc step) distinct _
    (List.mem_append_right _ (List.mem_singleton_self _)) 0 100 stores unredeemed early 1
    (of_decide_eq_true idle)
  obtain ⟨-, t, finished, took⟩ := completes "code-1" _ "" "\n"
    ⟨by decide, List.all_iff_forall_prop.mp (by decide)⟩ (.bare (by decide))
    (List.all_iff_forall_prop.mp (by decide)) (List.all_iff_forall_prop.mp (by decide))
  exact ⟨_, page, state, target, t, started, opened, shown, finished, took⟩

end Ccflare.LoginFlow
