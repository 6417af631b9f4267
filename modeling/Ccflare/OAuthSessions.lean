import Mathlib.Data.List.Nodup
import Mathlib.Logic.Function.Basic
import Ccflare.Text
import Ccflare.Transition

/-!
Pending authorisations of the browser flow, kept in `oauth_sessions` between the start
of the flow and its callback. Every statement outside a transaction is a step of its own;
the transaction that takes an entry is one step, which commits or leaves no trace.
-/

namespace Ccflare.OAuthSessions

open Transition

def pendingTtlMs : Nat := 10 * 60 * 1000

structure Session where
  id : String
  accountName : String
  verifier : String
  mode : String
  createdAt : Nat
  expiresAt : Nat
  deriving DecidableEq

/-- What the start of a flow stores. -/
structure Pending where
  csrfToken : String
  accountId : String
  verifier : String
  deriving DecidableEq

def Pending.session (pending : Pending) (now : Nat) : Session :=
  ⟨pending.csrfToken, pending.accountId, pending.verifier, "reauth", now, now + pendingTtlMs⟩

/-- The statements of a call, in their order, and its end. -/
inductive Phase where
  | opening (pending : Pending)
  | purging (pending : Pending) (now : Nat)
  | inserting (pending : Pending) (now : Nat)
  | stored (success : Bool)
  | seeking (csrfToken : String)
  | taking (csrfToken : String) (now : Nat)
  | took (result : Option (String × String))
  | rejected (message : String)
  deriving DecidableEq

structure State where
  sessions : List Session
  now : Nat
  calls : Nat → Option Phase

/-- What a call is on its way to store. -/
def Phase.inserts : Phase → Option Pending
  | .opening pending => some pending
  | .purging pending _ => some pending
  | .inserting pending _ => some pending
  | _ => none

/-- A request starts a call; `fails` says that its next statement does. -/
inductive Event where
  | init (call : Nat) (pending : Pending)
  | callback (call : Nat) (code state : Option String)
  | complete (call : Nat) (input : String)
  | advance (call : Nat) (fails : Bool)
  | tick (millis : Nat)
  | restart

def splitOnce (separator : Char) (text : String) : Option (String × String) :=
  match text.toList.dropWhile (· ≠ separator) with
  | [] => none
  | _ :: rest =>
      some (String.ofList (text.toList.takeWhile (· ≠ separator)), String.ofList rest)

theorem split_once_none (mark : Char) (text : String) (absent : mark ∉ text.toList) :
    splitOnce mark text = none := by
  have other : ∀ c ∈ text.toList, decide (c ≠ mark) = true := by
    intro c member
    simpa using fun same : c = mark => absent (same ▸ member)
  have all := Text.drop_while_all _ text.toList [] other (by simp)
  rw [List.append_nil] at all
  rw [splitOnce, all]

theorem split_once_append (mark : Char) (before after : List Char) (absent : mark ∉ before) :
    splitOnce mark (String.ofList (before ++ mark :: after)) =
      some (String.ofList before, String.ofList after) := by
  have other : ∀ c ∈ before, decide (c ≠ mark) = true := by
    intro c member
    simpa using fun same : c = mark => absent (same ▸ member)
  have rest : (before ++ mark :: after).dropWhile (· ≠ mark) = mark :: after := by
    rw [List.dropWhile_append_of_pos other]
    simp
  have start : (before ++ mark :: after).takeWhile (· ≠ mark) = before := by
    rw [List.takeWhile_append_of_pos other]
    simp
  rw [splitOnce, String.toList_ofList, rest, start]

theorem split_once_spec (mark : Char) (text before after : String)
    (found : splitOnce mark text = some (before, after)) :
    text.toList = before.toList ++ mark :: after.toList := by
  have whole := List.takeWhile_append_dropWhile (p := (· ≠ mark)) (l := text.toList)
  unfold splitOnce at found
  split at found
  · cases found
  · rename_i c rest dropped
    obtain ⟨rfl, rfl⟩ := Prod.mk.inj (Option.some.inj found)
    have stopped : c = mark := by
      have first := List.head?_dropWhile_not (· ≠ mark) text.toList
      rw [dropped] at first
      simpa using first
    rw [dropped, stopped] at whole
    rw [String.toList_ofList, String.toList_ofList]
    exact whole.symm

/-- `replace("%23", "#")`. -/
def unescapeHash : List Char → List Char
  | '%' :: '2' :: '3' :: rest => '#' :: unescapeHash rest
  | c :: rest => c :: unescapeHash rest
  | [] => []

def readParam (found : Option String × Option String) (param : String) :
    Option String × Option String :=
  match splitOnce '=' param with
  | some ("code", value) => (some (String.ofList (unescapeHash value.toList)), found.2)
  | some ("state", value) => (found.1, some value)
  | _ => found

/-- A pasted URL, when its query has a code. -/
def codeOfUrl (url : String) : Option (String × Option String) :=
  let (location, fragment) := match splitOnce '#' url with
    | some (location, fragment) => (location, some fragment)
    | none => (url, none)
  let (code, state) := match splitOnce '?' location with
    | some (_, query) =>
        ((query.toList.splitOn '&').map String.ofList).foldl readParam (none, none)
    | none => (none, none)
  code.map fun code =>
    (code, state.or (fragment.bind fun text => if text = "" then none else some text))

def extractCodeFromInput (input : String) : String × Option String :=
  let trimmed := Text.trim input
  let pasted := if Text.startsWith "http" trimmed then codeOfUrl trimmed else none
  match pasted with
  | some found => found
  | none =>
      match splitOnce '#' trimmed with
      | some (code, state) => (code, some state)
      | none => (trimmed, none)

def insertPending (pending : Pending) (now : Nat) (sessions : List Session) : List Session :=
  sessions.filter (fun row => row.id ≠ pending.csrfToken) ++ [pending.session now]

/-- The row that the transaction of `db_take_pending` reads. -/
def findPending (csrfToken : String) (now : Nat) (sessions : List Session) : Option Session :=
  sessions.find? fun row => row.id = csrfToken && now < row.expiresAt

section Requests

-- The CSRF token of an encoded state, when `CsrfState::decode` reads it.
variable (decode : String → Option String)

/-- How far `exchange_and_persist` comes before it asks for the entry. -/
def exchange (codeInput : String) (explicitState : Option String) : Phase :=
  let encoded := match explicitState with
    | some state => some state
    | none => (splitOnce '#' codeInput).map Prod.snd
  match encoded with
  | none => .rejected ("Missing OAuth state. Paste the full URL or the code#state value from " ++
      "the callback page.")
  | some encoded =>
      match decode encoded with
      | none => .rejected "Invalid OAuth state parameter"
      | some csrfToken => .seeking csrfToken

def startCall (s : State) (call : Nat) (phase : Phase) : Option State :=
  match s.calls call with
  | some _ => none
  | none => some { s with calls := Function.update s.calls call (some phase) }

def advance (s : State) (fails : Bool) : Phase → Option (Phase × List Session)
  | .opening pending =>
      some (if fails then .stored false else .purging pending s.now, s.sessions)
  -- A failed purge is ignored.
  | .purging pending now =>
      some (.inserting pending now,
        if fails then s.sessions else s.sessions.filter fun row => !decide (row.expiresAt < now))
  | .inserting pending now =>
      some (if fails then (.stored false, s.sessions)
        else (.stored true, insertPending pending now s.sessions))
  | .seeking csrfToken =>
      some (if fails then .took none else .taking csrfToken s.now, s.sessions)
  -- Reading, deleting and committing stand or fall together.
  | .taking csrfToken now =>
      match fails, findPending csrfToken now s.sessions with
      | false, some row =>
          some (.took (some (row.accountName, row.verifier)),
            s.sessions.filter fun other => other.id ≠ csrfToken)
      | _, _ => some (.took none, s.sessions)
  | .stored _ => none
  | .took _ => none
  | .rejected _ => none

def perform (s : State) : Event → Option State
  | .init call pending => startCall s call (.opening pending)
  | .callback call code state =>
      startCall s call (match code with
        | some code => exchange decode code state
        | none => .rejected "Invalid callback request")
  | .complete call input =>
      let (code, state) := extractCodeFromInput input
      startCall s call (exchange decode code state)
  | .advance call fails => do
      let phase ← s.calls call
      let (next, sessions) ← advance s fails phase
      some { s with sessions, calls := Function.update s.calls call (some next) }
  | .tick millis => some { s with now := s.now + millis }
  -- The table outlives the process, the calls do not.
  | .restart => some { s with calls := fun _ => none }

abbrev Taken := State × Event × State

def initOf : Event → Option Pending
  | .init _ pending => some pending
  | _ => none

/-- The authorisations that were started, in order. -/
def started (trace : List Taken) : List Pending := trace.filterMap fun taken => initOf taken.2.1

def tokens (trace : List Taken) : List String := (started trace).map Pending.csrfToken

def Inserting (s : State) (i : Nat) (pending : Pending) : Prop :=
  ∃ phase, s.calls i = some phase ∧ phase.inserts = some pending

/-- Call `i` of `db_insert_pending` stores an entry. -/
def Stores (taken : Taken) (i : Nat) (pending : Pending) (now : Nat) : Prop :=
  taken.2.1 = .advance i false ∧ taken.1.calls i = some (.inserting pending now)

/-- A call of `db_take_pending` is made. -/
def Seeks (taken : Taken) (i : Nat) (csrfToken : String) : Prop :=
  taken.1.calls i = none ∧ taken.2.2.calls i = some (.seeking csrfToken)

/-- A call of `db_take_pending` returns a pair. -/
def Redeems (taken : Taken) (i : Nat) (csrfToken : String) (pair : String × String) : Prop :=
  (∃ now, taken.1.calls i = some (.taking csrfToken now)) ∧
    taken.2.2.calls i = some (.took (some pair))

theorem exchange_ends (codeInput : String) (explicitState : Option String) :
    (∃ token, exchange decode codeInput explicitState = .seeking token) ∨
      ∃ message, exchange decode codeInput explicitState = .rejected message := by
  unfold exchange
  dsimp only
  split
  · exact Or.inr ⟨_, rfl⟩
  · split
    · exact Or.inr ⟨_, rfl⟩
    · exact Or.inl ⟨_, rfl⟩

theorem start_call (s t : State) (i : Nat) (phase : Phase) (started : startCall s i phase = some t) :
    s.calls i = none ∧ t = { s with calls := Function.update s.calls i (some phase) } := by
  unfold startCall at started
  cases held : s.calls i with
  | some phase => simp [held] at started
  | none =>
      simp only [held, Option.some.injEq] at started
      exact ⟨rfl, started.symm⟩

/-- What an event is to the calls: a start, a step, or neither. -/
inductive CallStep (s : State) (event : Event) (t : State) : Prop where
  | opened (i : Nat) (pending : Pending) : event = .init i pending → s.calls i = none →
      t = { s with calls := Function.update s.calls i (some (.opening pending)) } →
      CallStep s event t
  | sought (i : Nat) (phase : Phase) : initOf event = none →
      (∃ token, phase = .seeking token) ∨ (∃ message, phase = .rejected message) →
      s.calls i = none →
      t = { s with calls := Function.update s.calls i (some phase) } → CallStep s event t
  | advanced (i : Nat) (fails : Bool) (phase next : Phase) (sessions : List Session) :
      event = .advance i fails → s.calls i = some phase →
      advance s fails phase = some (next, sessions) →
      t = { s with sessions, calls := Function.update s.calls i (some next) } →
      CallStep s event t
  | ticked (millis : Nat) : event = .tick millis → t = { s with now := s.now + millis } →
      CallStep s event t
  | restarted : event = .restart → t = { s with calls := fun _ => none } → CallStep s event t

theorem call_step (s t : State) (event : Event) (taken : Does (perform decode) s event t) :
    CallStep s event t := by
  change perform decode s event = some t at taken
  cases event with
  | init i pending =>
      obtain ⟨absent, reached⟩ := start_call s t i _ taken
      exact .opened i pending rfl absent reached
  | callback i code state =>
      obtain ⟨absent, reached⟩ := start_call s t i _ taken
      cases code with
      | none => exact .sought i _ rfl (Or.inr ⟨_, rfl⟩) absent reached
      | some code => exact .sought i _ rfl (exchange_ends decode code state) absent reached
  | complete i input =>
      obtain ⟨absent, reached⟩ := start_call s t i _ taken
      exact .sought i _ rfl (exchange_ends decode _ _) absent reached
  | advance i fails =>
      simp only [perform, Option.bind_eq_bind, Option.bind_eq_some_iff, Option.some.injEq] at taken
      obtain ⟨phase, held, ⟨next, sessions⟩, moved, rfl⟩ := taken
      exact .advanced i fails phase next sessions rfl held moved rfl
  | tick millis =>
      cases taken
      exact .ticked millis rfl rfl
  | restart =>
      cases taken
      exact .restarted rfl rfl

/-- Where the phase of call `i` behind a step comes from. -/
inductive PhaseStep (s : State) (event : Event) (t : State) (i : Nat) : Phase → Prop where
  | kept (phase : Phase) : s.calls i = some phase → PhaseStep s event t i phase
  | opened (pending : Pending) : event = .init i pending → s.calls i = none →
      PhaseStep s event t i (.opening pending)
  | sought (token : String) : PhaseStep s event t i (.seeking token)
  | refused (message : String) : PhaseStep s event t i (.rejected message)
  | advanced (fails : Bool) (before next : Phase) : event = .advance i fails →
      s.calls i = some before → advance s fails before = some (next, t.sessions) →
      PhaseStep s event t i next

theorem phase_step (s t : State) (event : Event) (i : Nat) (phase : Phase)
    (taken : Does (perform decode) s event t) (held : t.calls i = some phase) :
    PhaseStep s event t i phase := by
  cases call_step decode s t event taken with
  | opened j pending starts absent reached =>
      subst reached
      by_cases same : i = j
      · subst same
        simp only [Function.update_self, Option.some.injEq] at held
        subst held
        exact .opened pending starts absent
      · simp only [Function.update_of_ne same] at held
        exact .kept phase held
  -- A callback waits for its entry or has ended, so it holds no pending of its own.
  | sought j next _ ends _ reached =>
      subst reached
      by_cases same : i = j
      · subst same
        simp only [Function.update_self, Option.some.injEq] at held
        subst held
        rcases ends with ⟨token, rfl⟩ | ⟨message, rfl⟩
        · exact .sought token
        · exact .refused message
      · simp only [Function.update_of_ne same] at held
        exact .kept phase held
  | advanced j fails before next sessions acts earlier moved reached =>
      subst reached
      by_cases same : i = j
      · subst same
        simp only [Function.update_self, Option.some.injEq] at held
        subst held
        exact .advanced fails before next acts earlier moved
      · simp only [Function.update_of_ne same] at held
        exact .kept phase held
  | ticked millis _ reached =>
      subst reached
      exact .kept phase held
  | restarted _ reached =>
      subst reached
      cases held

theorem advance_inserts (s : State) (fails : Bool) (phase next : Phase) (sessions : List Session)
    (pending : Pending) (moved : advance s fails phase = some (next, sessions))
    (inserts : next.inserts = some pending) : phase.inserts = some pending := by
  cases phase with
  | opening held =>
      cases moved
      cases fails with
      | true => cases inserts
      | false => exact inserts
  | purging held now =>
      cases moved
      exact inserts
  | inserting held now => cases fails <;> cases moved <;> cases inserts
  | seeking token => cases fails <;> cases moved <;> cases inserts
  | taking token now =>
      unfold advance at moved
      dsimp only at moved
      split at moved <;> cases moved <;> cases inserts
  | stored success => cases moved
  | took result => cases moved
  | rejected message => cases moved

theorem inserting_step (s t : State) (event : Event) (i : Nat) (pending : Pending)
    (taken : Does (perform decode) s event t) (inserting : Inserting t i pending) :
    Inserting s i pending ∨ (event = .init i pending ∧ s.calls i = none) := by
  obtain ⟨phase, held, inserts⟩ := inserting
  cases phase_step decode s t event i phase taken held with
  | kept _ before => exact Or.inl ⟨phase, before, inserts⟩
  | opened other starts absent =>
      cases inserts
      exact Or.inr ⟨starts, absent⟩
  | sought token => cases inserts
  | refused message => cases inserts
  | advanced fails before _ _ earlier moved =>
      exact Or.inl ⟨before, earlier, advance_inserts s fails before phase _ pending moved inserts⟩

/-- The table gains a row by a storing step alone, which ends its call. -/
theorem row_step (s t : State) (event : Event) (row : Session)
    (taken : Does (perform decode) s event t) (held : row ∈ t.sessions) :
    row ∈ s.sessions ∨ ∃ i pending now, Stores (s, event, t) i pending now ∧
      row = pending.session now ∧ t.calls i = some (.stored true) := by
  cases call_step decode s t event taken with
  | opened j other _ _ reached => subst reached; exact Or.inl held
  | sought j other _ _ _ reached => subst reached; exact Or.inl held
  | ticked millis _ reached => subst reached; exact Or.inl held
  | restarted _ reached => subst reached; exact Or.inl held
  | advanced i fails phase next sessions acts before moved reached =>
      subst reached
      cases phase with
      | opening pending => cases moved; exact Or.inl held
      | purging pending now =>
          cases moved
          cases fails with
          | true => exact Or.inl held
          | false => exact Or.inl (List.mem_of_mem_filter held)
      | inserting pending now =>
          cases fails with
          | true => cases moved; exact Or.inl held
          | false =>
              cases moved
              rcases List.mem_append.mp held with old | new
              · exact Or.inl (List.mem_of_mem_filter old)
              · exact Or.inr ⟨i, pending, now, ⟨acts, before⟩, List.mem_singleton.mp new, by simp⟩
      | seeking token => cases moved; exact Or.inl held
      | taking token now =>
          unfold advance at moved
          dsimp only at moved
          split at moved
          · cases moved
            exact Or.inl (List.mem_of_mem_filter held)
          · cases moved
            exact Or.inl held
      | stored success => cases moved
      | took result => cases moved
      | rejected message => cases moved

/-- A pair is returned out of an unexpired row, which is gone afterwards. -/
theorem redeems_step (s t : State) (event : Event) (i : Nat) (token : String)
    (pair : String × String) (taken : Does (perform decode) s event t)
    (redeems : Redeems (s, event, t) i token pair) :
    ∃ now row, s.calls i = some (.taking token now) ∧ initOf event = none ∧
      findPending token now s.sessions = some row ∧ pair = (row.accountName, row.verifier) ∧
      t.sessions = s.sessions.filter fun other => other.id ≠ token := by
  obtain ⟨⟨now, waiting⟩, returned⟩ := redeems
  dsimp only at waiting returned
  cases phase_step decode s t event i _ taken returned with
  | kept _ before => cases waiting.symm.trans before
  | advanced fails phase _ acts before moved =>
      cases before.symm.trans waiting
      unfold advance at moved
      dsimp only at moved
      split at moved
      · rename_i row found
        simp only [Option.some.injEq, Prod.mk.injEq, Phase.took.injEq] at moved
        exact ⟨now, row, waiting, by rw [acts]; rfl, found, moved.1.symm, moved.2.symm⟩
      · cases moved

/-- One token is in one place: on its way into the table, in it, or redeemed. -/
structure Ledger (trace : List Taken) (s : State) : Prop where
  asked : ∀ i pending, Inserting s i pending → pending ∈ started trace
  single : ∀ i j first second, Inserting s i first → Inserting s j second →
    first.csrfToken = second.csrfToken → i = j
  unstored : ∀ i pending, Inserting s i pending → ∀ row ∈ s.sessions, row.id ≠ pending.csrfToken
  unspent : ∀ i pending, Inserting s i pending → ∀ taken ∈ trace, ∀ j pair,
    ¬Redeems taken j pending.csrfToken pair
  rows : ∀ row ∈ s.sessions, ∃ i pending now, row = pending.session now ∧
    pending ∈ started trace ∧ ∃ stored ∈ trace, Stores stored i pending now
  spent : ∀ row ∈ s.sessions, ∀ taken ∈ trace, ∀ j pair, ¬Redeems taken j row.id pair
  redeemed : ∀ taken ∈ trace, ∀ j token pair, Redeems taken j token pair → token ∈ tokens trace

theorem started_append (trace : List Taken) (taken : Taken) :
    started (trace ++ [taken]) = started trace ++ (initOf taken.2.1).toList := by
  unfold started
  rw [List.filterMap_append]
  cases asked : initOf taken.2.1 <;> simp [asked]

theorem started_later (trace : List Taken) (taken : Taken) (pending : Pending)
    (before : pending ∈ started trace) : pending ∈ started (trace ++ [taken]) := by
  rw [started_append]
  exact List.mem_append_left _ before

theorem new_token (trace : List Taken) (s t : State) (i : Nat) (pending : Pending)
    (distinct : (tokens (trace ++ [(s, .init i pending, t)])).Nodup) :
    pending.csrfToken ∉ tokens trace := by
  unfold tokens at *
  rw [started_append, List.map_append] at distinct
  intro old
  exact (List.nodup_append.mp distinct).2.2 _ old _ (by simp [initOf]) rfl

theorem Ledger.unseen {trace : List Taken} {s : State} (ledger : Ledger trace s) (token : String)
    (fresh : token ∉ tokens trace) :
    (∀ i pending, Inserting s i pending → pending.csrfToken ≠ token) ∧
      (∀ row ∈ s.sessions, row.id ≠ token) ∧
      ∀ taken ∈ trace, ∀ j pair, ¬Redeems taken j token pair := by
  refine ⟨?_, ?_, ?_⟩
  · rintro i pending inserting rfl
    exact fresh (List.mem_map.mpr ⟨pending, ledger.asked i pending inserting, rfl⟩)
  · rintro row held rfl
    obtain ⟨i, pending, now, rfl, asked, -⟩ := ledger.rows row held
    exact fresh (List.mem_map.mpr ⟨pending, asked, rfl⟩)
  · intro taken member j pair redeems
    exact fresh (ledger.redeemed taken member j token pair redeems)

/-- A redeeming step finds the row of its token, so nothing redeemed it before. -/
theorem found_row (token : String) (now : Nat) (sessions : List Session) (row : Session)
    (found : findPending token now sessions = some row) :
    row ∈ sessions ∧ row.id = token ∧ now < row.expiresAt := by
  have holds := List.find?_some found
  simp only [Bool.and_eq_true, decide_eq_true_eq] at holds
  exact ⟨List.mem_of_find?_eq_some found, holds.1, holds.2⟩

theorem step_single (trace : List Taken) (s t : State) (event : Event)
    (ledger : Ledger trace s) (distinct : (tokens (trace ++ [(s, event, t)])).Nodup)
    (taken : Does (perform decode) s event t) (i j : Nat) (first second : Pending)
    (left : Inserting t i first) (right : Inserting t j second)
    (same : first.csrfToken = second.csrfToken) : i = j := by
  rcases inserting_step decode s t event i first taken left with oldLeft | ⟨newLeft, -⟩
  · rcases inserting_step decode s t event j second taken right with oldRight | ⟨newRight, -⟩
    · exact ledger.single i j first second oldLeft oldRight same
    · subst newRight
      exact absurd same ((ledger.unseen _ (new_token trace s t j second distinct)).1 i first oldLeft)
  · rcases inserting_step decode s t event j second taken right with oldRight | ⟨newRight, -⟩
    · subst newLeft
      exact absurd same.symm
        ((ledger.unseen _ (new_token trace s t i first distinct)).1 j second oldRight)
    · cases newLeft.symm.trans newRight
      rfl

theorem step_unstored (trace : List Taken) (s t : State) (event : Event)
    (ledger : Ledger trace s) (distinct : (tokens (trace ++ [(s, event, t)])).Nodup)
    (taken : Does (perform decode) s event t) (i : Nat) (pending : Pending)
    (inserting : Inserting t i pending) (row : Session) (held : row ∈ t.sessions) :
    row.id ≠ pending.csrfToken := by
  rcases row_step decode s t event row taken held with old | ⟨j, other, now, stores, rfl, ended⟩
  · rcases inserting_step decode s t event i pending taken inserting with before | ⟨starts, -⟩
    · exact ledger.unstored i pending before row old
    · subst starts
      exact (ledger.unseen _ (new_token trace s t i pending distinct)).2.1 row old
  · intro same
    have storing : Inserting s j other := ⟨_, stores.2, rfl⟩
    rcases inserting_step decode s t event i pending taken inserting with before | ⟨starts, -⟩
    · obtain rfl := ledger.single j i other pending storing before same
      obtain ⟨phase, here, inserts⟩ := inserting
      rw [ended] at here
      cases here
      cases inserts
    · cases starts.symm.trans stores.1

theorem step_unspent (trace : List Taken) (s t : State) (event : Event)
    (ledger : Ledger trace s) (distinct : (tokens (trace ++ [(s, event, t)])).Nodup)
    (taken : Does (perform decode) s event t) (i : Nat) (pending : Pending)
    (inserting : Inserting t i pending) (earlier : Taken)
    (member : earlier ∈ trace ++ [(s, event, t)]) (j : Nat) (pair : String × String) :
    ¬Redeems earlier j pending.csrfToken pair := by
  intro redeems
  rcases inserting_step decode s t event i pending taken inserting with before | ⟨starts, -⟩
  · rcases List.mem_append.mp member with old | new
    · exact ledger.unspent i pending before earlier old j pair redeems
    · obtain rfl := List.mem_singleton.mp new
      obtain ⟨now, row, -, -, found, -⟩ := redeems_step decode s t event j _ pair taken redeems
      obtain ⟨held, same, -⟩ := found_row _ now s.sessions row found
      exact ledger.unstored i pending before row held same
  · rcases List.mem_append.mp member with old | new
    · subst starts
      exact (ledger.unseen _ (new_token trace s t i pending distinct)).2.2 earlier old j pair redeems
    · obtain rfl := List.mem_singleton.mp new
      obtain ⟨now, row, -, notInit, -⟩ := redeems_step decode s t event j _ pair taken redeems
      rw [starts] at notInit
      cases notInit

theorem step_spent (trace : List Taken) (s t : State) (event : Event) (ledger : Ledger trace s)
    (taken : Does (perform decode) s event t) (row : Session) (held : row ∈ t.sessions)
    (earlier : Taken) (member : earlier ∈ trace ++ [(s, event, t)]) (j : Nat)
    (pair : String × String) : ¬Redeems earlier j row.id pair := by
  intro redeems
  rcases List.mem_append.mp member with old | new
  · rcases row_step decode s t event row taken held with before | ⟨i, pending, now, stores, rfl, -⟩
    · exact ledger.spent row before earlier old j pair redeems
    · exact ledger.unspent i pending ⟨_, stores.2, rfl⟩ earlier old j pair redeems
  · obtain rfl := List.mem_singleton.mp new
    obtain ⟨now, other, -, -, -, -, left⟩ := redeems_step decode s t event j _ pair taken redeems
    rw [left] at held
    simp at held

theorem step_ledger (trace : List Taken) (s t : State) (event : Event) (ledger : Ledger trace s)
    (distinct : (tokens (trace ++ [(s, event, t)])).Nodup)
    (taken : Does (perform decode) s event t) : Ledger (trace ++ [(s, event, t)]) t where
  asked := by
    intro i pending inserting
    rcases inserting_step decode s t event i pending taken inserting with before | ⟨rfl, -⟩
    · exact started_later trace _ pending (ledger.asked i pending before)
    · rw [started_append]
      simp [initOf]
  single := step_single decode trace s t event ledger distinct taken
  unstored := step_unstored decode trace s t event ledger distinct taken
  unspent := step_unspent decode trace s t event ledger distinct taken
  rows := by
    intro row held
    rcases row_step decode s t event row taken held with before | ⟨i, pending, now, stores, rfl, -⟩
    · obtain ⟨i, pending, now, same, asked, stored⟩ := ledger.rows row before
      exact ⟨i, pending, now, same, started_later trace _ pending asked, seen_later _ _ stored⟩
    · exact ⟨i, pending, now, rfl, started_later trace _ pending
        (ledger.asked i pending ⟨_, stores.2, rfl⟩), _, by simp, stores⟩
  spent := step_spent decode trace s t event ledger taken
  redeemed := by
    intro earlier member j token pair redeems
    rcases List.mem_append.mp member with old | new
    · obtain ⟨pending, asked, same⟩ :=
        List.mem_map.mp (ledger.redeemed earlier old j token pair redeems)
      exact List.mem_map.mpr ⟨pending, started_later trace _ pending asked, same⟩
    · obtain rfl := List.mem_singleton.mp new
      obtain ⟨now, row, -, -, found, -⟩ := redeems_step decode s t event j token pair taken redeems
      obtain ⟨held, rfl, -⟩ := found_row token now s.sessions row found
      obtain ⟨i, pending, stamped, rfl, asked, -⟩ := ledger.rows row held
      exact List.mem_map.mpr ⟨pending, started_later trace _ pending asked, rfl⟩

def Fresh (s : State) : Prop := s.sessions = [] ∧ ∀ i, s.calls i = none

theorem run_ledger (start s : State) (trace : List Taken) (fresh : Fresh start)
    (distinct : (tokens trace).Nodup) (run : Run (Does (perform decode)) start trace s) :
    Ledger trace s := by
  obtain ⟨sessions, calls⟩ := fresh
  induction run with
  | nil =>
      constructor
      · rintro i pending ⟨phase, held, -⟩
        rw [calls] at held
        cases held
      · rintro i j first second ⟨phase, held, -⟩
        rw [calls] at held
        cases held
      · rintro i pending ⟨phase, held, -⟩
        rw [calls] at held
        cases held
      · rintro i pending _ _ ⟨⟩
      · rw [sessions]
        rintro _ ⟨⟩
      · rw [sessions]
        rintro _ ⟨⟩
      · rintro _ ⟨⟩
  | @snoc trace source target event _ taken ih =>
      apply step_ledger decode trace source target event (ih ?_) distinct taken
      unfold tokens at *
      rw [started_append, List.map_append] at distinct
      exact (List.nodup_append.mp distinct).1

/-- The clock a call reads is not behind the one at which it was made. -/
structure Clocked (trace : List Taken) (s : State) : Prop where
  passed : ∀ taken ∈ trace, taken.1.now ≤ s.now
  read : ∀ i token now, s.calls i = some (.taking token now) →
    ∀ began ∈ trace, ∀ other, Seeks began i other → began.1.now ≤ now

theorem now_step (s t : State) (event : Event) (taken : Does (perform decode) s event t) :
    s.now ≤ t.now := by
  cases call_step decode s t event taken with
  | opened j other _ _ reached => subst reached; exact le_rfl
  | sought j other _ _ _ reached => subst reached; exact le_rfl
  | advanced j fails phase next sessions _ _ _ reached => subst reached; exact le_rfl
  | ticked millis _ reached => subst reached; exact Nat.le_add_right s.now millis
  | restarted _ reached => subst reached; exact le_rfl

/-- A call that waits with a clock value read it just now, or waited with it before. -/
theorem taking_step (s t : State) (event : Event) (i : Nat) (token : String) (now : Nat)
    (taken : Does (perform decode) s event t) (held : t.calls i = some (.taking token now)) :
    s.calls i = some (.taking token now) ∨ (s.calls i = some (.seeking token) ∧ now = s.now) := by
  cases phase_step decode s t event i _ taken held with
  | kept _ before => exact Or.inl before
  | advanced fails phase _ _ before moved =>
      cases phase with
      | opening pending => cases fails <;> cases moved
      | purging pending stamp => cases moved
      | inserting pending stamp => cases fails <;> cases moved
      | seeking other =>
          cases fails with
          | true => cases moved
          | false =>
              simp only [advance, Bool.false_eq_true, if_false, Option.some.injEq, Prod.mk.injEq,
                Phase.taking.injEq] at moved
              obtain ⟨⟨rfl, rfl⟩, -⟩ := moved
              exact Or.inr ⟨before, rfl⟩
      | taking other stamp =>
          unfold advance at moved
          dsimp only at moved
          split at moved <;> cases moved
      | stored success => cases moved
      | took result => cases moved
      | rejected message => cases moved

theorem step_clocked (trace : List Taken) (s t : State) (event : Event)
    (clocked : Clocked trace s) (taken : Does (perform decode) s event t) :
    Clocked (trace ++ [(s, event, t)]) t where
  passed := by
    intro earlier member
    have forward := now_step decode s t event taken
    rcases List.mem_append.mp member with old | new
    · exact (clocked.passed earlier old).trans forward
    · obtain rfl := List.mem_singleton.mp new
      exact forward
  read := by
    intro i token now held began member other seeks
    have waiting := taking_step decode s t event i token now taken held
    rcases List.mem_append.mp member with old | new
    · rcases waiting with before | ⟨-, rfl⟩
      · exact clocked.read i token now before began old other seeks
      · exact clocked.passed began old
    · obtain rfl := List.mem_singleton.mp new
      rcases waiting with before | ⟨before, -⟩
      · cases before.symm.trans seeks.1
      · cases before.symm.trans seeks.1

theorem run_clocked (start s : State) (trace : List Taken) (fresh : Fresh start)
    (run : Run (Does (perform decode)) start trace s) : Clocked trace s := by
  apply run.history Clocked
  · constructor
    · rintro _ ⟨⟩
    · intro i token now held
      rw [fresh.2] at held
      cases held
  · intro before source event target clocked taken
    exact step_clocked decode before source target event clocked taken

/-- What a returned pair was stored as, and that nothing returned it before. -/
theorem redeemed_row (start final : State) (fresh : Fresh start) (before after : List Taken)
    (taken : Taken) (i : Nat) (token : String) (pair : String × String)
    (run : Run (Does (perform decode)) start (before ++ taken :: after) final)
    (distinct : (tokens (before ++ taken :: after)).Nodup) (redeems : Redeems taken i token pair) :
    (∀ earlier ∈ before, ∀ j other, ¬Redeems earlier j token other) ∧
      ∃ pending now, pending.csrfToken = token ∧ pair = (pending.accountId, pending.verifier) ∧
        pending ∈ started before ∧ (∃ stored ∈ before, ∃ j, Stores stored j pending now) ∧
        ∀ began ∈ before, ∀ other, Seeks began i other → began.1.now < now + pendingTtlMs := by
  obtain ⟨source, event, target⟩ := taken
  obtain ⟨first, step, -⟩ := run.cut
  have prior : (tokens before).Nodup := by
    unfold tokens started at *
    rw [List.filterMap_append, List.map_append] at distinct
    exact (List.nodup_append.mp distinct).1
  have ledger := run_ledger decode start source before fresh prior first
  have clocked := run_clocked decode start source before fresh first
  obtain ⟨now, row, waiting, -, found, same, -⟩ :=
    redeems_step decode source target event i token pair step redeems
  obtain ⟨held, rfl, alive⟩ := found_row token now source.sessions row found
  constructor
  · exact ledger.spent row held
  · obtain ⟨j, pending, stamped, rfl, asked, stored, member, stores⟩ := ledger.rows row held
    refine ⟨pending, stamped, rfl, same, asked, ⟨stored, member, j, stores⟩, ?_⟩
    intro began old other seeks
    exact lt_of_le_of_lt (clocked.read i _ now waiting began old other seeks) alive

/-- For each token at most one call returns a pair; it is the pair stored for the token, and
the call was made before the entry expired. -/
theorem redeemed_at_most_once (start final : State) (trace : List Taken) (fresh : Fresh start)
    (run : Run (Does (perform decode)) start trace final) (distinct : (tokens trace).Nodup)
    (before after : List Taken) (taken : Taken) (split : trace = before ++ taken :: after) (i : Nat)
    (token : String) (pair : String × String) (redeems : Redeems taken i token pair) :
    (∀ other ∈ before ++ after, ∀ j again, ¬Redeems other j token again) ∧
      (∀ pending ∈ started trace, pending.csrfToken = token →
        pair = (pending.accountId, pending.verifier)) ∧
      ∃ pending now, pending.csrfToken = token ∧ pair = (pending.accountId, pending.verifier) ∧
        (∃ stored ∈ before, ∃ j, Stores stored j pending now) ∧
        ∀ began ∈ before, ∀ other, Seeks began i other → began.1.now < now + pendingTtlMs := by
  subst split
  obtain ⟨unredeemed, pending, now, named, same, asked, stored, alive⟩ :=
    redeemed_row decode start final fresh before after taken i token pair run distinct redeems
  refine ⟨?_, ?_, pending, now, named, same, stored, alive⟩
  · intro other place k again redeemed
    rcases List.mem_append.mp place with earlier | later
    · exact unredeemed other earlier k again redeemed
    · obtain ⟨between, rest, rfl⟩ := List.append_of_mem later
      have shape : before ++ taken :: (between ++ other :: rest) =
          (before ++ taken :: between) ++ other :: rest := by simp
      rw [shape] at run distinct
      exact (redeemed_row decode start final fresh _ rest other k token again run distinct
        redeemed).1 taken (by simp) i pair redeems
  · intro another given alike
    have listed : pending ∈ started (before ++ taken :: after) := by
      unfold started at *
      rw [List.filterMap_append]
      exact List.mem_append_left _ asked
    rw [List.inj_on_of_nodup_map distinct given listed (alike.trans named.symm)]
    exact same

end Requests

def sampleToken : String := "9f86d081884c7d659a2feaa0c55ad015a3bf4f1b2b0b822cd15d6c15b0f00a08"

/-- The base64url text of the state that carries the sample token. -/
def sampleState : String :=
  "eyJjc3JmVG9rZW4iOiI5Zjg2ZDA4MTg4NGM3ZDY1OWEyZmVhYTBjNTVhZDAxNWEzYmY0ZjF" ++
    "iMmIwYjgyMmNkMTVkNmMxNWIwZjAwYTA4IiwidGltZXN0YW1wIjoxNzAwMDAwMDAwMDAwfQ"

def sampleDecode (encoded : String) : Option String :=
  if encoded = sampleState then some sampleToken else none

def samplePending : Pending := ⟨sampleToken, "acc-1", "verifier-1"⟩

/-- Of two callbacks that ask for one token, the second gets nothing. -/
theorem sample_redeemed_once :
    ∃ before taken late, Redeems taken 1 sampleToken ("acc-1", "verifier-1") ∧
      (∃ now, late.1.calls 2 = some (.taking sampleToken now)) ∧
      late.2.2.calls 2 = some (.took none) ∧
      ∀ other ∈ before ++ [late], ∀ j again, ¬Redeems other j sampleToken again := by
  obtain ⟨before, source, run, events, reached⟩ := @performed State Event
    ⟨[], 1700000000000, fun _ => none⟩ (perform sampleDecode)
    [.init 0 samplePending, .advance 0 false, .advance 0 false, .advance 0 false, .tick 60000,
      .callback 1 (some "code-1") (some sampleState),
      .callback 2 (some "code-1") (some sampleState), .advance 1 false, .advance 2 false]
    (fun s => s.calls 1 = some (.taking sampleToken 1700000060000) &&
      (perform sampleDecode s (.advance 1 false)).any fun t =>
        t.calls 1 = some (.took (some ("acc-1", "verifier-1"))) &&
          (t.calls 2 = some (.taking sampleToken 1700000060000) &&
            (perform sampleDecode t (.advance 2 false)).any fun u => u.calls 2 = some (.took none)))
    (by decide +kernel)
  obtain ⟨waiting, returning⟩ := Bool.and_eq_true_iff.mp reached
  obtain ⟨target, step, returned⟩ := performed_once (perform sampleDecode) _ _ returning
  obtain ⟨took, others⟩ := Bool.and_eq_true_iff.mp returned
  obtain ⟨seeking, refusing⟩ := Bool.and_eq_true_iff.mp others
  obtain ⟨final, last, refused⟩ := performed_once (perform sampleDecode) _ _ refusing
  have redeems : Redeems (source, .advance 1 false, target) 1 sampleToken
      ("acc-1", "verifier-1") :=
    ⟨⟨_, of_decide_eq_true waiting⟩, of_decide_eq_true took⟩
  have whole := (run.snoc step).snoc last
  have distinct : (tokens (before ++ [(source, .advance 1 false, target)] ++
      [(target, .advance 2 false, final)])).Nodup := by
    have asked : started before = (before.map fun taken => taken.2.1).filterMap initOf := by
      unfold started
      rw [List.filterMap_map]
      rfl
    unfold tokens
    rw [started_append, started_append, asked, events]
    exact List.nodup_singleton sampleToken
  refine ⟨before, _, (target, .advance 2 false, final), redeems, ⟨_, of_decide_eq_true seeking⟩,
    of_decide_eq_true refused, ?_⟩
  exact (redeemed_at_most_once sampleDecode _ final _ ⟨rfl, fun _ => rfl⟩ whole distinct before
    [(target, .advance 2 false, final)] _ (by simp) 1 sampleToken _ redeems).1

end Ccflare.OAuthSessions
