import Ccflare.AccountOrders
import Ccflare.Suggestions
import Ccflare.TokenManager

/-!
The commands of the CLI that manage accounts, on the table that the server works on. A command
looks an account up by its name, whatever its case, and then runs one statement.
-/

namespace Ccflare.CommandLine

open AccountAdministration AccountOrders Transition
open Suggestions (suggest)

/-- What of the database fails under a command: the lookup of the name, with the connection it
takes, the connection for the statement, or the statement. -/
structure Faults where
  lookup : Bool
  connection : Bool
  statement : Bool

inductive Failure where
  | database
  | message (text : String)

inductive Command where
  | addAccount (name mode : String) (priority : Int) (apiKeyInput : Option String) (id : String)
  | removeAccount (name : String)
  | pauseAccount (name : String)
  | resumeAccount (name : String)
  | setPriority (name : String) (priority : Int)
  | reauthenticateAccount (name : String) (newKey : Option String)
  | resetStats

/-- The id that a command draws for a new account. -/
def Command.draws : Command → Option String
  | .addAccount _ _ _ _ id => some id
  | _ => none

section Commands
variable (lowercase uppercase : String → String) (env : String → Option String)

def findAccountByName (store : Store) (faults : Faults) (name : String) :
    Except Failure Account :=
  if faults.lookup then .error .database
  else match store.findAll.find? fun row => lowercase row.name = lowercase name with
    | some row => .ok row
    | none => .error (.message ("Account '" ++ name ++ "' not found"))

def modeNeedsApiKey (mode : String) : Bool :=
  decide (mode ∈ ["console", "zai", "minimax", "nanogpt", "anthropic-compatible",
    "openai-compatible", "vertex-ai"])

def modeNeedsOauth (mode : String) : Bool := decide (mode = "claude-oauth")

/-- The name of an account in the name of a variable. -/
def shouted (name : String) : String :=
  String.ofList ((uppercase name).toList.map fun c => if c = '-' then '_' else c)

def keyVariable (name : String) : String := "BETTER_CCFLARE_API_KEY_" ++ shouted uppercase name

def invalidMode (mode : String) : Failure :=
  let suggestions := (suggest lowercase mode validModes 2 3).getD []
  .message ("Invalid mode: '" ++ mode ++ "'\nValid modes: " ++ Text.joinWith ", " validModes ++
    if suggestions.isEmpty then ""
    else "\nDid you mean: " ++ Text.joinWith ", " suggestions ++ "?")

def runStatement (store : Store) (faults : Faults) (done : Option Store) :
    Store × Except Failure Unit :=
  match if faults.connection || faults.statement then none else done with
  | some after => (after, .ok ())
  | none => (store, .error .database)

def keyRequired (name mode : String) : Failure :=
  .message ("API key required for '" ++ mode ++ "' accounts. Provide via:\n  " ++
    "- --add-account " ++ name ++ " --mode " ++ mode ++ " (then enter key when prompted)\n  " ++
    "- Set " ++ keyVariable uppercase name ++ " environment variable")

/-- A lookup that fails for whatever reason counts as no duplicate. -/
def addAccount (store : Store) (faults : Faults) (name mode : String) (priority : Int)
    (apiKeyInput : Option String) (id : String) (now : Int) : Store × Except Failure Unit :=
  if mode ∉ validModes then (store, .error (invalidMode lowercase mode))
  else if (findAccountByName lowercase store faults name).isOk then
    (store, .error (.message ("Account '" ++ name ++ "' already exists")))
  else if modeNeedsOauth mode then
    runStatement store faults (store.create (newAccount id name mode priority now none))
  else if modeNeedsApiKey mode then
    let apiKey := apiKeyInput.getD (((env (keyVariable uppercase name)).or
      (env ("API_KEY_" ++ shouted uppercase name))).getD "")
    if apiKey = "" then (store, .error (keyRequired uppercase name mode))
    else runStatement store faults (store.create (newAccount id name mode priority now (some apiKey)))
  else (store, .error (.message ("Unknown mode: '" ++ mode ++ "'")))

/-- A command on the account that its name finds. -/
def onAccount (store : Store) (faults : Faults) (name : String)
    (run : Account → Store × Except Failure Unit) : Store × Except Failure Unit :=
  match findAccountByName lowercase store faults name with
  | .error failure => (store, .error failure)
  | .ok account => run account

def removeAccount (store : Store) (faults : Faults) (name : String) :
    Store × Except Failure Unit :=
  onAccount lowercase store faults name fun account =>
    if faults.connection || faults.statement then (store, .error .database)
    else if (store.delete account.id).2 then ((store.delete account.id).1, .ok ())
    else (store, .error (.message ("Failed to remove account '" ++ name ++ "'")))

def pauseAccount (store : Store) (faults : Faults) (name : String) : Store × Except Failure Unit :=
  onAccount lowercase store faults name fun account =>
    if account.paused then (store, .ok ())
    else runStatement store faults (store.set account.id (.paused true))

def resumeAccount (store : Store) (faults : Faults) (name : String) : Store × Except Failure Unit :=
  onAccount lowercase store faults name fun account =>
    if !account.paused then (store, .ok ())
    else runStatement store faults (store.set account.id (.paused false))

/-- The number is not compared with any bounds. -/
def setPriority (store : Store) (faults : Faults) (name : String) (priority : Int) :
    Store × Except Failure Unit :=
  onAccount lowercase store faults name fun account =>
    runStatement store faults (store.set account.id (.priority priority))

def keyRequiredAgain (name : String) : Failure :=
  .message ("API key required for reauthentication. Provide via argument or set " ++
    keyVariable uppercase name)

/-- The new key goes where the access token is; the column of the key is not written. -/
def reauthenticateAccount (store : Store) (faults : Faults) (name : String)
    (newKey : Option String) (now : TokenRefresh.Clock) : Store × Except Failure Unit :=
  onAccount lowercase store faults name fun account =>
    if faults.connection then (store, .error .database)
    else if account.provider = "claude-oauth" then (store, .ok ())
    else
      let apiKey := newKey.getD ((env (keyVariable uppercase name)).getD "")
      if apiKey = "" then (store, .error (keyRequiredAgain uppercase name))
      else runStatement store faults (store.update account.id
        (TokenRefresh.updateTokens now apiKey (now.millis + 30 * 24 * 60 * 60 * 1000) none))

def clearStats (row : Account) : Account :=
  { row with requestCount := 0, sessionRequestCount := 0, sessionStart := none, lastUsed := none }

def resetStats (store : Store) (faults : Faults) : Store × Except Failure Unit :=
  runStatement store faults (Store.checked (store.rows.map clearStats))

def runCommand (store : Store) (faults : Faults) (now : TokenRefresh.Clock) :
    Command → Store × Except Failure Unit
  | .addAccount name mode priority apiKeyInput id =>
      addAccount lowercase uppercase env store faults name mode priority apiKeyInput id now.millis
  | .removeAccount name => removeAccount lowercase store faults name
  | .pauseAccount name => pauseAccount lowercase store faults name
  | .resumeAccount name => resumeAccount lowercase store faults name
  | .setPriority name priority => setPriority lowercase store faults name priority
  | .reauthenticateAccount name newKey =>
      reauthenticateAccount lowercase uppercase env store faults name newKey now
  | .resetStats => resetStats store faults

end Commands

/-- A change of one row that keeps its id and the key it is authorized with. -/
structure Keeps (change : Account → Account) : Prop where
  id : ∀ row, (change row).id = row.id
  provider : ∀ row, (change row).provider = row.provider
  apiKey : ∀ row, (change row).apiKey = row.apiKey

section Writes
variable (lowercase : String → String) (draws : Option String) (repeats renames : Prop)
  (store : Store)

/-- What a command or a request can do to the table: nothing, or one statement. -/
inductive Writes : Store → Prop where
  | nothing : Writes store
  | adds (account : Account) (after : Store) (created : store.create account = some after)
      (drawn : draws = some account.id)
      (fresh : repeats ∨ ∀ row ∈ store.rows, lowercase row.name ≠ lowercase account.name) :
      Writes after
  | removes (id : String) : Writes (store.delete id).1
  | changes (id : String) (change : Account → Account) (after : Store) (keeps : Keeps change)
      (updated : store.update id change = some after)
      (named : renames ∨ ∀ row, (change row).name = row.name) : Writes after
  | clears (after : Store) (cleared : Store.checked (store.rows.map clearStats) = some after) :
      Writes after

end Writes

theorem setting_keeps (setting : Setting) : Keeps setting.write := by
  constructor <;> intro row <;> cases setting <;> rfl

theorem tokens_keep (now : TokenRefresh.Clock) (accessToken : String) (expiresAt : Int) :
    Keeps (TokenRefresh.updateTokens now accessToken expiresAt none) :=
  ⟨fun _ => rfl, fun _ => rfl, fun _ => rfl⟩

section Commands
variable {lowercase uppercase : String → String} {env : String → Option String} {store : Store}
  {faults : Faults} {draws : Option String} {repeats renames : Prop}

theorem statement_writes (done : Option Store)
    (written : ∀ after, done = some after → Writes lowercase draws repeats renames store after) :
    Writes lowercase draws repeats renames store (runStatement store faults done).1 := by
  unfold runStatement
  split
  · next after ran =>
      split at ran
      · cases ran
      · exact written after ran
  · exact .nothing

/-- A lookup that works finds every name that differs in case only. -/
theorem name_unused (name : String) (works : faults.lookup = false)
    (unused : (findAccountByName lowercase store faults name).isOk = false) :
    ∀ row ∈ store.rows, lowercase row.name ≠ lowercase name := by
  intro row member same
  have listed : row ∈ store.findAll := (StableSort.mem_sort_by_key _ _ _).mpr member
  have found : (store.findAll.find? fun row => lowercase row.name = lowercase name).isSome :=
    List.find?_isSome.mpr ⟨row, listed, decide_eq_true same⟩
  obtain ⟨first, here⟩ := Option.isSome_iff_exists.mp found
  simp [findAccountByName, works, here, Except.isOk, Except.toBool] at unused

theorem on_account_writes (name : String) (run : Account → Store × Except Failure Unit)
    (each : ∀ account, Writes lowercase draws repeats renames store (run account).1) :
    Writes lowercase draws repeats renames store (onAccount lowercase store faults name run).1 := by
  unfold onAccount
  split
  · exact .nothing
  · exact each _

theorem set_writes (id : String) (setting : Setting)
    (named : ∀ row, (setting.write row).name = row.name) (after : Store)
    (written : store.set id setting = some after) :
    Writes lowercase draws repeats renames store after :=
  .changes id setting.write after (setting_keeps setting) written (.inr named)

theorem add_writes (name mode : String) (priority : Int) (apiKeyInput : Option String)
    (id : String) (now : Int) (repeats_ : faults.lookup = true → repeats) :
    Writes lowercase (some id) repeats renames store (addAccount lowercase uppercase env store
      faults name mode priority apiKeyInput id now).1 := by
  unfold addAccount
  split
  · exact .nothing
  · split
    · exact .nothing
    · next unused =>
        have fresh : repeats ∨ ∀ row ∈ store.rows, lowercase row.name ≠ lowercase name := by
          cases fails : faults.lookup with
          | true => exact .inl (repeats_ fails)
          | false => exact .inr (name_unused name fails (Bool.eq_false_of_not_eq_true unused))
        have creates (key : Option String) : Writes lowercase (some id) repeats renames store
            (runStatement store faults
              (store.create (newAccount id name mode priority now key))).1 :=
          statement_writes _ fun after created => .adds _ after created rfl fresh
        split
        · exact creates none
        · split
          · dsimp only
            split
            · exact .nothing
            · exact creates _
          · exact .nothing

theorem command_writes (command : Command) (now : TokenRefresh.Clock)
    (repeats_ : command.draws.isSome = true ∧ faults.lookup = true → repeats) :
    Writes lowercase command.draws repeats renames store
      (runCommand lowercase uppercase env store faults now command).1 := by
  cases command with
  | addAccount name mode priority apiKeyInput id =>
      exact add_writes name mode priority apiKeyInput id now.millis fun fails => repeats_ ⟨rfl, fails⟩
  | removeAccount name =>
      refine on_account_writes name _ fun account => ?_
      split
      · exact .nothing
      · split
        · exact .removes account.id
        · exact .nothing
  | pauseAccount name | resumeAccount name =>
      refine on_account_writes name _ fun account => ?_
      split
      · exact .nothing
      · exact statement_writes _ fun after written =>
          set_writes account.id _ (fun _ => rfl) after written
  | setPriority name priority =>
      exact on_account_writes name _ fun account => statement_writes _ fun after written =>
        set_writes account.id _ (fun _ => rfl) after written
  | reauthenticateAccount name newKey =>
      refine on_account_writes name _ fun account => ?_
      split
      · exact .nothing
      · split
        · exact .nothing
        · dsimp only
          split
          · exact .nothing
          · exact statement_writes _ fun after written =>
              .changes account.id _ after (tokens_keep now _ _) written (.inr fun _ => rfl)
  | resetStats => exact statement_writes _ fun after written => .clears after written

end Commands

/-- The id that a request draws for a new account. -/
def callDraws : Call → Option String
  | .create _ id _ => some id
  | _ => none

section Requests
variable {lowercase : String → String} {codec : JsonValue.Codec} {store : Store} {fault : Fault}
  {draws : Option String} {repeats renames : Prop}

theorem flag_read (field : String) (setting : Bool → Setting) (body : JsonValue.Json)
    (read : Setting) (done : readFlag field setting body = .ok read) :
    ∃ flag, read = setting flag := by
  unfold readFlag at done
  split at done <;> cases done
  exact ⟨_, rfl⟩

theorem percent_read (setting : Int → Setting) (body : JsonValue.Json) (read : Setting)
    (done : readPercent setting body = .ok read) : ∃ percent, read = setting percent := by
  unfold readPercent at done
  split at done
  · split at done <;> cases done
    exact ⟨_, rfl⟩
  · cases done

/-- Only the route that renames writes the name. -/
theorem route_named (route : Route) (body : JsonValue.Json) (read : Setting)
    (other : route ≠ .rename) (done : (route.handler codec).read body = .ok read) (row : Account) :
    (read.write row).name = row.name := by
  cases route with
  | rename => exact (other rfl).elim
  | pause | resume => cases done; rfl
  | priority =>
      simp only [Route.handler, updatePriority] at done
      split at done
      · split at done <;> cases done
        rfl
      · cases done
  | customEndpoint =>
      simp only [Route.handler, setCustomEndpoint] at done
      split at done
      · split at done
        · cases done
          rfl
        · split at done <;> cases done
          rfl
      · cases done
        rfl
  | modelMappings =>
      simp only [Route.handler, setModelMappings] at done
      split at done <;> cases done <;> rfl
  | autoFallback | autoRefresh | reserveHard | shared | overageProtection =>
      obtain ⟨flag, rfl⟩ := flag_read _ _ body read done
      rfl
  | reserve5h | reserveWeekly =>
      obtain ⟨percent, rfl⟩ := percent_read _ body read done
      rfl

theorem create_fresh (body : JsonValue.Json) (id : String) (now : Int) :
    Writes lowercase (some id) repeats renames store
      (createAccount lowercase store fault body id now).1 := by
  unfold createAccount
  split
  · exact .nothing
  · split
    · exact .nothing
    · next asked read =>
        split
        · exact .nothing
        · split
          · exact .nothing
          · next unused =>
              split
              · exact .nothing
              · next key keyed =>
                  dsimp only
                  split
                  · exact .nothing
                  · next after written =>
                      split at written
                      · cases written
                      · refine .adds _ after written rfl (.inr fun row member same => unused ?_)
                        exact List.any_eq_true.mpr ⟨row, member, decide_eq_true same⟩

theorem request_writes (call : Call)
    (renames_ : (∃ id body, call = .column .rename id body) → renames) :
    Writes lowercase (callDraws call) repeats renames store (handle lowercase codec store fault call).1 := by
  cases call with
  | create body id now => exact create_fresh body id now
  | delete id =>
      rcases handle_answered lowercase codec store fault (.delete id) with
        ⟨-, same⟩ | ⟨-, asked, read, obeyed⟩
      · rw [same]
        exact .nothing
      · obtain rfl := Option.some.inj read
        simp only [obey, Option.ite_none_right_eq_some, Option.some.injEq] at obeyed
        rw [← obeyed.2]
        exact .removes id
  | column route id body =>
      rcases handle_answered lowercase codec store fault (.column route id body) with
        ⟨-, same⟩ | ⟨-, asked, read, obeyed⟩
      · rw [same]
        exact .nothing
      · obtain ⟨setting, found, rfl⟩ := Option.map_eq_some_iff.mp read
        have done : (route.handler codec).read body = .ok setting := by
          cases asked : (route.handler codec).read body with
          | error answer => rw [asked] at found; cases found
          | ok other => rw [asked] at found; exact congrArg _ (Option.some.inj found)
        simp only [obey, Option.ite_none_right_eq_some] at obeyed
        refine .changes id setting.write _ (setting_keeps setting) obeyed.2 ?_
        by_cases rename : route = .rename
        · exact .inl (renames_ ⟨id, body, by rw [rename]⟩)
        · exact .inr (route_named route body setting rename done)

end Requests

/-- A command of the operator or a request to the account routes; each has run before the next
one starts. -/
inductive Event where
  | command (command : Command) (faults : Faults) (now : TokenRefresh.Clock)
      (env : String → Option String)
  | request (call : Call) (fault : Fault)

def Event.draws : Event → Option String
  | .command asked .. => asked.draws
  | .request call _ => callDraws call

/-- An account is added whose name could not be looked up. -/
def Event.Unchecked : Event → Prop
  | .command asked faults _ _ => asked.draws.isSome = true ∧ faults.lookup = true
  | .request .. => False

def Event.Renames : Event → Prop
  | .command .. => False
  | .request call _ => ∃ id body, call = .column .rename id body

section Runs
variable (lowercase uppercase : String → String) (codec : JsonValue.Codec)

def perform (store : Store) : Event → Option Store
  | .command command faults now env =>
      some (runCommand lowercase uppercase env store faults now command).1
  | .request call fault => some (handle lowercase codec store fault call).1

variable {lowercase uppercase} {codec}

theorem step_writes (source : Store) (event : Event) (target : Store)
    (moved : Does (perform lowercase uppercase codec) source event target) :
    Writes lowercase event.draws event.Unchecked event.Renames source target := by
  cases event with
  | command command faults now env =>
      obtain rfl := Option.some.inj moved
      exact command_writes command now id
  | request call fault =>
      obtain rfl := Option.some.inj moved
      exact request_writes call id

/-- No two accounts have names that differ in case only. -/
def Apart (lowercase : String → String) (store : Store) : Prop :=
  (store.rows.map fun row => lowercase row.name).Nodup

theorem writes_apart (draws : Option String) (source target : Store) (apart : Apart lowercase source)
    (written : Writes lowercase draws False False source target) : Apart lowercase target := by
  cases written with
  | nothing => exact apart
  | adds account after created drawn fresh =>
      have fresh := fresh.resolve_left id
      rw [Apart, checked_rows _ _ created, List.map_append, List.nodup_append]
      refine ⟨apart, by simp, ?_⟩
      intro name listed other single same
      obtain ⟨row, member, rfl⟩ := List.mem_map.mp listed
      rw [List.map_singleton, List.mem_singleton] at single
      exact fresh row member (same.trans single)
  | removes id => exact apart.sublist (List.filter_sublist.map _)
  | changes id change after keeps updated named =>
      have named := named.resolve_left False.elim
      rw [Apart, update_rows source target id change updated, List.map_map]
      have same : ((fun row : Account => lowercase row.name) ∘
          fun row => if row.id = id then change row else row) = fun row => lowercase row.name := by
        funext row
        by_cases here : row.id = id <;> simp [here, named]
      rwa [same]
  | clears after cleared =>
      rw [Apart, checked_rows _ _ cleared, List.map_map]
      exact apart

theorem step_apart (source : Store) (event : Event) (target : Store) (apart : Apart lowercase source)
    (allowed : ¬ event.Unchecked ∧ ¬ event.Renames)
    (moved : Does (perform lowercase uppercase codec) source event target) :
    Apart lowercase target := by
  have written := step_writes source event target moved
  rw [eq_false allowed.1, eq_false allowed.2] at written
  exact writes_apart _ source target apart written

/-- Unless an account is renamed or added without a look at the names, the names stay apart
whatever their case, so a command is always about the one account that it names. -/
theorem names_stay_apart (start final : Store) (trace : List (Store × Event × Store))
    (run : Run (Does (perform lowercase uppercase codec)) start trace final)
    (apart : Apart lowercase start)
    (checked : ∀ taken ∈ trace, ¬ taken.2.1.Unchecked ∧ ¬ taken.2.1.Renames) :
    Apart lowercase final ∧ ∀ row ∈ final.rows, ∀ name faults, faults.lookup = false →
      lowercase name = lowercase row.name →
        findAccountByName lowercase final faults name = .ok row := by
  have kept := (run.along (Apart lowercase) (fun event => ¬ event.Unchecked ∧ ¬ event.Renames) apart
    step_apart checked).1
  refine ⟨kept, fun row member name faults works same => ?_⟩
  have listed : row ∈ final.findAll := (StableSort.mem_sort_by_key _ _ _).mpr member
  cases found : final.findAll.find? fun row => lowercase row.name = lowercase name with
  | none => exact absurd (decide_eq_true same.symm) (List.find?_eq_none.mp found row listed)
  | some first =>
      have alike : lowercase first.name = lowercase row.name :=
        (of_decide_eq_true (List.find?_some (p := fun row : Account =>
          decide (lowercase row.name = lowercase name)) found)).trans same
      have here : first ∈ final.rows :=
        (StableSort.mem_sort_by_key _ _ _).mp (List.mem_of_find?_eq_some found)
      obtain rfl := List.inj_on_of_nodup_map kept here member alike
      simp [findAccountByName, works, found]

def noFaults : Faults := ⟨false, false, false⟩

def clockAt (millis : Nat) (small : millis < 2 ^ 63) : TokenRefresh.Clock :=
  ⟨millis, by omega, by unfold MachineNumber.i64Max; omega⟩

/-- One account is added, and found in another case. -/
theorem added_account_found : ∃ trace final row,
    Run (Does (perform Text.toAsciiLowercase id (JsonValue.Codec.ofTable []))) noAccounts trace
        final ∧
      row ∈ final.rows ∧
      findAccountByName Text.toAsciiLowercase final noFaults "ANN" = .ok row := by
  obtain ⟨trace, final, run, events, held⟩ := @performed _ _ noAccounts
    (perform Text.toAsciiLowercase id (JsonValue.Codec.ofTable []))
    [.command (.addAccount "Ann" "zai" 0 (some "key") "1") noFaults (clockAt 0 (by decide))
      fun _ => none]
    (fun store => decide (store.rows.map Account.name = ["Ann"])) (by decide)
  have names := of_decide_eq_true held
  have checked : ∀ taken ∈ trace, ¬ taken.2.1.Unchecked ∧ ¬ taken.2.1.Renames := by
    intro taken member
    rw [List.mem_singleton.mp (event_listed _ events taken member)]
    exact ⟨fun unchecked => Bool.noConfusion unchecked.2, id⟩
  obtain ⟨row, rows, named⟩ := List.map_eq_singleton_iff.mp names
  have listed : row ∈ final.rows := rows ▸ List.mem_singleton_self row
  have lookup := (names_stay_apart noAccounts final trace run List.nodup_nil checked).2 row listed
  exact ⟨trace, final, row, run, listed, lookup "ANN" noFaults rfl (by rw [named]; decide)⟩

/-- An account of a provider with API keys that has one. With an empty one, the stored access
token would be sent instead. -/
structure Keyed (row : Account) (key : String) : Prop where
  provider : isApiKeyProvider row.provider = true
  apiKey : row.apiKey = some key
  filled : key ≠ ""

structure SameCredential (row other : Account) : Prop where
  provider : other.provider = row.provider
  apiKey : other.apiKey = row.apiKey

theorem Keeps.same {change : Account → Account} (keeps : Keeps change) {row other : Account}
    (same : SameCredential row other) : SameCredential row (change other) :=
  ⟨(keeps.provider other).trans same.provider, (keeps.apiKey other).trans same.apiKey⟩

/-- For an account with a key the other columns are not looked at. -/
theorem keyed_credential {row other : Account} {key : String} (keyed : Keyed row key)
    (same : SameCredential row other) (now : Int) :
    TokenManager.withoutRefresh other now = some (.ok key) := by
  have provider : isApiKeyProvider other.provider = true := same.provider ▸ keyed.provider
  have held : other.apiKey = some key := same.apiKey.trans keyed.apiKey
  simp [TokenManager.withoutRefresh, provider, held]

/-- Whatever the table holds under the id has the credential of the row. -/
def Unchanged (id : String) (row : Account) (store : Store) : Prop :=
  ∀ other, store.findById id = some other → SameCredential row other

theorem writes_unchanged (draws : Option String) (repeats renames : Prop) (source target : Store)
    (id : String) (row : Account) (held : Unchanged id row source) (undrawn : draws ≠ some id)
    (written : Writes lowercase draws repeats renames source target) : Unchanged id row target := by
  intro other found
  cases written with
  | nothing => exact held other found
  | adds account after created drawn fresh =>
      rw [create_found source target account id created] at found
      split at found
      · next same => exact absurd (same ▸ drawn) undrawn
      · exact held other found
  | removes gone =>
      rw [delete_found] at found
      split at found
      · cases found
      · exact held other found
  | changes changed change after keeps updated named =>
      rw [update_found source target changed id change keeps.id updated] at found
      split at found
      · next same =>
          subst same
          obtain ⟨before, here, rfl⟩ := Option.map_eq_some_iff.mp found
          exact keeps.same (held before here)
      · exact held other found
  | clears after cleared =>
      rw [Store.findById, checked_rows _ _ cleared, List.find?_map] at found
      obtain ⟨before, here, rfl⟩ := Option.map_eq_some_iff.mp found
      have same := held before here
      exact ⟨same.provider, same.apiKey⟩

/-- No command and no request changes what an account with a key is served with, as long as it
is not removed: a new key that `--reauthenticate` takes is stored and never used. -/
theorem keys_never_rotate (start final : Store) (trace : List (Store × Event × Store))
    (run : Run (Does (perform lowercase uppercase codec)) start trace final) (id : String)
    (row other : Account) (held : start.findById id = some row) (key : String)
    (keyed : Keyed row key) (undrawn : ∀ taken ∈ trace, taken.2.1.draws ≠ some id)
    (found : final.findById id = some other) (now : Int) :
    TokenManager.withoutRefresh other now = some (.ok key) ∧ key ≠ "" := by
  have initially : Unchanged id row start := by
    intro first here
    obtain rfl := Option.some.inj (held.symm.trans here)
    exact ⟨rfl, rfl⟩
  have unchanged := (run.along (Unchanged id row) (fun event => event.draws ≠ some id) initially
    (fun source event target here fresh moved =>
      writes_unchanged _ _ _ source target id row here fresh (step_writes source event target moved))
    undrawn).1
  exact ⟨keyed_credential keyed (unchanged other found) now, keyed.filled⟩

def keyedStore : Store :=
  ⟨[newAccount "1" "ann" "zai" 0 0 (some "old")], by decide, by decide⟩

/-- After its re-authentication the account has the new key and is served with the old one. -/
theorem new_key_unused : ∃ trace final other,
    Run (Does (perform Text.toAsciiLowercase id (JsonValue.Codec.ofTable []))) keyedStore trace
        final ∧
      final.findById "1" = some other ∧ other.accessToken = some "new" ∧
      TokenManager.withoutRefresh other 60 = some (.ok "old") := by
  obtain ⟨trace, final, run, events, held⟩ := @performed _ _ keyedStore
    (perform Text.toAsciiLowercase id (JsonValue.Codec.ofTable []))
    [.command (.reauthenticateAccount "ann" (some "new")) noFaults (clockAt 0 (by decide))
      fun _ => none]
    (fun store => (store.findById "1").any fun row => row.accessToken = some "new") (by decide)
  obtain ⟨other, found, token⟩ := (Option.any_eq_true _ _).mp held
  have undrawn : ∀ taken ∈ trace, taken.2.1.draws ≠ some "1" := by
    intro taken member
    rw [List.mem_singleton.mp (event_listed _ events taken member)]
    exact nofun
  exact ⟨trace, final, other, run, found, of_decide_eq_true token,
    (keys_never_rotate keyedStore final trace run "1" _ other rfl "old" ⟨by decide, rfl, by decide⟩
      undrawn found 60).1⟩

end Runs

end Ccflare.CommandLine
