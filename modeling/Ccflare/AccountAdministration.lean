import Ccflare.Account
import Ccflare.CustomEndpoint
import Ccflare.JsonValue
import Ccflare.StableSort
import Ccflare.Transition

/-!
The handlers that manage accounts, over the table they write. A request is read first, then
the account is looked up, then one statement is run; the database may fail at every one of
these points. The statements keep the key of the table and its unique names.
-/

namespace Ccflare.AccountAdministration

open JsonValue CustomEndpoint StableSort

/-- The `accounts` table: `id` is its key and `name` is unique. -/
structure Store where
  rows : List Account
  keyed : (rows.map Account.id).Nodup
  named : (rows.map Account.name).Nodup

/-- A statement that breaks a constraint fails. -/
def Store.checked (rows : List Account) : Option Store :=
  if kept : (rows.map Account.id).Nodup ∧ (rows.map Account.name).Nodup then
    some ⟨rows, kept.1, kept.2⟩
  else none

def Store.findById (store : Store) (id : String) : Option Account :=
  store.rows.find? fun row => row.id = id

def Store.findAll (store : Store) : List Account := sortByKey Account.priority store.rows

def Store.update (store : Store) (id : String) (change : Account → Account) : Option Store :=
  checked (store.rows.map fun row => if row.id = id then change row else row)

def Store.create (store : Store) (account : Account) : Option Store :=
  checked (store.rows ++ [account])

def Store.delete (store : Store) (id : String) : Store × Bool :=
  (⟨store.rows.filter fun row => row.id ≠ id,
    store.keyed.sublist (List.filter_sublist.map _),
    store.named.sublist (List.filter_sublist.map _)⟩,
    store.rows.any fun row => row.id = id)

/-- The columns the handlers write. -/
inductive Setting where
  | paused (value : Bool)
  | name (value : String)
  | priority (value : Int)
  | autoFallback (value : Bool)
  | autoRefresh (value : Bool)
  | customEndpoint (value : Option String)
  | modelMappings (value : Option String)
  | reserve5h (value : Int)
  | reserveWeekly (value : Int)
  | reserveHard (value : Bool)
  | isShared (value : Bool)
  | overageProtection (value : Bool)
  deriving DecidableEq

def Setting.write : Setting → Account → Account
  | .paused value, row => { row with paused := value }
  | .name value, row => { row with name := value }
  | .priority value, row => { row with priority := value }
  | .autoFallback value, row => { row with autoFallbackEnabled := value }
  | .autoRefresh value, row => { row with autoRefreshEnabled := value }
  | .customEndpoint value, row => { row with customEndpoint := value }
  | .modelMappings value, row => { row with modelMappings := value }
  | .reserve5h value, row => { row with reserve5h := value }
  | .reserveWeekly value, row => { row with reserveWeekly := value }
  | .reserveHard value, row => { row with reserveHard := value }
  | .isShared value, row => { row with isShared := value }
  | .overageProtection value, row => { row with overageProtection := value }

def Store.set (store : Store) (id : String) (setting : Setting) : Option Store :=
  store.update id setting.write

/-- What of the database fails during a request. -/
inductive Fault where
  | none
  | unconfigured
  | unavailable
  | lookup
  | statement
  deriving DecidableEq

structure Answer where
  status : Nat
  body : Json
  deriving DecidableEq

def Answer.accepted (answer : Answer) : Bool :=
  decide (200 ≤ answer.status) && decide (answer.status < 300)

def refuse (status : Nat) (message : String) : Answer :=
  ⟨status, .make [("error", .string message)]⟩

/-- `get_conn!`, which every handler begins with. -/
def getConn : Fault → Option Answer
  | .unconfigured => some (refuse 500 "Database not configured")
  | .unavailable => some (refuse 500 "Database unavailable")
  | .none | .lookup | .statement => Option.none

/-- The path the handlers of one column share, after the request was read. -/
def writeColumn (store : Store) (fault : Fault) (id : String) (setting : Setting)
    (failed : String) (done : Json) : Store × Answer :=
  if fault = .lookup then (store, refuse 500 "Database error")
  else match store.findById id with
    | none => (store, refuse 404 "Account not found")
    | some _ =>
        match if fault = .statement then none else store.set id setting with
        | none => (store, refuse 500 failed)
        | some after => (after, ⟨200, done⟩)

/-- A handler of one column: what it reads off the body, and what it says when its
statement failed and when it is done. -/
structure Handler where
  read : Json → Except Answer Setting
  failed : String
  done : Setting → Json

def Handler.run (handler : Handler) (store : Store) (fault : Fault) (id : String) (body : Json) :
    Store × Answer :=
  match getConn fault with
  | some answer => (store, answer)
  | none =>
      match handler.read body with
      | .error answer => (store, answer)
      | .ok setting => writeColumn store fault id setting handler.failed (handler.done setting)

def success (fields : List (String × Json)) : Json := .make (("success", .bool true) :: fields)

def ofText (text : Option String) : Json := text.elim .null .string

/-- The value of a setting, as the answer repeats it. -/
def Setting.shown : Setting → Json
  | .paused value | .autoFallback value | .autoRefresh value | .reserveHard value
  | .isShared value | .overageProtection value => .bool value
  | .priority value | .reserve5h value | .reserveWeekly value => Json.ofInt value
  | .name value => .string value
  | .customEndpoint value | .modelMappings value => ofText value

def pauseAccount : Handler where
  read _ := .ok (.paused true)
  failed := "Failed to pause account"
  done _ := success []

def resumeAccount : Handler where
  read _ := .ok (.paused false)
  failed := "Failed to resume account"
  done _ := success []

def updatePriority : Handler where
  read body :=
    match (body.get "priority").bind Json.asI64 with
    | some priority =>
        if 0 ≤ priority ∧ priority ≤ 100 then .ok (.priority priority)
        else .error (refuse 400 "Priority must be between 0 and 100")
    | none => .error (refuse 400 "Priority is required and must be an integer")
  failed := "Failed to update priority"
  done setting := success [("priority", setting.shown)]

/-- The length is that of the text as it was sent, in bytes. -/
def validName (name : String) : Bool :=
  Text.trim name ≠ "" && decide (Text.byteLength name ≤ 100)

def renameAccount : Handler where
  read body :=
    match body.getStr "name" with
    | some name =>
        if validName name then .ok (.name (Text.trim name))
        else .error (refuse 400 "Name must be 1-100 characters")
    | none => .error (refuse 400 "Name is required")
  failed := "Failed to rename account"
  done setting := success [("name", setting.shown)]

def readFlag (field : String) (setting : Bool → Setting) (body : Json) : Except Answer Setting :=
  match (body.get field).bind Json.asBool with
  | some flag => .ok (setting flag)
  | none => .error (refuse 400 (field ++ " (boolean) is required"))

/-- A handler that switches a column on or off. -/
def toggle (field : String) (setting : Bool → Setting) (failed : String) : Handler where
  read := readFlag field setting
  failed := failed
  done setting := success [(field, setting.shown)]

def setAutoFallback : Handler :=
  toggle "enabled" .autoFallback "Failed to update auto-fallback"

def setAutoRefresh : Handler := toggle "enabled" .autoRefresh "Failed to update auto-refresh"

def setReserveHard : Handler := toggle "enabled" .reserveHard "Failed to update reserve hard"

def setIsShared : Handler := toggle "shared" .isShared "Failed to update shared status"

def setOverageProtection : Handler :=
  toggle "enabled" .overageProtection "Failed to update overage protection"

def readPercent (setting : Int → Setting) (body : Json) : Except Answer Setting :=
  match (body.get "percent").bind Json.asI64 with
  | some percent =>
      if 0 ≤ percent ∧ percent ≤ 100 then .ok (setting percent)
      else .error (refuse 400 "percent must be an integer 0-100")
  | none => .error (refuse 400 "percent (integer 0-100) is required")

def reserve (setting : Int → Setting) (failed : String) : Handler where
  read := readPercent setting
  failed := failed
  done setting := success [("percent", setting.shown)]

def setReserve5h : Handler := reserve .reserve5h "Failed to update reserve 5h"

def setReserveWeekly : Handler := reserve .reserveWeekly "Failed to update reserve weekly"

def setCustomEndpoint : Handler where
  -- No endpoint and an empty one both clear the column.
  read body :=
    match (body.getStr "endpoint").map Text.trim with
    | some endpoint =>
        if endpoint.isEmpty then .ok (.customEndpoint none)
        else match validateCustomEndpoint endpoint with
          | .ok validated => .ok (.customEndpoint (some validated))
          | .error error => .error (refuse 400 error.message)
    | none => .ok (.customEndpoint none)
  failed := "Failed to update custom endpoint"
  done setting := success [("endpoint", setting.shown)]

def setModelMappings (codec : Codec) : Handler where
  read body :=
    match body.get "mappings" with
    | some (.object fields) => .ok (.modelMappings (some (codec.toString (.object fields))))
    | some .null | none => .ok (.modelMappings none)
    | some _ => .error (refuse 400 "mappings must be an object or null")
  failed := "Failed to update model mappings"
  done _ := success []

def validModes : List String :=
  ["claude-oauth", "console", "zai", "minimax", "nanogpt", "anthropic-compatible",
    "openai-compatible", "vertex-ai"]

def modeToProvider (mode : String) : String :=
  if mode = "console" then "claude-console-api" else mode

/-- An account as `create_account` builds it; an API key is its own access token for
thirty days. -/
def newAccount (id name mode : String) (priority now : Int) (key : Option String) : Account where
  id := id
  name := name
  provider := modeToProvider mode
  apiKey := key
  refreshToken := ""
  accessToken := key
  expiresAt := key.map fun _ => now + 30 * 24 * 60 * 60 * 1000
  requestCount := 0
  totalRequests := 0
  lastUsed := none
  createdAt := now
  rateLimitedUntil := none
  sessionStart := none
  sessionRequestCount := 0
  paused := false
  rateLimitReset := none
  rateLimitStatus := none
  rateLimitRemaining := none
  priority := priority
  autoFallbackEnabled := true
  autoRefreshEnabled := true
  customEndpoint := none
  modelMappings := none
  reserve5h := 0
  reserveWeekly := 0
  reserveHard := false
  subscriptionTier := none
  email := none
  refreshTokenUpdatedAt := none
  isShared := false
  overageProtection := true

/-- What `create_account` reads off its body, in the order of its checks. -/
structure NewAccount where
  name : String
  mode : String
  priority : Int

def readNewAccount (body : Json) : Except Answer NewAccount :=
  match body.getStr "name" with
  | none => .error (refuse 400 "name is required (1-100 characters)")
  | some name =>
      if ¬ validName name then .error (refuse 400 "name is required (1-100 characters)")
      else match body.getStr "mode" with
        | none =>
            .error (refuse 400 ("mode is required. Valid modes: " ++
              Text.joinWith ", " validModes))
        | some mode =>
            if mode ∉ validModes then
              .error (refuse 400 ("Invalid mode: '" ++ mode ++ "'. Valid modes: " ++
                Text.joinWith ", " validModes))
            else
              let priority := ((body.get "priority").bind Json.asI64).getD 0
              if ¬ (0 ≤ priority ∧ priority ≤ 100) then
                .error (refuse 400 "Priority must be between 0 and 100")
              else .ok ⟨Text.trim name, mode, priority⟩

/-- The key an account of this mode is created with; OAuth accounts have none. -/
def readKey (mode : String) (body : Json) : Except Answer (Option String) :=
  if mode = "claude-oauth" then .ok none
  else
    match (body.getStr "api_key").map Text.trim with
    | none => .error (refuse 400 ("API key is required for '" ++ mode ++ "' accounts"))
    | some key =>
        if key = "" then .error (refuse 400 ("API key is required for '" ++ mode ++ "' accounts"))
        else .ok (some key)

def createdMessage (name mode : String) : String :=
  "Account '" ++ name ++ "' created (" ++ modeToProvider mode ++ ")" ++
    if mode = "claude-oauth" then
      ". Run `better-ccflare --reauthenticate " ++ name ++ "` to complete OAuth setup."
    else ""

section Handlers
-- `to_lowercase` of a text, and how documents are printed.
variable (lowercase : String → String) (codec : Codec)

/-- `create_account`, with the id and the time it draws. Names that differ in case only
are duplicates here. -/
def createAccount (store : Store) (fault : Fault) (body : Json) (id : String) (now : Int) :
    Store × Answer :=
  match getConn fault with
  | some answer => (store, answer)
  | none =>
      match readNewAccount body with
      | .error answer => (store, answer)
      | .ok asked =>
          if fault = .lookup then (store, refuse 500 "Database error")
          else if store.rows.any fun row => lowercase row.name = lowercase asked.name then
            (store, refuse 409 ("Account '" ++ asked.name ++ "' already exists"))
          else match readKey asked.mode body with
            | .error answer => (store, answer)
            | .ok key =>
                let account := newAccount id asked.name asked.mode asked.priority now key
                match if fault = .statement then none else store.create account with
                | none => (store, refuse 500 "Failed to create account")
                | some after =>
                    (after, ⟨201, success [("id", .string id),
                      ("message", .string (createdMessage asked.name asked.mode))]⟩)

/-- A delete fails as a statement where other rows still refer to the account. -/
def deleteAccount (store : Store) (fault : Fault) (id : String) : Store × Answer :=
  match getConn fault with
  | some answer => (store, answer)
  | none =>
      if fault = .statement ∨ fault = .lookup then
        (store, refuse 500 "Failed to delete account")
      else if (store.delete id).2 then ((store.delete id).1, ⟨200, success []⟩)
      else (store, refuse 404 "Account not found")

/-- The routes that write accounts. -/
inductive Route where
  | pause
  | resume
  | priority
  | rename
  | autoFallback
  | autoRefresh
  | customEndpoint
  | modelMappings
  | reserve5h
  | reserveWeekly
  | reserveHard
  | shared
  | overageProtection
  deriving DecidableEq

def Route.handler : Route → Handler
  | .pause => pauseAccount
  | .resume => resumeAccount
  | .priority => updatePriority
  | .rename => renameAccount
  | .autoFallback => setAutoFallback
  | .autoRefresh => setAutoRefresh
  | .customEndpoint => setCustomEndpoint
  | .modelMappings => setModelMappings codec
  | .reserve5h => setReserve5h
  | .reserveWeekly => setReserveWeekly
  | .reserveHard => setReserveHard
  | .shared => setIsShared
  | .overageProtection => setOverageProtection

inductive Call where
  | column (route : Route) (id : String) (body : Json)
  | create (body : Json) (id : String) (now : Int)
  | delete (id : String)

def handle (store : Store) (fault : Fault) : Call → Store × Answer
  | .column route id body => (route.handler codec).run store fault id body
  | .create body id now => createAccount lowercase store fault body id now
  | .delete id => deleteAccount store fault id

end Handlers

end Ccflare.AccountAdministration
