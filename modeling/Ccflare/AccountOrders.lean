import Ccflare.AccountAdministration

/-!
What the account handlers do to the table over whole runs, between the statements of the
server itself. A request is refused and changes nothing, or it is accepted and the table
does what it asked for; so the settings of the accounts are those of the accepted requests,
played one after the other, and no accepted request brings in a setting out of range.
-/

namespace Ccflare.AccountOrders

open JsonValue CustomEndpoint AccountAdministration Transition

/-- What a request asks of the table. -/
inductive Order where
  | set (id : String) (setting : Setting)
  | create (account : Account)
  | delete (id : String)

def readOrder (codec : Codec) : Call → Option Order
  | .column route id body => ((route.handler codec).read body).toOption.map (Order.set id)
  | .create body id now =>
      (readNewAccount body).toOption.bind fun asked =>
        (readKey asked.mode body).toOption.map fun key =>
          Order.create (newAccount id asked.name asked.mode asked.priority now key)
  | .delete id => some (.delete id)

def obey (store : Store) : Order → Option Store
  | .set id setting => if (store.findById id).isSome then store.set id setting else none
  | .create account => store.create account
  | .delete id => if (store.delete id).2 then some (store.delete id).1 else none

/-- A change of the columns that no handler writes. -/
def serveRow (change : Account → Account) (row : Account) : Account :=
  { change row with
    id := row.id, name := row.name, provider := row.provider, apiKey := row.apiKey
    paused := row.paused, priority := row.priority
    autoFallbackEnabled := row.autoFallbackEnabled, autoRefreshEnabled := row.autoRefreshEnabled
    customEndpoint := row.customEndpoint, modelMappings := row.modelMappings
    reserve5h := row.reserve5h, reserveWeekly := row.reserveWeekly
    reserveHard := row.reserveHard, isShared := row.isShared
    overageProtection := row.overageProtection }

inductive Event where
  | call (call : Call) (fault : Fault)
  | serve (id : String) (change : Account → Account)

section Steps
variable (lowercase : String → String) (codec : Codec)

def perform (store : Store) : Event → Option Store
  | .call call fault => some (handle lowercase codec store fault call).1
  | .serve id change => store.update id (serveRow change)

abbrev Taken := Store × Event × Store

/-- The order of a request that was answered with a success. -/
def granted (taken : Taken) : Option Order :=
  match taken.2.1 with
  | .call call fault =>
      if (handle lowercase codec taken.1 fault call).2.accepted then readOrder codec call else none
  | .serve _ _ => none

end Steps

/-- The columns of an account that are set by requests. -/
structure Settings where
  name : String
  provider : String
  apiKey : Option String
  paused : Bool
  priority : Int
  autoFallback : Bool
  autoRefresh : Bool
  customEndpoint : Option String
  modelMappings : Option String
  reserve5h : Int
  reserveWeekly : Int
  reserveHard : Bool
  isShared : Bool
  overageProtection : Bool
  deriving DecidableEq

def settings (row : Account) : Settings where
  name := row.name
  provider := row.provider
  apiKey := row.apiKey
  paused := row.paused
  priority := row.priority
  autoFallback := row.autoFallbackEnabled
  autoRefresh := row.autoRefreshEnabled
  customEndpoint := row.customEndpoint
  modelMappings := row.modelMappings
  reserve5h := row.reserve5h
  reserveWeekly := row.reserveWeekly
  reserveHard := row.reserveHard
  isShared := row.isShared
  overageProtection := row.overageProtection

/-- The accounts as an operator thinks of them: settings by id. -/
abbrev View := String → Option Settings

def view (store : Store) : View := fun id => (store.findById id).map settings

def assign : Setting → Settings → Settings
  | .paused value, held => { held with paused := value }
  | .name value, held => { held with name := value }
  | .priority value, held => { held with priority := value }
  | .autoFallback value, held => { held with autoFallback := value }
  | .autoRefresh value, held => { held with autoRefresh := value }
  | .customEndpoint value, held => { held with customEndpoint := value }
  | .modelMappings value, held => { held with modelMappings := value }
  | .reserve5h value, held => { held with reserve5h := value }
  | .reserveWeekly value, held => { held with reserveWeekly := value }
  | .reserveHard value, held => { held with reserveHard := value }
  | .isShared value, held => { held with isShared := value }
  | .overageProtection value, held => { held with overageProtection := value }

def enact (held : View) : Order → View
  | .set id setting => fun other => if other = id then (held id).map (assign setting) else held other
  | .create account =>
      fun other => if other = account.id then some (settings account) else held other
  | .delete id => fun other => if other = id then none else held other

theorem settings_write (setting : Setting) (row : Account) :
    settings (setting.write row) = assign setting (settings row) := by
  cases setting <;> rfl

theorem write_id (setting : Setting) (row : Account) : (setting.write row).id = row.id := by
  cases setting <;> rfl

theorem checked_rows (rows : List Account) (store : Store)
    (kept : Store.checked rows = some store) : store.rows = rows := by
  unfold Store.checked at kept
  split at kept
  · cases kept
    rfl
  · cases kept

theorem update_rows (store after : Store) (id : String) (change : Account → Account)
    (updated : store.update id change = some after) :
    after.rows = store.rows.map fun row => if row.id = id then change row else row :=
  checked_rows _ _ updated

/-- An update that keeps the key is seen under its own id alone. -/
theorem update_found (store after : Store) (id other : String) (change : Account → Account)
    (sameId : ∀ row, (change row).id = row.id) (updated : store.update id change = some after) :
    after.findById other =
      if other = id then (store.findById id).map change else store.findById other := by
  rw [Store.findById, update_rows store after id change updated, List.find?_map]
  have keyOf : ((fun row : Account => decide (row.id = other)) ∘
      fun row => if row.id = id then change row else row) = fun row => decide (row.id = other) := by
    funext row
    by_cases here : row.id = id <;> simp [here, sameId]
  rw [keyOf]
  by_cases same : other = id
  · subst same
    rw [if_pos rfl]
    cases found : store.rows.find? fun row => decide (row.id = other) with
    | none => simp [Store.findById, found]
    | some row =>
        have here : row.id = other := by simpa using List.find?_some found
        simp [Store.findById, found, here]
  · rw [if_neg same]
    cases found : store.rows.find? fun row => decide (row.id = other) with
    | none => simp [Store.findById, found]
    | some row =>
        have there : row.id = other := by simpa using List.find?_some found
        simp [Store.findById, found, there, same]

theorem create_found (store after : Store) (account : Account) (other : String)
    (created : store.create account = some after) :
    after.findById other = if other = account.id then some account else store.findById other := by
  have rows := checked_rows _ _ created
  have distinct := after.keyed
  rw [rows, List.map_append, List.nodup_append] at distinct
  rw [Store.findById, rows, List.find?_append]
  by_cases same : other = account.id
  · have absent : store.rows.find? (fun row => decide (row.id = other)) = none := by
      rw [List.find?_eq_none]
      intro row member here
      exact distinct.2.2 row.id (List.mem_map_of_mem member) account.id (by simp)
        ((of_decide_eq_true here).trans same)
    rw [absent]
    simp [same]
  · have apart : ¬ account.id = other := fun here => same here.symm
    simp [Store.findById, same, apart]

theorem delete_found (store : Store) (id other : String) :
    (store.delete id).1.findById other = if other = id then none else store.findById other := by
  rw [Store.findById, Store.delete, List.find?_filter]
  by_cases same : other = id
  · rw [if_pos same, List.find?_eq_none]
    intro row _
    simp [same]
  · rw [if_neg same, Store.findById]
    congr 1
    funext row
    by_cases here : row.id = other <;> simp [here, same]

theorem set_found (store after : Store) (id other : String) (setting : Setting)
    (done : store.set id setting = some after) :
    after.findById other =
      if other = id then (store.findById id).map setting.write else store.findById other :=
  update_found store after id other setting.write (write_id setting) done

/-- An order that the table obeys is carried out on the settings, and nothing else is. -/
theorem obey_view (store after : Store) (asked : Order) (done : obey store asked = some after) :
    view after = enact (view store) asked := by
  funext other
  cases asked with
  | set id setting =>
      simp only [obey] at done
      split at done
      · rw [view, set_found store after id other setting done]
        by_cases same : other = id
        · have written : settings ∘ setting.write = assign setting ∘ settings :=
            funext (settings_write setting)
          simp only [enact, if_pos same, view, Option.map_map, written]
        · simp only [enact, if_neg same, view]
      · cases done
  | create account =>
      rw [view, create_found store after account other done]
      by_cases same : other = account.id
      · simp only [enact, if_pos same, Option.map_some]
      · simp only [enact, if_neg same, view]
  | delete id =>
      simp only [obey] at done
      split at done
      · cases done
        rw [view, delete_found]
        by_cases same : other = id
        · simp only [enact, if_pos same, Option.map_none]
        · simp only [enact, if_neg same, view]
      · cases done

theorem serve_view (store after : Store) (id : String) (change : Account → Account)
    (done : store.update id (serveRow change) = some after) : view after = view store := by
  funext other
  rw [view, update_found store after id other (serveRow change) (fun _ => rfl) done]
  split
  · rename_i same
    subst same
    rw [Option.map_map, view]
    rfl
  · rfl

/-- A handler refuses and changes nothing, or the table obeys what was asked of it. -/
def Answered (store after : Store) (answer : Answer) (asked : Option Order) : Prop :=
  answer.accepted = false ∧ after = store ∨
    answer.accepted = true ∧ ∃ order, asked = some order ∧ obey store order = some after

theorem refused (store : Store) (status : Nat) (message : String) (asked : Option Order)
    (failure : 300 ≤ status) : Answered store store (refuse status message) asked := by
  refine Or.inl ⟨?_, rfl⟩
  have large : ¬ status < 300 := by omega
  simp [Answer.accepted, refuse, large]

theorem conn_refuses (store : Store) (fault : Fault) (answer : Answer) (asked : Option Order)
    (failed : getConn fault = some answer) : Answered store store answer asked := by
  cases fault <;> cases failed <;> exact refused _ _ _ _ (by decide)

theorem write_answered (store : Store) (fault : Fault) (id : String) (setting : Setting)
    (failed : String) (done : Json) :
    Answered store (writeColumn store fault id setting failed done).1
      (writeColumn store fault id setting failed done).2 (some (.set id setting)) := by
  unfold writeColumn
  split
  · exact refused _ _ _ _ (by decide)
  · cases found : store.findById id with
    | none => exact refused _ _ _ _ (by decide)
    | some row =>
        dsimp only
        split
        · exact refused _ _ _ _ (by decide)
        · rename_i after written
          refine Or.inr ⟨rfl, _, rfl, ?_⟩
          split at written
          · cases written
          · simpa [obey, found] using written

/-- The answers to requests that could not be read. -/
def Unread (answer : Answer) : Prop := ∃ message, answer = refuse 400 message

theorem unread_refused (store : Store) (answer : Answer) (asked : Option Order)
    (unread : Unread answer) : Answered store store answer asked := by
  obtain ⟨message, rfl⟩ := unread
  exact refused _ _ _ _ (by decide)

theorem handler_answered (handler : Handler) (store : Store) (fault : Fault) (id : String)
    (body : Json) (unread : ∀ answer, handler.read body = .error answer → Unread answer) :
    Answered store (handler.run store fault id body).1 (handler.run store fault id body).2
      ((handler.read body).toOption.map (Order.set id)) := by
  unfold Handler.run
  split
  · rename_i answer failed
    exact conn_refuses store fault answer _ failed
  · cases asked : handler.read body with
    | error answer => exact unread_refused store answer _ (unread answer asked)
    | ok setting => exact write_answered store fault id setting _ _

theorem flag_unread (field : String) (setting : Bool → Setting) (body : Json) (answer : Answer)
    (failed : readFlag field setting body = .error answer) : Unread answer := by
  unfold readFlag at failed
  split at failed <;> cases failed
  exact ⟨_, rfl⟩

theorem percent_unread (setting : Int → Setting) (body : Json) (answer : Answer)
    (failed : readPercent setting body = .error answer) : Unread answer := by
  unfold readPercent at failed
  split at failed
  · split at failed <;> cases failed
    exact ⟨_, rfl⟩
  · cases failed
    exact ⟨_, rfl⟩

theorem route_unread (codec : Codec) (route : Route) (body : Json) (answer : Answer)
    (failed : (route.handler codec).read body = .error answer) : Unread answer := by
  cases route with
  | pause => cases failed
  | resume => cases failed
  | priority =>
      simp only [Route.handler, updatePriority] at failed
      split at failed
      · split at failed <;> cases failed
        exact ⟨_, rfl⟩
      · cases failed
        exact ⟨_, rfl⟩
  | rename =>
      simp only [Route.handler, renameAccount] at failed
      split at failed
      · split at failed <;> cases failed
        exact ⟨_, rfl⟩
      · cases failed
        exact ⟨_, rfl⟩
  | customEndpoint =>
      simp only [Route.handler, setCustomEndpoint] at failed
      split at failed
      · split at failed
        · cases failed
        · split at failed <;> cases failed
          exact ⟨_, rfl⟩
      · cases failed
  | modelMappings =>
      simp only [Route.handler, setModelMappings] at failed
      split at failed <;> cases failed
      exact ⟨_, rfl⟩
  | autoFallback => exact flag_unread _ _ body answer failed
  | autoRefresh => exact flag_unread _ _ body answer failed
  | reserveHard => exact flag_unread _ _ body answer failed
  | shared => exact flag_unread _ _ body answer failed
  | overageProtection => exact flag_unread _ _ body answer failed
  | reserve5h => exact percent_unread _ body answer failed
  | reserveWeekly => exact percent_unread _ body answer failed

theorem new_account_unread (body : Json) (answer : Answer)
    (failed : readNewAccount body = .error answer) : Unread answer := by
  unfold readNewAccount at failed
  split at failed
  · cases failed
    exact ⟨_, rfl⟩
  · split at failed
    · cases failed
      exact ⟨_, rfl⟩
    · split at failed
      · cases failed
        exact ⟨_, rfl⟩
      · split at failed
        · cases failed
          exact ⟨_, rfl⟩
        · dsimp only at failed
          split at failed <;> cases failed
          exact ⟨_, rfl⟩

theorem key_unread (mode : String) (body : Json) (answer : Answer)
    (failed : readKey mode body = .error answer) : Unread answer := by
  unfold readKey at failed
  split at failed
  · cases failed
  · split at failed
    · cases failed
      exact ⟨_, rfl⟩
    · split at failed <;> cases failed
      exact ⟨_, rfl⟩

theorem create_answered (lowercase : String → String) (codec : Codec) (store : Store)
    (fault : Fault) (body : Json) (id : String) (now : Int) :
    Answered store (createAccount lowercase store fault body id now).1
      (createAccount lowercase store fault body id now).2
      (readOrder codec (.create body id now)) := by
  unfold createAccount
  split
  · rename_i answer failed
    exact conn_refuses store fault answer _ failed
  · cases asked : readNewAccount body with
    | error answer => exact unread_refused store answer _ (new_account_unread body answer asked)
    | ok new =>
        dsimp only
        split
        · exact refused _ _ _ _ (by decide)
        · split
          · exact refused _ _ _ _ (by decide)
          · cases keyed : readKey new.mode body with
            | error answer =>
                exact unread_refused store answer _ (key_unread new.mode body answer keyed)
            | ok key =>
                dsimp only
                split
                · exact refused _ _ _ _ (by decide)
                · rename_i after written
                  refine Or.inr ⟨rfl, .create (newAccount id new.name new.mode new.priority now key),
                    ?_, ?_⟩
                  · simp [readOrder, asked, keyed, Except.toOption]
                  · split at written
                    · cases written
                    · exact written

theorem delete_answered (store : Store) (fault : Fault) (id : String) :
    Answered store (deleteAccount store fault id).1 (deleteAccount store fault id).2
      (some (.delete id)) := by
  unfold deleteAccount
  split
  · rename_i answer failed
    exact conn_refuses store fault answer _ failed
  · split
    · exact refused _ _ _ _ (by decide)
    · split
      · rename_i deleted
        exact Or.inr ⟨rfl, _, rfl, by simp [obey, deleted]⟩
      · exact refused _ _ _ _ (by decide)

theorem handle_answered (lowercase : String → String) (codec : Codec) (store : Store)
    (fault : Fault) (call : Call) :
    Answered store (handle lowercase codec store fault call).1
      (handle lowercase codec store fault call).2 (readOrder codec call) := by
  cases call with
  | column route id body =>
      exact handler_answered _ store fault id body (route_unread codec route body)
  | create body id now => exact create_answered lowercase codec store fault body id now
  | delete id => exact delete_answered store fault id

section Runs
variable (lowercase : String → String) (codec : Codec)

theorem step_view (store after : Store) (event : Event)
    (done : Does (perform lowercase codec) store event after) :
    view after =
      (granted lowercase codec (store, event, after)).toList.foldl enact (view store) := by
  cases event with
  | call call fault =>
      obtain rfl := Option.some.inj done
      rcases handle_answered lowercase codec store fault call with
        ⟨unaccepted, same⟩ | ⟨accepted, asked, read, obeyed⟩
      · simp [granted, unaccepted, same]
      · simp [granted, accepted, read, obey_view store _ asked obeyed]
  | serve id change => exact serve_view store after id change done

/-- The settings of the accounts after any run are those at its start with the accepted
requests carried out in their order: a refused request, a failure of the database and the
statements of the server leave every setting as it is. -/
theorem settings_follow_answers (start final : Store) (trace : List Taken)
    (run : Run (Does (perform lowercase codec)) start trace final) :
    view final = (trace.filterMap (granted lowercase codec)).foldl enact (view start) := by
  induction run with
  | nil => rfl
  | snoc _ taken ih =>
      rw [step_view lowercase codec _ _ _ taken, ih, List.filterMap_append, List.foldl_append]
      cases asked : granted lowercase codec _ <;> simp [asked]

end Runs

def noAccounts : Store := ⟨[], List.nodup_nil, List.nodup_nil⟩

/-- An account is created, one that is not there is renamed, and the new one is paused. -/
def newcomer : List Event :=
  [.call (.create (.make [("name", .string "main"), ("mode", .string "claude-oauth")]) "a" 0) .none,
    .call (.column .rename "b" (.make [("name", .string "other")])) .none,
    .call (.column .pause "a" .null) .none]

theorem newcomer_paused : ∃ trace final,
    Run (Does (perform id (Codec.ofTable []))) noAccounts trace final ∧
      (final.findById "a").map Account.paused = some true ∧
      view final = (trace.filterMap (granted id (Codec.ofTable []))).foldl enact (view noAccounts) := by
  obtain ⟨trace, final, run, -, paused⟩ := @performed _ _ noAccounts
    (perform id (Codec.ofTable [])) newcomer
    (fun store => (store.findById "a").map Account.paused == some true) (by decide +kernel)
  exact ⟨trace, final, run, by simpa using paused,
    settings_follow_answers id (Codec.ofTable []) noAccounts final trace run⟩

def Percent (value : Int) : Prop := 0 ≤ value ∧ value ≤ 100

def Named (text : String) : Prop :=
  text ≠ "" ∧ Text.trim text = text ∧ Text.byteLength text ≤ 100

/-- A URL with the https scheme and a host, and none of the hosts that are refused. -/
def Reachable (endpoint : String) : Prop :=
  ∃ parts : Parts, parts.render = endpoint ∧ parts.host ≠ "" ∧
    (External parts.host ∨ Overlooked parts.host)

def Endpoint (column : Option String) : Prop := ∀ endpoint, column = some endpoint → Reachable endpoint

def Mappings (codec : Codec) (column : Option String) : Prop :=
  ∀ text, column = some text → ∃ fields, text = codec.toString (.object fields)

/-- What the settings of every account keep to. -/
structure Sound (codec : Codec) (held : Settings) : Prop where
  priority : Percent held.priority
  reserve5h : Percent held.reserve5h
  reserveWeekly : Percent held.reserveWeekly
  name : Named held.name
  provider : held.provider ∈ validModes.map modeToProvider
  keyed : held.apiKey = none ↔ held.provider = "claude-oauth"
  key : ∀ key, held.apiKey = some key → key ≠ "" ∧ Text.trim key = key
  endpoint : Endpoint held.customEndpoint
  mappings : Mappings codec held.modelMappings

def SettingSound (codec : Codec) : Setting → Prop
  | .priority value | .reserve5h value | .reserveWeekly value => Percent value
  | .name value => Named value
  | .customEndpoint value => Endpoint value
  | .modelMappings value => Mappings codec value
  | .paused _ | .autoFallback _ | .autoRefresh _ | .reserveHard _ | .isShared _
  | .overageProtection _ => True

def OrderSound (codec : Codec) : Order → Prop
  | .set _ setting => SettingSound codec setting
  | .create account => Sound codec (settings account)
  | .delete _ => True

theorem assign_sound (codec : Codec) (setting : Setting) (held : Settings)
    (fits : SettingSound codec setting) (sound : Sound codec held) :
    Sound codec (assign setting held) := by
  cases setting with
  | priority value => exact { sound with priority := fits }
  | reserve5h value => exact { sound with reserve5h := fits }
  | reserveWeekly value => exact { sound with reserveWeekly := fits }
  | name value => exact { sound with name := fits }
  | customEndpoint value => exact { sound with endpoint := fits }
  | modelMappings value => exact { sound with mappings := fits }
  | paused value => exact { sound with }
  | autoFallback value => exact { sound with }
  | autoRefresh value => exact { sound with }
  | reserveHard value => exact { sound with }
  | isShared value => exact { sound with }
  | overageProtection value => exact { sound with }

theorem valid_name_named (name : String) (valid : validName name = true) :
    Named (Text.trim name) := by
  simp only [validName, Bool.and_eq_true, decide_eq_true_eq] at valid
  exact ⟨valid.1, Text.trim_trim name, (Text.trim_bytes_le name).trans valid.2⟩

theorem accepted_reachable (url endpoint : String)
    (accepted : validateCustomEndpoint url = .ok endpoint) : Reachable endpoint := by
  obtain ⟨-, scheme, named, outside⟩ := accepted_host accepted
  obtain ⟨parts, rfl⟩ := rendered endpoint scheme
  rw [host_of_render] at named outside
  refine ⟨parts, rfl, named, ?_⟩
  by_cases overlooked : Overlooked parts.host
  · exact Or.inr overlooked
  · exact Or.inl ((external_iff outside).mpr overlooked)

section Bodies
variable (codec : Codec) (body : Json)

def AsksFlag (field : String) (setting : Bool → Setting) (asked : Setting) : Prop :=
  ∃ flag, body.get field = some (.bool flag) ∧ asked = setting flag

def AsksPercent (field : String) (setting : Int → Setting) (asked : Setting) : Prop :=
  ∃ value, (body.get field).bind Json.asI64 = some value ∧ Percent value ∧ asked = setting value

def AsksEndpoint (asked : Setting) : Prop :=
  (∀ text, body.getStr "endpoint" = some text → Text.trim text = "") ∧ asked = .customEndpoint none ∨
    ∃ text, body.getStr "endpoint" = some text ∧
      Reachable (Text.trimEndMatches '/' (Text.trim text)) ∧
      asked = .customEndpoint (some (Text.trimEndMatches '/' (Text.trim text)))

def AsksMappings (asked : Setting) : Prop :=
  (body.get "mappings" = none ∨ body.get "mappings" = some .null) ∧ asked = .modelMappings none ∨
    ∃ fields, body.get "mappings" = some (.object fields) ∧
      asked = .modelMappings (some (codec.toString (.object fields)))

/-- What the body of a request asks for, route by route. -/
def Asks : Route → Setting → Prop
  | .pause => (· = .paused true)
  | .resume => (· = .paused false)
  | .priority => AsksPercent body "priority" .priority
  | .rename =>
      fun asked => ∃ name, body.getStr "name" = some name ∧ Named (Text.trim name) ∧
        asked = .name (Text.trim name)
  | .autoFallback => AsksFlag body "enabled" .autoFallback
  | .autoRefresh => AsksFlag body "enabled" .autoRefresh
  | .customEndpoint => AsksEndpoint body
  | .modelMappings => AsksMappings codec body
  | .reserve5h => AsksPercent body "percent" .reserve5h
  | .reserveWeekly => AsksPercent body "percent" .reserveWeekly
  | .reserveHard => AsksFlag body "enabled" .reserveHard
  | .shared => AsksFlag body "shared" .isShared
  | .overageProtection => AsksFlag body "enabled" .overageProtection

variable {codec body} {read : Setting}

theorem percent_asks (setting : Int → Setting) (done : readPercent setting body = .ok read) :
    AsksPercent body "percent" setting read := by
  unfold readPercent at done
  split at done
  · rename_i value sent
    split at done <;> cases done
    exact ⟨value, sent, by assumption, rfl⟩
  · cases done

theorem flag_asks (field : String) (setting : Bool → Setting)
    (done : readFlag field setting body = .ok read) : AsksFlag body field setting read := by
  unfold readFlag at done
  split at done <;> cases done
  rename_i flag sent
  obtain ⟨value, there, isFlag⟩ := Option.bind_eq_some_iff.mp sent
  cases value <;> cases isFlag
  exact ⟨flag, there, rfl⟩

theorem endpoint_asks (done : setCustomEndpoint.read body = .ok read) : AsksEndpoint body read := by
  simp only [setCustomEndpoint] at done
  cases sent : body.getStr "endpoint" with
  | none =>
      simp only [sent, Option.map_none] at done
      cases done
      exact Or.inl ⟨by simp [sent], rfl⟩
  | some text =>
      simp only [sent, Option.map_some] at done
      split at done
      · rename_i blank
        cases done
        refine Or.inl ⟨?_, rfl⟩
        rintro _ same
        obtain rfl := Option.some.inj (sent.symm.trans same)
        simpa using blank
      · split at done <;> cases done
        rename_i endpoint accepted
        have reachable := accepted_reachable _ _ accepted
        obtain ⟨rfl, -⟩ := accepted_host accepted
        rw [Text.trim_trim] at reachable ⊢
        exact Or.inr ⟨text, sent, reachable, rfl⟩

theorem mappings_asks (done : (setModelMappings codec).read body = .ok read) :
    AsksMappings codec body read := by
  simp only [setModelMappings] at done
  split at done <;> cases done
  · rename_i fields sent
    exact Or.inr ⟨fields, sent, rfl⟩
  · rename_i null
    exact Or.inl ⟨Or.inr null, rfl⟩
  · rename_i absent
    exact Or.inl ⟨Or.inl absent, rfl⟩

/-- A handler sets what the body of its request asks for. -/
theorem route_asks (route : Route) (done : (route.handler codec).read body = .ok read) :
    Asks codec body route read := by
  cases route with
  | pause => exact (Except.ok.inj done).symm
  | resume => exact (Except.ok.inj done).symm
  | priority =>
      simp only [Route.handler, updatePriority] at done
      split at done
      · rename_i value sent
        split at done <;> cases done
        exact ⟨value, sent, by assumption, rfl⟩
      · cases done
  | rename =>
      simp only [Route.handler, renameAccount] at done
      split at done
      · rename_i name sent
        split at done <;> cases done
        exact ⟨name, sent, valid_name_named _ (by assumption), rfl⟩
      · cases done
  | customEndpoint => exact endpoint_asks done
  | modelMappings => exact mappings_asks done
  | autoFallback => exact flag_asks "enabled" .autoFallback done
  | autoRefresh => exact flag_asks "enabled" .autoRefresh done
  | reserveHard => exact flag_asks "enabled" .reserveHard done
  | shared => exact flag_asks "shared" .isShared done
  | overageProtection => exact flag_asks "enabled" .overageProtection done
  | reserve5h => exact percent_asks .reserve5h done
  | reserveWeekly => exact percent_asks .reserveWeekly done

end Bodies

theorem asks_sound (codec : Codec) (body : Json) (route : Route) (asked : Setting)
    (asks : Asks codec body route asked) : SettingSound codec asked := by
  cases route with
  | pause | resume =>
      obtain rfl := asks
      trivial
  | autoFallback | autoRefresh | reserveHard | shared | overageProtection =>
      obtain ⟨flag, -, rfl⟩ := asks
      trivial
  | priority | reserve5h | reserveWeekly =>
      obtain ⟨value, -, bounds, rfl⟩ := asks
      exact bounds
  | rename =>
      obtain ⟨name, -, named, rfl⟩ := asks
      exact named
  | customEndpoint =>
      rcases asks with ⟨-, rfl⟩ | ⟨text, -, reachable, rfl⟩
      · exact fun _ absent => nomatch absent
      · intro endpoint same
        exact Option.some.inj same ▸ reachable
  | modelMappings =>
      rcases asks with ⟨-, rfl⟩ | ⟨fields, -, rfl⟩
      · exact fun _ absent => nomatch absent
      · rintro text ⟨⟩
        exact ⟨_, rfl⟩

theorem new_account_read (body : Json) (asked : NewAccount)
    (done : readNewAccount body = .ok asked) :
    Named asked.name ∧ asked.mode ∈ validModes ∧ Percent asked.priority := by
  unfold readNewAccount at done
  split at done
  · cases done
  · split at done
    · cases done
    · rename_i name _ valid
      split at done
      · cases done
      · split at done
        · cases done
        · rename_i mode _ known
          dsimp only at done
          split at done
          · cases done
          · rename_i bounded
            cases done
            exact ⟨valid_name_named name (by simpa using valid), by simpa using known,
              by simpa [Percent] using bounded⟩

theorem key_read (mode : String) (body : Json) (key : Option String)
    (done : readKey mode body = .ok key) :
    (key = none ↔ mode = "claude-oauth") ∧
      ∀ text, key = some text → text ≠ "" ∧ Text.trim text = text := by
  unfold readKey at done
  split at done
  · rename_i oauth
    cases done
    exact ⟨by simp [oauth], by simp⟩
  · rename_i other
    cases sent : body.getStr "api_key" with
    | none => simp [sent] at done
    | some text =>
        simp only [sent, Option.map_some] at done
        split at done
        · cases done
        · rename_i filled
          cases done
          refine ⟨by simp [other], ?_⟩
          rintro _ ⟨⟩
          exact ⟨filled, Text.trim_trim text⟩

theorem provider_oauth (mode : String) :
    mode = "claude-oauth" ↔ modeToProvider mode = "claude-oauth" := by
  unfold modeToProvider
  split
  · rename_i console
    simp [console]
  · rfl

theorem read_order_sound (codec : Codec) (call : Call) (asked : Order)
    (read : readOrder codec call = some asked) : OrderSound codec asked := by
  cases call with
  | column route id body =>
      simp only [readOrder] at read
      cases done : (route.handler codec).read body with
      | error answer => simp [done, Except.toOption] at read
      | ok setting =>
          simp only [done, Except.toOption, Option.map_some, Option.some.injEq] at read
          subst read
          exact asks_sound codec body route setting (route_asks route done)
  | create body id now =>
      simp only [readOrder] at read
      cases done : readNewAccount body with
      | error answer => simp [done, Except.toOption] at read
      | ok new =>
          cases keyed : readKey new.mode body with
          | error answer => simp [done, keyed, Except.toOption] at read
          | ok key =>
              simp only [done, keyed, Except.toOption, Option.bind_some, Option.map_some,
                Option.some.injEq] at read
              subst read
              obtain ⟨named, known, bounded⟩ := new_account_read body new done
              obtain ⟨oauth, filled⟩ := key_read new.mode body key keyed
              exact
                { priority := bounded
                  reserve5h := (⟨le_rfl, by decide⟩ : Percent 0)
                  reserveWeekly := (⟨le_rfl, by decide⟩ : Percent 0)
                  name := named
                  provider := List.mem_map_of_mem known
                  keyed := oauth.trans (provider_oauth new.mode)
                  key := filled
                  endpoint := fun _ absent => nomatch absent
                  mappings := fun _ absent => nomatch absent }
  | delete id =>
      cases read
      trivial

def AllSound (codec : Codec) (held : View) : Prop :=
  ∀ id accountSettings, held id = some accountSettings → Sound codec accountSettings

theorem enact_sound (codec : Codec) (held : View) (asked : Order) (fits : OrderSound codec asked)
    (sound : AllSound codec held) : AllSound codec (enact held asked) := by
  intro other found here
  cases asked with
  | set id setting =>
      simp only [enact] at here
      split at here
      · obtain ⟨before, there, rfl⟩ := Option.map_eq_some_iff.mp here
        exact assign_sound codec setting before fits (sound id before there)
      · exact sound other found here
  | create account =>
      simp only [enact] at here
      split at here
      · cases here
        exact fits
      · exact sound other found here
  | delete id =>
      simp only [enact] at here
      split at here
      · cases here
      · exact sound other found here

theorem rows_viewed (store : Store) (row : Account) (member : row ∈ store.rows) :
    view store row.id = some (settings row) := by
  have found : store.findById row.id = some row := by
    cases first : store.findById row.id with
    | none =>
        have missed := List.find?_eq_none.mp first row member
        simp at missed
    | some other =>
        have same : other.id = row.id := by simpa using List.find?_some first
        rw [List.inj_on_of_nodup_map store.keyed (List.mem_of_find?_eq_some first) member same]
  simp [view, found]

theorem all_sound_iff (codec : Codec) (store : Store) :
    AllSound codec (view store) ↔ ∀ row ∈ store.rows, Sound codec (settings row) := by
  constructor
  · intro sound row member
    exact sound row.id _ (rows_viewed store row member)
  · intro sound id held found
    obtain ⟨row, there, rfl⟩ := Option.map_eq_some_iff.mp found
    exact sound row (List.mem_of_find?_eq_some there)

/-- Whatever is requested of the account routes and however the database fails, the settings
of every account stay within what the checks of the handlers promise. -/
theorem accounts_stay_sound (lowercase : String → String) (codec : Codec) (start final : Store)
    (trace : List Taken) (run : Run (Does (perform lowercase codec)) start trace final)
    (sound : ∀ row ∈ start.rows, Sound codec (settings row)) :
    ∀ row ∈ final.rows, Sound codec (settings row) := by
  rw [← all_sound_iff] at sound ⊢
  apply run.invariant (fun store => AllSound codec (view store)) sound
  intro source event target held taken
  rw [step_view lowercase codec source target event taken]
  cases asked : granted lowercase codec (source, event, target) with
  | none => exact held
  | some order =>
      apply enact_sound codec (view source) order ?_ held
      cases event with
      | call call fault =>
          simp only [granted] at asked
          split at asked
          · exact read_order_sound codec call order asked
          · cases asked
      | serve id change => cases asked

theorem newcomer_sound : ∃ trace final,
    Run (Does (perform id (Codec.ofTable []))) noAccounts trace final ∧
      final.rows.map Account.paused = [true] ∧
      ∀ row ∈ final.rows, Sound (Codec.ofTable []) (settings row) := by
  obtain ⟨trace, final, run, -, paused⟩ := @performed _ _ noAccounts
    (perform id (Codec.ofTable [])) newcomer
    (fun store => store.rows.map Account.paused == [true]) (by decide +kernel)
  exact ⟨trace, final, run, by simpa using paused,
    accounts_stay_sound id (Codec.ofTable []) noAccounts final trace run (by simp [noAccounts])⟩

end Ccflare.AccountOrders
