import Ccflare.AccountOrders
import Ccflare.Routing
import Ccflare.SnapshotCache

/-!
The list of accounts a proxied request is routed over comes from a cache of a few seconds
beside the table that the account handlers write. An account that was paused is out of every
plan once the cache had the time to notice.
-/

namespace Ccflare.AccountsCache

open AccountAdministration AccountOrders Transition LoadBalancer Routing StableSort
open SnapshotCache (System Cold Prompt ReadAt served)

def accountsCacheTtlSecs : Nat := 5

/-- `fetched_at.elapsed().as_secs() < ACCOUNTS_CACHE_TTL_SECS`, on a clock of milliseconds. -/
def cacheValid (age : Nat) : Bool := decide (age / 1000 < accountsCacheTtlSecs)

abbrev Proxy := System Store (List Account)

abbrev ProxyEvent := SnapshotCache.Event AccountOrders.Event

abbrev Taken := SnapshotCache.Taken Store AccountOrders.Event (List Account)

section Runs
variable (lowercase : String → String) (codec : JsonValue.Codec)

/-- The steps of `get_accounts_cached` for any number of requests, beside the changes of the
table. -/
def perform : Proxy → ProxyEvent → Option Proxy :=
  SnapshotCache.perform (AccountOrders.perform lowercase codec) Store.findAll cacheValid

/-- The order a step of the table carried out. -/
def asked (taken : Taken) : Option Order :=
  match taken.2.1 with
  | .change event => granted lowercase codec (taken.1.source, event, taken.2.2.source)
  | _ => none

end Runs

/-- The orders after which an account may be found unpaused. -/
def Revives (id : String) : Order → Prop
  | .set other (.paused false) => other = id
  | .create account => account.id = id
  | _ => False

def PausedIn (id : String) (held : View) : Prop :=
  ∀ accountSettings, held id = some accountSettings → accountSettings.paused = true

theorem enact_keeps_paused (id : String) (held : View) (order : Order)
    (quiet : ¬ Revives id order) (paused : PausedIn id held) : PausedIn id (enact held order) := by
  intro found here
  cases order with
  | set other setting =>
      simp only [enact] at here
      split at here
      · rename_i same
        subst same
        obtain ⟨before, there, rfl⟩ := Option.map_eq_some_iff.mp here
        have kept := paused before there
        cases setting with
        | paused value =>
            cases value with
            | true => rfl
            | false => exact absurd rfl quiet
        | _ => exact kept
      · exact paused found here
  | create account =>
      simp only [enact] at here
      split at here
      · rename_i same
        exact absurd same.symm quiet
      · exact paused found here
  | delete other =>
      simp only [enact] at here
      split at here
      · cases here
      · exact paused found here

theorem enact_pauses (id : String) (held : View) :
    PausedIn id (enact held (.set id (.paused true))) := by
  intro found here
  simp only [enact, if_true] at here
  obtain ⟨before, -, rfl⟩ := Option.map_eq_some_iff.mp here
  rfl

/-- What a table read back lists of an account that is paused in it. -/
theorem find_all_paused (id : String) (store : Store) (paused : PausedIn id (view store)) :
    ∀ account ∈ store.findAll, account.id = id → account.paused = true := by
  rintro account member rfl
  have row : account ∈ store.rows := (mem_sort_by_key Account.priority store.rows account).mp member
  exact paused _ (rows_viewed store account row)

theorem paused_unavailable (account : Account) (usage : UsageMap) (now : Int)
    (paused : account.paused = true) : ¬ Available usage now account := by
  intro available
  have unpaused := ((Eligibility.routable_iff account usage now).mp available).1
  simp [paused] at unpaused

/-- An account that cannot be routed to is in no plan, forced or not. -/
theorem select_leaves_out (strategy : SessionStrategy) (accounts : List Account)
    (usage : UsageMap) (sel : SelectionMeta) (now : Int) (id : String)
    (unavailable : ∀ account ∈ accounts, account.id = id → ¬ Available usage now account) :
    id ∉ (select strategy accounts usage sel now).accounts.map Account.id := by
  intro planned
  by_cases free : sel.forceAccountStrict = false ∨ forcedAccount accounts sel = none
  · have cover := select_covers strategy accounts usage sel now free
    obtain ⟨account, member, same, available⟩ := (cover.exact id).mp planned
    exact unavailable account member same available
  · obtain ⟨strict, forced⟩ := not_or.mp free
    obtain ⟨account, found⟩ := Option.ne_none_iff_exists'.mp forced
    rw [select_strict strategy accounts usage sel now account (by simpa using strict) found]
      at planned
    split at planned
    · rename_i available
      have same : id = account.id := by
        simpa [choose_id strategy sel account now] using planned
      exact unavailable account (forced_mem accounts sel account found).1 same.symm available
    · simp at planned

section Runs
variable {lowercase : String → String} {codec : JsonValue.Codec} {start final : Proxy}
  {trace : List Taken}

/-- Steps that revive nobody keep an account paused. -/
theorem stays_paused (id : String) (paused : PausedIn id (view start.source))
    (run : Run (Does (perform lowercase codec)) start trace final)
    (quiet : ∀ taken ∈ trace, ∀ order, asked lowercase codec taken = some order →
      ¬ Revives id order) :
    ∀ taken ∈ trace, PausedIn id (view taken.1.source) := by
  refine (run.guarded (fun s => PausedIn id (view s.source))
    (fun taken => ∀ order, asked lowercase codec taken = some order → ¬ Revives id order)
    (fun taken => PausedIn id (view taken.1.source)) paused ?_ quiet).2
  intro s event target here spared taken
  refine ⟨?_, here⟩
  rcases SnapshotCache.step_source event taken with ⟨changed, rfl, done⟩ | ⟨-, same⟩
  · rw [step_view lowercase codec s.source target.source changed done]
    cases order : granted lowercase codec (s.source, changed, target.source) with
    | none => exact here
    | some order' => exact enact_keeps_paused id _ order' (spared order' order) here
  · rw [same]
    exact here

/-- The step that paused an account leaves it paused. -/
theorem asked_paused (id : String) (s target : Proxy) (event : ProxyEvent)
    (taken : Does (perform lowercase codec) s event target)
    (order : asked lowercase codec (s, event, target) = some (.set id (.paused true))) :
    PausedIn id (view target.source) := by
  rcases SnapshotCache.step_source event taken with ⟨changed, rfl, done⟩ | ⟨apart, -⟩
  · rw [step_view lowercase codec s.source target.source changed done]
    simp only [asked] at order
    rw [order]
    exact enact_pauses id (view s.source)
  · cases event with
    | change changed => exact absurd rfl (apart changed)
    | _ => cases order

end Runs

/-- Once a pause was answered with a success and no later request resumed or created the
account again, requests that are served after the longest age of an entry and the time a load
may take are never routed to it, however loads, refusals and other requests interleave and
whatever the request asks for. -/
theorem paused_account_unrouted (lowercase : String → String) (codec : JsonValue.Codec)
    (delay : Nat) (start final : Proxy) (before after : List Taken) (pausing : Taken) (id : String)
    (run : Run (Does (perform lowercase codec)) start (before ++ pausing :: after) final)
    (cold : Cold start) (prompt : ∀ taken ∈ before ++ pausing :: after, Prompt delay taken)
    (paused : asked lowercase codec pausing = some (.set id (.paused true)))
    (quiet : ∀ taken ∈ after, ∀ order, asked lowercase codec taken = some order →
      ¬ Revives id order)
    (serving : Taken) (member : serving ∈ after) (accounts : List Account)
    (serves : served cacheValid serving = some accounts)
    (late : pausing.1.now + delay + accountsCacheTtlSecs * 1000 ≤ serving.1.now)
    (strategy : SessionStrategy) (usage : UsageMap) (sel : SelectionMeta) (now : Int) :
    id ∉ (select strategy accounts usage sel now).accounts.map Account.id := by
  obtain ⟨since, ⟨reading, found, isRead, rfl, rfl⟩, recent⟩ :=
    SnapshotCache.served_recent (accountsCacheTtlSecs * 1000)
      (fun age short => by
        have seconds := of_decide_eq_true short
        unfold accountsCacheTtlSecs at seconds ⊢
        omega)
      (by decide) run cold prompt serving (by simp [member]) accounts serves
  obtain ⟨s, event, target⟩ := pausing
  obtain ⟨earlier, taken, rest⟩ := run.cut
  have early := SnapshotCache.run_earlier earlier
  -- A load read before the pause is too old to be served by now.
  have later : reading ∈ after := by
    rcases List.mem_append.mp found with old | new
    · have before : reading.1.now ≤ s.now := early reading old
      have waited : s.now + delay + accountsCacheTtlSecs * 1000 ≤ serving.1.now := late
      omega
    · rcases List.mem_cons.mp new with rfl | later
      · obtain rfl : event = .read := isRead
        cases paused
      · exact later
  have here := stays_paused id (asked_paused id s target event taken paused) rest quiet
    reading later
  apply select_leaves_out
  intro account listed same
  exact paused_unavailable account usage now
    (find_all_paused id reading.1.source here account listed same)

def oneAccount : Proxy where
  now := 0
  source := ⟨[makeAccount "a" "anthropic" 1], List.nodup_singleton _, List.nodup_singleton _⟩
  entry := none
  waiting := 0
  loads := []

def pauseFirst : AccountOrders.Event := .call (.column .pause "a" .null) .none

def loadLater : List ProxyEvent := [.pass 5000, .miss, .read]

def listedLater (s : Proxy) : Bool :=
  s.now == 5000 && s.loads.map (fun load => (load.value.map Account.id, load.readAt)) ==
    [(["a"], 5000)]

theorem paused_script : ((perform id (.ofTable []) oneAccount (.change pauseFirst)).any fun s =>
    (loadLater.foldlM (perform id (.ofTable [])) s).any listedLater) = true := by
  decide +kernel

theorem paused_first (target : Proxy) :
    asked id (.ofTable []) (oneAccount, .change pauseFirst, target) =
      some (.set "a" (.paused true)) := by
  have accepted : (handle id (.ofTable []) oneAccount.source .none
      (.column .pause "a" .null)).2.accepted = true := by decide +kernel
  simp only [asked, granted, pauseFirst, accepted, if_true]
  rfl

theorem listed_unrouted : ∃ accounts : List Account, accounts.map Account.id = ["a"] ∧
    "a" ∉ (select ⟨18000000, 0⟩ accounts (fun _ => none) ⟨none, false, false⟩
      1700000000000).accounts.map Account.id := by
  obtain ⟨target, pausing, loads⟩ := performed_once _ _ _ paused_script
  obtain ⟨trace, s, run, events, listed⟩ := performed _ _ _ loads
  simp only [listedLater, Bool.and_eq_true, beq_iff_eq] at listed
  obtain ⟨load, only, ids⟩ := List.map_eq_singleton_iff.mp listed.2
  simp only [Prod.mk.injEq] at ids
  obtain ⟨final, stored, -⟩ := performed_once (perform id (.ofTable [])) (.store 0)
    (fun _ => true) (by simp [perform, SnapshotCache.perform, only] : (perform id (.ofTable []) s
      (.store 0)).any (fun _ => true) = true)
  have prompt : ∀ taken ∈ trace ++ [(s, .store 0, final)],
      asked id (.ofTable []) taken = none ∧ Prompt 0 taken := by
    intro taken member
    rcases List.mem_append.mp member with old | last
    · have event : taken.2.1 ∈ loadLater :=
        events ▸ List.mem_map_of_mem old
      simp only [loadLater, List.mem_cons, List.not_mem_nil, or_false] at event
      rcases event with here | here | here <;> simp [asked, Prompt, here]
    · obtain rfl := List.mem_singleton.mp last
      refine ⟨rfl, ?_⟩
      rintro other found
      obtain rfl : load = other := by simpa [only] using found
      simp only [ids.2, listed.1, Nat.add_zero, le_refl]
  refine ⟨load.value, ids.1, ?_⟩
  refine paused_account_unrouted id (.ofTable []) 0 oneAccount final []
    (trace ++ [(s, .store 0, final)]) (oneAccount, .change pauseFirst, target) "a"
    (.cons pausing (run.snoc stored)) ⟨rfl, rfl⟩ ?_ (paused_first target) ?_
    (s, .store 0, final) (by simp) load.value (by simp [served, only]) ?_ _ _ _ _
  · intro taken member
    rcases List.mem_cons.mp member with rfl | later
    · trivial
    · exact (prompt taken later).2
  · intro taken member order ordered
    simp [(prompt taken member).1] at ordered
  · simp [listed.1, oneAccount, accountsCacheTtlSecs]

end Ccflare.AccountsCache
