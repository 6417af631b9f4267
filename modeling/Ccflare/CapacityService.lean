import Ccflare.WindowRebuild
import Mathlib.Data.List.AList

/-!
The capacity service: a background task that fills the cache of capacity states once and
then updates it in cycles, requests that complete meanwhile, and a poller that stores
usage payloads. A completed request saves its row first and notifies the cache later; the
task takes one account at a time, so all of them interleave.
-/

namespace Ccflare.CapacityService

open MachineNumber CapacityState SseParser WindowRebuild

variable {K : Type}

def maxCacheAgeMs : Int := 600000

/-- `AnyUsageData`; of an Anthropic payload only the utilisation of `five_hour` is read. -/
inductive AnyUsageData (K : Type) where
  | anthropic (fiveHour : Option K)
  | nanoGpt
  | zai

structure CacheEntry (K : Type) where
  data : AnyUsageData K
  timestamp : Int

/-- A call of `on_summary` whose row is saved at `savedAt`. -/
structure Saved where
  requestId : String
  accountId : Option String
  usage : StreamUsage
  savedAt : Int
  deriving DecidableEq

/-- A call of `on_summary` that has returned. -/
structure Completed extends Saved where
  recordedAt : Int
  deriving DecidableEq

/-- Where the background task stands. A rebuild holds the table it has read, if it could. -/
inductive Task where
  | starting
  | initializing (nowMs : Int) (todo : List Account)
  | rebuilding (nowMs : Int) (account : Account) (table : Option (List RequestRow))
      (todo : List Account)
  | idle
  | adding (nowMs : Int) (todo : List Account)
  | polling (nowMs : Int) (todo : List String)

abbrev StateMap (K : Type) := AList fun _ : String => AccountCapacityState K

abbrev UsageMap (K : Type) := AList fun _ : String => CacheEntry K

structure Service (K : Type) where
  clock : Int
  accounts : List Account
  posteriors : List (XFactorDbState K)
  requests : List RequestRow
  inFlight : List Saved
  completed : List Completed
  task : Task
  cache : StateMap K
  usage : UsageMap K

inductive Event (K : Type) where
  | tick (nowMs : Int)
  | createAccount (account : Account)
  | deleteAccount (accountId : String)
  | saveRow (requestId : String) (accountId : Option String) (usage : StreamUsage)
  | onRequest (requestId : String)
  | initializeCache
  | initializeCacheFails
  | readRequests
  | readFails
  | insertRebuilt
  | startCycle (found : Bool)
  | addAccount
  | startPolls (order : List String)
  | pollAccount
  | finish
  | setUsage (accountId : String) (data : AnyUsageData K)
  | removeUsage (accountId : String)

def Saved.row (saved : Saved) : RequestRow :=
  summaryRow (buildSummary saved.requestId saved.accountId saved.usage) saved.savedAt

/-- `DashMap::get_mut`. -/
def modify (cache : StateMap K) (accountId : String)
    (change : AccountCapacityState K → AccountCapacityState K) : StateMap K :=
  match cache.lookup accountId with
  | some state => cache.insert accountId (change state)
  | none => cache

variable [Field K] [LinearOrder K]

/-- `UsageCache::get`, with what it leaves behind. -/
def getUsage (usage : UsageMap K) (nowMs : Int) (accountId : String) :
    Option (AnyUsageData K) × UsageMap K :=
  match usage.lookup accountId with
  | none => (none, usage)
  | some entry =>
      if maxCacheAgeMs < wrappingSub nowMs entry.timestamp then (none, usage.erase accountId)
      else (some entry.data, usage)

/-- `extract_5h_utilization`, in percent. -/
def extract5hUtilization : AnyUsageData K → Option K
  | .anthropic fiveHour => fiveHour.map fun util => if util < 2 then util * 100 else util
  | .nanoGpt | .zai => none

/-- `XFactorCache::on_request`; an account that is not cached is passed over. -/
def cacheRequest (cache : StateMap K) (saved : Saved) (nowMs : Int) : StateMap K :=
  let summary := buildSummary saved.requestId saved.accountId saved.usage
  match summary.accountId, summary.totalTokens with
  | some accountId, some totalTokens =>
      modify cache accountId fun state => cacheOnRequest state summary.model totalTokens nowMs
  | _, _ => cache

def posteriorOf (posteriors : List (XFactorDbState K)) (accountId : String) :
    Option (XFactorDbState K) :=
  posteriors.find? fun db => decide (db.accountId = accountId)

variable (functions : Functions K)

def perform (s : Service K) : Event K → Option (Service K)
  | .tick nowMs =>
      if s.clock ≤ nowMs ∧ InI64 nowMs then some { s with clock := nowMs } else none
  | .createAccount account =>
      if s.accounts.any fun old => decide (old.id = account.id) then none
      else some { s with accounts := s.accounts ++ [account] }
  | .deleteAccount accountId =>
      some { s with accounts := s.accounts.filter fun account => decide (account.id ≠ accountId) }
  | .saveRow requestId accountId usage =>
      if s.requests.any fun row => decide (row.id = requestId) then none
      else
        let saved : Saved := ⟨requestId, accountId, usage, s.clock⟩
        some { s with
          requests := save s.requests saved.row
          inFlight := s.inFlight ++ [saved] }
  | .onRequest requestId =>
      match s.inFlight.find? fun saved => decide (saved.requestId = requestId) with
      | none => none
      | some saved =>
          some { s with
            inFlight := s.inFlight.filter fun other => decide (other.requestId ≠ requestId)
            completed := s.completed ++ [⟨saved, s.clock⟩]
            cache := cacheRequest s.cache saved s.clock }
  | .initializeCache =>
      match s.task with
      | .starting => some { s with task := .initializing s.clock s.accounts }
      | _ => none
  | .initializeCacheFails =>
      match s.task with
      | .starting => some { s with task := .idle }
      | _ => none
  | .readRequests =>
      match s.task with
      | .initializing nowMs (account :: todo) =>
          some { s with task := .rebuilding nowMs account (some s.requests) todo }
      | _ => none
  | .readFails =>
      match s.task with
      | .initializing nowMs (account :: todo) =>
          some { s with task := .rebuilding nowMs account none todo }
      | _ => none
  | .insertRebuilt =>
      match s.task with
      | .rebuilding nowMs account table todo =>
          let state := initialState functions account (posteriorOf s.posteriors account.id)
            (table.getD []) nowMs
          some { s with
            cache := s.cache.insert account.id state
            task := .initializing nowMs todo }
      | _ => none
  | .startCycle found =>
      match s.task with
      | .idle => some { s with task := .adding s.clock (if found then s.accounts else []) }
      | _ => none
  | .addAccount =>
      match s.task with
      | .adding nowMs (account :: todo) =>
          let cache := if account.id ∈ s.cache then s.cache
            else s.cache.insert account.id (restoredState functions account none s.clock)
          some { s with cache := cache, task := .adding nowMs todo }
      | _ => none
  | .startPolls order =>
      match s.task with
      | .adding nowMs [] =>
          if order.Perm s.cache.keys then some { s with task := .polling nowMs order } else none
      | _ => none
  | .pollAccount =>
      match s.task with
      | .polling nowMs (accountId :: todo) =>
          let read := getUsage s.usage s.clock accountId
          let cache := match read.1.bind extract5hUtilization with
            | some utilPct =>
                modify s.cache accountId fun state => state.onUsagePoll functions nowMs utilPct
            | none => s.cache
          some { s with cache := cache, usage := read.2, task := .polling nowMs todo }
      | _ => none
  | .finish =>
      match s.task with
      | .initializing _ [] | .polling _ [] => some { s with task := .idle }
      | _ => none
  | .setUsage accountId data =>
      some { s with usage := s.usage.insert accountId ⟨data, s.clock⟩ }
  | .removeUsage accountId => some { s with usage := s.usage.erase accountId }

end Ccflare.CapacityService
