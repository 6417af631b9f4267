import Ccflare.Eligibility
import Ccflare.StableSort

/-!
The session strategy of the load balancer. `select` returns the accounts to try
in order, the session resets the caller has to persist and the next value of
the round-robin counter. The counter is a `usize`, so it wraps.
-/

namespace Ccflare.LoadBalancer

open MachineNumber Eligibility StableSort

def resetDebounceMs : Int := 15000

structure SelectionMeta where
  forceAccountId : Option String
  forceAccountStrict : Bool
  bypassSession : Bool
  deriving DecidableEq

structure SessionReset where
  accountId : String
  newSessionStart : Int
  deriving DecidableEq

structure SessionStrategy where
  sessionDurationMs : Int
  roundRobinCounter : Nat
  deriving DecidableEq

structure Selection where
  accounts : List Account
  resets : List SessionReset
  strategy : SessionStrategy
  deriving DecidableEq

def isAccountAvailable (account : Account) (usage : UsageMap) (now : Int) : Bool :=
  (evaluateAccountEligibility account usage now).routable

def requiresSessionTracking (provider : String) : Bool :=
  (Provider.fromStrLoose provider).any Provider.requiresSessionTracking

def resetsAt (usage : UsageMap) (account : Account) : Option Int :=
  (usage account.id).bind RoutingUsageInfo.resetsAtMs

/-- Soonest reset first; a known reset comes before an unknown one. -/
def compareResets : Option Int → Option Int → Ordering
  | some ar, some br => compare ar br
  | some _, none => .lt
  | none, some _ => .gt
  | none, none => .eq

def compareUsageAware (usage : UsageMap) (a b : Account) : Ordering :=
  let pri := compare a.priority b.priority
  if pri ≠ .eq then pri
  else match isAtReserve a usage, isAtReserve b usage with
    | false, true => .lt
    | true, false => .gt
    | _, _ => compareResets (resetsAt usage a) (resetsAt usage b)

def sortAccountsUsageAware (usage : UsageMap) (accounts : List Account) : List Account :=
  sortBy (compareUsageAware usage) accounts

/-- The window's reset is past by more than the debounce. -/
def windowReset (account : Account) (now : Int) : Bool :=
  account.rateLimitReset.any fun reset =>
    decide (normalizeEpochMillis reset < wrappingSub now resetDebounceMs)

def fixedDurationExpired (strategy : SessionStrategy) (account : Account) (now : Int) : Bool :=
  requiresSessionTracking account.provider &&
    match account.sessionStart with
    | some start => decide (wrappingSub now start ≥ strategy.sessionDurationMs)
    | none => true

def rateLimitWindowReset (account : Account) (now : Int) : Bool :=
  decide (account.provider = Provider.anthropic.toString) && windowReset account now

def maybeResetSession (strategy : SessionStrategy) (account : Account) (now : Int) :
    Account × Option SessionReset :=
  if fixedDurationExpired strategy account now || rateLimitWindowReset account now then
    ({ account with
        sessionStart := some now
        sessionRequestCount := 0
        rateLimitReset :=
          if rateLimitWindowReset account now then none else account.rateLimitReset },
      some ⟨account.id, now⟩)
  else (account, none)

def hasActiveSession (strategy : SessionStrategy) (account : Account) (now : Int) : Bool :=
  if !requiresSessionTracking account.provider then false
  else match account.sessionStart with
    | some start =>
        decide (start ≤ now) && decide (wrappingSub now start < strategy.sessionDurationMs)
    | none => false

def checkAutoFallbackAccounts (accounts : List Account) (usage : UsageMap) (now : Int) :
    List Account :=
  sortByKey Account.priority (accounts.filter fun a =>
    a.autoFallbackEnabled && windowReset a now && isAccountAvailable a usage now)

def activeAccount (strategy : SessionStrategy) (accounts : List Account) (now : Int) :
    Option Account :=
  maxByKey (fun a => a.sessionStart.getD 0) (accounts.filter fun a => hasActiveSession strategy a now)

/-- The clone of a picked account, its session reset unless the request bypasses sessions. -/
def choose (strategy : SessionStrategy) (sel : SelectionMeta) (picked : Account) (now : Int) :
    Account × List SessionReset :=
  if sel.bypassSession then (picked, [])
  else
    let reset := maybeResetSession strategy picked now
    (reset.1, reset.2.toList)

/-- The block the forced, auto-fallback and active-session paths share: the
chosen account first, then every other available account in usage-aware order. -/
def routeTo (strategy : SessionStrategy) (accounts : List Account) (usage : UsageMap)
    (sel : SelectionMeta) (now : Int) (picked : Account) : Selection :=
  let chosen := choose strategy sel picked now
  let others := sortAccountsUsageAware usage (accounts.filter fun a =>
    decide (a.id ≠ chosen.1.id) && isAccountAvailable a usage now)
  ⟨chosen.1 :: others, chosen.2, strategy⟩

def availableAccounts (accounts : List Account) (usage : UsageMap) (now : Int) : List Account :=
  sortAccountsUsageAware usage (accounts.filter fun a => isAccountAvailable a usage now)

/-- Only a tier of several pay-as-you-go accounts takes turns. -/
def takesTurns (sameTier : List Account) : Bool :=
  decide (1 < sameTier.length) && sameTier.all fun a => !requiresSessionTracking a.provider

def chosenIdx (strategy : SessionStrategy) (sameTier : List Account) : Nat :=
  if takesTurns sameTier then strategy.roundRobinCounter % sameTier.length else 0

def advance (strategy : SessionStrategy) (sameTier : List Account) : SessionStrategy :=
  if takesTurns sameTier then
    { strategy with roundRobinCounter := wrapUsize (strategy.roundRobinCounter + 1) }
  else strategy

def tiered (strategy : SessionStrategy) (accounts : List Account) (usage : UsageMap)
    (sel : SelectionMeta) (now : Int) : Selection :=
  match availableAccounts accounts usage now with
  | [] => ⟨[], [], strategy⟩
  | top :: rest =>
      let sameTier := (top :: rest).filter fun a => a.priority = top.priority
      let chosen := choose strategy sel (sameTier.getD (chosenIdx strategy sameTier) top) now
      let others := (top :: rest).filter fun a => a.id ≠ chosen.1.id
      ⟨chosen.1 :: others, chosen.2, advance strategy sameTier⟩

/-- Auto-fallback candidates, then the active session, then the priority tiers. -/
def selectNormally (strategy : SessionStrategy) (accounts : List Account) (usage : UsageMap)
    (sel : SelectionMeta) (now : Int) : Selection :=
  match checkAutoFallbackAccounts accounts usage now with
  | candidate :: _ => routeTo strategy accounts usage sel now candidate
  | [] =>
      match activeAccount strategy accounts now with
      | some active =>
          if isAccountAvailable active usage now then
            routeTo strategy accounts usage sel now active
          else tiered strategy accounts usage sel now
      | none => tiered strategy accounts usage sel now

def forcedAccount (accounts : List Account) (sel : SelectionMeta) : Option Account :=
  sel.forceAccountId.bind fun forcedId => accounts.find? fun a => a.id = forcedId

def select (strategy : SessionStrategy) (accounts : List Account) (usage : UsageMap)
    (sel : SelectionMeta) (now : Int) : Selection :=
  match forcedAccount accounts sel with
  | some account =>
      if !isAccountAvailable account usage now then
        -- Strict forcing answers with nothing; otherwise a stale pin falls through.
        if sel.forceAccountStrict then ⟨[], [], strategy⟩
        else selectNormally strategy accounts usage sel now
      else if sel.forceAccountStrict then
        let chosen := choose strategy sel account now
        ⟨[chosen.1], chosen.2, strategy⟩
      else routeTo strategy accounts usage sel now account
  | none => selectNormally strategy accounts usage sel now

end Ccflare.LoadBalancer
