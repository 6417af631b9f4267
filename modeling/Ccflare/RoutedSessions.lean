import Ccflare.RoundRobin

/-!
Where the stages of the selection meet the sessions. The fallback stage runs before the active
session is looked for and does not look at it. The session of the head is restarted by one test
and counted as active by another, and the first leaves a session that starts in the future.
-/

namespace Ccflare.RoutedSessions

open MachineNumber Eligibility LoadBalancer Routing RoutingLoop ProviderSpelling RoundRobin StableSort

/-- The test of `check_auto_fallback_accounts`. -/
def isCandidate (usage : UsageMap) (now : Int) (account : Account) : Bool :=
  account.autoFallbackEnabled && windowReset account now && isAccountAvailable account usage now

/-- The most recent active session of an available account. -/
def recentActive (s : Loop) (usage : UsageMap) : Option Account :=
  maxByKey (fun account => account.sessionStart.getD 0) (s.accounts.filter fun account =>
    hasActiveSession s.strategy account s.now && isAccountAvailable account usage s.now)

/-- The fallback stage leaves the active account for one of a higher priority only. -/
def MovesUpward (s : Loop) (usage : UsageMap) (sel : SelectionMeta) (active : Account) : Prop :=
  checkAutoFallbackAccounts s.accounts usage s.now ≠ [] →
    ∀ head ∈ (selection s usage sel).accounts.head?, head.id ≠ active.id →
      head.priority < active.priority

/-- A candidate is of a higher priority than the active account, or the first candidate is that
account. -/
def Upward (s : Loop) (usage : UsageMap) (active : Account) : Prop :=
  (∃ candidate ∈ s.accounts, isCandidate usage s.now candidate = true ∧
    candidate.priority < active.priority) ∨
  ∀ candidate, Foremost Account.priority (isCandidate usage s.now) s.accounts candidate →
    candidate.id = active.id

section Fallback
variable {s : Loop} {usage : UsageMap} {sel : SelectionMeta}

theorem no_candidates (none_ : checkAutoFallbackAccounts s.accounts usage s.now = []) :
    ∀ account ∈ s.accounts, isCandidate usage s.now account = false := by
  intro account member
  by_contra candidate
  have listed := (mem_sort_by_key Account.priority
    (s.accounts.filter (isCandidate usage s.now)) account).mpr
      (List.mem_filter.mpr ⟨member, by simpa using candidate⟩)
  change account ∈ checkAutoFallbackAccounts s.accounts usage s.now at listed
  rw [none_] at listed
  cases listed

theorem first_candidate {candidate : Account} {rest : List Account}
    (listed : checkAutoFallbackAccounts s.accounts usage s.now = candidate :: rest) :
    Foremost Account.priority (isCandidate usage s.now) s.accounts candidate := by
  apply foremost_of_head
  change (checkAutoFallbackAccounts s.accounts usage s.now).head? = some candidate
  rw [listed]
  rfl

/-- With a candidate the head is the first one, its session looked at. -/
theorem fallback_head (unpinned : Unpinned s.accounts usage sel s.now) {candidate : Account}
    {rest : List Account}
    (listed : checkAutoFallbackAccounts s.accounts usage s.now = candidate :: rest) :
    (selection s usage sel).accounts.head? =
      some (choose s.strategy sel candidate s.now).1 := by
  rw [selection_accounts, unpinned_pick unpinned, normal_pick_stages, listed]
  rfl

/-- The fallback moves upward exactly where a candidate does, or the account is its own. -/
theorem fallback_upward_iff (unpinned : Unpinned s.accounts usage sel s.now) :
    ∀ active ∈ recentActive s usage,
      (MovesUpward s usage sel active ↔ Upward s usage active) := by
  intro active _
  cases listed : checkAutoFallbackAccounts s.accounts usage s.now with
  | nil =>
      refine iff_of_true (fun some_ => absurd listed some_) (Or.inr fun candidate found => ?_)
      have admitted := found.admitted
      rw [no_candidates listed candidate found.mem] at admitted
      cases admitted
  | cons candidate rest =>
      have foremost := first_candidate listed
      have head := fallback_head unpinned listed
      have moves : MovesUpward s usage sel active ↔
          (candidate.id ≠ active.id → candidate.priority < active.priority) := by
        unfold MovesUpward
        rw [head, listed]
        simp [choose_id, chosen_priority]
      rw [moves]
      constructor
      · intro higher
        by_cases same : candidate.id = active.id
        · refine Or.inr fun other found => ?_
          rw [foremost_meet found foremost found.admitted foremost.admitted]
          exact same
        · exact Or.inl ⟨candidate, foremost.mem, foremost.admitted, higher same⟩
      · rintro (⟨better, member, admitted, higher⟩ | own) other
        · exact lt_of_le_of_lt (foremost.least better member admitted) higher
        · exact absurd (own candidate foremost) other

end Fallback

/-- An account of another provider whose limit was reset long ago, and one with a session. -/
def oldReset (priority : Int) : Account :=
  { makeAccount "b" "zai" priority with
    autoFallbackEnabled := true
    rateLimitReset := some 1600000000000 }

def inSession : Account :=
  { makeAccount "a" "anthropic" 1 with sessionStart := some 1699999999000 }

def withFallback (priority : Int) : Loop :=
  ⟨[inSession, oldReset priority], ⟨18000000, 0⟩, 1700000000000⟩

theorem plain_unpinned (priority : Int) :
    Unpinned (withFallback priority).accounts noUsage unforced (withFallback priority).now := by
  intro account found
  cases found

theorem higher_candidate_taken : MovesUpward (withFallback 0) noUsage unforced inSession :=
  (fallback_upward_iff (plain_unpinned 0) inSession (by decide +kernel)).mpr
    (Or.inl ⟨oldReset 0, by decide, by decide +kernel, by decide⟩)

/-- The session of priority 1 is left for a candidate of priority 5. -/
theorem lower_candidate_taken :
    recentActive (withFallback 5) noUsage = some inSession ∧
      ¬ MovesUpward (withFallback 5) noUsage unforced inSession := by
  refine ⟨by decide +kernel, fun moves => ?_⟩
  have lower := moves (by decide +kernel) (oldReset 5) (by decide +kernel) (by decide)
  revert lower
  decide

/-- A live session, and a reset for every start that is not the stored one. -/
structure KeepsSession (s : Loop) (usage : UsageMap) (sel : SelectionMeta) (stored head : Account) :
    Prop where
  live : ∃ start, head.sessionStart = some start ∧ start ≤ s.now ∧
    s.now < start + s.strategy.sessionDurationMs
  recorded : head.sessionStart ≠ stored.sessionStart → ∃ start, head.sessionStart = some start ∧
    ⟨head.id, start⟩ ∈ (selection s usage sel).resets

/-- The session is restarted, or its start is neither in the future nor further back than a
timestamp can tell. -/
def Timely (s : Loop) (account : Account) : Prop :=
  startsAnew s.strategy account s.now = true ∨
    ∃ start, account.sessionStart = some start ∧ start ≤ s.now ∧ s.now - start ≤ i64Max

/-- The clock and the stored starts are within their type. -/
structure InRange (s : Loop) : Prop where
  now : InI64 s.now
  starts : ∀ account ∈ s.accounts, ∀ start ∈ account.sessionStart, InI64 start
  duration : 0 < s.strategy.sessionDurationMs ∧ s.strategy.sessionDurationMs ≤ i64Max

section Sessions
variable {s : Loop} {usage : UsageMap} {sel : SelectionMeta}

theorem restarted_start (tracks : sel.bypassSession = false) (account : Account)
    (anew : startsAnew s.strategy account s.now = true) :
    (choose s.strategy sel account s.now).1.sessionStart = some s.now := by
  unfold startsAnew at anew
  simp [choose, tracks, maybeResetSession, anew]

theorem continued_account (account : Account)
    (kept : startsAnew s.strategy account s.now = false) :
    (choose s.strategy sel account s.now).1 = account := by
  unfold startsAnew at kept
  unfold choose
  split
  · rfl
  · simp [maybeResetSession, kept]

/-- A session that is kept has a start that the wrapping subtraction puts within the duration. -/
theorem kept_start (account : Account) (tracked : requiresSessionTracking account.provider = true)
    (kept : startsAnew s.strategy account s.now = false) :
    ∃ start, account.sessionStart = some start ∧
      wrappingSub s.now start < s.strategy.sessionDurationMs := by
  have running := (Bool.or_eq_false_iff.mp kept).1
  unfold fixedDurationExpired at running
  rw [tracked, Bool.true_and] at running
  cases stored : account.sessionStart with
  | none =>
      rw [stored] at running
      cases running
  | some start =>
      rw [stored] at running
      exact ⟨start, rfl, by simpa using running⟩

/-- The session of a routed head is live exactly where it was restarted or its start is timely. -/
theorem routed_session_iff (range : InRange s) (tracks : sel.bypassSession = false) :
    ∀ head ∈ (selection s usage sel).accounts.head?,
      requiresSessionTracking head.provider = true →
        ∃ stored ∈ s.accounts, SessionTouched stored head ∧
          (KeepsSession s usage sel stored head ↔ Timely s stored) := by
  intro head found tracked
  rw [selection_accounts] at found
  have resets := selection_resets s usage sel
  cases picked : pick s usage sel with
  | none =>
      rw [picked] at found
      cases found
  | some stored =>
      rw [picked] at found resets
      obtain rfl := Option.some.inj found
      have touched := choose_touched s.strategy sel stored s.now
      have member := (pick_admitted s usage sel stored picked).1
      refine ⟨stored, member, touched, ?_⟩
      change (selection s usage sel).resets = (choose s.strategy sel stored s.now).2 at resets
      rw [choose_resets_eq, tracks, Bool.false_or] at resets
      obtain ⟨positive, fits⟩ := range.duration
      cases anew : startsAnew s.strategy stored s.now with
      | true =>
          have start := restarted_start tracks stored anew
          refine iff_of_true ⟨⟨s.now, start, le_rfl, by omega⟩, fun _ => ⟨s.now, start, ?_⟩⟩
            (Or.inl anew)
          rw [resets, anew, choose_id]
          exact List.mem_singleton_self _
      | false =>
          have same := @continued_account s sel stored anew
          rw [same] at tracked ⊢
          obtain ⟨start, here, short⟩ := kept_start stored tracked anew
          have inside := range.starts stored member start here
          have clock := range.now
          constructor
          · rintro ⟨⟨start', here', past, before⟩, -⟩
            exact Or.inr ⟨start', here', past, by omega⟩
          · rintro (restarted | ⟨start', here', past, within⟩)
            · exact absurd (anew.symm.trans restarted) (by decide)
            · obtain rfl := Option.some.inj (here.symm.trans here')
              have exact_ : wrappingSub s.now start = s.now - start := by
                apply wrap_of_in_i64
                unfold InI64 i64Min i64Max at *
                omega
              rw [exact_] at short
              exact ⟨⟨start, here, past, by omega⟩, fun moved => absurd rfl moved⟩

end Sessions

/-- A session that starts a second after the request. -/
def aheadOfTime : Account :=
  { inSession with sessionStart := some 1700000001000 }

def alone (account : Account) : Loop :=
  ⟨[account], ⟨18000000, 0⟩, 1700000000000⟩

theorem alone_in_range (account : Account) (start : Int) (stored : account.sessionStart = some start)
    (inside : InI64 start) : InRange (alone account) where
  now := by
    change InI64 1700000000000
    decide
  starts other member start' here := by
    rw [List.mem_singleton.mp member, stored] at here
    obtain rfl := Option.some.inj here
    exact inside
  duration := by
    change 0 < (18000000 : Int) ∧ (18000000 : Int) ≤ i64Max
    decide

theorem session_continued : ∃ stored ∈ (alone inSession).accounts, SessionTouched stored inSession ∧
    (KeepsSession (alone inSession) noUsage unforced stored inSession ↔
      Timely (alone inSession) stored) :=
  routed_session_iff (alone_in_range inSession 1699999999000 rfl (by decide)) rfl inSession
    (by decide +kernel) (by decide)

/-- The only account is routed to with its session unstarted, and no reset is returned. -/
theorem session_unstarted :
    (selection (alone aheadOfTime) noUsage unforced).accounts.head? = some aheadOfTime ∧
      requiresSessionTracking aheadOfTime.provider = true ∧
      (selection (alone aheadOfTime) noUsage unforced).resets = [] ∧
      ¬ KeepsSession (alone aheadOfTime) noUsage unforced aheadOfTime aheadOfTime := by
  refine ⟨by decide +kernel, by decide, by decide +kernel, ?_⟩
  rintro ⟨⟨start, here, past, -⟩, -⟩
  obtain rfl := Option.some.inj here
  revert past
  decide

end Ccflare.RoutedSessions
