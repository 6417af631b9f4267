import Ccflare.RoutingLoop

/-!
The dashboard names the account that the load balancer would choose next. It does not ask
the load balancer: it has a copy of the three stages of the selection, which compares the
stored reset time as it is, tells a session by both spellings of the provider, and looks at
available accounts only.
-/

namespace Ccflare.DashboardPrediction

open MachineNumber Eligibility LoadBalancer Routing RoutingLoop StableSort

def sessionDurationMs : Int := 5 * 60 * 60 * 1000

/-- `routing_available` of `evaluate_routing_state`. -/
def routingAvailable (account : Account) (usage : UsageMap) (now : Int) : Bool :=
  (evaluateAccountEligibility account usage now).routable

def storedResetPassed (account : Account) (now : Int) : Bool :=
  account.rateLimitReset.any fun reset => decide (reset < wrappingSub now 15000)

def fallback (accounts : List Account) (usage : UsageMap) (now : Int) : List Account :=
  sortByKey Account.priority (accounts.filter fun a =>
    a.autoFallbackEnabled && storedResetPassed a now && routingAvailable a usage now)

def sessionRecent (account : Account) (now : Int) : Bool :=
  isAnthropicFamily account.provider &&
    account.sessionStart.any fun start => decide (wrappingSub now start < sessionDurationMs)

def active (accounts : List Account) (usage : UsageMap) (now : Int) : Option Account :=
  maxByKey (fun a => a.sessionStart.getD 0) (accounts.filter fun a =>
    sessionRecent a now && routingAvailable a usage now)

/-- The comparator is that of the load balancer, written out again. -/
def available (accounts : List Account) (usage : UsageMap) (now : Int) : List Account :=
  sortBy (compareUsageAware usage) (accounts.filter fun a => routingAvailable a usage now)

def predictNextAccount (accounts : List Account) (usage : UsageMap) (now : Int) :
    Option String :=
  match fallback accounts usage now with
  | a :: _ => some a.id
  | [] =>
      match active accounts usage now with
      | some a => some a.id
      | none => (available accounts usage now).head?.map Account.id

/-- The account whose id is predicted. -/
def predicted (accounts : List Account) (usage : UsageMap) (now : Int) : Option Account :=
  (fallback accounts usage now).head?.or
    ((active accounts usage now).or (available accounts usage now).head?)

/-- What the load balancer chooses from when no request has been counted. -/
def idle (accounts : List Account) (now : Int) : Loop := ⟨accounts, ⟨sessionDurationMs, 0⟩, now⟩

/-- The account comes before the other available ones. -/
def InTurn (accounts : List Account) (usage : UsageMap) (now : Int) : Account → Prop :=
  Foremost (routingKey usage) (fun a => routingAvailable a usage now) accounts

def sessionBegin (account : Account) : Int := account.sessionStart.getD 0

/-- The load balancer takes the most recent session before it asks for its availability. -/
def NextSelected (accounts : List Account) (usage : UsageMap) (now : Int) (account : Account) :
    Prop :=
  let latest := Hindmost sessionBegin (hasActiveSession ⟨sessionDurationMs, 0⟩ · now) accounts
  (latest account ∧ routingAvailable account usage now = true) ∨
    (∀ other ∈ accounts, latest other → routingAvailable other usage now = false) ∧
      InTurn accounts usage now account

/-- The dashboard takes the most recent session of an available account. -/
def NextPredicted (accounts : List Account) (usage : UsageMap) (now : Int) (account : Account) :
    Prop :=
  let inSession := fun a => sessionRecent a now && routingAvailable a usage now
  Hindmost sessionBegin inSession accounts account ∨
    (∀ other ∈ accounts, inSession other = false) ∧ InTurn accounts usage now account

instance (accounts : List Account) (usage : UsageMap) (now : Int) :
    DecidablePred (InTurn accounts usage now) :=
  fun _ => inferInstanceAs (Decidable (Foremost _ _ _ _))

instance (accounts : List Account) (usage : UsageMap) (now : Int) :
    DecidablePred (NextSelected accounts usage now) :=
  fun _ => inferInstanceAs (Decidable (_ ∨ _))

instance (accounts : List Account) (usage : UsageMap) (now : Int) :
    DecidablePred (NextPredicted accounts usage now) :=
  fun _ => inferInstanceAs (Decidable (_ ∨ _))

/-- Where the two copies of the decision meet. The first stage that names an account on
either side settles it: two candidates are the same when each is due by the other's reading
of the reset time, two sessions when the load balancer sees the dashboard's; an account that
one side alone names has to come next on the other. -/
def copiesMeet (accounts : List Account) (usage : UsageMap) (now : Int) : Bool :=
  match (fallback accounts usage now).head?,
      (checkAutoFallbackAccounts accounts usage now).head? with
  | some shown, some chosen => windowReset shown now && storedResetPassed chosen now
  | some shown, none => decide (NextSelected accounts usage now shown)
  | none, some chosen => decide (NextPredicted accounts usage now chosen)
  | none, none =>
      match active accounts usage now, served (idle accounts now) usage with
      | some shown, some _ => hasActiveSession ⟨sessionDurationMs, 0⟩ shown now
      | some shown, none => decide (InTurn accounts usage now shown)
      | none, _ => true

section Stages

variable {accounts : List Account} {usage : UsageMap} {now : Int}

theorem prediction_stages (accounts : List Account) (usage : UsageMap) (now : Int) :
    predictNextAccount accounts usage now = (predicted accounts usage now).map Account.id := by
  unfold predictNextAccount predicted
  cases fallback accounts usage now with
  | cons a _ => rfl
  | nil =>
      cases active accounts usage now with
      | none => rfl
      | some a => rfl

-- Without a counted request the turn is the first account's.
theorem first_turn (accounts : List Account) (usage : UsageMap) (now : Int) :
    tierPick (idle accounts now) usage = (available accounts usage now).head? := by
  change tierPick (idle accounts now) usage = (availableAccounts accounts usage now).head?
  unfold tierPick idle
  cases availableAccounts accounts usage now with
  | nil => rfl
  | cons top rest =>
      have index : ∀ tier, chosenIdx ⟨sessionDurationMs, 0⟩ tier = 0 := by
        intro tier
        unfold chosenIdx
        split
        · exact Nat.zero_mod _
        · rfl
      simp [index]

theorem same_candidate (shown chosen : Account)
    (left : (fallback accounts usage now).head? = some shown)
    (right : (checkAutoFallbackAccounts accounts usage now).head? = some chosen) :
    shown = chosen ↔ windowReset shown now = true ∧ storedResetPassed chosen now = true := by
  have one := foremost_of_head _ _ _ _ left
  have two := foremost_of_head _ _ _ _ right
  have showable := one.admitted
  have choosable := two.admitted
  simp only [Bool.and_eq_true] at showable choosable
  constructor
  · rintro rfl
    exact ⟨choosable.1.2, showable.1.2⟩
  · rintro ⟨due, passed⟩
    apply foremost_meet one two
    · simp only [Bool.and_eq_true]
      exact ⟨⟨showable.1.1, due⟩, showable.2⟩
    · simp only [Bool.and_eq_true]
      exact ⟨⟨choosable.1.1, passed⟩, choosable.2⟩

theorem active_recent (account : Account)
    (live : hasActiveSession ⟨sessionDurationMs, 0⟩ account now = true) :
    sessionRecent account now = true := by
  obtain ⟨tracked, start, started, -, within⟩ := (has_active_session_iff _ _ _).mp live
  have provider := (tracked_iff _).mp tracked
  simp [sessionRecent, isAnthropicFamily, provider, started, within]

theorem served_active (account : Account) (found : served (idle accounts now) usage = some account) :
    activeAccount ⟨sessionDurationMs, 0⟩ accounts now = some account ∧
      isAccountAvailable account usage now = true :=
  Option.filter_eq_some_iff.mp found

/-- The load balancer sees no session that the dashboard does not see. -/
theorem none_served (none_ : active accounts usage now = none) :
    served (idle accounts now) usage = none := by
  apply Option.eq_none_iff_forall_ne_some.mpr
  intro account found
  obtain ⟨latest, available⟩ := served_active account found
  obtain ⟨member, live⟩ := List.mem_filter.mp (max_by_key_mem _ _ _ latest)
  have absent := (max_none_iff _ _ _).mp none_ account member
  rw [active_recent account live] at absent
  exact absurd (available.symm.trans absent) (by decide)

theorem same_session (shown chosen : Account) (left : active accounts usage now = some shown)
    (right : served (idle accounts now) usage = some chosen) :
    shown = chosen ↔ hasActiveSession ⟨sessionDurationMs, 0⟩ shown now = true := by
  obtain ⟨latest, available⟩ := served_active chosen right
  have one := foremost_of_max _ _ _ _ left
  have two := foremost_of_max _ _ _ _ latest
  constructor
  · rintro rfl
    exact two.admitted
  · intro live
    apply foremost_meet one two live
    rw [active_recent chosen two.admitted]
    exact available

theorem in_turn_iff (account : Account) :
    (available accounts usage now).head? = some account ↔ InTurn accounts usage now account := by
  rw [available, sort_by_agrees _ _ (compare_usage_aware_agrees usage)]
  exact head_iff_foremost _ _ _ _

theorem latest_iff (account : Account) :
    activeAccount ⟨sessionDurationMs, 0⟩ accounts now = some account ↔
      Hindmost sessionBegin (hasActiveSession ⟨sessionDurationMs, 0⟩ · now) accounts account :=
  max_iff_hindmost _ _ _ _

theorem unserved_iff : served (idle accounts now) usage = none ↔
    ∀ other ∈ accounts,
      Hindmost sessionBegin (hasActiveSession ⟨sessionDurationMs, 0⟩ · now) accounts other →
        routingAvailable other usage now = false := by
  simp only [← latest_iff]
  constructor
  · intro none_ other _ latest
    exact Bool.eq_false_iff.mpr (Option.filter_eq_none_iff.mp none_ other latest)
  · intro unavailable
    apply Option.filter_eq_none_iff.mpr
    intro other latest
    have member := List.mem_of_mem_filter (max_by_key_mem _ _ _ latest)
    exact Bool.eq_false_iff.mp (unavailable other member latest)

theorem next_selected_iff (account : Account) :
    (served (idle accounts now) usage).or (available accounts usage now).head? = some account ↔
      NextSelected accounts usage now account := by
  rw [Option.or_eq_some_iff, unserved_iff, in_turn_iff]
  apply or_congr_left
  rw [← latest_iff]
  exact Option.filter_eq_some_iff

theorem next_predicted_iff (account : Account) :
    (active accounts usage now).or (available accounts usage now).head? = some account ↔
      NextPredicted accounts usage now account := by
  rw [Option.or_eq_some_iff, in_turn_iff]
  exact or_congr (max_iff_hindmost _ _ _ _) (and_congr_left' (max_none_iff _ _ _))

theorem copies_meet_iff (accounts : List Account) (usage : UsageMap) (now : Int) :
    predicted accounts usage now = normalPick (idle accounts now) usage ↔
      copiesMeet accounts usage now = true := by
  rw [normal_pick_stages, first_turn]
  change _ = (checkAutoFallbackAccounts accounts usage now).head?.or _ ↔ _
  unfold predicted copiesMeet
  cases left : (fallback accounts usage now).head? with
  | some shown =>
      cases right : (checkAutoFallbackAccounts accounts usage now).head? with
      | some chosen =>
          simp only [Option.some_or, Option.some.injEq, Bool.and_eq_true]
          exact same_candidate shown chosen left right
      | none =>
          simp only [Option.some_or, Option.none_or, decide_eq_true_eq]
          rw [← next_selected_iff]
          exact eq_comm
  | none =>
      cases right : (checkAutoFallbackAccounts accounts usage now).head? with
      | some chosen =>
          simp only [Option.some_or, Option.none_or, decide_eq_true_eq]
          exact next_predicted_iff chosen
      | none =>
          simp only [Option.none_or]
          cases shows : active accounts usage now with
          | none => simp [none_served shows]
          | some shown =>
              cases serves : served (idle accounts now) usage with
              | some chosen =>
                  simp only [Option.some_or, Option.some.injEq]
                  exact same_session shown chosen shows serves
              | none =>
                  simp only [Option.some_or, Option.none_or, decide_eq_true_eq]
                  rw [← in_turn_iff]
                  exact eq_comm

theorem selected_first (accounts : List Account) (usage : UsageMap) (now : Int) :
    (select ⟨sessionDurationMs, 0⟩ accounts usage unforced now).accounts.head?.map Account.id =
      (normalPick (idle accounts now) usage).map Account.id := by
  have plan := selection_accounts (idle accounts now) usage unforced
  change (select ⟨sessionDurationMs, 0⟩ accounts usage unforced now).accounts =
    listing _ usage unforced (normalPick (idle accounts now) usage) at plan
  rw [plan]
  cases normalPick (idle accounts now) usage with
  | none => rfl
  | some account => exact congrArg some (choose_id _ _ account now)

theorem predicted_mem (account : Account)
    (named : predicted accounts usage now = some account) : account ∈ accounts := by
  rcases Option.or_eq_some_iff.mp named with candidate | ⟨-, later⟩
  · exact (foremost_of_head _ _ _ _ candidate).mem
  · rcases Option.or_eq_some_iff.mp later with session | ⟨-, first⟩
    · exact List.mem_of_mem_filter (max_by_key_mem _ _ _ session)
    · have listed := List.mem_of_mem_head? first
      rw [available, mem_sort_by] at listed
      exact List.mem_of_mem_filter listed

end Stages

/-- The dashboard is right exactly when the two copies of the decision meet. -/
theorem prediction_right_iff (accounts : List Account) (usage : UsageMap) (now : Int)
    (distinct : (accounts.map Account.id).Nodup) :
    predictNextAccount accounts usage now =
        (select ⟨sessionDurationMs, 0⟩ accounts usage unforced now).accounts.head?.map Account.id ↔
      copiesMeet accounts usage now = true := by
  rw [prediction_stages, selected_first, ← copies_meet_iff]
  constructor
  · intro same
    cases shows : predicted accounts usage now with
    | none =>
        rw [shows] at same
        exact (Option.map_eq_none_iff.mp same.symm).symm
    | some shown =>
        rw [shows] at same
        obtain ⟨chosen, chooses, ids⟩ := Option.map_eq_some_iff.mp same.symm
        rw [chooses]
        have member := (normal_pick_admitted (idle accounts now) usage chosen chooses).1
        exact congrArg some
          (List.inj_on_of_nodup_map distinct (predicted_mem shown shows) member ids.symm)
  · intro same
    rw [same]

/-- The most recent session is that of a tracked account, and it has begun. -/
theorem session_predicted :
    predictNextAccount [makeAccount "a" "zai" 0,
        { makeAccount "b" "anthropic" 1 with sessionStart := some 1699999000000 }]
        noUsage 1700000000000 =
      (select ⟨sessionDurationMs, 0⟩ [makeAccount "a" "zai" 0,
        { makeAccount "b" "anthropic" 1 with sessionStart := some 1699999000000 }]
        noUsage unforced 1700000000000).accounts.head?.map Account.id :=
  (prediction_right_iff _ noUsage 1700000000000 (by decide)).mpr (by decide +kernel)

def paused : Account :=
  { makeAccount "c" "anthropic" 2 with
    sessionStart := some 1699999500000
    paused := true }

/-- The most recent session is a paused account's: the load balancer goes on to the
priorities, the dashboard to the session before. -/
theorem paused_session_mispredicted :
    ¬ ∀ (accounts : List Account) (usage : UsageMap) (now : Int),
      (accounts.map Account.id).Nodup →
      predictNextAccount accounts usage now =
        (select ⟨sessionDurationMs, 0⟩ accounts usage unforced now).accounts.head?.map
          Account.id := by
  intro right
  have here := right [makeAccount "a" "zai" 0,
    { makeAccount "b" "anthropic" 1 with sessionStart := some 1699999000000 }, paused] noUsage
    1700000000000 (by decide)
  revert here
  decide +kernel

end Ccflare.DashboardPrediction
