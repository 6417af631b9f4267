import Ccflare.DashboardPrediction

/-!
The order in which the dashboard lists the accounts when it is asked for that of the load
balancer. A row is sorted by its group, its priority and its usage reset; the groups stand
for the stages of the selection.
-/

namespace Ccflare.DashboardOrder

open MachineNumber Eligibility LoadBalancer Routing RoutingLoop StableSort DashboardPrediction

/-- What the order reads of an `AccountRow`. -/
structure AccountRow where
  id : String
  provider : String
  priority : Int
  autoFallbackEnabled : Bool
  sessionStartMs : Option Int
  rateLimitResetMs : Option Int
  resetsAtMs : Option Int
  routingAvailable : Bool
  softReserveHit : Bool
  deriving DecidableEq

def accountRow (usage : UsageMap) (now : Int) (a : Account) : AccountRow where
  id := a.id
  provider := a.provider
  priority := a.priority
  autoFallbackEnabled := a.autoFallbackEnabled
  sessionStartMs := a.sessionStart
  rateLimitResetMs := a.rateLimitReset
  resetsAtMs := (usage a.id).bind RoutingUsageInfo.resetsAtMs
  routingAvailable := (evaluateAccountEligibility a usage now).routable
  softReserveHit := (evaluateAccountEligibility a usage now).softReserveHit

def lbGroup (row : AccountRow) (now : Int) : Nat :=
  if !row.routingAvailable then 4
  else if row.autoFallbackEnabled &&
      row.rateLimitResetMs.any fun reset => decide (reset < wrappingSub now 15000) then 0
  else if isAnthropicFamily row.provider && row.sessionStartMs.any fun start =>
      decide (start ≤ now) && decide (wrappingSub now start < sessionDurationMs) then 1
  else if row.softReserveHit then 3
  else 2

/-- The clock is read at each comparison; here it stands still. -/
def lbSortGroup (now : Int) (a b : AccountRow) : Ordering :=
  if lbGroup a now ≠ lbGroup b now then compare (lbGroup a now) (lbGroup b now)
  else if compare a.priority b.priority ≠ .eq then compare a.priority b.priority
  else compareResets a.resetsAtMs b.resetsAtMs

/-- The `lb-order` case of `sort_account_rows`. -/
def lbOrder (now : Int) (rows : List AccountRow) : List AccountRow := sortBy (lbSortGroup now) rows

def listed (accounts : List Account) (usage : UsageMap) (now : Int) : List AccountRow :=
  lbOrder now (accounts.map (accountRow usage now))

def group (usage : UsageMap) (now : Int) (account : Account) : Nat :=
  lbGroup (accountRow usage now account) now

/-- What orders the rows of one group. -/
def groupKey (usage : UsageMap) (account : Account) : Int ×ₗ WithTop Int :=
  toLex (account.priority, resetRank (resetsAt usage account))

/-- An available account whose stored reset time, as it stands, is past. -/
def recovering (usage : UsageMap) (now : Int) (account : Account) : Bool :=
  routingAvailable account usage now &&
    (account.autoFallbackEnabled && storedResetPassed account now)

/-- An available account with a session under either spelling of the provider. -/
def inSession (usage : UsageMap) (now : Int) (account : Account) : Bool :=
  routingAvailable account usage now && (isAnthropicFamily account.provider &&
    account.sessionStart.any fun start =>
      decide (start ≤ now) && decide (wrappingSub now start < sessionDurationMs))

def withinReserve (usage : UsageMap) (now : Int) (account : Account) : Bool :=
  routingAvailable account usage now && !isAtReserve account usage

/-- The first of some accounts by priority and usage reset. -/
def firstOf (accounts : List Account) (usage : UsageMap) (keep : Account → Bool) : Option Account :=
  (sortByKey (groupKey usage) (accounts.filter keep)).head?

/-- The staged decision that the groups encode. -/
def firstListed (accounts : List Account) (usage : UsageMap) (now : Int) : Option Account :=
  (firstOf accounts usage (recovering usage now)).or
    ((firstOf accounts usage (inSession usage now)).or
      ((firstOf accounts usage (withinReserve usage now)).or
        (firstOf accounts usage fun a => routingAvailable a usage now)))

/-- The first row of the groups that follow the candidates'. -/
def NextListed (accounts : List Account) (usage : UsageMap) (now : Int) (account : Account) :
    Prop :=
  let firstIn := fun keep => Foremost (groupKey usage) keep accounts account
  firstIn (inSession usage now) ∨ (∀ other ∈ accounts, inSession usage now other = false) ∧
    (firstIn (withinReserve usage now) ∨
      (∀ other ∈ accounts, withinReserve usage now other = false) ∧
        firstIn fun a => routingAvailable a usage now)

instance (accounts : List Account) (usage : UsageMap) (now : Int) :
    DecidablePred (NextListed accounts usage now) :=
  fun _ => inferInstanceAs (Decidable (_ ∨ _))

/-- Where the groups meet the stages of the selection. The first stage that names an account
on either side settles it. Two candidates are the same when each is due by the other's
reading of the reset time and the chosen one has no later usage reset; an account that one
side alone names has to come next on the other. When neither has a candidate and no session
is listed, the reserve decides: the load balancer looks at it after the priority, the
dashboard before. -/
def ordersMeet (accounts : List Account) (usage : UsageMap) (now : Int) : Bool :=
  match firstOf accounts usage (recovering usage now),
      (checkAutoFallbackAccounts accounts usage now).head? with
  | some shown, some chosen =>
      windowReset shown now && (storedResetPassed chosen now &&
        decide (compareResets (resetsAt usage chosen) (resetsAt usage shown) ≠ .gt))
  | some shown, none => decide (NextSelected accounts usage now shown)
  | none, some chosen => decide (NextListed accounts usage now chosen)
  | none, none =>
      match firstOf accounts usage (inSession usage now) with
      | some shown => decide (NextSelected accounts usage now shown)
      | none => (available accounts usage now).head?.all fun a => !isAtReserve a usage ||
          accounts.all fun b => !routingAvailable b usage now || isAtReserve b usage

section Groups

variable (usage : UsageMap) (now : Int)

/-- An available account at its reserve is so softly. -/
theorem soft_reserve (account : Account) (free : routingAvailable account usage now = true) :
    (evaluateAccountEligibility account usage now).softReserveHit = isAtReserve account usage := by
  obtain ⟨-, -, -, -, unblocked⟩ := (routable_iff account usage now).mp free
  simp only [evaluateAccountEligibility]
  cases hard : account.reserveHard with
  | false => rfl
  | true =>
      simp [hardReserveBlocked, hard] at unblocked
      simp [unblocked]

theorem group_cases (account : Account) :
    group usage now account =
      if routingAvailable account usage now = false then 4
      else if recovering usage now account then 0
      else if inSession usage now account then 1
      else if withinReserve usage now account then 2
      else 3 := by
  unfold group lbGroup recovering inSession withinReserve
  simp only [accountRow]
  change (if (!routingAvailable account usage now) = true then 4 else _) = _
  cases free : routingAvailable account usage now with
  | false => rfl
  | true =>
      simp only [soft_reserve usage now account free]
      cases isAtReserve account usage <;> rfl

theorem group_zero (account : Account) :
    group usage now account = 0 ↔ recovering usage now account = true := by
  rw [group_cases]
  cases free : routingAvailable account usage now with
  | false => simp [recovering, free]
  | true =>
      cases recovers : recovering usage now account with
      | true => simp
      | false =>
          simp only [Bool.true_eq_false, Bool.false_eq_true, ↓reduceIte, iff_false]
          split
          · decide
          · split <;> decide

theorem group_one (account : Account) (notDue : recovering usage now account = false) :
    1 ≤ group usage now account ∧
      (group usage now account = 1 ↔ inSession usage now account = true) := by
  rw [group_cases, notDue]
  cases free : routingAvailable account usage now with
  | false => simp [inSession, free]
  | true =>
      cases session : inSession usage now account with
      | true => simp
      | false =>
          simp only [Bool.true_eq_false, Bool.false_eq_true, ↓reduceIte, iff_false]
          split <;> decide

theorem group_two (account : Account) (notDue : recovering usage now account = false)
    (noSession : inSession usage now account = false) :
    2 ≤ group usage now account ∧
      (group usage now account = 2 ↔ withinReserve usage now account = true) := by
  rw [group_cases, notDue, noSession]
  cases free : routingAvailable account usage now with
  | false => simp [withinReserve, free]
  | true => cases within : withinReserve usage now account <;> simp

theorem group_three (account : Account) (notDue : recovering usage now account = false)
    (noSession : inSession usage now account = false)
    (notWithin : withinReserve usage now account = false) :
    3 ≤ group usage now account ∧
      (group usage now account = 3 ↔ routingAvailable account usage now = true) := by
  rw [group_cases, notDue, noSession, notWithin]
  cases routingAvailable account usage now <;> simp

theorem sort_group_agrees :
    Agrees (fun a b => lbSortGroup now (accountRow usage now a) (accountRow usage now b))
      (fun a => toLex (group usage now a, groupKey usage a)) := by
  have byReset : Agrees (fun a b => compareResets (resetsAt usage a) (resetsAt usage b))
      (fun a => resetRank (resetsAt usage a)) := fun a b => compare_resets_agrees _ _
  have byPriority := agrees_in_groups Account.priority byReset
  have byGroup := agrees_in_groups (group usage now) byPriority
  intro a b
  have compared : lbSortGroup now (accountRow usage now a) (accountRow usage now b) =
      if compare (group usage now a) (group usage now b) ≠ .eq
      then compare (group usage now a) (group usage now b)
      else if compare a.priority b.priority ≠ .eq then compare a.priority b.priority
      else compareResets (resetsAt usage a) (resetsAt usage b) := by
    by_cases same : group usage now a = group usage now b
    · rw [if_neg (not_not.mpr (compare_eq_iff_eq.mpr same))]
      exact if_neg (not_not.mpr same)
    · rw [if_pos (mt compare_eq_iff_eq.mp same)]
      exact if_pos same
  dsimp only
  rw [groupKey, groupKey, ← byGroup, compared]

/-- The first row is that of the first account by group, priority and usage reset. -/
theorem listed_head (accounts : List Account) :
    (listed accounts usage now).head?.map AccountRow.id =
      (sortByKey (fun a => toLex (group usage now a, groupKey usage a)) accounts).head?.map
        Account.id := by
  have mapped : listed accounts usage now =
      (sortBy (fun a b => lbSortGroup now (accountRow usage now a) (accountRow usage now b))
        accounts).map (accountRow usage now) :=
    (List.map_insertionSort _ _ (accountRow usage now) accounts fun _ _ _ _ => Iff.rfl).symm
  rw [mapped, sort_by_agrees _ _ (sort_group_agrees usage now), List.head?_map, Option.map_map]
  rfl

theorem first_of_none (accounts : List Account) (keep : Account → Bool)
    (none_ : firstOf accounts usage keep = none) : ∀ a ∈ accounts, keep a = false :=
  (head_none_iff _ _ _).mp none_

theorem first_of_some (accounts : List Account) (keep : Account → Bool) (account : Account)
    (found : firstOf accounts usage keep = some account) :
    account ∈ accounts ∧ keep account = true := by
  have foremost := foremost_of_head _ _ _ _ found
  exact ⟨foremost.mem, foremost.admitted⟩

/-- The accounts of the least group that has one come first. -/
theorem stage_listed (accounts : List Account) (one : Nat) (keep : Account → Bool)
    (least : ∀ a ∈ accounts, one ≤ group usage now a)
    (same : ∀ a ∈ accounts, group usage now a = one ↔ keep a = true)
    (account : Account) (member : account ∈ accounts) (kept : keep account = true) :
    (sortByKey (fun a => toLex (group usage now a, groupKey usage a)) accounts).head? =
      firstOf accounts usage keep := by
  rw [head_of_group (group usage now) (groupKey usage) one accounts least
    ⟨account, member, (same account member).mpr kept⟩, firstOf]
  have filtered : (accounts.filter fun a => group usage now a = one) = accounts.filter keep :=
    List.filter_congr fun a inside => by
      rw [Bool.eq_iff_iff, decide_eq_true_iff]
      exact same a inside
  rw [filtered]

/-- With an account available, the list begins with the staged decision. -/
theorem staged_head (accounts : List Account) (account : Account) (member : account ∈ accounts)
    (free : routingAvailable account usage now = true) :
    (sortByKey (fun a => toLex (group usage now a, groupKey usage a)) accounts).head? =
      firstListed accounts usage now := by
  unfold firstListed
  cases recovers : firstOf accounts usage (recovering usage now) with
  | some shown =>
      obtain ⟨inside, kept⟩ := first_of_some usage accounts _ shown recovers
      rw [Option.some_or, ← recovers]
      exact stage_listed usage now accounts 0 _ (fun _ _ => Nat.zero_le _)
        (fun a _ => group_zero usage now a) shown inside kept
  | none =>
      have notDue := first_of_none usage accounts _ recovers
      rw [Option.none_or]
      cases sessions : firstOf accounts usage (inSession usage now) with
      | some shown =>
          obtain ⟨inside, kept⟩ := first_of_some usage accounts _ shown sessions
          rw [Option.some_or, ← sessions]
          exact stage_listed usage now accounts 1 _
            (fun a within => (group_one usage now a (notDue a within)).1)
            (fun a within => (group_one usage now a (notDue a within)).2) shown inside kept
      | none =>
          have noSession := first_of_none usage accounts _ sessions
          rw [Option.none_or]
          cases reserves : firstOf accounts usage (withinReserve usage now) with
          | some shown =>
              obtain ⟨inside, kept⟩ := first_of_some usage accounts _ shown reserves
              rw [Option.some_or, ← reserves]
              exact stage_listed usage now accounts 2 _
                (fun a within => (group_two usage now a (notDue a within) (noSession a within)).1)
                (fun a within => (group_two usage now a (notDue a within) (noSession a within)).2)
                shown inside kept
          | none =>
              have noneWithin := first_of_none usage accounts _ reserves
              rw [Option.none_or]
              exact stage_listed usage now accounts 3 _
                (fun a within => (group_three usage now a (notDue a within) (noSession a within)
                  (noneWithin a within)).1)
                (fun a within => (group_three usage now a (notDue a within) (noSession a within)
                  (noneWithin a within)).2) account member free

end Groups

section Stages

variable {accounts : List Account} {usage : UsageMap} {now : Int}

theorem same_candidate (shown chosen : Account)
    (left : firstOf accounts usage (recovering usage now) = some shown)
    (right : (checkAutoFallbackAccounts accounts usage now).head? = some chosen) :
    shown = chosen ↔ windowReset shown now = true ∧ storedResetPassed chosen now = true ∧
      compareResets (resetsAt usage chosen) (resetsAt usage shown) ≠ .gt := by
  have one := foremost_of_head _ _ _ _ left
  have two := foremost_of_head _ _ _ _ right
  have showable := one.admitted
  have choosable := two.admitted
  simp only [recovering, Bool.and_eq_true] at showable choosable
  constructor
  · rintro rfl
    refine ⟨choosable.1.2, showable.2.2, ?_⟩
    exact (compare_resets_agrees _ _).mpr le_rfl
  · rintro ⟨due, passed, noLater⟩
    have shownDue : (shown.autoFallbackEnabled && windowReset shown now &&
        isAccountAvailable shown usage now) = true := by
      simp only [Bool.and_eq_true]
      exact ⟨⟨showable.2.1, due⟩, showable.1⟩
    have chosenListed : recovering usage now chosen = true := by
      simp only [recovering, Bool.and_eq_true]
      exact ⟨choosable.2, choosable.1.1, passed⟩
    have keys := one.least chosen two.mem chosenListed
    have priorities := two.least shown one.mem shownDue
    have same : shown.priority = chosen.priority := by
      rw [groupKey, groupKey, Prod.Lex.toLex_le_toLex] at keys
      rcases keys with less | equal
      · exact absurd less (not_lt.mpr priorities)
      · exact equal.1
    apply foremost_same one two shownDue chosenListed _ same.le
    rw [groupKey, groupKey, Prod.Lex.toLex_le_toLex]
    exact Or.inr ⟨same.symm, (compare_resets_agrees _ _).mp noLater⟩

theorem available_foremost (first : Account)
    (found : (available accounts usage now).head? = some first) :
    Foremost (routingKey usage) (fun a => routingAvailable a usage now) accounts first :=
  (in_turn_iff first).mp found

/-- Accounts alike in their reserve are in the same order on both sides. -/
theorem alike_in_reserve (first : Account) (keep : Account → Bool)
    (found : (available accounts usage now).head? = some first) (kept : keep first = true)
    (within : ∀ a, keep a = true → routingAvailable a usage now = true)
    (alike : ∀ a, keep a = true → isAtReserve a usage = isAtReserve first usage) :
    Foremost (groupKey usage) keep accounts first := by
  apply (available_foremost first found).narrow kept within
  intro a b keptA keptB
  simp only [routingKey, groupKey, Prod.Lex.toLex_le_toLex, alike a keptA, alike b keptB,
    lt_self_iff_false, true_and, false_or]

theorem reserve_decides (first : Account)
    (found : (available accounts usage now).head? = some first) :
    (firstOf accounts usage (withinReserve usage now)).or
        (firstOf accounts usage fun a => routingAvailable a usage now) = some first ↔
      isAtReserve first usage = false ∨
        ∀ a ∈ accounts, routingAvailable a usage now = true → isAtReserve a usage = true := by
  have foremost := available_foremost first found
  have free : routingAvailable first usage now = true := foremost.admitted
  cases reserves : firstOf accounts usage (withinReserve usage now) with
  | some shown =>
      have one := foremost_of_head _ _ _ _ reserves
      have under : routingAvailable shown usage now = true ∧ isAtReserve shown usage = false := by
        simpa [withinReserve] using one.admitted
      simp only [Option.some_or, Option.some.injEq]
      constructor
      · rintro rfl
        exact Or.inl under.2
      · rintro (below | all)
        · have two := alike_in_reserve first (withinReserve usage now) found
            (by simp [withinReserve, free, below]) (fun a kept => by
              simp only [withinReserve, Bool.and_eq_true] at kept
              exact kept.1) (fun a kept => by
              simp only [withinReserve, Bool.and_eq_true, Bool.not_eq_true'] at kept
              exact kept.2.trans below.symm)
          exact foremost_meet one two one.admitted two.admitted
        · exact absurd ((all shown one.mem under.1).symm.trans under.2) (by decide)
  | none =>
      have noneWithin := first_of_none usage accounts _ reserves
      have all : ∀ a ∈ accounts, routingAvailable a usage now = true →
          isAtReserve a usage = true := by
        intro a member free
        simpa [withinReserve, free] using noneWithin a member
      have atReserve := all first foremost.mem free
      have two := alike_in_reserve first
        (fun a => routingAvailable a usage now && isAtReserve a usage) found
        (by simp [free, atReserve]) (fun a kept => by
          simp only [Bool.and_eq_true] at kept
          exact kept.1) (fun a kept => by
            simp only [Bool.and_eq_true] at kept
            exact kept.2.trans atReserve.symm)
      rw [Option.none_or]
      refine iff_of_true ?_ (Or.inr all)
      cases shows : firstOf accounts usage fun a => routingAvailable a usage now with
      | none =>
          exact absurd ((first_of_none usage accounts _ shows first foremost.mem).symm.trans free)
            (by decide)
      | some shown =>
          have one := foremost_of_head _ _ _ _ shows
          refine congrArg some (foremost_meet one two ?_ free)
          simp [one.admitted, all shown one.mem one.admitted]

/-- A session that the load balancer serves is listed as one. -/
theorem served_in_session (session : Account)
    (serves : served (idle accounts now) usage = some session) :
    session ∈ accounts ∧ inSession usage now session = true := by
  obtain ⟨latest, free⟩ := served_active session serves
  obtain ⟨member, live⟩ := List.mem_filter.mp (max_by_key_mem _ _ _ latest)
  obtain ⟨tracked, start, started, begun, within⟩ := (has_active_session_iff _ _ _).mp live
  have provider := (tracked_iff _).mp tracked
  refine ⟨member, ?_⟩
  have free : routingAvailable session usage now = true := free
  simp [inSession, free, isAnthropicFamily, provider, started, begun, within]

-- Where no session is listed, the load balancer serves none either.
theorem unserved (sessions : firstOf accounts usage (inSession usage now) = none) :
    served (idle accounts now) usage = none := by
  apply Option.eq_none_iff_forall_ne_some.mpr
  intro session serves
  obtain ⟨member, live⟩ := served_in_session session serves
  have dead := first_of_none usage accounts _ sessions session member
  exact absurd (live.symm.trans dead) (by decide)

theorem first_available (account : Account) (member : account ∈ accounts)
    (free : routingAvailable account usage now = true) :
    (available accounts usage now).head? ≠ none := by
  rw [available, sort_by_agrees _ _ (compare_usage_aware_agrees usage), ne_eq, head_none_iff]
  intro unavailable
  exact absurd (free.symm.trans (unavailable account member)) (by decide)

/-- Past the candidates the load balancer picks some account, as one is available. -/
theorem later_pick (keep : Account → Bool) (shown : Account)
    (found : firstOf accounts usage keep = some shown)
    (free : ∀ a, keep a = true → routingAvailable a usage now = true) :
    (∀ picked, (served (idle accounts now) usage).or (available accounts usage now).head? =
        some picked → some shown = some picked) ↔ NextSelected accounts usage now shown := by
  obtain ⟨member, kept⟩ := first_of_some usage accounts keep shown found
  rw [← next_selected_iff]
  constructor
  · intro all
    have someFirst := first_available shown member (free shown kept)
    obtain ⟨picked, picks⟩ := Option.ne_none_iff_exists'.mp
      fun none_ => someFirst (Option.or_eq_none_iff.mp none_).2
    rw [picks, all picked picks]
  · intro same picked picks
    exact same.symm.trans picks

theorem next_listed_iff (account : Account) :
    (firstOf accounts usage (inSession usage now)).or
        ((firstOf accounts usage (withinReserve usage now)).or
          (firstOf accounts usage fun a => routingAvailable a usage now)) = some account ↔
      NextListed accounts usage now account := by
  simp only [Option.or_eq_some_iff, firstOf, head_iff_foremost, head_none_iff]
  exact Iff.rfl

theorem orders_meet_iff (accounts : List Account) (usage : UsageMap) (now : Int) :
    (∀ picked, normalPick (idle accounts now) usage = some picked →
      firstListed accounts usage now = some picked) ↔ ordersMeet accounts usage now = true := by
  rw [normal_pick_stages, first_turn]
  change (∀ picked, (checkAutoFallbackAccounts accounts usage now).head?.or _ = _ → _) ↔ _
  unfold firstListed ordersMeet
  cases left : firstOf accounts usage (recovering usage now) with
  | some shown =>
      cases right : (checkAutoFallbackAccounts accounts usage now).head? with
      | some chosen =>
          have meet := same_candidate shown chosen left right
          simp only [Option.some_or, Option.some.injEq, forall_eq', Bool.and_eq_true,
            decide_eq_true_eq]
          exact meet
      | none =>
          simp only [Option.none_or, Option.some_or, decide_eq_true_eq]
          exact later_pick _ shown left fun a kept => (Bool.and_eq_true_iff.mp kept).1
  | none =>
      cases right : (checkAutoFallbackAccounts accounts usage now).head? with
      | some chosen =>
          simp only [Option.some_or, Option.none_or, Option.some.injEq, forall_eq',
            decide_eq_true_eq]
          exact next_listed_iff chosen
      | none =>
          simp only [Option.none_or]
          cases sessions : firstOf accounts usage (inSession usage now) with
          | some shown =>
              simp only [Option.some_or, decide_eq_true_eq]
              exact later_pick _ shown sessions fun a kept => (Bool.and_eq_true_iff.mp kept).1
          | none =>
              rw [unserved sessions]
              simp only [Option.none_or]
              cases first : (available accounts usage now).head? with
              | none => simp
              | some account =>
                  simp only [Option.some.injEq, forall_eq', Option.all_some, Bool.or_eq_true,
                    Bool.not_eq_true', List.all_eq_true]
                  rw [reserve_decides account first]
                  apply or_congr_right
                  apply forall₂_congr
                  intro a _
                  cases routingAvailable a usage now <;> simp

end Stages

/-- Whenever the load balancer selects an account, the dashboard lists that one first. -/
def ListsChoiceFirst (accounts : List Account) (usage : UsageMap) (now : Int) : Prop :=
  ∀ chosen, (select ⟨sessionDurationMs, 0⟩ accounts usage unforced now).accounts.head? =
      some chosen →
    (listed accounts usage now).head?.map AccountRow.id = some chosen.id

/-- The list begins with the load balancer's choice exactly when the groups meet the stages. -/
theorem choice_first_iff (accounts : List Account) (usage : UsageMap) (now : Int)
    (distinct : (accounts.map Account.id).Nodup) :
    ListsChoiceFirst accounts usage now ↔ ordersMeet accounts usage now = true := by
  have first := selected_first accounts usage now
  have heads : ∀ picked, normalPick (idle accounts now) usage = some picked →
      ((listed accounts usage now).head?.map AccountRow.id = some picked.id ↔
        firstListed accounts usage now = some picked) := by
    intro picked picks
    obtain ⟨member, free⟩ := normal_pick_admitted (idle accounts now) usage picked picks
    have staged := staged_head usage now accounts picked member free
    rw [listed_head, staged, Option.map_eq_some_iff]
    constructor
    · rintro ⟨shown, shows, ids⟩
      have shownMember : shown ∈ accounts :=
        (mem_sort_by_key _ _ shown).mp (List.mem_of_mem_head? (staged.trans shows))
      rw [shows, List.inj_on_of_nodup_map distinct shownMember member ids]
    · intro shows
      exact ⟨picked, shows, rfl⟩
  rw [← orders_meet_iff]
  constructor
  · intro lists picked picks
    rw [picks] at first
    obtain ⟨chosen, chooses, ids⟩ := Option.map_eq_some_iff.mp first
    exact (heads picked picks).mp ((lists chosen chooses).trans (congrArg some ids))
  · intro meets chosen chooses
    rw [chooses] at first
    obtain ⟨picked, picks, ids⟩ := Option.map_eq_some_iff.mp first.symm
    exact ((heads picked picks).mpr (meets picked picks)).trans (congrArg some ids)

def session (id : String) (priority start : Int) : Account :=
  { makeAccount id "anthropic" priority with sessionStart := some start }

/-- The most recent session is that of the account with the best priority. -/
theorem recent_session_first :
    ListsChoiceFirst [makeAccount "a" "zai" 0, session "b" 1 1699999000000,
      session "c" 2 1699998000000] noUsage 1700000000000 :=
  (choice_first_iff _ noUsage 1700000000000 (by decide)).mpr (by decide +kernel)

/-- Of two sessions the load balancer takes the more recent, the dashboard the one of the
better priority. -/
theorem older_session_listed_first :
    ¬ ∀ (accounts : List Account) (usage : UsageMap) (now : Int),
      (accounts.map Account.id).Nodup → ListsChoiceFirst accounts usage now := by
  intro first
  have here := first [session "b" 1 1699998000000, session "c" 2 1699999000000] noUsage
    1700000000000 (by decide) (session "c" 2 1699999000000) (by decide +kernel)
  revert here
  decide +kernel

end Ccflare.DashboardOrder
