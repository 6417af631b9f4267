import Ccflare.LoadBalancer
import Ccflare.RoutingPlan
import Mathlib.Algebra.Order.Ring.Int
import Mathlib.Data.Int.ConditionallyCompleteOrder
import Mathlib.Data.Prod.Lex
import Mathlib.Order.BooleanAlgebra.Basic
import Mathlib.Order.WithBot

/-!
Every path of `select` builds a routing plan of the account pool. The rank is
the linear order of (priority, at reserve, reset time), a missing reset last.
The four paths share one argument: the picked account is available, its id is
never changed by a session reset, and the rest is a filtered, sorted pool.
-/

namespace Ccflare.Routing

open MachineNumber LoadBalancer RoutingPlan StableSort

def resetRank (reset : Option Int) : WithTop Int :=
  match reset with
  | some ms => (ms : WithTop Int)
  | none => ⊤

def routingKey (usage : UsageMap) (account : Account) : Int ×ₗ Bool ×ₗ WithTop Int :=
  toLex (account.priority, toLex (Eligibility.isAtReserve account usage,
    resetRank (resetsAt usage account)))

/-- All a session reset may change. -/
def SessionTouched (source chosen : Account) : Prop :=
  chosen = { source with
    sessionStart := chosen.sessionStart
    sessionRequestCount := chosen.sessionRequestCount
    rateLimitReset := chosen.rateLimitReset }

def Available (usage : UsageMap) (now : Int) (account : Account) : Prop :=
  isAccountAvailable account usage now = true

abbrev Routed (usage : UsageMap) (now : Int) (pool plan : List Account) : Prop :=
  Plan Account.id (Available usage now) SessionTouched (routingKey usage) pool plan

abbrev Covered (usage : UsageMap) (now : Int) (pool plan : List Account) : Prop :=
  Cover Account.id (Available usage now) SessionTouched (routingKey usage) pool plan

theorem compare_resets_agrees (a b : Option Int) :
    compareResets a b ≠ .gt ↔ resetRank a ≤ resetRank b := by
  cases a with
  | none => cases b <;> simp [compareResets, resetRank]
  | some ar =>
      cases b with
      | none => simp [compareResets, resetRank]
      | some br => simp [compareResets, resetRank, compare_gt_iff_gt]

theorem compare_usage_aware_agrees (usage : UsageMap) :
    Agrees (compareUsageAware usage) (routingKey usage) := by
  have byReset : Agrees (fun a b => compareResets (resetsAt usage a) (resetsAt usage b))
      (fun a => resetRank (resetsAt usage a)) := fun a b => compare_resets_agrees _ _
  have byReserve := agrees_in_groups (fun a => Eligibility.isAtReserve a usage) byReset
  have byPriority := agrees_in_groups Account.priority byReserve
  intro a b
  rw [routingKey, routingKey, ← byPriority]
  dsimp only [compareUsageAware]
  cases Eligibility.isAtReserve a usage <;> cases Eligibility.isAtReserve b usage <;> rfl

theorem choose_id (strategy : SessionStrategy) (sel : SelectionMeta) (picked : Account)
    (now : Int) : (choose strategy sel picked now).1.id = picked.id := by
  unfold choose maybeResetSession
  split
  · rfl
  · split <;> rfl

theorem choose_touched (strategy : SessionStrategy) (sel : SelectionMeta) (picked : Account)
    (now : Int) : SessionTouched picked (choose strategy sel picked now).1 := by
  unfold SessionTouched choose maybeResetSession
  split
  · rfl
  · split <;> rfl

/-- One spelling alone is the provider whose sessions are tracked. -/
theorem tracked_iff (provider : String) :
    requiresSessionTracking provider = true ↔ provider = "anthropic" := by
  constructor
  · intro tracked
    by_contra other
    -- Every other name is unknown or of a provider that keeps no session.
    unfold requiresSessionTracking Provider.fromStrLoose at tracked
    rw [if_neg other] at tracked
    repeat' split at tracked
    all_goals cases tracked
  · rintro rfl
    decide

theorem has_active_session_iff (strategy : SessionStrategy) (account : Account) (now : Int) :
    hasActiveSession strategy account now = true ↔
      requiresSessionTracking account.provider = true ∧ ∃ start,
        account.sessionStart = some start ∧ start ≤ now ∧
          wrappingSub now start < strategy.sessionDurationMs := by
  unfold hasActiveSession
  cases requiresSessionTracking account.provider with
  | false => simp
  | true => cases account.sessionStart <;> simp

theorem sorted_ranked (usage : UsageMap) (accounts : List Account) :
    (sortAccountsUsageAware usage accounts).Pairwise
      fun a b => routingKey usage a ≤ routingKey usage b :=
  sort_by_ordered _ _ (compare_usage_aware_agrees usage) accounts

variable (strategy : SessionStrategy) (accounts : List Account) (usage : UsageMap)
  (sel : SelectionMeta) (now : Int)

theorem mem_available (account : Account) :
    account ∈ availableAccounts accounts usage now ↔
      account ∈ accounts ∧ Available usage now account := by
  simp [availableAccounts, sortAccountsUsageAware, mem_sort_by, Available]

theorem route_to_covers (picked : Account) (member : picked ∈ accounts)
    (available : Available usage now picked) :
    Covered usage now accounts (routeTo strategy accounts usage sel now picked).accounts := by
  refine cover_of_choice accounts _ picked _ member available (choose_id strategy sel picked now)
    (choose_touched strategy sel picked now) ?_ (sorted_ranked usage _)
  intro account
  simp [sortAccountsUsageAware, mem_sort_by, Available]

theorem route_to_once (picked : Account) (distinct : (accounts.map Account.id).Nodup) :
    ((routeTo strategy accounts usage sel now picked).accounts.map Account.id).Nodup := by
  refine once_of_choice accounts _ _ _ distinct List.filter_sublist (sort_by_perm _ _) ?_
  intro account listed
  rw [sortAccountsUsageAware, mem_sort_by] at listed
  have kept := (List.mem_filter.mp listed).2
  simp only [Bool.and_eq_true, decide_eq_true_eq] at kept
  exact kept.1

theorem chosen_idx_lt (tier : List Account) (nonempty : tier ≠ []) :
    chosenIdx strategy tier < tier.length := by
  have positive := List.length_pos_of_ne_nil nonempty
  unfold chosenIdx
  split
  · exact Nat.mod_lt _ positive
  · exact positive

-- The index is within the tier, so indexing cannot panic and no default is read.
theorem tier_pick_mem (tier : List Account) (top : Account) (member : top ∈ tier) :
    tier.getD (chosenIdx strategy tier) top ∈ tier := by
  have inside := chosen_idx_lt strategy tier (List.ne_nil_of_mem member)
  rw [List.getD_eq_getElem?_getD, List.getElem?_eq_getElem inside, Option.getD_some]
  exact List.getElem_mem inside

theorem tiered_covers :
    Covered usage now accounts (tiered strategy accounts usage sel now).accounts := by
  cases listed : availableAccounts accounts usage now with
  | nil =>
      simp only [tiered, listed]
      apply cover_nil
      intro account member available
      have found := (mem_available accounts usage now account).mpr ⟨member, available⟩
      simp [listed] at found
  | cons top rest =>
      have mem := mem_available accounts usage now
      rw [listed] at mem
      simp only [tiered, listed]
      have picked := tier_pick_mem strategy
        ((top :: rest).filter fun a => a.priority = top.priority) top (by simp)
      obtain ⟨member, available⟩ := (mem _).mp (List.mem_of_mem_filter picked)
      refine cover_of_choice accounts _ _ _ member available
        (choose_id strategy sel _ now) (choose_touched strategy sel _ now) ?_ ?_
      · intro account
        rw [List.mem_filter, mem]
        simp only [decide_eq_true_eq]
        exact ⟨fun h => ⟨h.1.1, h.2, h.1.2⟩, fun h => ⟨⟨h.1, h.2.2⟩, h.2.1⟩⟩
      · have ranked := sorted_ranked usage (accounts.filter fun a => isAccountAvailable a usage now)
        rw [← availableAccounts, listed] at ranked
        exact ranked.filter _

theorem tiered_once (distinct : (accounts.map Account.id).Nodup) :
    ((tiered strategy accounts usage sel now).accounts.map Account.id).Nodup := by
  have sorted := sort_by_perm (compareUsageAware usage)
    (accounts.filter fun a => isAccountAvailable a usage now)
  rw [← sortAccountsUsageAware, ← availableAccounts] at sorted
  unfold tiered
  split
  · exact List.nodup_nil
  · rename_i top rest listed
    rw [listed] at sorted
    have poolDistinct : ((top :: rest).map Account.id).Nodup :=
      (sorted.map _).nodup_iff.mpr (distinct.sublist (List.filter_sublist.map _))
    refine once_of_choice (top :: rest) _ _ _ poolDistinct List.filter_sublist (.refl _) ?_
    intro account kept
    simpa using (List.mem_filter.mp kept).2

theorem fallback_available (candidate : Account)
    (member : candidate ∈ checkAutoFallbackAccounts accounts usage now) :
    candidate ∈ accounts ∧ Available usage now candidate := by
  rw [checkAutoFallbackAccounts, mem_sort_by_key] at member
  obtain ⟨inPool, admitted⟩ := List.mem_filter.mp member
  simp only [Bool.and_eq_true] at admitted
  exact ⟨inPool, admitted.2⟩

theorem active_mem (account : Account)
    (found : activeAccount strategy accounts now = some account) : account ∈ accounts :=
  List.mem_of_mem_filter (max_by_key_mem _ _ _ found)

/-- The three ways a request without an effective pin is routed. -/
theorem select_normally_cases :
    (∃ picked ∈ accounts, Available usage now picked ∧
      selectNormally strategy accounts usage sel now =
        routeTo strategy accounts usage sel now picked) ∨
    selectNormally strategy accounts usage sel now = tiered strategy accounts usage sel now := by
  unfold selectNormally
  split
  · rename_i candidate _ listed
    obtain ⟨member, available⟩ := fallback_available accounts usage now candidate
      (by simp [listed])
    exact Or.inl ⟨candidate, member, available, rfl⟩
  · split
    · rename_i active found
      split
      · rename_i available
        exact Or.inl ⟨active, active_mem strategy accounts now active found, available, rfl⟩
      · exact Or.inr rfl
    · exact Or.inr rfl

theorem select_normally_covers :
    Covered usage now accounts (selectNormally strategy accounts usage sel now).accounts := by
  rcases select_normally_cases strategy accounts usage sel now with
    ⟨picked, member, available, path⟩ | path
  · rw [path]
    exact route_to_covers strategy accounts usage sel now picked member available
  · rw [path]
    exact tiered_covers strategy accounts usage sel now

theorem select_normally_once (distinct : (accounts.map Account.id).Nodup) :
    ((selectNormally strategy accounts usage sel now).accounts.map Account.id).Nodup := by
  rcases select_normally_cases strategy accounts usage sel now with ⟨picked, -, -, path⟩ | path
  · rw [path]
    exact route_to_once strategy accounts usage sel now picked distinct
  · rw [path]
    exact tiered_once strategy accounts usage sel now distinct

theorem forced_mem (account : Account) (found : forcedAccount accounts sel = some account) :
    account ∈ accounts ∧ sel.forceAccountId = some account.id := by
  obtain ⟨forcedId, wanted, hit⟩ := Option.bind_eq_some_iff.mp found
  have same := List.find?_some hit
  simp only [decide_eq_true_eq] at same
  exact ⟨List.mem_of_find?_eq_some hit, same ▸ wanted⟩

/-- A strictly forced account is answered alone, or not at all when unavailable. -/
theorem select_strict (account : Account) (strict : sel.forceAccountStrict = true)
    (found : forcedAccount accounts sel = some account) :
    (select strategy accounts usage sel now).accounts =
      if isAccountAvailable account usage now then [(choose strategy sel account now).1]
      else [] := by
  by_cases available : isAccountAvailable account usage now = true <;>
    simp [select, found, strict, available]

theorem select_unforced (free : sel.forceAccountStrict = false ∨ forcedAccount accounts sel = none) :
    select strategy accounts usage sel now = selectNormally strategy accounts usage sel now ∨
    ∃ picked ∈ accounts, Available usage now picked ∧
      select strategy accounts usage sel now =
        routeTo strategy accounts usage sel now picked := by
  cases found : forcedAccount accounts sel with
  | none => simp [select, found]
  | some account =>
      have relaxed : sel.forceAccountStrict = false := by
        rcases free with relaxed | absent
        · exact relaxed
        · simp [found] at absent
      by_cases available : isAccountAvailable account usage now = true
      · exact Or.inr ⟨account, (forced_mem accounts sel account found).1, available,
          by simp [select, found, relaxed, available]⟩
      · exact Or.inl (by simp [select, found, relaxed, available])

theorem select_covers (free : sel.forceAccountStrict = false ∨ forcedAccount accounts sel = none) :
    Covered usage now accounts (select strategy accounts usage sel now).accounts := by
  rcases select_unforced strategy accounts usage sel now free with
    path | ⟨picked, member, available, path⟩
  · rw [path]
    exact select_normally_covers strategy accounts usage sel now
  · rw [path]
    exact route_to_covers strategy accounts usage sel now picked member available

theorem select_once (distinct : (accounts.map Account.id).Nodup)
    (free : sel.forceAccountStrict = false ∨ forcedAccount accounts sel = none) :
    ((select strategy accounts usage sel now).accounts.map Account.id).Nodup := by
  rcases select_unforced strategy accounts usage sel now free with path | ⟨picked, -, -, path⟩
  · rw [path]
    exact select_normally_once strategy accounts usage sel now distinct
  · rw [path]
    exact route_to_once strategy accounts usage sel now picked distinct

/-- Routing lists exactly the available accounts, whichever path is taken; a
strictly forced account is answered alone or not at all. -/
theorem select_routes_available (distinct : (accounts.map Account.id).Nodup) :
    (∀ account, sel.forceAccountStrict = true → forcedAccount accounts sel = some account →
      (select strategy accounts usage sel now).accounts = [] ∧ ¬ Available usage now account ∨
      ∃ chosen, (select strategy accounts usage sel now).accounts = [chosen] ∧
        Available usage now account ∧ SessionTouched account chosen) ∧
    (sel.forceAccountStrict = false ∨ forcedAccount accounts sel = none →
      Routed usage now accounts (select strategy accounts usage sel now).accounts) := by
  constructor
  · intro account strict found
    rw [select_strict strategy accounts usage sel now account strict found]
    by_cases available : isAccountAvailable account usage now = true
    · exact Or.inr ⟨_, by simp [available], available, choose_touched strategy sel account now⟩
    · exact Or.inl ⟨by simp [available], available⟩
  · intro free
    exact { toCover := select_covers strategy accounts usage sel now free
            once := select_once strategy accounts usage sel now distinct free }

theorem two_accounts_routed :
    Routed (fun _ => none) 1700000000000 [makeAccount "a" "anthropic" 1, makeAccount "b" "zai" 0]
      (select ⟨18000000, 0⟩ [makeAccount "a" "anthropic" 1, makeAccount "b" "zai" 0]
        (fun _ => none) ⟨none, false, false⟩ 1700000000000).accounts :=
  (select_routes_available _ _ _ _ _ (by decide)).2 (Or.inl rfl)

-- An id that no account has makes strict forcing fall through to normal routing,
-- which answers with every available account.
theorem absent_pin_iff (forcedId : String) (absent : ∀ account ∈ accounts, account.id ≠ forcedId)
    (wanted : sel.forceAccountId = some forcedId) :
    (∀ account ∈ (select strategy accounts usage sel now).accounts, account.id = forcedId) ↔
      ∀ account ∈ accounts, isAccountAvailable account usage now = false := by
  have missing : forcedAccount accounts sel = none := by
    simp only [forcedAccount, wanted, Option.bind_some]
    exact List.find?_eq_none.mpr fun account member => by simpa using absent account member
  have cover := select_covers strategy accounts usage sel now (Or.inr missing)
  constructor
  · intro pinned account member
    by_contra available
    have listed := (cover.exact account.id).mpr
      ⟨account, member, rfl, Bool.not_eq_false _ |>.mp available⟩
    obtain ⟨routed, inPlan, same⟩ := List.mem_map.mp listed
    exact absent account member (same ▸ pinned routed inPlan)
  · intro nobody account inPlan
    have empty := (cover_eq_nil _ _ cover).mpr fun row member => by
      simp [Available, nobody row member]
    simp [empty] at inPlan

/-- Strict forcing is strict exactly when the forced id is in the pool, or no
account is available to be routed to in its place. -/
theorem strict_forcing_iff (forcedId : String) (strict : sel.forceAccountStrict = true)
    (wanted : sel.forceAccountId = some forcedId) :
    (∀ account ∈ (select strategy accounts usage sel now).accounts, account.id = forcedId) ↔
      (∃ account ∈ accounts, account.id = forcedId) ∨
        ∀ account ∈ accounts, isAccountAvailable account usage now = false := by
  cases found : forcedAccount accounts sel with
  | some account =>
      obtain ⟨member, same⟩ := forced_mem accounts sel account found
      have isForced : account.id = forcedId := Option.some.inj (same.symm.trans wanted)
      rw [select_strict strategy accounts usage sel now account strict found]
      refine ⟨fun _ => Or.inl ⟨account, member, isForced⟩, fun _ => ?_⟩
      intro routed listed
      split at listed
      · rw [List.mem_singleton] at listed
        rw [listed, choose_id, isForced]
      · simp at listed
  | none =>
      have absent : ∀ account ∈ accounts, account.id ≠ forcedId := by
        simp only [forcedAccount, wanted, Option.bind_some] at found
        exact fun account member => by simpa using List.find?_eq_none.mp found account member
      rw [absent_pin_iff strategy accounts usage sel now forcedId absent wanted]
      constructor
      · exact Or.inr
      · rintro (⟨account, member, same⟩ | nobody)
        · exact absurd same (absent account member)
        · exact nobody

theorem present_pin_strict :
    (select ⟨18000000, 0⟩ [makeAccount "a" "zai" 1, makeAccount "b" "zai" 0]
      (fun _ => none) ⟨some "a", true, true⟩ 1700000000000).accounts ≠ [] ∧
    ∀ account ∈ (select ⟨18000000, 0⟩ [makeAccount "a" "zai" 1, makeAccount "b" "zai" 0]
      (fun _ => none) ⟨some "a", true, true⟩ 1700000000000).accounts, account.id = "a" := by
  constructor
  · decide
  · exact (strict_forcing_iff _ _ _ _ _ "a" rfl rfl).mpr
      (Or.inl ⟨makeAccount "a" "zai" 1, by simp, rfl⟩)

theorem absent_pin_leaks :
    ¬ ∀ account ∈ (select ⟨18000000, 0⟩ [makeAccount "b" "zai" 0]
      (fun _ => none) ⟨some "deleted", true, true⟩ 1700000000000).accounts,
        account.id = "deleted" := by
  decide

end Ccflare.Routing
