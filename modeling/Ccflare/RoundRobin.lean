import Mathlib.Data.List.Rotate
import Ccflare.ProviderSpelling

/-!
Turns within the best tier. Without a pin, a fallback candidate and an available session the
request goes to the tier of the best priority; a tier of several pay-as-you-go accounts takes
turns by a counter, which looks at the place of an account and not at its reserve.
-/

namespace Ccflare.RoundRobin

open MachineNumber Eligibility LoadBalancer Routing RoutingLoop ProviderSpelling StableSort

/-- No forced id is in effect. -/
def Unpinned (accounts : List Account) (usage : UsageMap) (sel : SelectionMeta) (now : Int) : Prop :=
  ∀ account, forcedAccount accounts sel = some account →
    isAccountAvailable account usage now = false ∧ sel.forceAccountStrict = false

/-- The request comes down to the priority tiers. -/
structure TakesTiers (s : Loop) (usage : UsageMap) (sel : SelectionMeta) : Prop where
  unpinned : Unpinned s.accounts usage sel s.now
  noCandidate : checkAutoFallbackAccounts s.accounts usage s.now = []
  noSession : served s usage = none

/-- An available account whose priority no available account exceeds. -/
structure InBestTier (s : Loop) (usage : UsageMap) (account : Account) : Prop where
  listed : account ∈ s.accounts
  available : isAccountAvailable account usage s.now = true
  best : ∀ other ∈ s.accounts, isAccountAvailable other usage s.now = true →
    account.priority ≤ other.priority

section Tier
variable {s : Loop} {usage : UsageMap} {sel : SelectionMeta}

theorem unpinned_pick (unpinned : Unpinned s.accounts usage sel s.now) :
    pick s usage sel = normalPick s usage := by
  unfold pick
  cases found : forcedAccount s.accounts sel with
  | none => rfl
  | some account =>
      obtain ⟨away, lax⟩ := unpinned account found
      simp [away, lax]

theorem tiers_pick (tiers : TakesTiers s usage sel) : pick s usage sel = tierPick s usage := by
  rw [unpinned_pick tiers.unpinned, normal_pick_stages, tiers.noCandidate, tiers.noSession]
  rfl

theorem unpinned_listing (unpinned : Unpinned s.accounts usage sel s.now) :
    answeredAlone s sel = false := by
  unfold answeredAlone
  cases found : forcedAccount s.accounts sel with
  | none => simp
  | some account => simp [(unpinned account found).2]

/-- The tier holds the accounts of the best priority. -/
theorem mem_top_tier (account : Account) :
    account ∈ topTier usage s.now s.accounts ↔ InBestTier s usage account := by
  have members := mem_available s.accounts usage s.now
  have ranked := sorted_ranked usage (s.accounts.filter fun a => isAccountAvailable a usage s.now)
  unfold topTier
  rw [← availableAccounts] at ranked
  cases listed : availableAccounts s.accounts usage s.now with
  | nil =>
      rw [listed] at members
      constructor
      · intro member
        cases member
      · intro best
        exact absurd ((members account).mpr ⟨best.listed, best.available⟩) List.not_mem_nil
  | cons top rest =>
      rw [listed] at members ranked
      have first : ∀ other ∈ top :: rest, top.priority ≤ other.priority := by
        intro other member
        rcases List.mem_cons.mp member with rfl | later
        · exact le_rfl
        · exact Prod.Lex.monotone_fst _ _ ((List.pairwise_cons.mp ranked).1 other later)
      rw [List.mem_filter, members, decide_eq_true_eq]
      constructor
      · rintro ⟨⟨member, available⟩, same⟩
        refine ⟨member, available, fun other listedOther availableOther => ?_⟩
        rw [same]
        exact first other ((members other).mpr ⟨listedOther, availableOther⟩)
      · intro best
        have head := (members top).mp List.mem_cons_self
        refine ⟨⟨best.listed, best.available⟩, le_antisymm (best.best top head.1 head.2) ?_⟩
        exact first account ((members account).mpr ⟨best.listed, best.available⟩)

/-- Within the tier the accounts under their reserve come first. -/
theorem top_tier_ordered :
    (topTier usage s.now s.accounts).Pairwise
      fun a b => isAtReserve a usage ≤ isAtReserve b usage := by
  have ranked := sorted_ranked usage (s.accounts.filter fun a => isAccountAvailable a usage s.now)
  unfold topTier
  rw [← availableAccounts] at ranked
  cases listed : availableAccounts s.accounts usage s.now with
  | nil => exact List.Pairwise.nil
  | cons top rest =>
      rw [listed] at ranked
      refine List.Pairwise.imp_of_mem ?_ (ranked.filter _)
      intro a b inTier alsoInTier order
      have same : a.priority = b.priority := by
        have left := (List.mem_filter.mp inTier).2
        have right := (List.mem_filter.mp alsoInTier).2
        rw [decide_eq_true_eq] at left right
        rw [left, right]
      rcases Prod.Lex.toLex_le_toLex.mp order with less | ⟨-, rest⟩
      · exact absurd same (ne_of_lt less)
      · rcases Prod.Lex.toLex_le_toLex.mp rest with less | ⟨equal, -⟩
        · exact le_of_lt less
        · exact le_of_eq equal

/-- The head of the selection is the account whose turn it is, its session looked at. -/
theorem tiers_head (tiers : TakesTiers s usage sel) :
    (selection s usage sel).accounts.head? =
      (topTier usage s.now s.accounts)[chosenIdx s.strategy (topTier usage s.now s.accounts)]?.map
        fun account => (choose s.strategy sel account s.now).1 := by
  rw [selection_accounts, tiers_pick tiers, turn_of_tier]
  cases (topTier usage s.now s.accounts)[chosenIdx s.strategy
    (topTier usage s.now s.accounts)]? with
  | none => rfl
  | some account => rfl

theorem chosen_reserve (strategy : SessionStrategy) (account : Account) (now : Int) :
    isAtReserve (choose strategy sel account now).1 usage = isAtReserve account usage := by
  rw [choose_touched strategy sel account now]
  rfl

theorem chosen_priority (strategy : SessionStrategy) (account : Account) (now : Int) :
    (choose strategy sel account now).1.priority = account.priority := by
  rw [choose_touched strategy sel account now]

end Tier

/-- Where a flag is raised late in a list, the rows without it are its first ones. -/
theorem early_iff {Row : Type} (flag : Row → Bool) (rows : List Row)
    (ordered : rows.Pairwise fun a b => flag a ≤ flag b) (index : Nat) (inside : index < rows.length) :
    flag rows[index] = false ↔ index < (rows.filter fun row => !flag row).length := by
  induction rows generalizing index with
  | nil => exact absurd inside (Nat.not_lt_zero _)
  | cons row rest ih =>
      obtain ⟨later, tail⟩ := List.pairwise_cons.mp ordered
      cases raised : flag row with
      | true =>
          have all : ∀ other ∈ rest, flag other = true := by
            intro other member
            have order := later other member
            rw [raised] at order
            exact Bool.eq_true_of_true_le order
          have none : (row :: rest).filter (fun row => !flag row) = [] := by
            apply List.filter_eq_nil_iff.mpr
            intro other member
            rcases List.mem_cons.mp member with rfl | member
            · simp [raised]
            · simp [all other member]
          rw [none]
          have here : flag (row :: rest)[index] = true := by
            rcases List.mem_cons.mp (List.getElem_mem inside) with same | member
            · rw [same, raised]
            · exact all _ member
          simp [here]
      | false =>
          rw [List.filter_cons_of_pos (by simp [raised]), List.length_cons]
          cases index with
          | zero => simp [raised]
          | succ index =>
              rw [List.getElem_cons_succ, ih tail index (Nat.lt_of_succ_lt_succ inside)]
              omega

/-- Turns are not taken, or the counter points to one of the accounts under their reserve. -/
def TurnUnderReserve (s : Loop) (usage : UsageMap) : Prop :=
  let tier := topTier usage s.now s.accounts
  takesTurns tier = true →
    s.strategy.roundRobinCounter % tier.length <
      (tier.filter fun account => !isAtReserve account usage).length

/-- The head is under its reserve, and of the best priority. -/
def RespectsReserve (s : Loop) (usage : UsageMap) (sel : SelectionMeta) : Prop :=
  ∃ head ∈ (selection s usage sel).accounts.head?, isAtReserve head usage = false ∧
    ∀ account, InBestTier s usage account → head.priority = account.priority

/-- A tier with an account under its reserve puts one of these first exactly where the turn
is one of theirs. -/
theorem reserve_respected_iff (s : Loop) (usage : UsageMap) (sel : SelectionMeta)
    (tiers : TakesTiers s usage sel) (under : Account) (inTier : InBestTier s usage under)
    (spare : isAtReserve under usage = false) :
    RespectsReserve s usage sel ↔ TurnUnderReserve s usage := by
  have member := (mem_top_tier under).mpr inTier
  have inside := chosen_idx_lt s.strategy _ (List.ne_nil_of_mem member)
  have ordered : (topTier usage s.now s.accounts).Pairwise
      fun a b => isAtReserve a usage ≤ isAtReserve b usage := top_tier_ordered
  have early := early_iff _ _ ordered _ inside
  have some := List.length_pos_of_mem (List.mem_filter.mpr ⟨member, by simp [spare]⟩ :
    under ∈ (topTier usage s.now s.accounts).filter fun account => !isAtReserve account usage)
  have head := tiers_head tiers
  rw [List.getElem?_eq_getElem inside, Option.map_some] at head
  have picked := (mem_top_tier _).mp (List.getElem_mem inside)
  have respects : RespectsReserve s usage sel ↔
      isAtReserve (topTier usage s.now s.accounts)[chosenIdx s.strategy
        (topTier usage s.now s.accounts)] usage = false := by
    constructor
    · rintro ⟨first, found, reserve, -⟩
      rw [head] at found
      obtain rfl := Option.some.inj found
      rwa [chosen_reserve] at reserve
    · intro reserve
      refine ⟨_, head, by rwa [chosen_reserve], fun account best => ?_⟩
      rw [chosen_priority]
      exact le_antisymm (picked.best account best.listed best.available)
        (best.best _ picked.listed picked.available)
  rw [respects, early]
  unfold TurnUnderReserve chosenIdx
  by_cases turns : takesTurns (topTier usage s.now s.accounts) = true
  · simp [turns]
  · simp [turns, some]

/-- Two accounts of one tier, one with its reserve reached. -/
def spareAccount : Account := { makeAccount "a" "zai" 0 with reserve5h := 20 }

def reachedAccount : Account := { makeAccount "b" "zai" 0 with reserve5h := 20 }

def someUsage : UsageMap := fun id =>
  if id = "a" then some ⟨.finite 10, none, []⟩
  else if id = "b" then some ⟨.finite 95, none, []⟩ else none

def twoAccounts (counter : Nat) : Loop :=
  ⟨[spareAccount, reachedAccount], ⟨18000000, counter⟩, 1700000000000⟩

theorem two_accounts_tiered (counter : Nat) : TakesTiers (twoAccounts counter) someUsage unforced where
  unpinned account found := by cases found
  noCandidate := by
    change checkAutoFallbackAccounts [spareAccount, reachedAccount] someUsage 1700000000000 = []
    decide +kernel
  noSession := by
    change (activeAccount ⟨18000000, counter⟩ [spareAccount, reachedAccount] 1700000000000).filter
      (fun a => isAccountAvailable a someUsage 1700000000000) = none
    have none_ : activeAccount ⟨18000000, counter⟩ [spareAccount, reachedAccount] 1700000000000 =
        none := rfl
    rw [none_]
    rfl

theorem spare_in_tier (counter : Nat) : InBestTier (twoAccounts counter) someUsage spareAccount where
  listed := List.mem_cons_self
  available := by
    change isAccountAvailable spareAccount someUsage 1700000000000 = true
    decide +kernel
  best other member _ := by
    rcases List.mem_cons.mp member with rfl | member
    · exact le_rfl
    · rw [List.mem_singleton.mp member]
      exact le_rfl

theorem first_turn_respected : RespectsReserve (twoAccounts 0) someUsage unforced :=
  (reserve_respected_iff (twoAccounts 0) someUsage unforced (two_accounts_tiered 0) spareAccount
    (spare_in_tier 0) (by decide +kernel)).mpr (by
      unfold TurnUnderReserve
      decide +kernel)

/-- The second turn is that of the account that has reached its reserve. -/
theorem second_turn_ignores_reserve :
    TakesTiers (twoAccounts 1) someUsage unforced ∧
      InBestTier (twoAccounts 1) someUsage spareAccount ∧
      isAtReserve spareAccount someUsage = false ∧
      ¬ RespectsReserve (twoAccounts 1) someUsage unforced := by
  refine ⟨two_accounts_tiered 1, spare_in_tier 1, by decide +kernel, ?_⟩
  rintro ⟨head, found, spare, -⟩
  have second : (selection (twoAccounts 1) someUsage unforced).accounts.head? =
      some reachedAccount := by decide +kernel
  rw [second] at found
  obtain rfl := Option.some.inj found
  revert spare
  decide +kernel

section Fairness
variable {s : Loop} {usage : UsageMap} {sel : SelectionMeta}

/-- Calls one after the other, on the same inputs. -/
def consecutive (s : Loop) (usage : UsageMap) (sel : SelectionMeta) : Nat → List Selection
  | 0 => []
  | count + 1 =>
      let first := selection s usage sel
      first :: consecutive { s with strategy := first.strategy } usage sel count

/-- A tier of several pay-as-you-go accounts. -/
def PaysAsItGoes (s : Loop) (usage : UsageMap) : Prop :=
  let tier := topTier usage s.now s.accounts
  2 ≤ tier.length ∧ ∀ account ∈ tier, requiresSessionTracking account.provider = false

theorem turns_taken (pays : PaysAsItGoes s usage) :
    takesTurns (topTier usage s.now s.accounts) = true := by
  obtain ⟨several, untracked⟩ := pays
  simp only [takesTurns, Bool.and_eq_true, decide_eq_true_eq, List.all_eq_true, Bool.not_eq_true']
  exact ⟨several, untracked⟩

theorem untracked_chosen (strategy : SessionStrategy) (account : Account) (now : Int)
    (untracked : requiresSessionTracking account.provider = false) :
    (choose strategy sel account now).1 = account := by
  have other : account.provider ≠ Provider.anthropic.toString := by
    intro same
    rw [same] at untracked
    revert untracked
    decide
  have kept : (maybeResetSession strategy account now).1 = account := by
    simp [maybeResetSession, fixedDurationExpired, rateLimitWindowReset, untracked, other]
  unfold choose
  split
  · rfl
  · exact kept

theorem tiers_select (tiers : TakesTiers s usage sel) :
    selection s usage sel = tiered s.strategy s.accounts usage sel s.now := by
  have normally : selectNormally s.strategy s.accounts usage sel s.now =
      tiered s.strategy s.accounts usage sel s.now := by
    unfold selectNormally
    rw [tiers.noCandidate]
    cases found : activeAccount s.strategy s.accounts s.now with
    | none => rfl
    | some active =>
        have away : isAccountAvailable active usage s.now = false := by
          have none_ := tiers.noSession
          unfold served at none_
          rw [found] at none_
          simpa [Option.filter_some] using none_
        simp [away]
  unfold selection select
  cases found : forcedAccount s.accounts sel with
  | none => exact normally
  | some account =>
      obtain ⟨away, lax⟩ := tiers.unpinned account found
      simpa [away, lax] using normally

/-- A call moves the counter on by one. -/
theorem counter_advanced (tiers : TakesTiers s usage sel) (pays : PaysAsItGoes s usage) :
    (selection s usage sel).strategy =
      { s.strategy with
        roundRobinCounter := wrapUsize (s.strategy.roundRobinCounter + 1) } := by
  have turns := turns_taken pays
  rw [tiers_select tiers]
  unfold tiered
  unfold topTier at turns
  cases listed : availableAccounts s.accounts usage s.now with
  | nil =>
      rw [listed] at turns
      cases turns
  | cons top rest =>
      rw [listed] at turns
      exact if_pos turns

theorem turn_head (tiers : TakesTiers s usage sel) (pays : PaysAsItGoes s usage) :
    (selection s usage sel).accounts.head? =
      (topTier usage s.now s.accounts)[s.strategy.roundRobinCounter %
        (topTier usage s.now s.accounts).length]? := by
  have index : chosenIdx s.strategy (topTier usage s.now s.accounts) =
      s.strategy.roundRobinCounter % (topTier usage s.now s.accounts).length :=
    if_pos (turns_taken pays)
  rw [tiers_head tiers, index]
  cases found : (topTier usage s.now s.accounts)[s.strategy.roundRobinCounter %
      (topTier usage s.now s.accounts).length]? with
  | none => rfl
  | some account =>
      rw [Option.map_some, untracked_chosen]
      exact pays.2 account (List.mem_of_getElem? found)

/-- The counter is all that a call changes. -/
theorem tiers_again (counter : Nat) (tiers : TakesTiers s usage sel) :
    TakesTiers { s with strategy := { s.strategy with roundRobinCounter := counter } } usage sel where
  unpinned := tiers.unpinned
  noCandidate := tiers.noCandidate
  noSession := tiers.noSession

theorem consecutive_heads (count : Nat) (tiers : TakesTiers s usage sel)
    (pays : PaysAsItGoes s usage)
    (unwrapped : s.strategy.roundRobinCounter + count ≤ 18446744073709551616) :
    (consecutive s usage sel count).map (fun call => call.accounts.head?) =
      (List.range count).map fun turn =>
        (topTier usage s.now s.accounts)[(turn + s.strategy.roundRobinCounter) %
          (topTier usage s.now s.accounts).length]? := by
  induction count generalizing s with
  | zero => rfl
  | succ count ih =>
      rw [consecutive, List.map_cons, turn_head tiers pays, counter_advanced tiers pays,
        List.range_succ_eq_map, List.map_cons, List.map_map, Nat.zero_add]
      congr 1
      cases count with
      | zero => rfl
      | succ count =>
          have next : wrapUsize (s.strategy.roundRobinCounter + 1) =
              s.strategy.roundRobinCounter + 1 := Nat.mod_eq_of_lt (by omega)
          rw [next]
          have later := ih (tiers_again (s.strategy.roundRobinCounter + 1) tiers) pays (by
            dsimp only
            omega)
          rw [later]
          apply List.map_congr_left
          intro turn _
          simp only [Function.comp_apply, Nat.succ_eq_add_one]
          congr 2
          omega

/-- A round of turns from anywhere is the tier, read from there around. -/
theorem round_of_turns {Row : Type} (rows : List Row) (start : Nat) :
    ((List.range rows.length).map fun turn => rows[(turn + start) % rows.length]?) =
      (rows.rotate start).map some := by
  apply List.ext_getElem
  · simp
  · intro turn left right
    have inside : turn < rows.length := by simpa using left
    have wrapped : (turn + start) % rows.length < rows.length := Nat.mod_lt _ (by omega)
    simp only [List.getElem_map, List.getElem_range, List.getElem_rotate]
    exact List.getElem?_eq_getElem wrapped

theorem tiers_unforced (tiers : TakesTiers s usage sel) :
    sel.forceAccountStrict = false ∨ forcedAccount s.accounts sel = none := by
  cases found : forcedAccount s.accounts sel with
  | none => exact Or.inr rfl
  | some account => exact Or.inl (tiers.unpinned account found).2

theorem call_lists_all (tiers : TakesTiers s usage sel) (pays : PaysAsItGoes s usage)
    (distinct : (s.accounts.map Account.id).Nodup) :
    (selection s usage sel).accounts.Perm (availableAccounts s.accounts usage s.now) := by
  have head := turn_head tiers pays
  have listed := selection_accounts s usage sel
  have sorted : (availableAccounts s.accounts usage s.now).Perm
      (s.accounts.filter fun a => isAccountAvailable a usage s.now) :=
    sort_by_perm (compareUsageAware usage) _
  have ids : ((availableAccounts s.accounts usage s.now).map Account.id).Nodup :=
    (sorted.map _).nodup_iff.mpr (distinct.sublist (List.filter_sublist.map _))
  have inside : s.strategy.roundRobinCounter % (topTier usage s.now s.accounts).length <
      (topTier usage s.now s.accounts).length := Nat.mod_lt _ (by have several := pays.1; omega)
  rw [List.getElem?_eq_getElem inside] at head
  have inTier := (mem_top_tier _).mp (List.getElem_mem inside)
  have member := (mem_available s.accounts usage s.now _).mpr ⟨inTier.listed, inTier.available⟩
  rw [tiers_pick tiers] at listed
  cases picked : tierPick s usage with
  | none =>
      rw [listed, picked] at head
      cases head
  | some account =>
      rw [picked] at listed
      have first : (choose s.strategy sel account s.now).1 =
          (topTier usage s.now s.accounts)[s.strategy.roundRobinCounter %
            (topTier usage s.now s.accounts).length] := by
        rw [listed] at head
        exact Option.some.inj head
      have sameId := choose_id s.strategy sel account s.now
      rw [first] at sameId
      rw [listed]
      simp only [listing, fallbacks, unpinned_listing tiers.unpinned, Option.elim_some,
        Bool.false_eq_true, if_false]
      rw [first, ← sameId]
      generalize (topTier usage s.now s.accounts)[s.strategy.roundRobinCounter %
        (topTier usage s.now s.accounts).length] = turn at member ⊢
      have rowsDistinct := List.Nodup.of_map _ ids
      refine (List.perm_ext_iff_of_nodup ?_ rowsDistinct).mpr fun row => ?_
      · rw [List.nodup_cons]
        exact ⟨fun repeated => by simp at repeated, rowsDistinct.filter _⟩
      · rw [List.mem_cons, List.mem_filter]
        constructor
        · rintro (rfl | ⟨here, -⟩)
          · exact member
          · exact here
        · intro here
          by_cases same : row.id = turn.id
          · exact Or.inl (List.inj_on_of_nodup_map ids here member same)
          · exact Or.inr ⟨here, by simpa using same⟩

theorem call_kept (count : Nat) (tiers : TakesTiers s usage sel) (pays : PaysAsItGoes s usage)
    (holds : Selection → Prop)
    (each : ∀ counter, holds (selection
      { s with strategy := { s.strategy with roundRobinCounter := counter } } usage sel)) :
    ∀ call ∈ consecutive s usage sel count, holds call := by
  induction count generalizing s with
  | zero => exact fun call member => absurd member List.not_mem_nil
  | succ count ih =>
      intro call member
      rcases List.mem_cons.mp member with rfl | later
      · exact each s.strategy.roundRobinCounter
      · rw [counter_advanced tiers pays] at later
        exact ih (tiers_again (wrapUsize (s.strategy.roundRobinCounter + 1)) tiers) pays each call
          later

/-- A round of calls in a tier of pay-as-you-go accounts has each of them as head exactly once,
and every call lists every available account. -/
theorem turns_are_fair (tiers : TakesTiers s usage sel) (pays : PaysAsItGoes s usage)
    (unwrapped : s.strategy.roundRobinCounter + (topTier usage s.now s.accounts).length ≤
      18446744073709551616) :
    ((consecutive s usage sel (topTier usage s.now s.accounts).length).map
        fun call => call.accounts.head?).Perm ((topTier usage s.now s.accounts).map some) ∧
    ∀ call ∈ consecutive s usage sel (topTier usage s.now s.accounts).length,
      (∀ id, id ∈ call.accounts.map Account.id ↔ ∃ account ∈ s.accounts, account.id = id ∧
        isAccountAvailable account usage s.now = true) ∧
      ((s.accounts.map Account.id).Nodup →
        call.accounts.Perm (availableAccounts s.accounts usage s.now)) := by
  constructor
  · rw [consecutive_heads _ tiers pays unwrapped, round_of_turns]
    exact (List.rotate_perm _ _).map some
  · refine call_kept _ tiers pays _ fun counter => ⟨?_, ?_⟩
    · exact (select_covers _ _ _ _ _ (tiers_unforced (tiers_again counter tiers))).exact
    · intro distinct
      exact call_lists_all (tiers_again counter tiers) pays distinct

end Fairness

theorem two_accounts_take_turns :
    ((consecutive (twoAccounts 5) someUsage unforced 2).map fun call => call.accounts.head?).Perm
      [some spareAccount, some reachedAccount] := by
  have tier : topTier someUsage 1700000000000 [spareAccount, reachedAccount] =
      [spareAccount, reachedAccount] := by decide +kernel
  have pays : PaysAsItGoes (twoAccounts 5) someUsage := by
    change 2 ≤ (topTier someUsage 1700000000000 [spareAccount, reachedAccount]).length ∧
      ∀ account ∈ topTier someUsage 1700000000000 [spareAccount, reachedAccount],
        requiresSessionTracking account.provider = false
    rw [tier]
    exact ⟨by decide, by decide +kernel⟩
  have fair := (turns_are_fair (two_accounts_tiered 5) pays (by
    change 5 + (topTier someUsage 1700000000000 [spareAccount, reachedAccount]).length ≤ _
    rw [tier]
    decide)).1
  change ((consecutive (twoAccounts 5) someUsage unforced
    (topTier someUsage 1700000000000 [spareAccount, reachedAccount]).length).map _).Perm
      ((topTier someUsage 1700000000000 [spareAccount, reachedAccount]).map some) at fair
  rwa [tier] at fair

end Ccflare.RoundRobin
