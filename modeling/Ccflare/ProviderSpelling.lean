import Ccflare.RoutingLoop

/-!
Accounts of one provider are stored under two spellings. Eligibility and the order of the
accounts do not tell them apart, as they ask for the family of the provider; the sessions and
the taking of turns do, as the loose parser knows one of the spellings only. Two lists that
differ in spelling are followed through the selection side by side.
-/

namespace Ccflare.ProviderSpelling

open MachineNumber Eligibility LoadBalancer Routing RoutingLoop StableSort

/-- The same account, or the same under the other spelling. -/
def Respelled (account other : Account) : Prop :=
  other = account ∨
    account.provider = "claude-oauth" ∧ other = { account with provider := "anthropic" }

/-- The two tests of `maybe_reset_session`. -/
def startsAnew (strategy : SessionStrategy) (account : Account) (now : Int) : Bool :=
  fixedDurationExpired strategy account now || rateLimitWindowReset account now

section Condition

variable (strategy : SessionStrategy) (usage : UsageMap) (sel : SelectionMeta) (now : Int)

def startsAlike (account other : Account) : Bool :=
  sel.bypassSession || startsAnew strategy account now == startsAnew strategy other now

def sameChoice : Option Account → Option Account → Bool
  | some account, some other =>
      decide (account.id = other.id) && startsAlike strategy sel now account other
  | none, none => true
  | some _, none | none, some _ => false

/-- The accounts of the best priority, among which turns may be taken. -/
def topTier (accounts : List Account) : List Account :=
  match availableAccounts accounts usage now with
  | [] => []
  | top :: rest => (top :: rest).filter fun a => a.priority = top.priority

/-- Without a pin or a candidate: a session that one spelling alone shows has to be that of
the account the other comes to; in the tiers turns have to be taken alike. Ids may repeat in a
list, so two rows are the same choice by their ids and not by their places. -/
def sessionsAlike (accounts others : List Account) : Bool :=
  let left : Loop := ⟨accounts, strategy, now⟩
  let right : Loop := ⟨others, strategy, now⟩
  match served left usage, served right usage with
  | some account, some other => sameChoice strategy sel now (some account) (some other)
  | some account, none => sameChoice strategy sel now (some account) (tierPick right usage)
  | none, some other => sameChoice strategy sel now (tierPick left usage) (some other)
  | none, none =>
      match tierPick left usage, tierPick right usage with
      | some account, some other =>
          (takesTurns (topTier usage now accounts) == takesTurns (topTier usage now others) ||
            decide (account.id = other.id)) && startsAlike strategy sel now account other
      | _, _ => true

def stagesAlike (accounts others : List Account) : Bool :=
  match (checkAutoFallbackAccounts accounts usage now).head?,
      (checkAutoFallbackAccounts others usage now).head? with
  | some account, some other => startsAlike strategy sel now account other
  | _, _ => sessionsAlike strategy usage sel now accounts others

/-- A pinned account or a fallback candidate is the same under both spellings, so its session
alone matters. -/
def routesAlike (accounts others : List Account) : Bool :=
  match forcedAccount accounts sel, forcedAccount others sel with
  | some account, some other =>
      if isAccountAvailable account usage now then startsAlike strategy sel now account other
      else sel.forceAccountStrict || stagesAlike strategy usage sel now accounts others
  | _, _ => stagesAlike strategy usage sel now accounts others

/-- The same ids in the same order, and the same resets. -/
def SameRouting (accounts others : List Account) : Prop :=
  (select strategy accounts usage sel now).accounts.map Account.id =
      (select strategy others usage sel now).accounts.map Account.id ∧
    (select strategy accounts usage sel now).resets =
      (select strategy others usage sel now).resets

end Condition

section Rows

variable {account other : Account}

theorem Respelled.id_eq (respelled : Respelled account other) : account.id = other.id := by
  rcases respelled with rfl | ⟨-, rfl⟩ <;> rfl

theorem Respelled.priority_eq (respelled : Respelled account other) :
    account.priority = other.priority := by
  rcases respelled with rfl | ⟨-, rfl⟩ <;> rfl

theorem respelled_overage (spelled : account.provider = "claude-oauth")
    (info : RoutingUsageInfo) :
    isAtOverage { account with provider := "anthropic" } info = isAtOverage account info := by
  have family : isAnthropicFamily "anthropic" = isAnthropicFamily account.provider := by
    rw [spelled]
    decide
  simp only [isAtOverage, family]

theorem respelled_reserve (spelled : account.provider = "claude-oauth") (usage : UsageMap) :
    isAtReserve { account with provider := "anthropic" } usage = isAtReserve account usage := by
  have family : isAnthropicFamily "anthropic" = isAnthropicFamily account.provider := by
    rw [spelled]
    decide
  have threshold : ∀ full kind,
      windowThreshold { account with provider := "anthropic" } full kind =
        windowThreshold account full kind := by
    intro full kind
    cases kind <;> simp only [windowThreshold, family]
  simp only [isAtReserve, threshold]

theorem Respelled.reserve_eq (respelled : Respelled account other) (usage : UsageMap) :
    isAtReserve account usage = isAtReserve other usage := by
  rcases respelled with rfl | ⟨spelled, rfl⟩
  · rfl
  · exact (respelled_reserve spelled usage).symm

theorem Respelled.available_eq (respelled : Respelled account other) (usage : UsageMap)
    (now : Int) : isAccountAvailable account usage now = isAccountAvailable other usage now := by
  rcases respelled with rfl | ⟨spelled, rfl⟩
  · rfl
  · have overage : overageBlocked { account with provider := "anthropic" } usage =
        overageBlocked account usage := by
      simp only [overageBlocked, funext (respelled_overage spelled)]
    have reserve : hardReserveBlocked { account with provider := "anthropic" } usage =
        hardReserveBlocked account usage := by
      simp only [hardReserveBlocked, respelled_reserve spelled]
      rfl
    unfold isAccountAvailable evaluateAccountEligibility blockReasons
    rw [overage, reserve]
    rfl

theorem Respelled.window_eq (respelled : Respelled account other) (now : Int) :
    windowReset account now = windowReset other now := by
  rcases respelled with rfl | ⟨-, rfl⟩ <;> rfl

theorem Respelled.fallback_eq (respelled : Respelled account other) :
    account.autoFallbackEnabled = other.autoFallbackEnabled := by
  rcases respelled with rfl | ⟨-, rfl⟩ <;> rfl

theorem respelled_compare (usage : UsageMap) (a b a' b' : Account) (left : Respelled a a')
    (right : Respelled b b') : compareUsageAware usage a b = compareUsageAware usage a' b' := by
  simp only [compareUsageAware, resetsAt, left.priority_eq, right.priority_eq,
    left.reserve_eq usage, right.reserve_eq usage, left.id_eq, right.id_eq]

end Rows

section Lists

variable {strategy : SessionStrategy} {usage : UsageMap} {sel : SelectionMeta} {now : Int}
  {accounts others : List Account}

theorem head_related (all : List.Forall₂ Respelled accounts others) :
    Option.Rel Respelled accounts.head? others.head? := by
  cases all with
  | nil => exact .none
  | cons here _ => exact .some here

theorem filter_related (keep keep' : Account → Bool)
    (same : ∀ account other, Respelled account other → keep account = keep' other)
    (all : List.Forall₂ Respelled accounts others) :
    List.Forall₂ Respelled (accounts.filter keep) (others.filter keep') := by
  apply List.rel_filter _ all
  intro account other here
  change keep account = true ↔ keep' other = true
  rw [same account other here]

theorem ids_related (all : List.Forall₂ Respelled accounts others) :
    accounts.map Account.id = others.map Account.id := by
  induction all with
  | nil => rfl
  | cons here _ ih => rw [List.map_cons, List.map_cons, here.id_eq, ih]

theorem forced_related (all : List.Forall₂ Respelled accounts others) :
    Option.Rel Respelled (forcedAccount accounts sel) (forcedAccount others sel) := by
  unfold forcedAccount
  cases sel.forceAccountId with
  | none => exact .none
  | some forcedId =>
      simp only [Option.bind_some, ← List.head?_filter]
      apply head_related
      apply filter_related _ _ _ all
      intro account other here
      rw [here.id_eq]

theorem available_related (all : List.Forall₂ Respelled accounts others) :
    List.Forall₂ Respelled (availableAccounts accounts usage now)
      (availableAccounts others usage now) := by
  apply sort_by_related _ _ (respelled_compare usage)
  exact filter_related _ _ (fun _ _ here => here.available_eq usage now) all

theorem fallback_related (all : List.Forall₂ Respelled accounts others) :
    List.Forall₂ Respelled (checkAutoFallbackAccounts accounts usage now)
      (checkAutoFallbackAccounts others usage now) := by
  apply sort_by_key_related _ _ fun _ _ here => here.priority_eq
  apply filter_related _ _ _ all
  intro account other here
  rw [here.fallback_eq, here.window_eq now, here.available_eq usage now]

theorem tier_related (all : List.Forall₂ Respelled accounts others) :
    List.Forall₂ Respelled (topTier usage now accounts) (topTier usage now others) := by
  have pool : List.Forall₂ Respelled (availableAccounts accounts usage now)
      (availableAccounts others usage now) := available_related all
  unfold topTier
  generalize availableAccounts accounts usage now = left at pool ⊢
  generalize availableAccounts others usage now = right at pool ⊢
  cases pool with
  | nil => exact .nil
  | cons here rest =>
      apply filter_related _ _ _ (.cons here rest)
      intro account other same
      rw [same.priority_eq, here.priority_eq]

/-- The account whose turn it is. -/
theorem turn_of_tier (s : Loop) :
    tierPick s usage = (topTier usage s.now s.accounts)[chosenIdx s.strategy
      (topTier usage s.now s.accounts)]? := by
  unfold tierPick topTier
  cases availableAccounts s.accounts usage s.now with
  | nil => rfl
  | cons top rest =>
      have inside := chosen_idx_lt s.strategy
        ((top :: rest).filter fun a => a.priority = top.priority) (by simp)
      dsimp only
      rw [List.getD_eq_getElem?_getD, List.getElem?_eq_getElem inside]
      rfl

theorem turn_related (all : List.Forall₂ Respelled accounts others) (index : Nat) :
    Option.Rel Respelled accounts[index]? others[index]? := by
  induction all generalizing index with
  | nil => exact .none
  | cons here _ ih =>
      cases index with
      | zero => exact .some here
      | succ index => exact ih index

theorem choose_resets_eq (account : Account) :
    (choose strategy sel account now).2 =
      if sel.bypassSession || !startsAnew strategy account now then [] else [⟨account.id, now⟩] := by
  unfold choose maybeResetSession startsAnew
  cases sel.bypassSession with
  | true => rfl
  | false =>
      cases fixedDurationExpired strategy account now <;>
        cases rateLimitWindowReset account now <;> rfl

theorem starts_alike_iff (account other : Account) (same : account.id = other.id) :
    (choose strategy sel account now).2 = (choose strategy sel other now).2 ↔
      startsAlike strategy sel now account other = true := by
  rw [choose_resets_eq, choose_resets_eq, same]
  unfold startsAlike
  cases sel.bypassSession <;> cases startsAnew strategy account now <;>
    cases startsAnew strategy other now <;> simp

theorem fallbacks_alike (all : List.Forall₂ Respelled accounts others) (account other : Account)
    (same : account.id = other.id) :
    (fallbacks ⟨accounts, strategy, now⟩ usage sel account).map Account.id =
      (fallbacks ⟨others, strategy, now⟩ usage sel other).map Account.id := by
  have alone : answeredAlone ⟨accounts, strategy, now⟩ sel =
      answeredAlone ⟨others, strategy, now⟩ sel := by
    have found : Option.Rel Respelled (forcedAccount accounts sel) (forcedAccount others sel) :=
      forced_related all
    change (sel.forceAccountStrict && (forcedAccount accounts sel).isSome) =
      (sel.forceAccountStrict && (forcedAccount others sel).isSome)
    generalize forcedAccount accounts sel = left at found ⊢
    generalize forcedAccount others sel = right at found ⊢
    cases found <;> rfl
  unfold fallbacks
  rw [alone]
  split
  · rfl
  · apply ids_related
    apply filter_related _ _ _ (available_related all)
    intro row row' here
    rw [here.id_eq, same]

/-- Two picks answer alike when they are of one id and restart alike. -/
theorem choices_alike (all : List.Forall₂ Respelled accounts others)
    (left right : Option Account) :
    ((listing ⟨accounts, strategy, now⟩ usage sel left).map Account.id =
        (listing ⟨others, strategy, now⟩ usage sel right).map Account.id ∧
      pickResets ⟨accounts, strategy, now⟩ sel left =
        pickResets ⟨others, strategy, now⟩ sel right) ↔
      sameChoice strategy sel now left right = true := by
  cases left with
  | none =>
      cases right with
      | none => simp [listing, pickResets, sameChoice]
      | some other => simp [listing, sameChoice]
  | some account =>
      cases right with
      | none => simp [listing, sameChoice]
      | some other =>
          simp only [listing, pickResets, sameChoice, Option.elim_some, List.map_cons, choose_id,
            List.cons.injEq, Bool.and_eq_true, decide_eq_true_eq]
          constructor
          · rintro ⟨⟨same, -⟩, resets⟩
            exact ⟨same, (starts_alike_iff account other same).mp resets⟩
          · rintro ⟨same, starts⟩
            exact ⟨⟨same, fallbacks_alike all account other same⟩,
              (starts_alike_iff account other same).mpr starts⟩

theorem same_routing_iff (all : List.Forall₂ Respelled accounts others) :
    SameRouting strategy usage sel now accounts others ↔
      sameChoice strategy sel now (pick ⟨accounts, strategy, now⟩ usage sel)
        (pick ⟨others, strategy, now⟩ usage sel) = true := by
  rw [← choices_alike all, ← selection_accounts, ← selection_accounts, ← selection_resets,
    ← selection_resets]
  exact Iff.rfl

theorem related_choice (account other : Account) (here : Respelled account other) :
    sameChoice strategy sel now (some account) (some other) =
      startsAlike strategy sel now account other := by
  simp [sameChoice, here.id_eq]

/-- The tiers correspond, and with the same taking of turns so do the accounts in turn. -/
theorem turns_alike (all : List.Forall₂ Respelled accounts others) :
    sameChoice strategy sel now (tierPick ⟨accounts, strategy, now⟩ usage)
        (tierPick ⟨others, strategy, now⟩ usage) =
      match tierPick ⟨accounts, strategy, now⟩ usage,
          tierPick ⟨others, strategy, now⟩ usage with
      | some account, some other =>
          (takesTurns (topTier usage now accounts) == takesTurns (topTier usage now others) ||
            decide (account.id = other.id)) && startsAlike strategy sel now account other
      | _, _ => true := by
  have tiers : List.Forall₂ Respelled (topTier usage now accounts) (topTier usage now others) :=
    tier_related all
  rw [turn_of_tier, turn_of_tier]
  dsimp only
  generalize topTier usage now accounts = left at tiers ⊢
  generalize topTier usage now others = right at tiers ⊢
  have lengths := tiers.length_eq
  by_cases empty : left = []
  · subst empty
    cases tiers
    rfl
  · have inside := chosen_idx_lt strategy left empty
    have inside' := chosen_idx_lt strategy right (by
      rintro rfl
      cases tiers
      exact empty rfl)
    by_cases turns : takesTurns left = takesTurns right
    · have index : chosenIdx strategy left = chosenIdx strategy right := by
        unfold chosenIdx
        rw [turns, lengths]
      rw [index]
      have here := turn_related tiers (chosenIdx strategy right)
      generalize left[chosenIdx strategy right]? = account at here ⊢
      generalize right[chosenIdx strategy right]? = other at here ⊢
      cases here with
      | none => rfl
      | some here => simp [related_choice _ _ here, turns]
    · rw [List.getElem?_eq_getElem inside, List.getElem?_eq_getElem inside']
      have apart : (takesTurns left == takesTurns right) = false := by simpa using turns
      simp [sameChoice, apart]

theorem sessions_alike (all : List.Forall₂ Respelled accounts others) :
    sameChoice strategy sel now
        ((served ⟨accounts, strategy, now⟩ usage).or (tierPick ⟨accounts, strategy, now⟩ usage))
        ((served ⟨others, strategy, now⟩ usage).or (tierPick ⟨others, strategy, now⟩ usage)) =
      sessionsAlike strategy usage sel now accounts others := by
  unfold sessionsAlike
  dsimp only
  cases served ⟨accounts, strategy, now⟩ usage with
  | some account =>
      cases served ⟨others, strategy, now⟩ usage with
      | some other => rfl
      | none => rfl
  | none =>
      cases served ⟨others, strategy, now⟩ usage with
      | some other => rfl
      | none => exact turns_alike all

theorem stages_alike (all : List.Forall₂ Respelled accounts others) :
    sameChoice strategy sel now (normalPick ⟨accounts, strategy, now⟩ usage)
        (normalPick ⟨others, strategy, now⟩ usage) =
      stagesAlike strategy usage sel now accounts others := by
  have candidates : Option.Rel Respelled (checkAutoFallbackAccounts accounts usage now).head?
      (checkAutoFallbackAccounts others usage now).head? := head_related (fallback_related all)
  rw [normal_pick_stages, normal_pick_stages]
  unfold stagesAlike
  dsimp only
  generalize (checkAutoFallbackAccounts accounts usage now).head? = left at candidates ⊢
  generalize (checkAutoFallbackAccounts others usage now).head? = right at candidates ⊢
  cases candidates with
  | some here => exact related_choice _ _ here
  | none => exact sessions_alike all

/-- Two lists that differ in spelling route alike exactly when their stages meet. -/
theorem spellings_route_alike_iff (strategy : SessionStrategy) (accounts others : List Account)
    (usage : UsageMap) (sel : SelectionMeta) (now : Int)
    (respelled : List.Forall₂ Respelled accounts others) :
    SameRouting strategy usage sel now accounts others ↔
      routesAlike strategy usage sel now accounts others = true := by
  have pinned : Option.Rel Respelled (forcedAccount accounts sel) (forcedAccount others sel) :=
    forced_related respelled
  rw [same_routing_iff respelled]
  unfold pick routesAlike
  dsimp only
  generalize forcedAccount accounts sel = left at pinned ⊢
  generalize forcedAccount others sel = right at pinned ⊢
  cases pinned with
  | none =>
      rw [stages_alike respelled]
  | @some account other here =>
      dsimp only
      rw [← here.available_eq usage now]
      cases isAccountAvailable account usage now with
      | true =>
          simp only [if_true]
          rw [related_choice account other here]
      | false =>
          cases sel.forceAccountStrict with
          | true => simp [sameChoice]
          | false =>
              simp only [Bool.false_eq_true, if_false, Bool.false_or]
              rw [stages_alike respelled]

end Lists

theorem respelled_both : List.Forall₂ Respelled
    [makeAccount "a" "zai" 0, makeAccount "b" "claude-oauth" 1]
    [makeAccount "a" "zai" 0, makeAccount "b" "anthropic" 1] :=
  .cons (Or.inl rfl) (.cons (Or.inr ⟨rfl, rfl⟩) .nil)

/-- The account whose spelling changes is only the second choice. -/
theorem second_choice_routes_alike :
    SameRouting ⟨18000000, 0⟩ noUsage unforced 1700000000000
      [makeAccount "a" "zai" 0, makeAccount "b" "claude-oauth" 1]
      [makeAccount "a" "zai" 0, makeAccount "b" "anthropic" 1] :=
  (spellings_route_alike_iff ⟨18000000, 0⟩ _ _ noUsage unforced 1700000000000
    respelled_both).mpr (by decide +kernel)

/-- The first request to an account starts its session under one spelling only. -/
theorem spelling_starts_session :
    ¬ ∀ (strategy : SessionStrategy) (accounts others : List Account) (usage : UsageMap)
      (sel : SelectionMeta) (now : Int), List.Forall₂ Respelled accounts others →
      SameRouting strategy usage sel now accounts others := by
  intro alike
  have here := alike ⟨18000000, 0⟩ [makeAccount "b" "claude-oauth" 0]
    [makeAccount "b" "anthropic" 0] noUsage unforced 1700000000000
    (.cons (Or.inr ⟨rfl, rfl⟩) .nil)
  have resets := here.2
  revert resets
  decide +kernel

end Ccflare.ProviderSpelling
