import Ccflare.Eligibility
import Mathlib.Data.List.Forall2

/-!
Eligibility as an order. More usage, a larger reserve and a stricter setting only ever
block: every gate compares a figure with a bound, and a figure that is no number counts as
beyond every bound.
-/

namespace Ccflare.EligibilityOrder

open MachineNumber Eligibility

/-- A figure that is no finite number counts as the greatest. -/
def AtLeast (low high : F64) : Prop :=
  high.isFinite = false ∨ low.isFinite = true ∧ high.ge low = true

structure MoreUsed (low high : RoutingUsageInfo) : Prop where
  whole : AtLeast low.utilizationPct high.utilizationPct
  windows : List.Forall₂ (fun a b => a.kind = b.kind ∧ AtLeast a.utilizationPct b.utilizationPct)
    low.windows high.windows

theorem reaches_more (low high : F64) (bound : Int) (more : AtLeast low high)
    (reached : reaches low bound = true) : reaches high bound = true := by
  rcases more with nonFinite | ⟨finite, above⟩
  · simp [reaches, nonFinite]
  · cases low with
    | finite a =>
        cases high with
        | finite b =>
            simp only [F64.ge, decide_eq_true_eq] at above
            simp only [reaches, F64.isFinite, F64.ge, F64.ofInt, Bool.not_true, Bool.false_or,
              decide_eq_true_eq] at reached ⊢
            exact reached.trans above
        | infinite negative => rfl
        | nan => rfl
    | infinite negative => cases finite
    | nan => cases finite

/-- Integers of at most 53 bits are doubles. -/
theorem round_exact (value : Int) (small : value.natAbs < 2 ^ 53) : roundToF64 value = value := by
  have bits : Nat.log2 value.natAbs - 52 = 0 := by
    by_cases zero : value.natAbs = 0
    · rw [zero]
      rfl
    · have few := (Nat.log2_lt zero).mpr small
      omega
  have grid : ∀ magnitude, roundToGrid 1 magnitude = magnitude := by
    intro magnitude
    simp [roundToGrid, Nat.mod_one]
  unfold roundToF64
  dsimp only
  rw [bits, pow_zero, grid]
  split <;> omega

theorem reaches_lower (pct : F64) (low high : Int) (start : 0 ≤ low) (order : low ≤ high)
    (last : high ≤ 100) (reached : reaches pct high = true) : reaches pct low = true := by
  cases pct with
  | finite value =>
      simp only [reaches, F64.isFinite, F64.ge, F64.ofInt, Bool.not_true, Bool.false_or,
        decide_eq_true_eq] at reached ⊢
      rw [round_exact low (by omega)]
      rw [round_exact high (by omega)] at reached
      exact le_trans (by exact_mod_cast order) reached
  | infinite negative => rfl
  | nan => rfl

theorem any_more {low high : List WindowUsage}
    (windows : List.Forall₂
      (fun a b => a.kind = b.kind ∧ AtLeast a.utilizationPct b.utilizationPct) low high)
    (before after : WindowUsage → Bool)
    (keeps : ∀ a b, a.kind = b.kind → AtLeast a.utilizationPct b.utilizationPct →
      before a = true → after b = true)
    (found : low.any before = true) : high.any after = true := by
  induction windows with
  | nil => cases found
  | @cons a b _ _ same _ ih =>
      simp only [List.any_cons, Bool.or_eq_true] at found ⊢
      rcases found with here | later
      · exact Or.inl (keeps a b same.1 same.2 here)
      · exact Or.inr (ih later)

theorem any_kind {low high : List WindowUsage}
    (windows : List.Forall₂
      (fun a b => a.kind = b.kind ∧ AtLeast a.utilizationPct b.utilizationPct) low high)
    (wanted : WindowKind) :
    (low.filter fun w => w.kind = wanted).isEmpty = (high.filter fun w => w.kind = wanted).isEmpty := by
  induction windows with
  | nil => rfl
  | @cons a b _ _ same _ ih =>
      by_cases here : b.kind = wanted <;> simp [same.1, here, ih]

/-- A five-hour window that is used up stays so. -/
theorem exhausted_more {low high : List WindowUsage}
    (windows : List.Forall₂
      (fun a b => a.kind = b.kind ∧ AtLeast a.utilizationPct b.utilizationPct) low high)
    (bound : Int)
    (found : ((low.filter fun w => w.kind = .fiveHour).any fun w => reaches w.utilizationPct bound) =
      true) :
    ((high.filter fun w => w.kind = .fiveHour).any fun w => reaches w.utilizationPct bound) = true := by
  rw [List.any_filter] at found ⊢
  refine any_more windows _ _ (fun a b same more here => ?_) found
  simp only [Bool.and_eq_true, decide_eq_true_eq] at here ⊢
  exact ⟨same ▸ here.1, reaches_more _ _ _ more here.2⟩

theorem empty_more (low high : RoutingUsageInfo) (more : MoreUsed low high) :
    low.windows.isEmpty = high.windows.isEmpty := by
  rw [Bool.eq_iff_iff, List.isEmpty_iff, List.isEmpty_iff, ← List.length_eq_zero_iff,
    ← List.length_eq_zero_iff, more.windows.length_eq]

theorem overage_more (account : Account) (low high : RoutingUsageInfo) (more : MoreUsed low high)
    (blocked : isAtOverage account low = true) : isAtOverage account high = true := by
  unfold isAtOverage at blocked ⊢
  rw [← empty_more low high more]
  dsimp only at blocked ⊢
  split at blocked
  · next empty =>
      rw [if_pos empty]
      split at blocked
      · next family => rw [if_pos family]
      · next other =>
          rw [if_neg other]
          exact reaches_more _ _ _ more.whole blocked
  · next windows =>
      rw [if_neg windows, ← any_kind more.windows]
      refine any_more more.windows _ _ (fun a b same above here => ?_) blocked
      by_cases full : reaches a.utilizationPct 100 = true
      · have fullLater := reaches_more _ _ _ above full
        rw [full] at here
        rw [fullLater, ← same]
        simp only [Bool.not_true, Bool.false_eq_true, if_false] at here ⊢
        split at here
        · next monthly =>
            rw [if_pos monthly]
            split at here
            · next known => rw [if_pos known]
            · next unknown =>
                rw [if_neg unknown]
                exact exhausted_more more.windows 100 here
        · next plain => rw [if_neg plain]
      · simp [full] at here

theorem threshold_more (account : Account) (before after : Bool) (kind : WindowKind)
    (later : before = true → after = true) (threshold : Int)
    (applies : windowThreshold account before kind = some threshold) :
    windowThreshold account after kind = some threshold := by
  cases kind with
  | other =>
      cases before with
      | true => rwa [later rfl]
      | false =>
          unfold windowThreshold at applies ⊢
          cases family : isAnthropicFamily account.provider <;> simp_all
  | _ => exact applies

theorem reserve_more (account : Account) (usage after : UsageMap) (low high : RoutingUsageInfo)
    (before : usage account.id = some low) (now : after account.id = some high)
    (more : MoreUsed low high) (blocked : isAtReserve account usage = true) :
    isAtReserve account after = true := by
  unfold isAtReserve at blocked ⊢
  rw [before] at blocked
  rw [now]
  dsimp only at blocked ⊢
  rw [← empty_more low high more]
  split at blocked
  · cases blocked
  · next reserves =>
      rw [if_neg reserves]
      split at blocked
      · next windows =>
          rw [if_pos windows]
          refine any_more more.windows _ _ (fun a b same above here => ?_) blocked
          rw [← same]
          split at here
          · cases here
          · next threshold applies =>
              rw [threshold_more account _ _ a.kind (exhausted_more more.windows 100) threshold
                applies]
              simp only [Bool.and_eq_true] at here ⊢
              exact ⟨here.1, reaches_more _ _ _ above here.2⟩
      · next empty =>
          rw [if_neg empty]
          simp only [Bool.and_eq_true] at blocked ⊢
          exact ⟨blocked.1, reaches_more _ _ _ more.whole blocked.2⟩

/-- Raised within the range of a percentage, or left alone. -/
def Raised (before after : Int) : Prop :=
  after = before ∨ 0 ≤ before ∧ before ≤ after ∧ after ≤ 100

theorem raised_bound (before after : Int) (raised : Raised before after) (pct : F64)
    (blocked : (decide (before > 0) && reaches pct (max (saturatingSub 100 before) 0)) = true) :
    (decide (after > 0) && reaches pct (max (saturatingSub 100 after) 0)) = true := by
  rcases raised with rfl | ⟨low, order, high⟩
  · exact blocked
  · have exact_ : ∀ threshold : Int, 0 ≤ threshold → threshold ≤ 100 →
        max (saturatingSub 100 threshold) 0 = 100 - threshold := by
      intro threshold start last
      unfold saturatingSub clampI64 i64Min i64Max
      omega
    rw [exact_ before low (order.trans high)] at blocked
    rw [exact_ after (low.trans order) high]
    simp only [Bool.and_eq_true, decide_eq_true_eq] at blocked ⊢
    exact ⟨by omega, reaches_lower pct _ _ (by omega) (by omega) (by omega) blocked.2⟩

theorem raised_max (five five' week week' : Int) (first : Raised five five')
    (second : Raised week week') : Raised (max five week) (max five' week') := by
  unfold Raised at first second ⊢
  omega

theorem raised_whole (before after : Int) (raised : Raised before after) (pct : F64)
    (blocked : (decide (before > 0) && reaches pct (wrappingSub 100 before)) = true) :
    (decide (after > 0) && reaches pct (wrappingSub 100 after)) = true := by
  rcases raised with rfl | ⟨low, order, high⟩
  · exact blocked
  · have exact_ : ∀ threshold : Int, 0 ≤ threshold → threshold ≤ 100 →
        wrappingSub 100 threshold = 100 - threshold := by
      intro threshold start last
      refine wrap_of_in_i64 _ ?_
      unfold InI64 i64Min i64Max
      omega
    rw [exact_ before low (order.trans high)] at blocked
    rw [exact_ after (low.trans order) high]
    simp only [Bool.and_eq_true, decide_eq_true_eq] at blocked ⊢
    exact ⟨by omega, reaches_lower pct _ _ (by omega) (by omega) (by omega) blocked.2⟩

/-- The same account with other reserves. -/
def withReserves (account : Account) (five week : Int) : Account :=
  { account with reserve5h := five, reserveWeekly := week }

theorem reserve_raised (account : Account) (usage : UsageMap) (five week : Int)
    (first : Raised account.reserve5h five) (second : Raised account.reserveWeekly week)
    (blocked : isAtReserve account usage = true) :
    isAtReserve (withReserves account five week) usage = true := by
  unfold isAtReserve at blocked ⊢
  split at blocked
  · cases blocked
  · next reserves =>
      have stillReserves : ¬ (five = 0 ∧ week = 0) := by
        unfold Raised at first second
        omega
      rw [if_neg (show ¬ ((withReserves account five week).reserve5h = 0 ∧
        (withReserves account five week).reserveWeekly = 0) from stillReserves)]
      have sameId : (withReserves account five week).id = account.id := rfl
      rw [sameId]
      cases found : usage account.id with
      | none =>
          rw [found] at blocked
          cases blocked
      | some info =>
          rw [found] at blocked
          dsimp only at blocked ⊢
          split at blocked
          · next windows =>
              rw [if_pos windows]
              rw [List.any_eq_true] at blocked ⊢
              obtain ⟨window, member, here⟩ := blocked
              refine ⟨window, member, ?_⟩
              cases kind : window.kind with
              | fiveHour =>
                  rw [kind] at here
                  exact raised_bound _ _ first _ here
              | weekly =>
                  rw [kind] at here
                  exact raised_bound _ _ second _ here
              | other =>
                  rw [kind] at here
                  generalize ((info.windows.filter fun w => w.kind = .fiveHour).any
                    fun w => reaches w.utilizationPct 100) = full at here ⊢
                  unfold windowThreshold at here ⊢
                  have sameProvider : (withReserves account five week).provider =
                      account.provider := rfl
                  rw [sameProvider]
                  by_cases skipped : (isAnthropicFamily account.provider && !full) = true
                  · rw [if_pos skipped] at here
                    cases here
                  · rw [if_neg skipped] at here ⊢
                    exact raised_bound _ _ first _ here
          · next empty =>
              rw [if_neg empty]
              exact raised_whole _ _ (raised_max _ _ _ _ first second) _ blocked

theorem fail_closed_raised (account : Account) (usage : UsageMap) (five week : Int)
    (first : Raised account.reserve5h five) (second : Raised account.reserveWeekly week)
    (blocked : usageMissingHardReserveFailClosed account usage = true) :
    usageMissingHardReserveFailClosed (withReserves account five week) usage = true := by
  simp only [usageMissingHardReserveFailClosed, hasReserves, Bool.and_eq_true, Bool.or_eq_true,
    decide_eq_true_eq] at blocked ⊢
  obtain ⟨⟨hard, reserves⟩, missing⟩ := blocked
  refine ⟨⟨hard, ?_⟩, missing⟩
  show five > 0 ∨ week > 0
  unfold Raised at first second
  omega

/-- What blocks an account still blocks it where every gate that was shut stays shut. -/
theorem stays_blocked (account other : Account) (usage after : UsageMap) (now : Int)
    (paused : other.paused = account.paused)
    (status : other.rateLimitStatus = account.rateLimitStatus)
    (limited : other.rateLimitedUntil = account.rateLimitedUntil)
    (overage : overageBlocked account usage = true → overageBlocked other after = true)
    (reserve : hardReserveBlocked account usage = true → hardReserveBlocked other after = true)
    (blocked : (evaluateAccountEligibility account usage now).routable = false) :
    (evaluateAccountEligibility other after now).routable = false := by
  rw [← Bool.not_eq_true, routable_iff] at blocked ⊢
  rintro ⟨notPaused, notAuth, notLimited, noOverage, noReserve⟩
  refine blocked ⟨paused ▸ notPaused, status ▸ notAuth, ?_, ?_, ?_⟩
  · unfold activeRateLimit at notLimited ⊢
    rwa [← limited]
  · rw [← Bool.not_eq_true] at noOverage ⊢
    exact mt overage noOverage
  · rw [← Bool.not_eq_true] at noReserve ⊢
    exact mt reserve noReserve

theorem hard_reserve_iff (account : Account) (usage : UsageMap) :
    hardReserveBlocked account usage = true ↔
      account.reserveHard = true ∧
        (isAtReserve account usage = true ∨ hasReserves account = true ∧ usage account.id = none) := by
  simp only [hardReserveBlocked, usageMissingHardReserveFailClosed, Bool.or_eq_true,
    Bool.and_eq_true, Option.isNone_iff_eq_none]
  tauto

/-- More usage of the windows an account has never makes it routable. -/
theorem more_usage_blocks (account : Account) (usage after : UsageMap) (now : Int)
    (low high : RoutingUsageInfo) (before : usage account.id = some low)
    (later : after account.id = some high) (more : MoreUsed low high)
    (blocked : (evaluateAccountEligibility account usage now).routable = false) :
    (evaluateAccountEligibility account after now).routable = false := by
  refine stays_blocked account account usage after now rfl rfl rfl ?_ ?_ blocked
  · unfold overageBlocked
    rw [before, later]
    intro shut
    split at shut
    · next protection =>
        rw [if_pos protection]
        exact overage_more account low high more shut
    · cases shut
  · rw [hard_reserve_iff, hard_reserve_iff, before, later]
    rintro ⟨hard, reserve | ⟨-, missing⟩⟩
    · exact ⟨hard, Or.inl (reserve_more account usage after low high before later more reserve)⟩
    · cases missing

/-- Nor do larger reserves. -/
theorem larger_reserves_block (account : Account) (usage : UsageMap) (now five week : Int)
    (first : Raised account.reserve5h five) (second : Raised account.reserveWeekly week)
    (blocked : (evaluateAccountEligibility account usage now).routable = false) :
    (evaluateAccountEligibility (withReserves account five week) usage now).routable = false := by
  refine stays_blocked account _ usage usage now rfl rfl rfl id ?_ blocked
  intro shut
  simp only [hardReserveBlocked, Bool.or_eq_true, Bool.and_eq_true] at shut ⊢
  rcases shut with missing | ⟨hard, reserve⟩
  · exact Or.inl (fail_closed_raised account usage five week first second missing)
  · exact Or.inr ⟨hard, reserve_raised account usage five week first second reserve⟩

/-- Nor do stricter settings. -/
theorem stricter_settings_block (account : Account) (usage : UsageMap) (now : Int)
    (blocked : (evaluateAccountEligibility account usage now).routable = false) :
    (evaluateAccountEligibility { account with reserveHard := true } usage now).routable = false ∧
    (evaluateAccountEligibility { account with overageProtection := true } usage now).routable =
      false := by
  constructor
  · refine stays_blocked account _ usage usage now rfl rfl rfl id ?_ blocked
    rw [hard_reserve_iff, hard_reserve_iff]
    rintro ⟨-, reserve⟩
    exact ⟨rfl, reserve⟩
  · refine stays_blocked account _ usage usage now rfl rfl rfl ?_ id blocked
    intro shut
    unfold overageBlocked at shut ⊢
    split at shut
    · exact shut
    · cases shut

/-- Eligibility is monotone in the usage of an account and in its settings. -/
theorem eligibility_monotone (account : Account) (now : Int) :
    (∀ usage after low high, usage account.id = some low → after account.id = some high →
      MoreUsed low high → (evaluateAccountEligibility account usage now).routable = false →
        (evaluateAccountEligibility account after now).routable = false) ∧
    ∀ usage, (evaluateAccountEligibility account usage now).routable = false →
      (∀ five, 0 ≤ account.reserve5h → account.reserve5h ≤ five → five ≤ 100 →
        (evaluateAccountEligibility { account with reserve5h := five } usage now).routable = false) ∧
      (∀ week, 0 ≤ account.reserveWeekly → account.reserveWeekly ≤ week → week ≤ 100 →
        (evaluateAccountEligibility { account with reserveWeekly := week } usage now).routable =
          false) ∧
      (evaluateAccountEligibility { account with reserveHard := true } usage now).routable = false ∧
      (evaluateAccountEligibility { account with overageProtection := true } usage now).routable =
        false := by
  refine ⟨fun usage after low high => more_usage_blocks account usage after now low high, ?_⟩
  intro usage blocked
  refine ⟨fun five low order high => ?_, fun week low order high => ?_,
    stricter_settings_block account usage now blocked⟩
  · exact larger_reserves_block account usage now five account.reserveWeekly
      (Or.inr ⟨low, order, high⟩) (Or.inl rfl) blocked
  · exact larger_reserves_block account usage now account.reserve5h week (Or.inl rfl)
      (Or.inr ⟨low, order, high⟩) blocked

def guarded : Account :=
  { makeAccount "a" "anthropic" 0 with reserve5h := 10, reserveHard := true }

def used (pct : Rat) : RoutingUsageInfo := ⟨.finite pct, none, [⟨.fiveHour, .finite pct, none⟩]⟩

theorem guarded_stays_blocked :
    (evaluateAccountEligibility guarded (fun _ => some (used 99)) 1700000000000).routable = false ∧
      (evaluateAccountEligibility { guarded with reserve5h := 20 } (fun _ => some (used 95))
        1700000000000).routable = false := by
  have blocked : (evaluateAccountEligibility guarded (fun _ => some (used 95))
      1700000000000).routable = false := by decide +kernel
  have more : MoreUsed (used 95) (used 99) :=
    ⟨Or.inr ⟨rfl, by decide +kernel⟩, .cons ⟨rfl, Or.inr ⟨rfl, by decide +kernel⟩⟩ .nil⟩
  have monotone := eligibility_monotone guarded 1700000000000
  exact ⟨monotone.1 _ _ _ _ rfl rfl more blocked,
    (monotone.2 _ blocked).1 20 (by decide) (by decide) (by decide)⟩

end Ccflare.EligibilityOrder
