import Ccflare.Routing
import Ccflare.Transition

/-!
The routing loop: a request selects over the rows as they are stored, the session resets
it returns are written back, and the next request reads the rows again. Between requests
the rows change in their other columns, response handlers write the rate-limit columns, and
the clock moves on.
-/

namespace Ccflare.RoutingLoop

open MachineNumber LoadBalancer Routing Transition

structure Loop where
  accounts : List Account
  strategy : SessionStrategy
  now : Int
  deriving DecidableEq

inductive Event where
  | request (usage : UsageMap) (sel : SelectionMeta)
  | write (id : String) (status : Option String) (remaining reset : Option Int)
  | edit (id : String) (change : Account → Account)
  | insert (account : Account)
  | remove (id : String)
  | tick (millis : Nat)

def updateRow (id : String) (change : Account → Account) (accounts : List Account) :
    List Account :=
  accounts.map fun account => if account.id = id then change account else account

def startSession (start : Int) (account : Account) : Account :=
  { account with sessionStart := some start, sessionRequestCount := 0 }

/-- One `UPDATE` for each reset, in one transaction. -/
def persist (accounts : List Account) (resets : List SessionReset) : List Account :=
  resets.foldl (fun rows reset =>
    updateRow reset.accountId (startSession reset.newSessionStart) rows) accounts

def writeRateLimit (status : Option String) (remaining reset : Option Int) (account : Account) :
    Account :=
  { account with
    rateLimitStatus := status, rateLimitRemaining := remaining, rateLimitReset := reset }

/-- A change of the columns that neither the loop nor a response handler writes. -/
def editRow (change : Account → Account) (account : Account) : Account :=
  { change account with
    id := account.id, provider := account.provider, sessionStart := account.sessionStart,
    rateLimitReset := account.rateLimitReset }

/-- A request without usage figures and without hints. -/
def noUsage : UsageMap := fun _ => none

def unforced : SelectionMeta := ⟨none, false, false⟩

def selection (s : Loop) (usage : UsageMap) (sel : SelectionMeta) : Selection :=
  select s.strategy s.accounts usage sel s.now

def perform (s : Loop) : Event → Option Loop
  -- The rows keep the reset time that the clone of the selection has cleared.
  | .request usage sel =>
      let selected := selection s usage sel
      some { s with
        accounts := persist s.accounts selected.resets, strategy := selected.strategy }
  | .write id status remaining reset =>
      some { s with accounts := updateRow id (writeRateLimit status remaining reset) s.accounts }
  | .edit id change => some { s with accounts := updateRow id (editRow change) s.accounts }
  | .insert account =>
      if s.accounts.any fun old => old.id = account.id then none
      else some { s with accounts := s.accounts ++ [account] }
  | .remove id => some { s with accounts := s.accounts.filter fun old => old.id ≠ id }
  | .tick millis =>
      if InI64 (s.now + millis) then some { s with now := s.now + millis } else none

abbrev Taken := Loop × Event × Loop

theorem choose_resets (strategy : SessionStrategy) (sel : SelectionMeta) (picked : Account)
    (now : Int) :
    (choose strategy sel picked now).2 = [] ∨
      (sel.bypassSession = false ∧
        (fixedDurationExpired strategy picked now = true ∨
          rateLimitWindowReset picked now = true) ∧
        (choose strategy sel picked now).2 = [⟨picked.id, now⟩]) := by
  unfold choose maybeResetSession
  split
  · exact Or.inl rfl
  · rename_i tracked
    dsimp only
    split
    · rename_i due
      exact Or.inr ⟨by simpa using tracked, by simpa using due, rfl⟩
    · exact Or.inl rfl

def tierPick (s : Loop) (usage : UsageMap) : Option Account :=
  match availableAccounts s.accounts usage s.now with
  | [] => none
  | top :: rest =>
      let sameTier := (top :: rest).filter fun a => a.priority = top.priority
      some (sameTier.getD (chosenIdx s.strategy sameTier) top)

def normalPick (s : Loop) (usage : UsageMap) : Option Account :=
  match checkAutoFallbackAccounts s.accounts usage s.now with
  | candidate :: _ => some candidate
  | [] =>
      match activeAccount s.strategy s.accounts s.now with
      | some active =>
          if isAccountAvailable active usage s.now then some active else tierPick s usage
      | none => tierPick s usage

/-- The row that a request goes to first, before its session is looked at. -/
def pick (s : Loop) (usage : UsageMap) (sel : SelectionMeta) : Option Account :=
  match forcedAccount s.accounts sel with
  | some account =>
      if isAccountAvailable account usage s.now then some account
      else if sel.forceAccountStrict then none else normalPick s usage
  | none => normalPick s usage

def pickResets (s : Loop) (sel : SelectionMeta) (picked : Option Account) : List SessionReset :=
  picked.elim [] fun account => (choose s.strategy sel account s.now).2

theorem tier_pick_resets (s : Loop) (usage : UsageMap) (sel : SelectionMeta) :
    (tiered s.strategy s.accounts usage sel s.now).resets =
      pickResets s sel (tierPick s usage) := by
  unfold tiered tierPick
  cases availableAccounts s.accounts usage s.now with
  | nil => rfl
  | cons top rest => rfl

theorem normal_pick_resets (s : Loop) (usage : UsageMap) (sel : SelectionMeta) :
    (selectNormally s.strategy s.accounts usage sel s.now).resets =
      pickResets s sel (normalPick s usage) := by
  unfold selectNormally normalPick
  cases checkAutoFallbackAccounts s.accounts usage s.now with
  | cons candidate _ => rfl
  | nil =>
      cases activeAccount s.strategy s.accounts s.now with
      | none => exact tier_pick_resets s usage sel
      | some active =>
          cases available : isAccountAvailable active usage s.now with
          | true =>
              simp only [available, if_true]
              exact rfl
          | false =>
              simp only [available, Bool.false_eq_true, if_false]
              exact tier_pick_resets s usage sel

/-- A request looks at the session of the picked account alone. -/
theorem selection_resets (s : Loop) (usage : UsageMap) (sel : SelectionMeta) :
    (selection s usage sel).resets = pickResets s sel (pick s usage sel) := by
  unfold selection select pick
  cases forcedAccount s.accounts sel with
  | none => exact normal_pick_resets s usage sel
  | some account =>
      cases available : isAccountAvailable account usage s.now with
      | true =>
          simp only [available, if_true, Bool.not_true, Bool.false_eq_true, if_false]
          cases sel.forceAccountStrict with
          | true => exact rfl
          | false => exact rfl
      | false =>
          simp only [available, Bool.not_false, if_true, Bool.false_eq_true, if_false]
          cases sel.forceAccountStrict with
          | true => exact rfl
          | false => exact normal_pick_resets s usage sel

/-- The account of the most recent session, if it is available. -/
def served (s : Loop) (usage : UsageMap) : Option Account :=
  (activeAccount s.strategy s.accounts s.now).filter fun a => isAccountAvailable a usage s.now

/-- Fallback candidates come before the active session, and that before the tiers. -/
theorem normal_pick_stages (s : Loop) (usage : UsageMap) :
    normalPick s usage = (checkAutoFallbackAccounts s.accounts usage s.now).head?.or
      ((served s usage).or (tierPick s usage)) := by
  unfold normalPick served
  cases checkAutoFallbackAccounts s.accounts usage s.now with
  | cons candidate _ => rfl
  | nil =>
      cases activeAccount s.strategy s.accounts s.now with
      | none => rfl
      | some active =>
          cases available : isAccountAvailable active usage s.now <;>
            simp [available, Option.filter]

/-- A strictly forced account that is found is not followed by others. -/
def answeredAlone (s : Loop) (sel : SelectionMeta) : Bool :=
  sel.forceAccountStrict && (forcedAccount s.accounts sel).isSome

def fallbacks (s : Loop) (usage : UsageMap) (sel : SelectionMeta) (picked : Account) :
    List Account :=
  if answeredAlone s sel then []
  else (availableAccounts s.accounts usage s.now).filter fun a => a.id ≠ picked.id

/-- The picked account, its session looked at, and the other available ones in order. -/
def listing (s : Loop) (usage : UsageMap) (sel : SelectionMeta) (picked : Option Account) :
    List Account :=
  picked.elim [] fun account =>
    (choose s.strategy sel account s.now).1 :: fallbacks s usage sel account

theorem route_to_accounts (s : Loop) (usage : UsageMap) (sel : SelectionMeta) (picked : Account) :
    (routeTo s.strategy s.accounts usage sel s.now picked).accounts =
      (choose s.strategy sel picked s.now).1 ::
        (availableAccounts s.accounts usage s.now).filter fun a => a.id ≠ picked.id := by
  unfold routeTo availableAccounts sortAccountsUsageAware
  rw [StableSort.sort_by_filter _ _ (compare_usage_aware_agrees usage), List.filter_filter]
  simp only [choose_id, ne_eq, decide_not]

theorem tiered_accounts (s : Loop) (usage : UsageMap) (sel : SelectionMeta)
    (many : answeredAlone s sel = false) :
    (tiered s.strategy s.accounts usage sel s.now).accounts =
      listing s usage sel (tierPick s usage) := by
  unfold tiered tierPick listing fallbacks
  rw [many]
  cases availableAccounts s.accounts usage s.now with
  | nil => rfl
  | cons top rest => simp only [Option.elim_some, choose_id, Bool.false_eq_true, if_false]

theorem select_normally_accounts (s : Loop) (usage : UsageMap) (sel : SelectionMeta)
    (many : answeredAlone s sel = false) :
    (selectNormally s.strategy s.accounts usage sel s.now).accounts =
      listing s usage sel (normalPick s usage) := by
  have routed : ∀ picked,
      (routeTo s.strategy s.accounts usage sel s.now picked).accounts =
        listing s usage sel (some picked) := by
    intro picked
    rw [route_to_accounts]
    simp only [listing, fallbacks, many, Option.elim_some, Bool.false_eq_true, if_false]
  unfold selectNormally normalPick
  cases checkAutoFallbackAccounts s.accounts usage s.now with
  | cons candidate _ => exact routed candidate
  | nil =>
      cases activeAccount s.strategy s.accounts s.now with
      | none => exact tiered_accounts s usage sel many
      | some active =>
          cases available : isAccountAvailable active usage s.now with
          | true =>
              simp only [available, if_true]
              exact routed active
          | false =>
              simp only [available, Bool.false_eq_true, if_false]
              exact tiered_accounts s usage sel many

/-- The accounts of a selection are those that its pick determines. -/
theorem selection_accounts (s : Loop) (usage : UsageMap) (sel : SelectionMeta) :
    (selection s usage sel).accounts = listing s usage sel (pick s usage sel) := by
  unfold selection select pick
  cases found : forcedAccount s.accounts sel with
  | none => exact select_normally_accounts s usage sel (by simp [answeredAlone, found])
  | some account =>
      cases available : isAccountAvailable account usage s.now with
      | true =>
          cases strict : sel.forceAccountStrict with
          | true => simp [available, strict, listing, fallbacks, answeredAlone, found]
          | false =>
              simp [available, strict, route_to_accounts, listing, fallbacks, answeredAlone]
      | false =>
          cases strict : sel.forceAccountStrict with
          | true => simp [available, listing]
          | false =>
              simp only [available, Bool.not_false, if_true, Bool.false_eq_true, if_false]
              exact select_normally_accounts s usage sel (by simp [answeredAlone, strict])

theorem tier_pick_admitted (s : Loop) (usage : UsageMap) (picked : Account)
    (chosen : tierPick s usage = some picked) :
    picked ∈ s.accounts ∧ isAccountAvailable picked usage s.now = true := by
  unfold tierPick at chosen
  cases listed : availableAccounts s.accounts usage s.now with
  | nil =>
      rw [listed] at chosen
      cases chosen
  | cons top rest =>
      rw [listed] at chosen
      cases chosen
      apply (mem_available s.accounts usage s.now _).mp
      rw [listed]
      apply List.mem_of_mem_filter
      exact tier_pick_mem s.strategy _ top (by simp)

theorem normal_pick_admitted (s : Loop) (usage : UsageMap) (picked : Account)
    (chosen : normalPick s usage = some picked) :
    picked ∈ s.accounts ∧ isAccountAvailable picked usage s.now = true := by
  unfold normalPick at chosen
  split at chosen
  · rename_i candidate _ listed
    cases chosen
    exact fallback_available s.accounts usage s.now picked (by simp [listed])
  · split at chosen
    · rename_i active found
      split at chosen
      · rename_i available
        cases chosen
        exact ⟨active_mem s.strategy s.accounts s.now picked found, available⟩
      · exact tier_pick_admitted s usage picked chosen
    · exact tier_pick_admitted s usage picked chosen

theorem pick_admitted (s : Loop) (usage : UsageMap) (sel : SelectionMeta) (picked : Account)
    (chosen : pick s usage sel = some picked) :
    picked ∈ s.accounts ∧ isAccountAvailable picked usage s.now = true := by
  unfold pick at chosen
  split at chosen
  · rename_i account found
    split at chosen
    · rename_i available
      cases chosen
      exact ⟨(forced_mem s.accounts sel picked found).1, available⟩
    · split at chosen
      · cases chosen
      · exact normal_pick_admitted s usage picked chosen
  · exact normal_pick_admitted s usage picked chosen

/-- What a request may reset: the session of the account it goes to. -/
structure Resets (s : Loop) (usage : UsageMap) (sel : SelectionMeta) (picked : Account) :
    Prop where
  chosen : pick s usage sel = some picked
  tracked : sel.bypassSession = false
  due : fixedDurationExpired s.strategy picked s.now = true ∨
    rateLimitWindowReset picked s.now = true
  resets : (selection s usage sel).resets = [⟨picked.id, s.now⟩]

theorem Resets.member {s : Loop} {usage : UsageMap} {sel : SelectionMeta} {picked : Account}
    (resets : Resets s usage sel picked) : picked ∈ s.accounts :=
  (pick_admitted s usage sel picked resets.chosen).1

/-- A request resets at most one session, and that of the account it goes to. -/
theorem request_outcome (s : Loop) (usage : UsageMap) (sel : SelectionMeta) :
    (selection s usage sel).resets = [] ∨ ∃ picked, Resets s usage sel picked := by
  have path := selection_resets s usage sel
  cases chosen : pick s usage sel with
  | none =>
      rw [chosen] at path
      exact Or.inl path
  | some picked =>
      rw [chosen] at path
      rcases choose_resets s.strategy sel picked s.now with none | ⟨tracked, due, one⟩
      · exact Or.inl (path.trans none)
      · exact Or.inr ⟨picked, chosen, tracked, due, path.trans one⟩

theorem select_duration (s : Loop) (usage : UsageMap) (sel : SelectionMeta) :
    (selection s usage sel).strategy.sessionDurationMs = s.strategy.sessionDurationMs := by
  have tier : (tiered s.strategy s.accounts usage sel s.now).strategy.sessionDurationMs =
      s.strategy.sessionDurationMs := by
    unfold tiered
    split
    · rfl
    · unfold advance
      dsimp only
      split <;> rfl
  have normal : (selectNormally s.strategy s.accounts usage sel s.now).strategy.sessionDurationMs =
      s.strategy.sessionDurationMs := by
    rcases select_normally_cases s.strategy s.accounts usage sel s.now with ⟨_, _, _, route⟩ | route
    · rw [route]
      rfl
    · rw [route]
      exact tier
  unfold selection select
  split
  · split
    · split
      · rfl
      · exact normal
    · split <;> rfl
  · exact normal

theorem mem_update_row (id : String) (change : Account → Account) (accounts : List Account)
    (row : Account) :
    row ∈ updateRow id change accounts ↔
      ∃ old ∈ accounts, row = if old.id = id then change old else old := by
  simp only [updateRow, List.mem_map, eq_comm]

/-- Where a row comes from: the row it was, a restart of its session, or an insertion. -/
inductive RowStep (s : Loop) (event : Event) (row : Account) : Prop where
  | kept (old : Account) : old ∈ s.accounts → row.id = old.id → row.provider = old.provider →
      row.sessionStart = old.sessionStart →
      row.rateLimitReset = old.rateLimitReset ∨
        (∃ status remaining, event = .write row.id status remaining row.rateLimitReset) →
      RowStep s event row
  | restarted (usage : UsageMap) (sel : SelectionMeta) (old : Account) :
      event = .request usage sel → Resets s usage sel old → row = startSession s.now old →
      RowStep s event row
  | inserted : event = .insert row → (∀ old ∈ s.accounts, old.id ≠ row.id) → RowStep s event row

theorem updated_row (s : Loop) (event : Event) (id : String) (change : Account → Account)
    (row : Account) (held : row ∈ updateRow id change s.accounts)
    (touched : ∀ old ∈ s.accounts, old.id = id → RowStep s event (change old)) :
    RowStep s event row := by
  obtain ⟨old, member, rfl⟩ := (mem_update_row _ _ _ row).mp held
  by_cases same : old.id = id
  · rw [if_pos same]
    exact touched old member same
  · rw [if_neg same]
    exact .kept old member rfl rfl rfl (Or.inl rfl)

theorem row_step (s t : Loop) (event : Event) (distinct : (s.accounts.map Account.id).Nodup)
    (taken : Does perform s event t) (row : Account) (held : row ∈ t.accounts) :
    RowStep s event row := by
  change perform s event = some t at taken
  cases event with
  | request usage sel =>
      cases taken
      rcases request_outcome s usage sel with none | ⟨picked, resets⟩
      · simp only [none, persist, List.foldl_nil] at held
        exact .kept row held rfl rfl rfl (Or.inl rfl)
      · simp only [resets.resets, persist, List.foldl_cons, List.foldl_nil] at held
        apply updated_row s _ picked.id _ row held
        intro old member same
        obtain rfl := List.inj_on_of_nodup_map distinct member resets.member same
        exact .restarted usage sel old rfl resets rfl
  | write id status remaining reset =>
      cases taken
      apply updated_row s _ id _ row held
      rintro old member rfl
      exact .kept old member rfl rfl rfl (Or.inr ⟨status, remaining, rfl⟩)
  | edit id change =>
      cases taken
      apply updated_row s _ id _ row held
      intro old member _
      exact .kept old member rfl rfl rfl (Or.inl rfl)
  | insert account =>
      simp only [perform] at taken
      -- The id is the primary key: an insertion never meets a row of its own.
      split at taken
      · cases taken
      · rename_i absent
        cases taken
        rcases List.mem_append.mp held with old | new
        · exact .kept row old rfl rfl rfl (Or.inl rfl)
        · obtain rfl := List.mem_singleton.mp new
          exact .inserted rfl (by simpa using absent)
  | remove id =>
      cases taken
      exact .kept row (List.mem_of_mem_filter held) rfl rfl rfl (Or.inl rfl)
  | tick millis =>
      simp only [perform] at taken
      split at taken
      · cases taken
        exact .kept row held rfl rfl rfl (Or.inl rfl)
      · cases taken

theorem update_row_ids (id : String) (change : Account → Account) (accounts : List Account)
    (kept : ∀ account, (change account).id = account.id) :
    (updateRow id change accounts).map Account.id = accounts.map Account.id := by
  unfold updateRow
  rw [List.map_map]
  apply List.map_congr_left
  intro account _
  simp only [Function.comp_apply]
  split
  · exact kept account
  · rfl

theorem ids_step (s t : Loop) (event : Event) (distinct : (s.accounts.map Account.id).Nodup)
    (taken : Does perform s event t) : (t.accounts.map Account.id).Nodup := by
  change perform s event = some t at taken
  cases event with
  | request usage sel =>
      cases taken
      rcases request_outcome s usage sel with none | ⟨picked, resets⟩
      · simpa only [none, persist, List.foldl_nil] using distinct
      · simp only [resets.resets, persist, List.foldl_cons, List.foldl_nil]
        rw [update_row_ids]
        · exact distinct
        · intro account
          rfl
  | write id status remaining reset =>
      cases taken
      change ((updateRow id _ s.accounts).map Account.id).Nodup
      rw [update_row_ids]
      · exact distinct
      · intro account
        rfl
  | edit id change =>
      cases taken
      change ((updateRow id _ s.accounts).map Account.id).Nodup
      rw [update_row_ids]
      · exact distinct
      · intro account
        rfl
  | insert account =>
      simp only [perform] at taken
      split at taken
      · cases taken
      · rename_i absent
        cases taken
        simp only [List.map_append, List.map_cons, List.map_nil]
        apply List.Nodup.append distinct (List.nodup_singleton _)
        simpa [List.disjoint_singleton] using absent
  | remove id =>
      cases taken
      exact distinct.sublist (List.filter_sublist.map _)
  | tick millis =>
      simp only [perform] at taken
      split at taken
      · cases taken
        exact distinct
      · cases taken

/-- The clock runs forward, within its type, and the session duration stays. -/
theorem clock_step (s t : Loop) (event : Event) (taken : Does perform s event t) :
    s.now ≤ t.now ∧ (InI64 s.now → InI64 t.now) ∧
      t.strategy.sessionDurationMs = s.strategy.sessionDurationMs := by
  change perform s event = some t at taken
  cases event with
  | request usage sel =>
      cases taken
      exact ⟨le_rfl, id, select_duration s usage sel⟩
  | write id status remaining reset => cases taken; exact ⟨le_rfl, fun inside => inside, rfl⟩
  | edit id change => cases taken; exact ⟨le_rfl, fun inside => inside, rfl⟩
  | insert account =>
      simp only [perform] at taken
      split at taken
      · cases taken
      · cases taken
        exact ⟨le_rfl, fun inside => inside, rfl⟩
  | remove id => cases taken; exact ⟨le_rfl, fun inside => inside, rfl⟩
  | tick millis =>
      simp only [perform] at taken
      split at taken
      · rename_i inside
        cases taken
        exact ⟨by simp, fun _ => inside, rfl⟩
      · cases taken

end Ccflare.RoutingLoop
