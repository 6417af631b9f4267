import Ccflare.RoutingLoop

/-!
How often a stored reset time restarts a session. The selection clears the reset time of its
clone alone; what is written back is the start of the session, so the stored time stays
past until a response handler writes another one.
-/

namespace Ccflare.WindowReset

open MachineNumber LoadBalancer Eligibility RoutingLoop Transition

/-- The row of an account with a reset time in it. -/
def Stores (s : Loop) (id : String) (reset : Int) : Prop :=
  ∃ row ∈ s.accounts, row.id = id ∧ row.rateLimitReset = some reset

/-- A request restarts the session of an account because its stored reset time passed. -/
def Fires (taken : Taken) (id : String) (reset : Int) : Prop :=
  ∃ usage sel row, taken.2.1 = .request usage sel ∧ row ∈ taken.1.accounts ∧ row.id = id ∧
    row.rateLimitReset = some reset ∧ rateLimitWindowReset row taken.1.now = true ∧
    ⟨id, taken.1.now⟩ ∈ (selection taken.1 usage sel).resets

/-- A request goes to the account while its stored reset time is past, in a session that began
when that time was past already. -/
def MeetsUsedReset (taken : Taken) (id : String) : Prop :=
  ∃ usage sel row, taken.2.1 = .request usage sel ∧ sel.bypassSession = false ∧
    pick taken.1 usage sel = some row ∧ row.id = id ∧
    rateLimitWindowReset row taken.1.now = true ∧
    row.sessionStart.any (windowReset row) = true

/-- The session of the account began, on a clock that has not wrapped, after the reset. -/
def Used (id : String) (reset : Int) (s : Loop) : Prop :=
  ∀ row ∈ s.accounts, row.id = id → row.rateLimitReset = some reset →
    ∃ start, row.sessionStart = some start ∧ 0 ≤ start ∧ start ≤ s.now ∧
      normalizeEpochMillis reset < wrappingSub start resetDebounceMs

theorem wrapping_debounce (now : Int) (past : 0 ≤ now) (inside : InI64 now) :
    wrappingSub now resetDebounceMs = now - 15000 := by
  apply wrap_of_in_i64
  unfold InI64 i64Min i64Max resetDebounceMs at *
  omega

theorem window_reset_of (row : Account) (reset now : Int) (stored : row.rateLimitReset = some reset) :
    windowReset row now = true ↔ normalizeEpochMillis reset < wrappingSub now resetDebounceMs := by
  simp [windowReset, stored]

structure Clocked (s : Loop) : Prop where
  distinct : (s.accounts.map Account.id).Nodup
  past : 0 ≤ s.now
  inside : InI64 s.now

theorem step_clocked (s t : Loop) (event : Event) (clocked : Clocked s)
    (taken : Does perform s event t) : Clocked t where
  distinct := ids_step s t event clocked.distinct taken
  past := clocked.past.trans (clock_step s t event taken).1
  inside := (clock_step s t event taken).2.1 clocked.inside

theorem same_row (s : Loop) (clocked : Clocked s) (left right : Account)
    (leftMember : left ∈ s.accounts) (rightMember : right ∈ s.accounts)
    (same : left.id = right.id) : left = right :=
  List.inj_on_of_nodup_map clocked.distinct leftMember rightMember same

/-- While the stored time stays, the session goes on as one that began after it. -/
theorem step_used (s t : Loop) (event : Event) (id : String) (reset : Int) (clocked : Clocked s)
    (stores : Stores s id reset) (used : Used id reset s) (taken : Does perform s event t) :
    Used id reset t := by
  have forward := (clock_step s t event taken).1
  obtain ⟨stored, listed, named, time⟩ := stores
  intro row held same rowTime
  cases row_step s t event clocked.distinct taken row held with
  | kept old member sameId _ sameStart _ =>
      obtain rfl := same_row s clocked old stored member listed
        ((sameId.symm.trans same).trans named.symm)
      obtain ⟨start, started, positive, before, after⟩ := used old listed named time
      exact ⟨start, sameStart.trans started, positive, before.trans forward, after⟩
  | restarted usage sel old _ resets restarted =>
      subst restarted
      obtain rfl := same_row s clocked old stored resets.member listed (same.trans named.symm)
      obtain ⟨start, -, positive, before, after⟩ := used old listed named time
      refine ⟨s.now, rfl, clocked.past, forward, ?_⟩
      have startInside : InI64 start := by
        have inside := clocked.inside
        unfold InI64 i64Min i64Max at *
        omega
      -- The session restarts later than it began, so it begins past the reset again.
      rw [wrapping_debounce start positive startInside] at after
      rw [wrapping_debounce s.now clocked.past clocked.inside]
      omega
  | inserted _ absent => exact absurd (named.trans same.symm) (absent stored listed)

theorem restarted_row (s t : Loop) (usage : UsageMap) (sel : SelectionMeta) (picked : Account)
    (resets : Resets s usage sel picked) (taken : Does perform s (.request usage sel) t)
    (row : Account) (held : row ∈ t.accounts) (same : row.id = picked.id) :
    row.sessionStart = some s.now := by
  change perform s (.request usage sel) = some t at taken
  cases taken
  simp only [resets.resets, persist, List.foldl_cons, List.foldl_nil] at held
  obtain ⟨old, member, rfl⟩ := (mem_update_row _ _ _ row).mp held
  by_cases here : old.id = picked.id
  · simp [here, startSession]
  · simp [here] at same

/-- The account that a firing request picked, and what it found there. -/
theorem fires_picked (taken : Taken) (id : String) (reset : Int) (clocked : Clocked taken.1)
    (fires : Fires taken id reset) :
    ∃ usage sel row, taken.2.1 = .request usage sel ∧ Resets taken.1 usage sel row ∧
      row.id = id ∧ row.rateLimitReset = some reset ∧
      rateLimitWindowReset row taken.1.now = true := by
  obtain ⟨usage, sel, row, asks, member, rfl, stored, window, listed⟩ := fires
  rcases request_outcome taken.1 usage sel with none | ⟨picked, resets⟩
  · rw [none] at listed
    cases listed
  · rw [resets.resets] at listed
    have same : row.id = picked.id := congrArg SessionReset.accountId (List.mem_singleton.mp listed)
    obtain rfl := same_row taken.1 clocked row picked member resets.member same
    exact ⟨usage, sel, row, asks, resets, rfl, stored, window⟩

theorem fired_used (s t : Loop) (event : Event) (id : String) (reset : Int) (clocked : Clocked s)
    (taken : Does perform s event t) (fires : Fires (s, event, t) id reset) : Used id reset t := by
  obtain ⟨usage, sel, picked, asks, resets, rfl, stored, window⟩ :=
    fires_picked (s, event, t) id reset clocked fires
  obtain rfl : event = .request usage sel := asks
  have forward := (clock_step s t _ taken).1
  have passed := (Bool.and_eq_true_iff.mp window).2
  intro row held same _
  exact ⟨s.now, restarted_row s t usage sel picked resets taken row held same, clocked.past, forward,
    (window_reset_of picked reset s.now stored).mp passed⟩

/-- While no request meets a reset time that was used, a stored reset time restarts a
session at most once. -/
theorem window_resets_once (start s : Loop) (trace : List Taken) (id : String)
    (clocked : Clocked start) (run : Run (Does perform) start trace s)
    (unmet : ∀ taken ∈ trace, ¬MeetsUsedReset taken id)
    (before middle after : List Taken) (first second : Taken) (reset : Int)
    (split : trace = before ++ first :: (middle ++ second :: after))
    (unchanged : ∀ taken ∈ middle, Stores taken.1 id reset) (fires : Fires first id reset) :
    ¬Fires second id reset := by
  intro again
  subst split
  obtain ⟨source, event, target⟩ := first
  obtain ⟨source', event', target'⟩ := second
  obtain ⟨earlier, step, later⟩ := run.cut
  obtain ⟨between, -, -⟩ := later.cut
  have clockedSource := earlier.invariant Clocked clocked
    fun source event target => step_clocked source target event
  have clockedTarget := step_clocked source target event clockedSource step
  -- Along the middle the session is one that began after the reset.
  have used : Clocked source' ∧ Used id reset source' := by
    clear again later run unmet
    induction between with
    | nil => exact ⟨clockedTarget, fired_used source target event id reset clockedSource step fires⟩
    | @snoc trace last next sent _ taken ih =>
        obtain ⟨lastClocked, lastUsed⟩ := ih fun taken member =>
          unchanged taken (List.mem_append_left _ member)
        have stores := unchanged (last, sent, next) (by simp)
        exact ⟨step_clocked last next sent lastClocked taken,
          step_used last next sent id reset lastClocked stores lastUsed taken⟩
  obtain ⟨usage, sel, row, asks, resets, rfl, stored, window⟩ :=
    fires_picked (source', event', target') id reset used.1 again
  -- The second request would meet the reset in a session that began after it.
  obtain ⟨began, started, -, -, passed⟩ := used.2 row resets.member rfl stored
  apply unmet (source', event', target') (by simp)
  refine ⟨usage, sel, row, asks, resets.tracked, resets.chosen, rfl, window, ?_⟩
  rw [started, Option.any_some]
  exact (window_reset_of row reset began stored).mpr passed

/-- Whatever the requests meet, a stored reset time restarts a session at most once. -/
def AtMostOnce : Prop :=
  ∀ (start s : Loop) (trace : List Taken) (id : String), Clocked start →
    Run (Does perform) start trace s →
    ∀ (before middle after : List Taken) (first second : Taken) (reset : Int),
      trace = before ++ first :: (middle ++ second :: after) →
      (∀ taken ∈ middle, Stores taken.1 id reset) → Fires first id reset → ¬Fires second id reset

def account (began reset : Int) : Account :=
  { makeAccount "a" "anthropic" 0 with sessionStart := some began, rateLimitReset := some reset }

def sample (began reset now : Int) : Loop := ⟨[account began reset], ⟨18000000, 0⟩, now⟩

theorem sample_clocked (began reset now : Int) (past : 0 ≤ now) (inside : InI64 now) :
    Clocked (sample began reset now) := by
  refine ⟨?_, past, inside⟩
  exact List.nodup_singleton _

theorem sample_stores (began reset now : Int) : Stores (sample began reset now) "a" reset :=
  ⟨account began reset, List.mem_singleton.mpr rfl, rfl, rfl⟩

theorem sample_fires (began reset now : Int) (target : Loop)
    (passed : rateLimitWindowReset (account began reset) now = true)
    (listed : ⟨"a", now⟩ ∈ (selection (sample began reset now) noUsage unforced).resets) :
    Fires (sample began reset now, .request noUsage unforced, target) "a" reset :=
  ⟨noUsage, unforced, account began reset, rfl, List.mem_singleton.mpr rfl, rfl, rfl, passed, listed⟩

/-- A request that finds the stored time past restarts the session, and a second goes by. -/
theorem sample_restarted :
    Run (Does perform) (sample 1699996400000 1699999980000 1700000000000)
      [(sample 1699996400000 1699999980000 1700000000000, .request noUsage unforced,
          sample 1700000000000 1699999980000 1700000000000),
        (sample 1700000000000 1699999980000 1700000000000, .tick 1000,
          sample 1700000000000 1699999980000 1700000001000)]
      (sample 1700000000000 1699999980000 1700000001000) := by
  have first : Does perform (sample 1699996400000 1699999980000 1700000000000)
      (.request noUsage unforced) (sample 1700000000000 1699999980000 1700000000000) := by
    change perform _ _ = some _
    decide +kernel
  have wait : Does perform (sample 1700000000000 1699999980000 1700000000000) (.tick 1000)
      (sample 1700000000000 1699999980000 1700000001000) := by
    change perform _ _ = some _
    decide +kernel
  exact (Run.nil.snoc first).snoc wait

/-- Two requests, a second apart, restart the session for one stored time. -/
theorem stored_reset_fires_again : ¬AtMostOnce := by
  intro once
  have second : Does perform (sample 1700000000000 1699999980000 1700000001000)
      (.request noUsage unforced) (sample 1700000001000 1699999980000 1700000001000) := by
    change perform _ _ = some _
    decide +kernel
  apply once _ _ _ "a" (sample_clocked _ _ _ (by decide) (by decide))
    (sample_restarted.snoc second) [] [(_, .tick 1000, _)] [] (_, _, _) (_, _, _)
    1699999980000 rfl
  · intro taken member
    obtain rfl := List.mem_singleton.mp member
    exact sample_stores _ _ _
  · exact sample_fires _ _ _ _ (by decide +kernel) (by decide +kernel)
  · exact sample_fires _ _ _ _ (by decide +kernel) (by decide +kernel)

def untracked : SelectionMeta := ⟨none, false, true⟩

/-- A request that bypasses sessions comes after the one that the reset time restarted. -/
theorem untracked_request_fires_nothing :
    ¬Fires (sample 1700000000000 1699999980000 1700000001000, .request noUsage untracked,
      sample 1700000000000 1699999980000 1700000001000) "a" 1699999980000 := by
  have second : Does perform (sample 1700000000000 1699999980000 1700000001000)
      (.request noUsage untracked) (sample 1700000000000 1699999980000 1700000001000) := by
    change perform _ _ = some _
    decide +kernel
  apply window_resets_once _ _ _ "a" (sample_clocked _ _ _ (by decide) (by decide))
    (sample_restarted.snoc second) _ [] [(_, .tick 1000, _)] [] (_, _, _) (_, _, _)
    1699999980000 rfl
  · intro taken member
    obtain rfl := List.mem_singleton.mp member
    exact sample_stores _ _ _
  · exact sample_fires _ _ _ _ (by decide +kernel) (by decide +kernel)
  · intro taken member
    simp only [List.nil_append, List.cons_append, List.mem_cons, List.not_mem_nil, or_false]
      at member
    rcases member with rfl | rfl | rfl
    · -- The first session began before the reset time was past.
      rintro ⟨usage, sel, row, asks, -, chosen, -, -, used⟩
      cases asks
      have picked : pick (sample 1699996400000 1699999980000 1700000000000) noUsage unforced =
          some (account 1699996400000 1699999980000) := by decide +kernel
      cases picked.symm.trans chosen
      exact absurd used (by decide +kernel)
    · rintro ⟨usage, sel, row, asks, -⟩
      cases asks
    · rintro ⟨usage, sel, row, asks, tracked, -⟩
      cases asks
      cases tracked

end Ccflare.WindowReset
