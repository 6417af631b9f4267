import Ccflare.RoutingLoop

/-!
How long requests stay with the account whose session began last. The session that leads
goes on leading while no other session begins at the same millisecond or after it: of
sessions that began together, the last in the pool is taken.
-/

namespace Ccflare.SessionAffinity

open MachineNumber LoadBalancer Routing RoutingLoop StableSort Transition

/-- An account whose active session began after every other active one. -/
structure Leads (s : Loop) (account : Account) : Prop where
  member : account ∈ s.accounts
  active : hasActiveSession s.strategy account s.now = true
  latest : ∀ other ∈ s.accounts, other.id ≠ account.id →
    hasActiveSession s.strategy other s.now = true →
    other.sessionStart.getD 0 < account.sessionStart.getD 0

theorem active_not_expired (strategy : SessionStrategy) (account : Account) (now : Int)
    (active : hasActiveSession strategy account now = true) :
    fixedDurationExpired strategy account now = false := by
  obtain ⟨tracked, start, began, -, within⟩ := (has_active_session_iff _ _ _).mp active
  simp [fixedDurationExpired, tracked, began, within]

/-- One request stays with the account that leads. -/
theorem leader_selected (s : Loop) (usage : UsageMap) (sel : SelectionMeta) (account : Account)
    (distinct : (s.accounts.map Account.id).Nodup) (leads : Leads s account)
    (unforced : sel.forceAccountId = none)
    (available : isAccountAvailable account usage s.now = true)
    (noFallback : checkAutoFallbackAccounts s.accounts usage s.now = [])
    (notReset : windowReset account s.now = false) :
    (selection s usage sel).accounts.head? = some account ∧ (selection s usage sel).resets = [] := by
  -- No other active session has the same start, so the tie of `max_by_key` does not arise.
  have found : activeAccount s.strategy s.accounts s.now = some account := by
    apply max_by_key_unique
    · exact List.mem_filter.mpr ⟨leads.member, leads.active⟩
    · intro other listed
      obtain ⟨member, active⟩ := List.mem_filter.mp listed
      by_cases same : other.id = account.id
      · exact Or.inl (List.inj_on_of_nodup_map distinct member leads.member same)
      · exact Or.inr (leads.latest other member same active)
  have kept : choose s.strategy sel account s.now = (account, []) := by
    unfold choose maybeResetSession
    have due := active_not_expired s.strategy account s.now leads.active
    cases sel.bypassSession <;> simp [due, rateLimitWindowReset, notReset]
  have path : selection s usage sel = routeTo s.strategy s.accounts usage sel s.now account := by
    simp [selection, select, forcedAccount, unforced, selectNormally, noFallback, found, available]
  rw [path]
  unfold routeTo
  rw [kept]
  exact ⟨rfl, rfl⟩

/-- Within its duration a session that has begun is active. -/
theorem active_within (strategy : SessionStrategy) (account : Account) (now began : Int)
    (typed : strategy.sessionDurationMs ≤ i64Max)
    (tracked : requiresSessionTracking account.provider = true)
    (started : account.sessionStart = some began) (before : began ≤ now)
    (within : now < began + strategy.sessionDurationMs) :
    hasActiveSession strategy account now = true := by
  have exact_ : wrappingSub now began = now - began := by
    apply wrap_of_in_i64
    unfold InI64 i64Min i64Max at *
    omega
  rw [has_active_session_iff]
  refine ⟨tracked, began, started, before, ?_⟩
  rw [exact_]
  omega

theorem active_facts (strategy : SessionStrategy) (account : Account) (now began : Int)
    (started : account.sessionStart = some began)
    (active : hasActiveSession strategy account now = true) :
    requiresSessionTracking account.provider = true ∧ began ≤ now := by
  obtain ⟨tracked, start, began_, before, -⟩ := (has_active_session_iff _ _ _).mp active
  obtain rfl := Option.some.inj (started.symm.trans began_)
  exact ⟨tracked, before⟩

/-- The session of the account with an id began at `began` or later. -/
def Followed (account : Account) (began : Int) (s : Loop) : Prop :=
  ∀ row ∈ s.accounts, row.id = account.id → row.provider = account.provider ∧
    ∃ since, row.sessionStart = some since ∧ began ≤ since ∧ since ≤ s.now

def Recreates (event : Event) (id : String) : Prop :=
  ∃ other, event = .insert other ∧ other.id = id

theorem step_followed (s t : Loop) (event : Event) (account : Account) (began : Int)
    (distinct : (s.accounts.map Account.id).Nodup) (followed : Followed account began s)
    (past : began ≤ s.now) (quiet : ¬Recreates event account.id)
    (taken : Does perform s event t) : Followed account began t := by
  have forward := (clock_step s t event taken).1
  intro row held same
  cases row_step s t event distinct taken row held with
  | kept old member sameId sameProvider sameStart _ =>
      obtain ⟨provider, since, started, after, before⟩ :=
        followed old member (sameId.symm.trans same)
      exact ⟨sameProvider.trans provider, since, sameStart.trans started, after,
        before.trans forward⟩
  | restarted usage sel old _ resets restarted =>
      subst restarted
      exact ⟨(followed old resets.member same).1, s.now, rfl, past, forward⟩
  | inserted inserts => exact absurd ⟨row, inserts, same⟩ quiet

structure Watched (account : Account) (began : Int) (duration : Int) (s : Loop) : Prop where
  distinct : (s.accounts.map Account.id).Nodup
  followed : Followed account began s
  past : began ≤ s.now
  duration : s.strategy.sessionDurationMs = duration

theorem step_watched (s t : Loop) (event : Event) (account : Account) (began duration : Int)
    (watched : Watched account began duration s) (quiet : ¬Recreates event account.id)
    (taken : Does perform s event t) : Watched account began duration t where
  distinct := ids_step s t event watched.distinct taken
  followed := step_followed s t event account began watched.distinct watched.followed watched.past
    quiet taken
  past := watched.past.trans (clock_step s t event taken).1
  duration := (clock_step s t event taken).2.2.trans watched.duration

/-- A request at which the reset of the account with an id is past the debounce. -/
def Passes (taken : Taken) (id : String) : Prop :=
  (∃ usage sel, taken.2.1 = .request usage sel) ∧
    ∃ row ∈ taken.1.accounts, row.id = id ∧ windowReset row taken.1.now = true

def Held (account : Account) (began : Int) (s : Loop) : Prop :=
  ∀ row ∈ s.accounts, row.id = account.id → row.sessionStart = some began

/-- Before its duration is over, a session restarts by its own reset alone. -/
theorem step_held (s t : Loop) (event : Event) (account : Account) (began duration : Int)
    (watched : Watched account began duration s) (typed : duration ≤ i64Max)
    (tracked : requiresSessionTracking account.provider = true)
    (held : Held account began s) (within : s.now < began + duration)
    (quiet : ¬Recreates event account.id) (unpassed : ¬Passes (s, event, t) account.id)
    (taken : Does perform s event t) : Held account began t := by
  intro row member same
  cases row_step s t event watched.distinct taken row member with
  | kept old before sameId _ sameStart _ =>
      exact sameStart.trans (held old before (sameId.symm.trans same))
  | inserted inserts => exact absurd ⟨row, inserts, same⟩ quiet
  | restarted usage sel old asks resets restarted =>
      subst restarted
      have started := held old resets.member same
      have provider := (watched.followed old resets.member same).1
      have active : hasActiveSession s.strategy old s.now = true := by
        apply active_within s.strategy old s.now began
        · rw [watched.duration]
          exact typed
        · rw [provider]
          exact tracked
        · exact started
        · exact watched.past
        · rw [watched.duration]
          exact within
      -- Within the duration nothing but the account's own reset restarts it.
      rcases resets.due with expired | window
      · rw [active_not_expired s.strategy old s.now active] at expired
        cases expired
      · unfold rateLimitWindowReset at window
        exact absurd ⟨⟨usage, sel, asks⟩, old, resets.member, same,
          (Bool.and_eq_true_iff.mp window).2⟩ unpassed

theorem run_watched (start s : Loop) (trace : List Taken) (account : Account)
    (began duration : Int) (watched : Watched account began duration start)
    (quiet : ∀ taken ∈ trace, ¬Recreates taken.2.1 account.id)
    (run : Run (Does perform) start trace s) : Watched account began duration s :=
  (run.along (Watched account began duration) (fun event => ¬Recreates event account.id) watched
    (fun source event target => step_watched source target event account began duration) quiet).1

theorem run_held (start s : Loop) (trace : List Taken) (account : Account) (began duration : Int)
    (watched : Watched account began duration start) (typed : duration ≤ i64Max)
    (tracked : requiresSessionTracking account.provider = true)
    (held : Held account began start) (within : s.now < began + duration)
    (quiet : ∀ taken ∈ trace, ¬Recreates taken.2.1 account.id)
    (unpassed : ∀ taken ∈ trace, ¬Passes taken account.id)
    (run : Run (Does perform) start trace s) : Held account began s := by
  induction run with
  | nil => exact held
  | @snoc trace source target event before taken ih =>
      have forward := (clock_step source target event taken).1
      have earlier := lt_of_le_of_lt forward within
      have quietBefore : ∀ taken ∈ trace, ¬Recreates taken.2.1 account.id :=
        fun taken member => quiet taken (List.mem_append_left _ member)
      apply step_held source target event account began duration
      · exact run_watched start source trace account began duration watched quietBefore before
      · exact typed
      · exact tracked
      · exact ih earlier quietBefore
          fun taken member => unpassed taken (List.mem_append_left _ member)
      · exact earlier
      · exact quiet (source, event, target) (by simp)
      · exact unpassed (source, event, target) (by simp)
      · exact taken

/-- Since `start`, no other session was set to `since` or later. -/
def NoneAsLate (start s : Loop) (id : String) (since : Int) : Prop :=
  ∀ other ∈ s.accounts, other.id ≠ id → ∀ began, other.sessionStart = some began →
    began < since ∨ ∃ old ∈ start.accounts, old.id = other.id ∧
      old.sessionStart = some began ∧ hasActiveSession start.strategy old start.now = true

theorem leader_watched (start : Loop) (account : Account) (began : Int)
    (distinct : (start.accounts.map Account.id).Nodup) (leads : Leads start account)
    (started : account.sessionStart = some began) :
    Watched account began start.strategy.sessionDurationMs start ∧ Held account began start := by
  have only : ∀ row ∈ start.accounts, row.id = account.id → row = account :=
    fun row listed named => List.inj_on_of_nodup_map distinct listed leads.member named
  have past := (active_facts start.strategy account start.now began started leads.active).2
  constructor
  · refine ⟨distinct, ?_, past, rfl⟩
    intro row listed named
    rw [only row listed named]
    exact ⟨rfl, began, started, le_rfl, past⟩
  · intro row listed named
    rw [only row listed named]
    exact started

/-- A session of the leader that is within its duration leads, late sessions of others apart. -/
theorem later_leads (start s : Loop) (account current : Account) (began since : Int)
    (typed : start.strategy.sessionDurationMs ≤ i64Max) (leads : Leads start account)
    (started : account.sessionStart = some began)
    (later : Watched account began start.strategy.sessionDurationMs s)
    (member : current ∈ s.accounts) (same : current.id = account.id)
    (provider : current.provider = account.provider)
    (sinceStarted : current.sessionStart = some since) (after : began ≤ since)
    (before : since ≤ s.now) (within : s.now < since + s.strategy.sessionDurationMs)
    (noneAsLate : NoneAsLate start s account.id since) : Leads s current := by
  refine ⟨member, ?_, ?_⟩
  · apply active_within s.strategy current s.now since
    · rw [later.duration]
      exact typed
    · rw [provider]
      exact (active_facts start.strategy account start.now began started leads.active).1
    · exact sinceStarted
    · exact before
    · exact within
  · intro other listed apart active
    cases otherStart : other.sessionStart with
    | none =>
        unfold hasActiveSession at active
        simp [otherStart] at active
    | some otherBegan =>
        rw [sinceStarted, Option.getD_some, Option.getD_some]
        rw [same] at apart
        rcases noneAsLate other listed apart otherBegan otherStart with
          earlier | ⟨old, oldListed, oldNamed, oldStart, oldActive⟩
        · exact earlier
        · -- A session that was active at the start was behind the leader's then.
          have behind := leads.latest old oldListed (by rw [oldNamed]; exact apart) oldActive
          rw [oldStart, started, Option.getD_some, Option.getD_some] at behind
          exact lt_of_lt_of_le behind after

/-- Requests stay with the leading account, and its session goes on, as long as it is
available and within its duration, nothing falls back, its own window has not reset and no
other session was set as late as its own. -/
theorem session_sticks (start s : Loop) (trace : List Taken) (account : Account) (began : Int)
    (usage : UsageMap) (sel : SelectionMeta) (current : Account)
    (distinct : (start.accounts.map Account.id).Nodup)
    (typed : start.strategy.sessionDurationMs ≤ i64Max) (leads : Leads start account)
    (started : account.sessionStart = some began) (run : Run (Does perform) start trace s)
    (quiet : ∀ taken ∈ trace, ¬Recreates taken.2.1 account.id)
    (unforced : sel.forceAccountId = none) (member : current ∈ s.accounts)
    (same : current.id = account.id) :
    ∃ since, current.sessionStart = some since ∧
      (s.now < since + s.strategy.sessionDurationMs →
        isAccountAvailable current usage s.now = true →
        checkAutoFallbackAccounts s.accounts usage s.now = [] →
        windowReset current s.now = false → NoneAsLate start s account.id since →
        (selection s usage sel).accounts.head? = some current ∧
          (selection s usage sel).resets = []) ∧
      (s.now < began + s.strategy.sessionDurationMs →
        (∀ taken ∈ trace, ¬Passes taken account.id) → since = began) := by
  obtain ⟨watched, initially⟩ := leader_watched start account began distinct leads started
  have later := run_watched start s trace account began _ watched quiet run
  obtain ⟨provider, since, sinceStarted, after, before⟩ := later.followed current member same
  refine ⟨since, sinceStarted, ?_, ?_⟩
  · intro within available noFallback notReset noneAsLate
    have still := later_leads start s account current began since typed leads started later member
      same provider sinceStarted after before within noneAsLate
    exact leader_selected s usage sel current later.distinct still unforced available noFallback
      notReset
  · intro within unpassed
    have tracked := (active_facts start.strategy account start.now began started leads.active).1
    rw [later.duration] at within
    have held := run_held start s trace account began _ watched typed tracked initially within quiet
      unpassed run current member same
    exact Option.some.inj (sinceStarted.symm.trans held)

def plain (sel : SelectionMeta) : Prop := sel.forceAccountId = none ∧ sel.bypassSession = false

/-- The same with other sessions that may begin together with the leading one. -/
def StaysUnlessLater : Prop :=
  ∀ (first start s : Loop) (trace : List Taken) (account current : Account) (since : Int)
    (usage usage' : UsageMap) (sel sel' : SelectionMeta),
    (first.accounts.map Account.id).Nodup → plain sel → plain sel' →
    Does perform first (.request usage sel) start →
    (selection first usage sel).accounts.head?.map Account.id = some account.id →
    Leads start account → Run (Does perform) start trace s →
    (∀ taken ∈ trace, ¬Recreates taken.2.1 account.id) →
    (∀ taken ∈ trace, ∀ usage sel, taken.2.1 = .request usage sel → plain sel) →
    current ∈ s.accounts → current.id = account.id → current.sessionStart = some since →
    s.now < since + s.strategy.sessionDurationMs →
    isAccountAvailable current usage' s.now = true →
    checkAutoFallbackAccounts s.accounts usage' s.now = [] →
    windowReset current s.now = false →
    (∀ other ∈ s.accounts, other.id ≠ account.id →
      ∀ began, other.sessionStart = some began → began ≤ since) →
    (selection s usage' sel').accounts.head?.map Account.id = some account.id

def rowA (start : Option Int) : Account :=
  { makeAccount "a" "anthropic" 0 with sessionStart := start }

def rowB (start : Option Int) : Account :=
  { makeAccount "b" "anthropic" 1 with sessionStart := start }

def sampleLoop (startA startB : Option Int) (now : Int) : Loop :=
  ⟨[rowA startA, rowB startB], ⟨18000000, 0⟩, now⟩

def pause (paused : Bool) : Event := .edit "a" fun account => { account with paused }

/-- While the leader is paused another session begins at its millisecond and is then taken. -/
theorem shared_millisecond_moves_on : ¬StaysUnlessLater := by
  intro stays
  obtain ⟨trace, s, run, events, reached⟩ := @performed Loop Event
    (sampleLoop (some 1700000000000) none 1700000000000) perform
    [pause true, .request noUsage unforced, pause false, .tick 1]
    (fun s => s = sampleLoop (some 1700000000000) (some 1700000000000) 1700000000001)
    (by decide +kernel)
  obtain rfl := of_decide_eq_true reached
  have listed := event_listed _ events
  have first : Does perform (sampleLoop none none 1700000000000) (.request noUsage unforced)
      (sampleLoop (some 1700000000000) none 1700000000000) := by
    change perform _ _ = some _
    decide +kernel
  have leads : Leads (sampleLoop (some 1700000000000) none 1700000000000)
      (rowA (some 1700000000000)) := by
    refine ⟨by decide +kernel, by decide +kernel, ?_⟩
    decide +kernel
  have moved := stays _ _ _ trace (rowA (some 1700000000000)) (rowA (some 1700000000000))
    1700000000000 noUsage noUsage unforced unforced (by decide +kernel) ⟨rfl, rfl⟩ ⟨rfl, rfl⟩ first
    (by decide +kernel) leads run (by
      rintro taken member ⟨other, inserts, -⟩
      have event := listed taken member
      rw [inserts] at event
      simp [pause] at event) (by
      intro taken member usage sel asks
      have event := listed taken member
      rw [asks] at event
      simp only [pause, List.mem_cons, reduceCtorEq, Event.request.injEq, List.not_mem_nil,
        or_false, false_or] at event
      rw [event.2]
      exact ⟨rfl, rfl⟩)
    (by decide +kernel) rfl rfl (by decide +kernel) (by decide +kernel) (by decide +kernel)
    (by decide +kernel) (by decide +kernel)
  exact absurd moved (by decide +kernel)

theorem leader_sticks_after_pause :
    (selection (sampleLoop (some 1700000000000) none 1700000001000) noUsage unforced).accounts.head?
      = some (rowA (some 1700000000000)) := by
  obtain ⟨trace, s, run, events, reached⟩ := @performed Loop Event
    (sampleLoop (some 1700000000000) none 1700000000000) perform
    [pause true, .tick 500, pause false, .tick 500]
    (fun s => s = sampleLoop (some 1700000000000) none 1700000001000) (by decide +kernel)
  obtain rfl := of_decide_eq_true reached
  have leads : Leads (sampleLoop (some 1700000000000) none 1700000000000)
      (rowA (some 1700000000000)) := by
    refine ⟨by decide +kernel, by decide +kernel, ?_⟩
    decide +kernel
  obtain ⟨since, started, sticks, -⟩ := session_sticks _ _ trace (rowA (some 1700000000000))
    1700000000000 noUsage unforced (rowA (some 1700000000000)) (by decide +kernel) (by decide) leads
    rfl run (by
      rintro taken member ⟨other, inserts, -⟩
      have event := event_listed _ events taken member
      rw [inserts] at event
      simp [pause] at event)
    rfl (by decide +kernel) rfl
  cases started
  refine (sticks (by decide +kernel) (by decide +kernel) (by decide +kernel) (by decide +kernel) ?_).1
  intro other member apart began otherStart
  rcases List.mem_cons.mp member with rfl | second
  · exact absurd rfl apart
  · obtain rfl := List.mem_singleton.mp second
    cases otherStart

end Ccflare.SessionAffinity
