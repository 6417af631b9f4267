import Ccflare.CapacityService
import Ccflare.Transition

/-!
Which completed requests the windows of the cached accounts hold. A request that completes
for an account outside the cache is passed over, and a rebuild holds the rows it has read
whether or not their requests have been notified; so what counts is where the insertion of
an account falls among the two steps of its requests.
-/

namespace Ccflare.CapacityService

open MachineNumber RollingWindow CapacityState SseParser StableSort Transition WindowRebuild

/-- The counts of a usage add up inside an `i64`, as far as they are recorded at all. -/
def SumFits (usage : StreamUsage) : Prop :=
  usageTokens usage ≤ i64Max ∧ (0 < wrapI64 (usageTokens usage) → 0 < usageTokens usage)

/-- A request of the account that weighs something. -/
def Saved.countsFor (saved : Saved) (accountId : String) : Prop :=
  saved.accountId = some accountId ∧ 0 < usageTokens saved.usage

def completedOf {K : Type} (s : Service K) (accountId : String) : List Completed :=
  s.completed.filter fun completed => decide (completed.accountId = some accountId)

/-- No row in the table is of a request still to be notified, and every request notified in
the last five hours has its row there. -/
structure Settled {K : Type} (s : Service K) (accountId : String) (table : List RequestRow) :
    Prop where
  pending : ∀ saved ∈ s.inFlight, saved.countsFor accountId →
    saved.requestId ∉ table.map RequestRow.id
  done : ∀ completed ∈ s.completed, completed.countsFor accountId →
    s.clock - window5hMs ≤ completed.savedAt → completed.requestId ∈ table.map RequestRow.id

/-- The condition on a step: an account is inserted while its requests are settled, and the
counts of a request of an account do not wrap. -/
def Guarded {K : Type} (s : Service K) : Event K → Prop
  | .saveRow _ accountId usage => accountId ≠ none → SumFits usage
  | .insertRebuilt =>
      match s.task with
      | .rebuilding _ account table _ => Settled s account.id (table.getD [])
      | _ => True
  | .addAccount =>
      match s.task with
      | .adding _ (account :: _) => account.id ∈ s.cache ∨ Settled s account.id []
      | _ => True
  | _ => True

variable {K : Type} [Field K]

/-- The entry of a completed request at one of its two readings of the clock. -/
def stampedEntry (stamped : Completed × Int) : Option (Int × K) :=
  weighedEntry stamped.2 (usageTokens stamped.1.usage) stamped.1.usage.model

structure Stamped (completed : List Completed) (stamped : List (Completed × Int)) : Prop where
  all : stamped.map Prod.fst = completed
  read : ∀ pair ∈ stamped, pair.2 = pair.1.savedAt ∨ pair.2 = pair.1.recordedAt

def recent (clock : Int) (entry : Int × K) : Bool := decide (clock - window5hMs ≤ entry.1)

/-- The window holds every completed request of the account in the last five hours exactly
once, with its tokens times the weight of its model. -/
def CountsEachOnce (s : Service K) (accountId : String) (state : AccountCapacityState K) : Prop :=
  ∃ stamped, Stamped (completedOf s accountId) stamped ∧
    (state.window5h.filter (recent s.clock)).Perm
      ((stamped.filterMap stampedEntry).filter (recent s.clock))

/-- What is kept: the window and what has left it are the completed requests. -/
def Counted (clock : Int) (completed : List Completed) (state : AccountCapacityState K) : Prop :=
  ∃ stamped gone, Stamped completed stamped ∧
    (gone ++ state.window5h).Perm (stamped.filterMap stampedEntry) ∧
    ∀ entry ∈ gone, entry.1 < clock - window5hMs

theorem Counted.each_once {s : Service K} {accountId : String} {state : AccountCapacityState K}
    (counted : Counted s.clock (completedOf s accountId) state) :
    CountsEachOnce s accountId state := by
  obtain ⟨stamped, gone, all, entries, old⟩ := counted
  refine ⟨stamped, all, ?_⟩
  have none : gone.filter (recent s.clock) = [] := by
    rw [List.filter_eq_nil_iff]
    intro entry member
    simpa only [recent, decide_eq_true_eq, not_le] using old entry member
  have kept := entries.filter (recent s.clock)
  rw [List.filter_append, none, List.nil_append] at kept
  exact kept

theorem Counted.later {clock later : Int} {completed : List Completed}
    {state : AccountCapacityState K} (counted : Counted clock completed state)
    (after : clock ≤ later) : Counted later completed state := by
  obtain ⟨stamped, gone, all, entries, old⟩ := counted
  refine ⟨stamped, gone, all, entries, ?_⟩
  intro entry member
  have before := old entry member
  omega

section Changes
variable [LinearOrder K] {clock : Int} {completed : List Completed}
  {state : AccountCapacityState K}

/-- Entries that are evicted at a time that has come are gone for good. -/
theorem Counted.evicted (counted : Counted clock completed state) (nowMs : Int)
    (reading : ClockReading nowMs) (past : nowMs ≤ clock) (other : AccountCapacityState K)
    (window : other.window5h = (state.evictOld nowMs).window5h) :
    Counted clock completed other := by
  obtain ⟨stamped, gone, all, entries, old⟩ := counted
  have split := expired_expire (nowMs - window5hMs) state.window5h
  rw [evict_old_window, cutoff_of_reading nowMs reading] at window
  refine ⟨stamped, gone ++ expired (nowMs - window5hMs) state.window5h, all, ?_, ?_⟩
  · rw [window, List.append_assoc, split]
    exact entries
  · intro entry member
    rcases List.mem_append.mp member with earlier | here
    · exact old entry earlier
    · have before := expired_old _ _ entry here
      omega

theorem Counted.polled (functions : Functions K) (counted : Counted clock completed state)
    (nowMs : Int) (u : K) (reading : ClockReading nowMs) (past : nowMs ≤ clock) :
    Counted clock completed (state.onUsagePoll functions nowMs u) :=
  counted.evicted nowMs reading past _ (poll_window functions state nowMs u).2.1

variable [IsStrictOrderedRing K]

theorem Counted.notified (counted : Counted clock completed state) (saved : Saved)
    (reading : ClockReading clock) (fits : SumFits saved.usage) :
    Counted clock (completed ++ [⟨saved, clock⟩])
      (cacheOnRequest state saved.usage.model (wrapI64 (usageTokens saved.usage)) clock) := by
  have wrapped := (wrapped_positive_part (usageTokens saved.usage)).mpr fits
  have stampedLast : ∀ stamped, Stamped completed stamped →
      Stamped (completed ++ [⟨saved, clock⟩]) (stamped ++ [(⟨saved, clock⟩, clock)]) := by
    intro stamped all
    refine ⟨by rw [List.map_append, all.all]; rfl, ?_⟩
    intro pair member
    rcases List.mem_append.mp member with earlier | last
    · exact all.read pair earlier
    · obtain rfl := List.mem_singleton.mp last
      exact .inr rfl
  by_cases counts : 0 < usageTokens saved.usage
  · have same : wrapI64 (usageTokens saved.usage) = usageTokens saved.usage := by omega
    have weighs := (weighs_iff (K := K) (usageTokens saved.usage) saved.usage.model).mpr counts
    have window := (request_window state clock _ weighs).2
    obtain ⟨stamped, gone, all, entries, old⟩ := counted.evicted clock reading le_rfl
      (state.evictOld clock) rfl
    refine ⟨_, gone, stampedLast stamped all, ?_, old⟩
    have made : stampedEntry (K := K) (⟨saved, clock⟩, clock) =
        some (clock, (usageTokens saved.usage : K) * modelWeight saved.usage.model) := if_pos counts
    rw [same, cacheOnRequest, if_neg (not_le.mpr counts), window, List.filterMap_append,
      List.filterMap_cons_some made, List.filterMap_nil, ← List.append_assoc]
    exact entries.append_right _
  · have weightless : wrapI64 (usageTokens saved.usage) ≤ 0 := by omega
    obtain ⟨stamped, gone, all, entries, old⟩ := counted
    refine ⟨_, gone, stampedLast stamped all, ?_, old⟩
    have none : stampedEntry (K := K) (⟨saved, clock⟩, clock) = none := if_neg counts
    rw [cacheOnRequest, if_pos weightless, List.filterMap_append, List.filterMap_cons_none none,
      List.filterMap_nil, List.append_nil]
    exact entries

end Changes

section Insertion
variable {s : Service K} {accountId : String} {table : List RequestRow}

/-- The saved rows are those of the requests in flight and of the completed ones. -/
structure Saves (s : Service K) : Prop where
  ids : (s.requests.map RequestRow.id).Nodup
  rows : s.requests.Perm ((s.inFlight ++ s.completed.map Completed.toSaved).map Saved.row)

omit [Field K] in
theorem Saves.row_of (saves : Saves s) (row : RequestRow) (member : row ∈ s.requests) :
    (∃ saved ∈ s.inFlight, saved.row = row) ∨ ∃ completed ∈ s.completed, completed.row = row := by
  obtain ⟨saved, listed, rfl⟩ := List.mem_map.mp (saves.rows.mem_iff.mp member)
  rcases List.mem_append.mp listed with pending | done
  · exact .inl ⟨saved, pending, rfl⟩
  · obtain ⟨completed, finished, rfl⟩ := List.mem_map.mp done
    exact .inr ⟨completed, finished, rfl⟩

omit [Field K] in
theorem Saves.completed_row (saves : Saves s) (completed : Completed)
    (member : completed ∈ s.completed) : completed.row ∈ s.requests := by
  apply saves.rows.mem_iff.mpr
  exact List.mem_map_of_mem (List.mem_append_right _ (List.mem_map_of_mem member))

omit [Field K] in
theorem Saves.distinct (saves : Saves s) :
    (s.completed.map fun completed => completed.toSaved.row).Nodup := by
  have all := saves.rows.nodup_iff.mp (List.Nodup.of_map _ saves.ids)
  rw [List.map_append, List.map_map] at all
  exact (List.nodup_append.mp all).2.1

/-- A completed request whose row the rebuild reads and counts. -/
def found (table : List RequestRow) (sinceMs : Int) (completed : Completed) : Bool :=
  decide (completed.requestId ∈ table.map RequestRow.id ∧ sinceMs ≤ completed.savedAt ∧
    0 < usageTokens completed.usage)

def readRow (accountId : String) (sinceMs : Int) (row : RequestRow) : Bool :=
  selectedRow accountId sinceMs row && decide (0 < rowTokens row)

omit [Field K] in
/-- The rows a rebuild counts are those of the completed requests it would find again. -/
theorem settled_rows (sinceMs : Int) (saves : Saves s) (read : table.Sublist s.requests)
    (settled : Settled s accountId table) :
    (table.filter (readRow accountId sinceMs)).Perm
      (((completedOf s accountId).filter (found table sinceMs)).map
        fun completed => completed.toSaved.row) := by
  have nodup : table.Nodup := (List.Nodup.of_map _ saves.ids).sublist read
  have other := saves.distinct.sublist
    ((List.filter_sublist.trans List.filter_sublist : ((completedOf s accountId).filter
      (found table sinceMs)).Sublist s.completed).map fun completed => completed.toSaved.row)
  rw [List.perm_ext_iff_of_nodup (nodup.filter _) other]
  intro row
  constructor
  · intro member
    obtain ⟨listed, counted⟩ := List.mem_filter.mp member
    simp only [readRow, selectedRow, Bool.and_eq_true, decide_eq_true_eq] at counted
    obtain ⟨⟨account, since⟩, tokens⟩ := counted
    rcases saves.row_of row (read.subset listed) with ⟨saved, pending, rfl⟩ | ⟨completed, done, rfl⟩
    · exact absurd (List.mem_map_of_mem listed) (settled.pending saved pending ⟨account, tokens⟩)
    · apply List.mem_map_of_mem
      rw [List.mem_filter, completedOf, List.mem_filter]
      exact ⟨⟨done, decide_eq_true account⟩,
        decide_eq_true ⟨List.mem_map_of_mem listed, since, tokens⟩⟩
  · intro member
    obtain ⟨completed, listed, rfl⟩ := List.mem_map.mp member
    obtain ⟨ours, counted⟩ := List.mem_filter.mp listed
    obtain ⟨done, account⟩ := List.mem_filter.mp ours
    obtain ⟨known, since, tokens⟩ := of_decide_eq_true counted
    obtain ⟨row, there, same⟩ := List.mem_map.mp known
    have unique := List.inj_on_of_nodup_map saves.ids (read.subset there)
      (saves.completed_row completed done) same
    subst unique
    rw [List.mem_filter, readRow, selectedRow, Bool.and_eq_true]
    exact ⟨there, decide_eq_true ⟨of_decide_eq_true account, since⟩, decide_eq_true tokens⟩

theorem row_entries_read (rows : List RequestRow) (accountId : String) (sinceMs : Int) :
    (rows.filter (selectedRow accountId sinceMs)).filterMap (rowEntry (K := K)) =
      (rows.filter (readRow accountId sinceMs)).filterMap rowEntry := by
  induction rows with
  | nil => rfl
  | cons row rest ih =>
      by_cases tokens : 0 < rowTokens row
      · have same : readRow accountId sinceMs row = selectedRow accountId sinceMs row := by
          simp [readRow, tokens]
        simp only [List.filter_cons, same]
        split
        · rw [List.filterMap_cons, List.filterMap_cons, ih]
        · exact ih
      · have none : rowEntry (K := K) row = none := if_neg tokens
        have unread : readRow accountId sinceMs row = false := by simp [readRow, tokens]
        rw [List.filter_cons_of_neg (p := readRow accountId sinceMs) (by simp [unread]), ← ih,
          List.filter_cons]
        split
        · rw [List.filterMap_cons_none none]
        · rfl

variable [LinearOrder K] [IsStrictOrderedRing K]

theorem initial_state_entries (table : List RequestRow) (functions : Functions K)
    (account : Account) (db : Option (XFactorDbState K)) (nowMs : Int) (reading : ClockReading nowMs) :
    (initialState functions account db table nowMs).window5h.Perm
      ((table.filter (selectedRow account.id (nowMs - window5hMs))).filterMap rowEntry) := by
  obtain ⟨_, empty, _⟩ := restored_state_empty functions account db nowMs
  have window := (rebuild_window_eq
    (sortByKey RequestRow.timestamp
      (table.filter (selectedRow account.id (wrappingSub nowMs window5hMs))))
    (restoredState functions account db nowMs)).1
  rw [empty, List.nil_append, cutoff_of_reading nowMs reading] at window
  rw [initialState, recentRequestsForAccount, cutoff_of_reading nowMs reading, window]
  exact (sort_by_key_perm RequestRow.timestamp _).filterMap rowEntry

/-- An account that is inserted while its requests are settled starts with each of them. -/
theorem inserted_counted (functions : Functions K) (account : Account)
    (db : Option (XFactorDbState K)) (nowMs : Int) (reading : ClockReading nowMs)
    (past : nowMs ≤ s.clock) (saves : Saves s) (read : table.Sublist s.requests)
    (settled : Settled s account.id table) :
    Counted s.clock (completedOf s account.id) (initialState functions account db table nowMs) := by
  have rows := settled_rows (nowMs - window5hMs) saves read settled
  have window := initial_state_entries table functions account db nowMs reading
  rw [row_entries_read] at window
  have counted := window.trans (rows.filterMap rowEntry)
  rw [List.filterMap_map] at counted
  refine ⟨(completedOf s account.id).map fun completed => (completed, completed.savedAt),
    ((completedOf s account.id).filter fun completed =>
      !found table (nowMs - window5hMs) completed).filterMap
        fun completed => rowEntry completed.toSaved.row, ⟨?_, ?_⟩, ?_, ?_⟩
  · rw [List.map_map]
    exact List.map_id _
  · intro pair member
    obtain ⟨completed, _, rfl⟩ := List.mem_map.mp member
    exact .inl rfl
  · have parts := ((List.perm_append_comm).trans (List.filter_append_perm
      (found table (nowMs - window5hMs)) (completedOf s account.id))).filterMap
        fun completed => rowEntry (K := K) completed.toSaved.row
    rw [List.filterMap_append] at parts
    rw [List.filterMap_map]
    exact (counted.append_left _).trans parts
  · intro entry member
    obtain ⟨completed, listed, made⟩ := List.mem_filterMap.mp member
    obtain ⟨ours, missed⟩ := List.mem_filter.mp listed
    obtain ⟨done, account⟩ := List.mem_filter.mp ours
    rw [weighed_time _ _ _ _ made]
    have tokens : 0 < usageTokens completed.usage := by
      by_contra weightless
      have none : rowEntry (K := K) completed.row = none := if_neg weightless
      rw [none] at made
      cases made
    by_contra late
    have after : s.clock - window5hMs ≤ completed.savedAt := not_lt.mp late
    have known := settled.done completed done ⟨of_decide_eq_true account, tokens⟩ after
    have again : found table (nowMs - window5hMs) completed = true :=
      decide_eq_true ⟨known, by omega, tokens⟩
    simp [again] at missed

end Insertion

section Lookup
variable [LinearOrder K]

omit [Field K] [LinearOrder K] in
theorem modify_lookup (cache : StateMap K) (accountId other : String)
    (change : AccountCapacityState K → AccountCapacityState K) :
    (modify cache accountId change).lookup other =
      if other = accountId then (cache.lookup other).map change else cache.lookup other := by
  unfold modify
  by_cases same : other = accountId
  · subst same
    cases held : cache.lookup other with
    | none => simp [held]
    | some state => simp
  · rw [if_neg same]
    cases cache.lookup accountId with
    | none => rfl
    | some state => exact AList.lookup_insert_ne same

theorem cache_request_lookup (cache : StateMap K) (saved : Saved) (nowMs : Int)
    (accountId : String) :
    (cacheRequest cache saved nowMs).lookup accountId =
      if saved.accountId = some accountId then
        (cache.lookup accountId).map fun state =>
          cacheOnRequest state saved.usage.model (wrapI64 (usageTokens saved.usage)) nowMs
      else cache.lookup accountId := by
  have total := total_tokens_wrap saved.requestId saved.accountId saved.usage
  simp only [cacheRequest, total]
  cases used : saved.accountId with
  | none => simp [buildSummary]
  | some other =>
      by_cases counts : 0 < wrapI64 (usageTokens saved.usage)
      · simp only [if_pos counts, buildSummary, modify_lookup, Option.some.injEq]
        by_cases same : accountId = other
        · rw [if_pos same, if_pos same.symm]
        · rw [if_neg same, if_neg (Ne.symm same)]
      · have passed : (fun state : AccountCapacityState K => cacheOnRequest state saved.usage.model
            (wrapI64 (usageTokens saved.usage)) nowMs) = id := by
          funext state
          exact if_pos (not_lt.mp counts)
        rw [passed]
        simp [counts, buildSummary]

end Lookup

def Task.startedAt : Task → Option Int
  | .initializing nowMs _ | .rebuilding nowMs _ _ _ | .adding nowMs _ | .polling nowMs _ =>
      some nowMs
  | .starting | .idle => none

def Task.table : Task → List RequestRow
  | .rebuilding _ _ table _ => table.getD []
  | _ => []

/-- The invariant of guarded runs. -/
structure Kept (s : Service K) : Prop where
  reading : ClockReading s.clock
  saves : Saves s
  fits : ∀ saved ∈ s.inFlight, saved.accountId ≠ none → SumFits saved.usage
  started : ∀ nowMs, s.task.startedAt = some nowMs → ClockReading nowMs ∧ nowMs ≤ s.clock
  read : s.task.table.Sublist s.requests
  counted : ∀ accountId state, s.cache.lookup accountId = some state →
    Counted s.clock (completedOf s accountId) state

section Step
variable {s : Service K}

omit [Field K] in
theorem taken_perm (inFlight : List Saved) (requestId : String) (saved : Saved)
    (distinct : (inFlight.map Saved.requestId).Nodup)
    (next : inFlight.find? (fun other => decide (other.requestId = requestId)) = some saved) :
    (saved :: inFlight.filter fun other => decide (other.requestId ≠ requestId)).Perm inFlight := by
  induction inFlight with
  | nil => cases next
  | cons first rest ih =>
      obtain ⟨apart, distinct⟩ := List.nodup_cons.mp distinct
      by_cases same : first.requestId = requestId
      · rw [List.find?_cons_of_pos (by simpa using same)] at next
        obtain rfl := Option.some.inj next
        have others : rest.filter (fun other => decide (other.requestId ≠ requestId)) = rest := by
          rw [List.filter_eq_self]
          intro other member
          apply decide_eq_true
          rintro rfl
          exact apart (same ▸ List.mem_map_of_mem member)
        rw [List.filter_cons_of_neg (by simpa using same), others]
      · rw [List.find?_cons_of_neg (by simpa using same)] at next
        rw [List.filter_cons_of_pos (by simpa using same)]
        exact (List.Perm.swap first saved _).trans ((ih distinct next).cons first)

theorem moved_perm {saved : Saved} {inFlight rest : List Saved} (done : List Saved)
    (taken : (saved :: rest).Perm inFlight) :
    (rest ++ (done ++ [saved])).Perm (inFlight ++ done) :=
  calc
    (rest ++ (done ++ [saved])).Perm ([saved] ++ (rest ++ done)) := by
      rw [← List.append_assoc]
      exact List.perm_append_comm
    _ = (saved :: rest) ++ done := rfl
    List.Perm _ (inFlight ++ done) := taken.append_right done

omit [Field K] in
theorem in_flight_distinct (saves : Saves s) : (s.inFlight.map Saved.requestId).Nodup := by
  have all := (saves.rows.map RequestRow.id).nodup_iff.mp saves.ids
  rw [List.map_map, List.map_append] at all
  exact (List.nodup_append.mp all).1

omit [Field K] in
theorem completed_appended (s : Service K) (completed : Completed) (accountId : String) :
    (s.completed ++ [completed]).filter
        (fun other => decide (other.accountId = some accountId)) =
      if completed.accountId = some accountId then completedOf s accountId ++ [completed]
      else completedOf s accountId := by
  rw [List.filter_append, ← completedOf, List.filter_singleton]
  by_cases ours : completed.accountId = some accountId
  · simp [ours]
  · simp [ours]

theorem tick_kept (kept : Kept s) (nowMs : Int) (after : s.clock ≤ nowMs) (bounded : InI64 nowMs) :
    Kept { s with clock := nowMs } where
  reading := by
    have reading := kept.reading
    simp only [ClockReading, InI64, window5hMs, i64Min, i64Max] at reading bounded ⊢
    omega
  saves := ⟨kept.saves.ids, kept.saves.rows⟩
  fits := kept.fits
  started startedMs started := by
    obtain ⟨reading, before⟩ := kept.started startedMs started
    exact ⟨reading, before.trans after⟩
  read := kept.read
  counted accountId state held := (kept.counted accountId state held).later after

theorem save_row_kept (kept : Kept s) (requestId : String) (accountId : Option String)
    (usage : StreamUsage) (fresh : requestId ∉ s.requests.map RequestRow.id)
    (fits : accountId ≠ none → SumFits usage) :
    Kept { s with
      requests := save s.requests (Saved.row ⟨requestId, accountId, usage, s.clock⟩)
      inFlight := s.inFlight ++ [⟨requestId, accountId, usage, s.clock⟩] } := by
  have saved := save_fresh s.requests (Saved.row ⟨requestId, accountId, usage, s.clock⟩) fresh
  refine ⟨kept.reading, ⟨?_, ?_⟩, ?_, kept.started, ?_, kept.counted⟩
  · simp only [saved, List.map_append, List.map_singleton]
    rw [List.nodup_append]
    refine ⟨kept.saves.ids, List.nodup_singleton _, ?_⟩
    rintro id member other last rfl
    obtain rfl := List.mem_singleton.mp last
    exact fresh member
  · have rows := kept.saves.rows.append_right [Saved.row ⟨requestId, accountId, usage, s.clock⟩]
    simp only [saved, List.map_append, List.append_assoc] at rows ⊢
    exact rows.trans (List.perm_append_comm.append_left _)
  · intro other member
    rcases List.mem_append.mp member with earlier | last
    · exact kept.fits other earlier
    · obtain rfl := List.mem_singleton.mp last
      exact fits
  · simp only [saved]
    exact kept.read.trans (List.sublist_append_left _ _)

theorem task_kept (kept : Kept s) (task : Task)
    (started : ∀ nowMs, task.startedAt = some nowMs → ClockReading nowMs ∧ nowMs ≤ s.clock)
    (read : task.table.Sublist s.requests) : Kept { s with task := task } :=
  ⟨kept.reading, ⟨kept.saves.ids, kept.saves.rows⟩, kept.fits, started, read, kept.counted⟩

/-- A task that begins now. -/
theorem begun_kept (kept : Kept s) (task : Task) (began : task.startedAt = some s.clock)
    (unread : task.table = []) : Kept { s with task := task } := by
  refine task_kept kept task ?_ (by rw [unread]; exact List.nil_sublist _)
  intro nowMs started
  obtain rfl := Option.some.inj (began.symm.trans started)
  exact ⟨kept.reading, le_rfl⟩

/-- A task that began when the one before it did. -/
theorem continued_kept (kept : Kept s) (task : Task)
    (began : task.startedAt = s.task.startedAt) (read : task.table.Sublist s.requests) :
    Kept { s with task := task } := by
  refine task_kept kept task ?_ read
  intro nowMs started
  exact kept.started nowMs (began.symm.trans started)

theorem usage_kept (kept : Kept s) (usage : UsageMap K) : Kept { s with usage := usage } :=
  ⟨kept.reading, ⟨kept.saves.ids, kept.saves.rows⟩, kept.fits, kept.started, kept.read,
    kept.counted⟩

theorem accounts_kept (kept : Kept s) (accounts : List Account) :
    Kept { s with accounts := accounts } :=
  ⟨kept.reading, ⟨kept.saves.ids, kept.saves.rows⟩, kept.fits, kept.started, kept.read,
    kept.counted⟩

theorem insert_kept (kept : Kept s) (accountId : String) (state : AccountCapacityState K)
    (task : Task) (read : task.table = [])
    (started : ∀ nowMs, task.startedAt = some nowMs → s.task.startedAt = some nowMs)
    (counted : Counted s.clock (completedOf s accountId) state) :
    Kept { s with cache := s.cache.insert accountId state, task := task } where
  reading := kept.reading
  saves := ⟨kept.saves.ids, kept.saves.rows⟩
  fits := kept.fits
  started nowMs here := kept.started nowMs (started nowMs here)
  read := by
    simp only [read]
    exact List.nil_sublist _
  counted other held cached := by
    by_cases same : other = accountId
    · subst same
      simp only [AList.lookup_insert, Option.some.injEq] at cached
      subst cached
      exact counted
    · simp only [AList.lookup_insert_ne same] at cached
      exact kept.counted other held cached

variable [LinearOrder K]

theorem poll_kept (functions : Functions K) (kept : Kept s) (nowMs : Int) (accountId : String)
    (todo : List String) (usage : UsageMap K) (utilPct : Option K)
    (polling : s.task = .polling nowMs (accountId :: todo)) :
    Kept { s with
      cache := match utilPct with
        | some utilPct =>
            modify s.cache accountId fun state => state.onUsagePoll functions nowMs utilPct
        | none => s.cache
      usage := usage
      task := .polling nowMs todo } := by
  have started := kept.started nowMs (by rw [polling]; rfl)
  refine ⟨kept.reading, ⟨kept.saves.ids, kept.saves.rows⟩, kept.fits, ?_, List.nil_sublist _, ?_⟩
  · intro startedMs here
    obtain rfl := Option.some.inj here
    exact started
  · intro other state held
    cases utilPct with
    | none => exact kept.counted other state held
    | some utilPct =>
        simp only [modify_lookup] at held
        split at held
        · obtain ⟨before, cached, rfl⟩ := Option.map_eq_some_iff.mp held
          exact (kept.counted other before cached).polled functions nowMs utilPct started.1 started.2
        · exact kept.counted other state held

variable [IsStrictOrderedRing K]

theorem on_request_kept (kept : Kept s) (requestId : String) (saved : Saved)
    (next : s.inFlight.find? (fun other => decide (other.requestId = requestId)) = some saved) :
    Kept { s with
      inFlight := s.inFlight.filter fun other => decide (other.requestId ≠ requestId)
      completed := s.completed ++ [⟨saved, s.clock⟩]
      cache := cacheRequest s.cache saved s.clock } := by
  have taken := taken_perm s.inFlight requestId saved (in_flight_distinct kept.saves) next
  have member : saved ∈ s.inFlight := List.mem_of_find?_eq_some next
  refine ⟨kept.reading, ⟨kept.saves.ids, ?_⟩, ?_, kept.started, kept.read, ?_⟩
  · have moved := moved_perm (s.completed.map Completed.toSaved) taken
    have rows := kept.saves.rows.trans (moved.map Saved.row).symm
    simpa only [List.map_append, List.map_cons, List.map_nil] using rows
  · intro other listed
    exact kept.fits other (List.mem_of_mem_filter listed)
  · intro accountId state held
    simp only [cache_request_lookup] at held
    simp only [completedOf, completed_appended]
    split at held
    · rename_i ours
      obtain ⟨before, cached, rfl⟩ := Option.map_eq_some_iff.mp held
      rw [if_pos ours]
      exact (kept.counted accountId before cached).notified saved kept.reading
        (kept.fits saved member (by simp [ours]))
    · rename_i others
      rw [if_neg others]
      exact kept.counted accountId state held

end Step

/-- Every guarded step keeps the accounting. -/
theorem perform_kept (functions : Functions ℝ) {s target : Service ℝ} {event : Event ℝ}
    (kept : Kept s) (guarded : Guarded s event) (taken : perform functions s event = some target) :
    Kept target := by
  cases event with
  | tick nowMs =>
      simp only [perform] at taken
      split at taken
      · rename_i forward
        obtain rfl := Option.some.inj taken
        exact tick_kept kept nowMs forward.1 forward.2
      · cases taken
  | createAccount account =>
      simp only [perform] at taken
      split at taken
      · cases taken
      · obtain rfl := Option.some.inj taken
        exact accounts_kept kept _
  | deleteAccount accountId =>
      obtain rfl := Option.some.inj taken
      exact accounts_kept kept _
  | saveRow requestId accountId usage =>
      simp only [perform] at taken
      split at taken
      · cases taken
      · rename_i fresh
        obtain rfl := Option.some.inj taken
        apply save_row_kept kept requestId accountId usage _ guarded
        simpa using fresh
  | onRequest requestId =>
      simp only [perform] at taken
      split at taken
      · cases taken
      · rename_i saved next
        obtain rfl := Option.some.inj taken
        exact on_request_kept kept requestId saved next
  | initializeCache =>
      simp only [perform] at taken
      split at taken
      · obtain rfl := Option.some.inj taken
        exact begun_kept kept _ rfl rfl
      · cases taken
  | initializeCacheFails =>
      simp only [perform] at taken
      split at taken
      · obtain rfl := Option.some.inj taken
        exact task_kept kept _ (by simp [Task.startedAt]) (List.nil_sublist _)
      · cases taken
  | readRequests =>
      simp only [perform] at taken
      split at taken
      · rename_i nowMs account todo task
        obtain rfl := Option.some.inj taken
        exact continued_kept kept _ (by rw [task]; rfl) (List.Sublist.refl _)
      · cases taken
  | readFails =>
      simp only [perform] at taken
      split at taken
      · rename_i nowMs account todo task
        obtain rfl := Option.some.inj taken
        exact continued_kept kept _ (by rw [task]; rfl) (List.nil_sublist _)
      · cases taken
  | insertRebuilt =>
      simp only [perform] at taken
      split at taken
      · rename_i nowMs account table todo task
        obtain rfl := Option.some.inj taken
        obtain ⟨reading, past⟩ := kept.started nowMs (by rw [task]; rfl)
        have read := kept.read
        simp only [Guarded, task] at guarded read
        refine insert_kept kept account.id _ _ rfl (fun startedMs started => ?_) ?_
        · rw [task]
          exact started
        · exact inserted_counted functions account _ nowMs reading past kept.saves read guarded
      · cases taken
  | startCycle found =>
      simp only [perform] at taken
      split at taken
      · obtain rfl := Option.some.inj taken
        exact begun_kept kept _ rfl rfl
      · cases taken
  | addAccount =>
      simp only [perform] at taken
      split at taken
      · rename_i nowMs account todo task
        obtain rfl := Option.some.inj taken
        have started := kept.started nowMs (by rw [task]; rfl)
        simp only [Guarded, task] at guarded
        split
        · refine task_kept kept _ (fun startedMs here => ?_) (List.nil_sublist _)
          obtain rfl := Option.some.inj here
          exact started
        · rename_i absent
          have settled := guarded.resolve_left absent
          refine insert_kept kept account.id _ _ rfl (fun startedMs here => ?_) ?_
          · rw [task]
            exact here
          · exact inserted_counted functions account none s.clock kept.reading le_rfl kept.saves
              (List.nil_sublist _) settled
      · cases taken
  | startPolls order =>
      simp only [perform] at taken
      split at taken
      · rename_i nowMs task
        split at taken
        · obtain rfl := Option.some.inj taken
          exact continued_kept kept _ (by rw [task]; rfl) (List.nil_sublist _)
        · cases taken
      · cases taken
  | pollAccount =>
      simp only [perform] at taken
      split at taken
      · rename_i nowMs accountId todo task
        obtain rfl := Option.some.inj taken
        exact poll_kept functions kept nowMs accountId todo _ _ task
      · cases taken
  | finish =>
      simp only [perform] at taken
      split at taken
      · obtain rfl := Option.some.inj taken
        exact task_kept kept _ (by simp [Task.startedAt]) (List.nil_sublist _)
      · obtain rfl := Option.some.inj taken
        exact task_kept kept _ (by simp [Task.startedAt]) (List.nil_sublist _)
      · cases taken
  | setUsage accountId data =>
      obtain rfl := Option.some.inj taken
      exact usage_kept kept _
  | removeUsage accountId =>
      obtain rfl := Option.some.inj taken
      exact usage_kept kept _

/-- A process that starts: nothing is cached or in flight, and every row of the table is of
a request completed earlier. -/
structure Fresh (s : Service K) : Prop where
  reading : ClockReading s.clock
  saves : Saves s
  inFlight : s.inFlight = []
  cache : s.cache = ∅
  task : s.task = .starting

theorem fresh_kept {s : Service K} (fresh : Fresh s) : Kept s where
  reading := fresh.reading
  saves := fresh.saves
  fits := by simp [fresh.inFlight]
  started := by simp [fresh.task, Task.startedAt]
  read := by simp [fresh.task, Task.table]
  counted := by simp [fresh.cache]

/-- Wherever a guarded run gets to, every account that is cached has each of its completed
requests of the last five hours in its window once. -/
theorem completed_counted_once {start final : Service ℝ}
    {trace : List (Service ℝ × Event ℝ × Service ℝ)} (fresh : Fresh start)
    (run : Run (Does (perform real)) start trace final)
    (guarded : ∀ taken ∈ trace, Guarded taken.1 taken.2.1) :
    ∀ accountId state, final.cache.lookup accountId = some state →
      CountsEachOnce final accountId state := by
  have kept := (run.guarded Kept (fun taken => Guarded taken.1 taken.2.1) (fun _ => True)
    (fresh_kept fresh) (fun _ _ _ kept guard taken => ⟨perform_kept real kept guard taken, trivial⟩)
    guarded).1
  intro accountId state held
  exact (kept.counted accountId state held).each_once

def emptyService : Service ℝ where
  clock := 1700000000000
  accounts := []
  posteriors := []
  requests := []
  inFlight := []
  completed := []
  task := .starting
  cache := ∅
  usage := ∅

theorem empty_service_fresh : Fresh emptyService :=
  ⟨by decide, ⟨List.nodup_nil, List.Perm.nil⟩, rfl, rfl, rfl⟩

def opusUsage : StreamUsage := ⟨some "claude-opus-4", some 100, none, none, none⟩

/-- A request of a new account completes before the cycle that adds the account. -/
def newAccountEvents : List (Event ℝ) :=
  [.initializeCache, .finish, .createAccount (makeAccount "acc1" "anthropic" 0),
    .saveRow "req-1" (some "acc1") opusUsage, .onRequest "req-1", .startCycle true, .addAccount]

theorem new_account_misses :
    ∃ trace final state, Fresh emptyService ∧ Run (Does (perform real)) emptyService trace final ∧
      trace.map (fun taken => taken.2.1) = newAccountEvents ∧
      final.cache.lookup "acc1" = some state ∧ ¬ CountsEachOnce final "acc1" state := by
  obtain ⟨trace, final, run, events, reached⟩ := @performed _ _ emptyService (perform real)
    newAccountEvents (fun s => decide (s.clock = 1700000000000) && decide (s.completed =
      [⟨⟨"req-1", some "acc1", opusUsage, 1700000000000⟩, 1700000000000⟩]) &&
      (s.cache.lookup "acc1").any fun state => state.window5h.isEmpty) (by decide +kernel)
  simp only [Bool.and_eq_true, decide_eq_true_eq, Option.any_eq_true, List.isEmpty_iff] at reached
  obtain ⟨⟨clock, completed⟩, state, held, empty⟩ := reached
  refine ⟨trace, final, state, empty_service_fresh, run, events, held, ?_⟩
  rintro ⟨stamped, all, same⟩
  have only : completedOf final "acc1" =
      [⟨⟨"req-1", some "acc1", opusUsage, 1700000000000⟩, 1700000000000⟩] := by
    simp [completedOf, completed]
  have listed := all.all
  rw [only] at listed
  obtain ⟨⟨request, stamp⟩, rfl, rfl⟩ := List.map_eq_singleton_iff.mp listed
  have time := all.read _ (List.mem_singleton_self _)
  simp only [or_self] at time
  have tokens : 0 < usageTokens opusUsage := by decide
  have made : stampedEntry (K := ℝ) (⟨⟨"req-1", some "acc1", opusUsage, 1700000000000⟩,
      1700000000000⟩, stamp) = some (stamp, (usageTokens opusUsage : ℝ) *
        modelWeight opusUsage.model) := weighed_some _ _ _ tokens
  have within : recent final.clock (stamp, (usageTokens opusUsage : ℝ) * modelWeight opusUsage.model)
      = true := by
    rw [recent, clock, time, window5hMs]
    exact decide_eq_true (by omega)
  rw [empty, List.filterMap_cons_some made, List.filterMap_nil, List.filter_cons_of_pos within,
    List.filter_nil] at same
  exact absurd same.length_eq (by simp)

instance (usage : StreamUsage) : Decidable (SumFits usage) := inferInstanceAs (Decidable (_ ∧ _))

/-- Accounts are inserted while no request is in flight or completed. -/
def quiet (s : Service ℝ) : Event ℝ → Bool
  | .saveRow _ _ usage => decide (SumFits usage)
  | .insertRebuilt | .addAccount => s.inFlight.isEmpty && s.completed.isEmpty
  | _ => true

theorem quiet_settled (s : Service ℝ) (accountId : String) (table : List RequestRow)
    (none : (s.inFlight.isEmpty && s.completed.isEmpty) = true) : Settled s accountId table := by
  simp only [Bool.and_eq_true, List.isEmpty_iff] at none
  exact ⟨by simp [none.1], by simp [none.2]⟩

theorem quiet_guarded (s : Service ℝ) (event : Event ℝ) (here : quiet s event = true) :
    Guarded s event := by
  cases event with
  | saveRow requestId accountId usage => exact fun _ => (of_decide_eq_true here : SumFits usage)
  | insertRebuilt =>
      simp only [Guarded]
      split
      · exact quiet_settled s _ _ here
      · trivial
  | addAccount =>
      simp only [Guarded]
      split
      · exact .inr (quiet_settled s _ _ here)
      · trivial
  | _ => trivial

def settledEvents : List (Event ℝ) :=
  [.createAccount (makeAccount "acc1" "anthropic" 0), .initializeCache, .readRequests,
    .insertRebuilt, .finish, .saveRow "req-1" (some "acc1") opusUsage, .onRequest "req-1"]

theorem settled_account_counts :
    ∃ trace final state, Run (Does (perform real)) emptyService trace final ∧
      trace.map (fun taken => taken.2.1) = settledEvents ∧
      final.cache.lookup "acc1" = some state ∧ CountsEachOnce final "acc1" state := by
  obtain ⟨trace, final, run, events, allowed, reached⟩ := @performed_allowed _ _ emptyService
    (perform real) settledEvents quiet (fun s => (s.cache.lookup "acc1").isSome)
    (by decide +kernel)
  obtain ⟨state, held⟩ := Option.isSome_iff_exists.mp reached
  have counted := completed_counted_once empty_service_fresh run
    (fun taken member => quiet_guarded taken.1 taken.2.1 (allowed taken member)) "acc1" state held
  exact ⟨trace, final, state, run, events, held, counted⟩

end Ccflare.CapacityService
