import Ccflare.CapacityInvariants
import Ccflare.SseParser
import Ccflare.StableSort

/-!
Requests on their way into the rolling window. `on_summary` saves a row and notifies the
cached state; a restart reads the rows back. Sums of tokens are exact here: in SQL one that
leaves the integers goes on in reals.
-/

namespace Ccflare.WindowRebuild

open MachineNumber RollingWindow CapacityState SseParser StableSort

structure RequestSummary where
  requestId : String
  accountId : Option String
  model : Option String
  inputTokens : Option Int
  outputTokens : Option Int
  cacheReadInputTokens : Option Int
  cacheCreationInputTokens : Option Int
  totalTokens : Option Int
  deriving DecidableEq

def buildSummary (requestId : String) (accountId : Option String) (usage : StreamUsage) :
    RequestSummary :=
  let promptTokens := wrappingAdd
    (wrappingAdd (usage.inputTokens.getD 0) (usage.cacheReadInputTokens.getD 0))
    (usage.cacheCreationInputTokens.getD 0)
  let totalTokens := wrappingAdd promptTokens (usage.outputTokens.getD 0)
  { requestId := requestId
    accountId := accountId
    model := usage.model
    inputTokens := usage.inputTokens
    outputTokens := usage.outputTokens
    cacheReadInputTokens := usage.cacheReadInputTokens
    cacheCreationInputTokens := usage.cacheCreationInputTokens
    totalTokens := if 0 < totalTokens then some totalTokens else none }

/-- A row of `requests`, with the columns a rebuild reads. -/
structure RequestRow where
  id : String
  timestamp : Int
  accountUsed : Option String
  model : Option String
  inputTokens : Option Int
  cacheReadInputTokens : Option Int
  cacheCreationInputTokens : Option Int
  outputTokens : Option Int
  deriving DecidableEq

def summaryRow (summary : RequestSummary) (timestamp : Int) : RequestRow where
  id := summary.requestId
  timestamp := timestamp
  accountUsed := summary.accountId
  model := summary.model
  inputTokens := summary.inputTokens
  cacheReadInputTokens := summary.cacheReadInputTokens
  cacheCreationInputTokens := summary.cacheCreationInputTokens
  outputTokens := summary.outputTokens

/-- `INSERT OR REPLACE`; rows are listed in the order of their row ids. -/
def save (rows : List RequestRow) (row : RequestRow) : List RequestRow :=
  rows.filter (fun old => decide (old.id ≠ row.id)) ++ [row]

def rowTokens (row : RequestRow) : Int :=
  row.inputTokens.getD 0 + row.outputTokens.getD 0 + row.cacheCreationInputTokens.getD 0 +
    row.cacheReadInputTokens.getD 0

def selectedRow (accountId : String) (sinceMs : Int) (row : RequestRow) : Bool :=
  decide (row.accountUsed = some accountId ∧ sinceMs ≤ row.timestamp)

/-- A clock reading from which five hours can be taken. -/
def ClockReading (nowMs : Int) : Prop := InI64 (nowMs - window5hMs)

instance (nowMs : Int) : Decidable (ClockReading nowMs) := inferInstanceAs (Decidable (InI64 _))

theorem cutoff_of_reading (nowMs : Int) (reading : ClockReading nowMs) :
    wrappingSub nowMs window5hMs = nowMs - window5hMs :=
  wrap_of_in_i64 _ reading

variable {K : Type} [Field K]

def recentRequestsForAccount (rows : List RequestRow) (accountId : String) (sinceMs : Int) :
    List (Int × K × Option String) :=
  (sortByKey RequestRow.timestamp (rows.filter (selectedRow accountId sinceMs))).map
    fun row => (row.timestamp, (rowTokens row : K), row.model)

variable [LinearOrder K]

def rebuildEntry (s : AccountCapacityState K) (row : Int × K × Option String) :
    AccountCapacityState K :=
  let wt := row.2.1 * modelWeight row.2.2
  if 0 < wt then
    { s with
      window5h := s.window5h ++ [(row.1, wt)]
      proxyTokens5hWeighted := s.proxyTokens5hWeighted + wt }
  else s

def rebuildWindow (s : AccountCapacityState K) (rows : List (Int × K × Option String)) :
    AccountCapacityState K :=
  rows.foldl rebuildEntry s

/-- The state of an account as it is before `initialize_cache` reads the requests. -/
def restoredState (functions : Functions K) (account : Account) (db : Option (XFactorDbState K))
    (nowMs : Int) : AccountCapacityState K :=
  let s := AccountCapacityState.new functions account.id account.name account.subscriptionTier
    account.isShared nowMs
  match db with
  | some db => s.restoreFromDb db
  | none => s

def initialState (functions : Functions K) (account : Account) (db : Option (XFactorDbState K))
    (requests : List RequestRow) (nowMs : Int) : AccountCapacityState K :=
  rebuildWindow (restoredState functions account db nowMs)
    (recentRequestsForAccount requests account.id (wrappingSub nowMs window5hMs))

/-- `XFactorCache::on_request` for an account that is cached. -/
def cacheOnRequest (s : AccountCapacityState K) (model : Option String) (totalTokens nowMs : Int) :
    AccountCapacityState K :=
  if totalTokens ≤ 0 then s
  else s.onRequest nowMs ((totalTokens : K) * modelWeight model)

/-- The four counts of a usage, added without a bound. -/
def usageTokens (usage : StreamUsage) : Int :=
  usage.inputTokens.getD 0 + usage.outputTokens.getD 0 + usage.cacheCreationInputTokens.getD 0 +
    usage.cacheReadInputTokens.getD 0

/-- The entry a number of tokens makes, if it makes one. -/
def weighedEntry (nowMs tokens : Int) (model : Option String) : Option (Int × K) :=
  if 0 < tokens then some (nowMs, (tokens : K) * modelWeight model) else none

theorem total_tokens_wrap (requestId : String) (accountId : Option String) (usage : StreamUsage) :
    (buildSummary requestId accountId usage).totalTokens =
      if 0 < wrapI64 (usageTokens usage) then some (wrapI64 (usageTokens usage)) else none := by
  have sum : wrappingAdd (wrappingAdd (wrappingAdd (usage.inputTokens.getD 0)
      (usage.cacheReadInputTokens.getD 0)) (usage.cacheCreationInputTokens.getD 0))
      (usage.outputTokens.getD 0) = wrapI64 (usageTokens usage) := by
    simp only [wrappingAdd, wrapI64, usageTokens]
    omega
  simp only [buildSummary, sum]

theorem wrapped_positive_part (tokens : Int) :
    max (wrapI64 tokens) 0 = max tokens 0 ↔
      tokens ≤ i64Max ∧ (0 < wrapI64 tokens → 0 < tokens) := by
  unfold wrapI64 i64Max
  omega

section Weights
variable [IsStrictOrderedRing K]

omit [LinearOrder K] [IsStrictOrderedRing K] in
theorem model_weight_cases (model : Option String) :
    (modelWeight model : K) = 4 ∨ (modelWeight model : K) = 0.25 ∨ (modelWeight model : K) = 1 := by
  unfold modelWeight
  split
  · exact .inr (.inr rfl)
  · dsimp only
    split_ifs
    · exact .inl rfl
    · exact .inr (.inl rfl)
    · exact .inr (.inr rfl)

theorem model_weight_positive (model : Option String) : 0 < (modelWeight model : K) := by
  rcases model_weight_cases (K := K) model with same | same | same <;> rw [same] <;> norm_num

theorem weighs_iff (tokens : Int) (model : Option String) :
    0 < (tokens : K) * modelWeight model ↔ 0 < tokens := by
  rw [mul_pos_iff_of_pos_right (model_weight_positive model), Int.cast_pos]

theorem weighed_positive (nowMs tokens : Int) (model : Option String) (entry : Int × K)
    (weighed : weighedEntry nowMs tokens model = some entry) : 0 < entry.2 := by
  unfold weighedEntry at weighed
  split at weighed
  · rename_i positive
    obtain rfl := Option.some.inj weighed
    exact (weighs_iff tokens model).mpr positive
  · cases weighed

omit [LinearOrder K] [IsStrictOrderedRing K] in
theorem weighed_some (nowMs tokens : Int) (model : Option String) (positive : 0 < tokens) :
    weighedEntry nowMs tokens model = some (nowMs, (tokens : K) * modelWeight model) :=
  if_pos positive

omit [LinearOrder K] [IsStrictOrderedRing K] in
theorem weighed_time (nowMs tokens : Int) (model : Option String) (entry : Int × K)
    (weighed : weighedEntry nowMs tokens model = some entry) : entry.1 = nowMs := by
  unfold weighedEntry at weighed
  split at weighed
  · obtain rfl := Option.some.inj weighed
    rfl
  · cases weighed

end Weights

section Rebuilt

def rowEntry (row : RequestRow) : Option (Int × K) :=
  weighedEntry row.timestamp (rowTokens row) row.model

theorem save_fresh (rows : List RequestRow) (row : RequestRow)
    (fresh : row.id ∉ rows.map RequestRow.id) : save rows row = rows ++ [row] := by
  rw [save, List.filter_eq_self.mpr]
  intro old member
  have different : old.id ≠ row.id := fun same => fresh (same ▸ List.mem_map_of_mem member)
  exact decide_eq_true different

variable [IsStrictOrderedRing K]

theorem rebuild_window_eq (rows : List RequestRow) (s : AccountCapacityState K) :
    let rebuilt := rebuildWindow s
      (rows.map fun row => (row.timestamp, (rowTokens row : K), row.model))
    rebuilt.window5h = s.window5h ++ rows.filterMap rowEntry ∧
      rebuilt.proxyTokens5hWeighted =
        s.proxyTokens5hWeighted + total (rows.filterMap (rowEntry (K := K))) := by
  induction rows generalizing s with
  | nil => simp [rebuildWindow]
  | cons row rest ih =>
      have later := ih (rebuildEntry s (row.timestamp, (rowTokens row : K), row.model))
      simp only [rebuildWindow, List.map_cons, List.foldl_cons] at later ⊢
      by_cases counted : 0 < rowTokens row
      · have weighs := (weighs_iff (K := K) (rowTokens row) row.model).mpr counted
        have made : rowEntry row =
            some (row.timestamp, (rowTokens row : K) * modelWeight row.model) := if_pos counted
        rw [List.filterMap_cons_some made]
        simp only [rebuildEntry, if_pos weighs] at later ⊢
        exact ⟨by rw [later.1]; simp, by rw [later.2]; simp [add_assoc]⟩
      · have weightless := mt (weighs_iff (K := K) (rowTokens row) row.model).mp counted
        have none : rowEntry (K := K) row = none := if_neg counted
        rw [List.filterMap_cons_none none]
        simp only [rebuildEntry, if_neg weightless] at later ⊢
        exact later

end Rebuilt

section Restored
variable (functions : Functions K)

variable (account : Account) (db : Option (XFactorDbState K))

omit [LinearOrder K] in
theorem restored_state_empty (nowMs : Int) :
    (restoredState functions account db nowMs).accountId = account.id ∧
      (restoredState functions account db nowMs).window5h = [] ∧
      (restoredState functions account db nowMs).proxyTokens5hWeighted = 0 := by
  cases db <;> exact ⟨rfl, rfl, rfl⟩

theorem restored_state_balanced (nowMs : Int) :
    Balanced (restoredState functions account db nowMs) := by
  obtain ⟨_, window, running⟩ := restored_state_empty functions account db nowMs
  exact ⟨by rw [window, running, total_nil], by simp [window]⟩

variable [IsStrictOrderedRing K]

/-- A state built from any table is balanced. -/
theorem initial_state_balanced (requests : List RequestRow) (nowMs : Int) :
    Balanced (initialState functions account db requests nowMs) := by
  obtain ⟨_, empty, none⟩ := restored_state_empty functions account db nowMs
  obtain ⟨window, running⟩ := rebuild_window_eq
    (sortByKey RequestRow.timestamp
      (requests.filter (selectedRow account.id (wrappingSub nowMs window5hMs))))
    (restoredState functions account db nowMs)
  rw [empty, List.nil_append] at window
  rw [none, zero_add] at running
  refine ⟨running.trans (congrArg total window.symm), ?_⟩
  intro entry member
  rw [initialState, recentRequestsForAccount, window] at member
  obtain ⟨row, _, made⟩ := List.mem_filterMap.mp member
  exact weighed_positive _ _ _ entry made

end Restored

end Ccflare.WindowRebuild
