import Ccflare.FiveHourReaders
import Ccflare.Grouping
import Ccflare.ResetTexts

/-!
The summary of the pool on the dashboard. The usage windows of the accounts are grouped by their
labels; of each group the summary shows the average, the largest percentage and the reset that
comes first, which is found by reading the texts of the resets back. Percentages are exact.
-/

namespace Ccflare.PoolSummary

open FiveHourReaders Grouping JsonValue MachineNumber ResetTexts StableSort

structure UsageWindowDisplay where
  label : String
  pct : Int
  cssClass : String
  resetText : String
  resetsAtMs : Option Int

/-- What the summary reads of a row of the accounts table. -/
structure AccountRow where
  paused : Bool
  hasUsage : Bool
  routingAvailable : Bool
  usageWindows : List UsageWindowDisplay

structure PoolWindowSummary where
  label : String
  avgPct : Int
  maxPct : Int
  cssClass : String
  accountCount : Nat
  nextReset : String
  deriving DecidableEq

structure PoolUsageSummary where
  windows : List PoolWindowSummary
  totalAccounts : Nat
  availableAccounts : Nat
  poolStatus : String
  statusText : String
  deriving DecidableEq

structure NanoGptWindow where
  percentUsed : Rat
  resetAt : Int

structure ZaiWindow where
  percentage : Rat
  resetAt : Option Int

inductive UsageData where
  | anthropic (map : AnthropicUsageData)
  | nanoGpt (active : Bool) (daily monthly : NanoGptWindow)
  | zai (tokensLimit : Option ZaiWindow)

def utilizationClass (pct : Int) : String :=
  if pct ≥ 80 then "danger" else if pct ≥ 50 then "warning" else "success"

/-- `value.round() as i64`, halves away from zero. -/
def roundToI64 (value : Rat) : Int :=
  clampI64 (if 0 ≤ value then (value + 1 / 2).floor else -(-value + 1 / 2).floor)

def windowOrder : List (String × String) :=
  [("five_hour", "5-hour"), ("seven_day", "Weekly"), ("seven_day_opus", "Opus (Wk)"),
    ("seven_day_sonnet", "Sonnet (Wk)"), ("extra_usage", "Extra (Mo)")]

section Windows
variable (parseRfc3339 : String → Option Int) (now : Int)

def anthropicWindow (fractional : Bool) (label : String) (val : Json) :
    Option UsageWindowDisplay :=
  (utilization val).map fun util =>
    let resetsAt := val.getStr "resets_at"
    let pct := roundToI64 (normalizedPct fractional util)
    { label
      pct := max 0 (min pct 100)
      cssClass := utilizationClass pct
      resetText := formatResetTime parseRfc3339 resetsAt now
      resetsAtMs := resetsAt.bind parseRfc3339 }

def nanoGptWindow (label : String) (window : NanoGptWindow) : UsageWindowDisplay :=
  let pct := roundToI64 (window.percentUsed * 100)
  { label
    pct := min pct 100
    cssClass := utilizationClass pct
    resetText := formatResetTimestamp window.resetAt now
    resetsAtMs := some window.resetAt }

def zaiWindow (window : ZaiWindow) : UsageWindowDisplay :=
  let pct := roundToI64 window.percentage
  { label := "5-hour"
    pct := min pct 100
    cssClass := utilizationClass pct
    resetText := (window.resetAt.map fun ts => formatResetTimestamp ts now).getD ""
    resetsAtMs := window.resetAt }

/-- `build_usage_windows` of the data in the cache, if there is any. -/
def buildUsageWindows : Option UsageData → List UsageWindowDisplay
  | none => []
  | some (.anthropic map) =>
      windowOrder.filterMap fun (key, label) =>
        (Json.field key map).bind (anthropicWindow parseRfc3339 now (fractionalMode map) label)
  | some (.nanoGpt active daily monthly) =>
      if active then [nanoGptWindow now "Daily" daily, nanoGptWindow now "Monthly" monthly] else []
  | some (.zai tokensLimit) => (tokensLimit.map (zaiWindow now)).toList

end Windows

def labelOrder : List String :=
  ["5-hour", "Weekly", "Opus (Wk)", "Sonnet (Wk)", "Daily", "Monthly"]

def activeRows (rows : List AccountRow) : List AccountRow :=
  rows.filter fun row => !row.paused && row.hasUsage && !row.usageWindows.isEmpty

/-- The windows that are collected, in the order they are pushed. -/
def collected (rows : List AccountRow) : List UsageWindowDisplay :=
  (activeRows rows).flatMap fun row => row.usageWindows.filter fun w => decide (w.pct ≥ 0)

/-- `min_by` takes the first of the least. -/
def nextReset (entries : List UsageWindowDisplay) : String :=
  ((sortByKey (fun entry => parseResetMinutes entry.resetText)
    (entries.filter fun entry => entry.resetText ≠ "")).head?.map
      UsageWindowDisplay.resetText).getD ""

def buildPoolWindow (label : String) (entries : List UsageWindowDisplay) : PoolWindowSummary :=
  let pcts := entries.map UsageWindowDisplay.pct
  let avg := pcts.sum.tdiv entries.length
  { label
    avgPct := avg
    maxPct := (maxByKey id pcts).getD 0
    cssClass := utilizationClass avg
    accountCount := entries.length
    nextReset := nextReset entries }

/-- Status and text of the traffic light. -/
def trafficLight (maxAvg : Int) : String × String :=
  if maxAvg ≥ 80 then ("red", "Constrained — defer big jobs")
  else if maxAvg ≥ 50 then ("yellow", "Moderate — light work preferred")
  else ("green", "All clear — launch heavy jobs")

/-- `build_pool_summary`; a map of the labels, taken in the preferred order and then as it is. -/
def buildPoolSummary (rows : List AccountRow) : Option PoolUsageSummary :=
  if (activeRows rows).isEmpty then none
  else
    let groups := groups UsageWindowDisplay.label (collected rows)
    let windows := (preferred labelOrder groups).map fun group => buildPoolWindow group.1 group.2
    if windows.isEmpty then none
    else
      let maxAvg := (maxByKey id (windows.map PoolWindowSummary.avgPct)).getD 0
      some
        { windows
          totalAccounts := rows.countP fun row => !row.paused
          availableAccounts := rows.countP AccountRow.routingAvailable
          poolStatus := (trafficLight maxAvg).1
          statusText := (trafficLight maxAvg).2 }

/-- The whole minutes until a reset, none if it is due. -/
def minutesLeft (now ts : Int) : Int := max 0 (wrappingSub ts now / 60000)

/-- A window as it is built at a time: in percent, its text telling its reset. -/
structure Displayed (now : Int) (window : UsageWindowDisplay) : Prop where
  percent : window.pct ≤ 100
  text : window.resetText = (window.resetsAtMs.map fun ts => formatResetTimestamp ts now).getD ""

/-- What a summary of entries says of them at a time. -/
structure Summarizes (now : Int) (entries : List UsageWindowDisplay)
    (window : PoolWindowSummary) : Prop where
  count : window.accountCount = entries.length
  average : window.avgPct * entries.length ≤ (entries.map UsageWindowDisplay.pct).sum ∧
    (entries.map UsageWindowDisplay.pct).sum < (window.avgPct + 1) * entries.length
  largest : window.maxPct ∈ entries.map UsageWindowDisplay.pct ∧
    ∀ entry ∈ entries, entry.pct ≤ window.maxPct
  percent : 0 ≤ window.avgPct ∧ window.avgPct ≤ window.maxPct ∧ window.maxPct ≤ 100
  /-- The reset that is told is one that no other comes before by a whole minute. -/
  soonest : (∀ entry ∈ entries, entry.resetsAtMs = none) ∧ window.nextReset = "" ∨
    ∃ ts, (∃ entry ∈ entries, entry.resetsAtMs = some ts) ∧
      window.nextReset = formatResetTimestamp ts now ∧
      ∀ entry ∈ entries, ∀ other, entry.resetsAtMs = some other →
        minutesLeft now ts ≤ minutesLeft now other

section Displayed
variable (parseRfc3339 : String → Option Int) (now : Int)

theorem format_time (iso : Option String) :
    formatResetTime parseRfc3339 iso now =
      ((iso.bind parseRfc3339).map fun ts => formatResetTimestamp ts now).getD "" := by
  unfold formatResetTime
  cases iso.bind parseRfc3339 <;> rfl

theorem format_some (ts : Int) : formatResetTimestamp ts now ≠ "" := by
  unfold formatResetTimestamp
  simp only
  split
  · decide
  · split
    · intro same
      have length := congrArg String.toList same
      simp only [String.toList_append] at length
      simp at length
    · intro same
      have length := congrArg String.toList same
      simp only [String.toList_append] at length
      simp at length

theorem usage_windows_displayed (data : Option UsageData) :
    ∀ window ∈ buildUsageWindows parseRfc3339 now data, Displayed now window := by
  intro window member
  unfold buildUsageWindows at member
  split at member
  · cases member
  · obtain ⟨⟨key, label⟩, -, found⟩ := List.mem_filterMap.mp member
    obtain ⟨val, -, made⟩ := Option.bind_eq_some_iff.mp found
    obtain ⟨util, -, rfl⟩ := Option.map_eq_some_iff.mp made
    exact ⟨by simp only; omega, format_time parseRfc3339 now _⟩
  · split at member
    · simp only [List.mem_cons, List.not_mem_nil, or_false] at member
      rcases member with rfl | rfl <;> exact ⟨min_le_right _ _, rfl⟩
    · cases member
  · obtain ⟨limit, -, rfl⟩ := Option.map_eq_some_iff.mp (Option.mem_toList.mp member)
    exact ⟨min_le_right _ _, rfl⟩

end Displayed

section Windows
variable (now : Int) (entries : List UsageWindowDisplay)

theorem sum_bounds (pcts : List Int) (least greatest : Int)
    (bounded : ∀ pct ∈ pcts, least ≤ pct ∧ pct ≤ greatest) :
    least * pcts.length ≤ pcts.sum ∧ pcts.sum ≤ greatest * pcts.length := by
  induction pcts with
  | nil => simp
  | cons pct rest ih =>
      have here := bounded pct List.mem_cons_self
      have later := ih fun other member => bounded other (List.mem_cons_of_mem _ member)
      simp only [List.sum_cons, List.length_cons]
      push_cast
      constructor <;> linarith

theorem next_reset_soonest (displayed : ∀ entry ∈ entries, Displayed now entry) :
    (∀ entry ∈ entries, entry.resetsAtMs = none) ∧ nextReset entries = "" ∨
      ∃ ts, (∃ entry ∈ entries, entry.resetsAtMs = some ts) ∧
        nextReset entries = formatResetTimestamp ts now ∧
        ∀ entry ∈ entries, ∀ other, entry.resetsAtMs = some other →
          minutesLeft now ts ≤ minutesLeft now other := by
  have texts : ∀ entry ∈ entries, ∀ ts, entry.resetsAtMs = some ts →
      entry.resetText = formatResetTimestamp ts now := by
    intro entry member ts at'
    rw [(displayed entry member).text, at']
    rfl
  unfold nextReset
  cases first : (sortByKey (fun entry => parseResetMinutes entry.resetText)
    (entries.filter fun entry => entry.resetText ≠ "")).head? with
  | none =>
      have silent := (head_none_iff _ _ _).mp first
      refine .inl ⟨fun entry member => ?_, rfl⟩
      by_contra some
      obtain ⟨ts, at'⟩ := Option.ne_none_iff_exists'.mp some
      have told : entry.resetText ≠ "" := texts entry member ts at' ▸ format_some now ts
      exact told (by simpa using silent entry member)
  | some best =>
      have foremost := foremost_of_head _ _ _ _ first
      have told : best.resetText ≠ "" := by simpa using foremost.admitted
      cases at' : best.resetsAtMs with
      | none =>
          have silent := (displayed best foremost.mem).text
          rw [at'] at silent
          exact absurd silent told
      | some ts =>
          refine .inr ⟨ts, ⟨best, foremost.mem, at'⟩, texts best foremost.mem ts at', ?_⟩
          intro entry member other here
          -- The rows are sorted by the minutes that their texts are read as.
          have least := foremost.least entry member (by
            rw [texts entry member other here]
            simpa using format_some now other)
          rw [texts entry member other here, texts best foremost.mem ts at', parse_format,
            parse_format] at least
          exact least

theorem pool_window_summarizes (label : String) (some : entries ≠ [])
    (counted : ∀ entry ∈ entries, 0 ≤ entry.pct)
    (displayed : ∀ entry ∈ entries, Displayed now entry) :
    Summarizes now entries (buildPoolWindow label entries) := by
  have positive : (0 : Int) < entries.length := by
    exact_mod_cast List.length_pos_of_ne_nil some
  obtain ⟨top, found⟩ : ∃ top, maxByKey id (entries.map UsageWindowDisplay.pct) = Option.some top := by
    obtain ⟨first, rest, rfl⟩ := List.exists_cons_of_ne_nil some
    exact ⟨_, rfl⟩
  have greatest : ∀ entry ∈ entries, entry.pct ≤ top := by
    intro entry member
    exact max_by_key_ge id _ top found _ (List.mem_map_of_mem member)
  have member := max_by_key_mem id _ top found
  obtain ⟨best, here, same⟩ := List.mem_map.mp member
  have least := counted best here
  have percent := (displayed best here).percent
  have bounds := sum_bounds (entries.map UsageWindowDisplay.pct) 0 top (by
    intro pct member
    obtain ⟨entry, listed, rfl⟩ := List.mem_map.mp member
    exact ⟨counted entry listed, greatest entry listed⟩)
  rw [List.length_map] at bounds
  have divided : (buildPoolWindow label entries).avgPct =
      (entries.map UsageWindowDisplay.pct).sum / entries.length :=
    Int.tdiv_eq_ediv_of_nonneg (by omega)
  have largest : (buildPoolWindow label entries).maxPct = top := by
    simp [buildPoolWindow, found]
  refine ⟨rfl, ?_, ?_, ?_, next_reset_soonest now entries displayed⟩
  · rw [divided]
    constructor
    · exact Int.ediv_mul_le _ (by omega)
    · exact Int.lt_ediv_add_one_mul_self _ positive
  · rw [largest]
    exact ⟨member, greatest⟩
  · rw [divided, largest]
    refine ⟨Int.ediv_nonneg (by omega) (by omega), ?_, by omega⟩
    exact Int.ediv_le_of_le_mul positive bounds.2

end Windows

/-- The rows whose usage windows were built at this time. -/
def BuiltAt (parseRfc3339 : String → Option Int) (now : Int) (rows : List AccountRow) : Prop :=
  ∀ row ∈ rows, ∃ data, row.usageWindows = buildUsageWindows parseRfc3339 now data

/-- The status tells the greatest of the averages. -/
def Tells (status : String) (averages : List Int) : Prop :=
  (status = "red" ↔ ∃ average ∈ averages, 80 ≤ average) ∧
  (status = "green" ↔ ∀ average ∈ averages, average < 50)

theorem collected_mem (rows : List AccountRow) (entry : UsageWindowDisplay) :
    entry ∈ collected rows ↔ ∃ row ∈ rows, row.paused = false ∧ row.hasUsage = true ∧
      entry ∈ row.usageWindows ∧ 0 ≤ entry.pct := by
  simp only [collected, activeRows, List.mem_flatMap, List.mem_filter, Bool.and_eq_true,
    Bool.not_eq_true', decide_eq_true_eq]
  constructor
  · rintro ⟨row, ⟨member, ⟨paused, used⟩, -⟩, here, counted⟩
    exact ⟨row, member, paused, used, here, counted⟩
  · rintro ⟨row, member, paused, used, here, counted⟩
    refine ⟨row, ⟨member, ⟨paused, used⟩, ?_⟩, here, counted⟩
    cases windows : row.usageWindows with
    | nil => simp [windows] at here
    | cons first rest => rfl

/-- The windows with a label that the active accounts show, account by account. -/
def windowsOf (rows : List AccountRow) (label : String) : List UsageWindowDisplay :=
  rows.flatMap fun row => row.usageWindows.filter fun window =>
    row.paused = false ∧ row.hasUsage = true ∧ window.label = label ∧ 0 ≤ window.pct

/-- How many windows with a percentage an account brings to the summary. -/
def AccountRow.percentages (row : AccountRow) : Nat :=
  if row.paused = false ∧ row.hasUsage = true then
    row.usageWindows.countP fun window => 0 ≤ window.pct
  else 0

theorem collected_cons (row : AccountRow) (rows : List AccountRow) :
    collected (row :: rows) = (if row.paused = false ∧ row.hasUsage = true then
      row.usageWindows.filter fun window => decide (window.pct ≥ 0) else []) ++ collected rows := by
  unfold collected activeRows
  by_cases active : row.paused = false ∧ row.hasUsage = true
  · rw [if_pos active]
    cases windows : row.usageWindows with
    | nil => simp [windows]
    | cons first rest => simp [active, windows]
  · rw [if_neg active]
    have passive : (!row.paused && row.hasUsage && !row.usageWindows.isEmpty) = false := by
      by_contra held
      simp only [Bool.not_eq_false, Bool.and_eq_true, Bool.not_eq_true'] at held
      exact active held.1
    simp [passive]

theorem collected_windows (rows : List AccountRow) (label : String) :
    ((collected rows).filter fun window => window.label = label) = windowsOf rows label := by
  induction rows with
  | nil => rfl
  | cons row rest ih =>
      have first : windowsOf (row :: rest) label = (row.usageWindows.filter fun window =>
          row.paused = false ∧ row.hasUsage = true ∧ window.label = label ∧ 0 ≤ window.pct) ++
            windowsOf rest label := List.flatMap_cons
      rw [collected_cons, List.filter_append, ih, first]
      congr 1
      by_cases active : row.paused = false ∧ row.hasUsage = true
      · rw [if_pos active, List.filter_filter]
        apply List.filter_congr
        intro window _
        simp [active]
      · rw [if_neg active, List.filter_nil]
        refine (List.filter_eq_nil_iff.mpr fun window _ held => active ?_).symm
        obtain ⟨paused, used, -⟩ := of_decide_eq_true held
        exact ⟨paused, used⟩

theorem collected_length (rows : List AccountRow) :
    (collected rows).length = (rows.map AccountRow.percentages).sum := by
  induction rows with
  | nil => rfl
  | cons row rest ih =>
      rw [collected_cons, List.length_append, ih, List.map_cons, List.sum_cons]
      congr 1
      unfold AccountRow.percentages
      split
      · exact List.countP_eq_length_filter.symm
      · rfl

theorem traffic_light_tells (averages : List Int) (some : averages ≠ []) :
    Tells (trafficLight ((maxByKey id averages).getD 0)).1 averages := by
  obtain ⟨top, found⟩ : ∃ top, maxByKey id averages = Option.some top := by
    obtain ⟨first, rest, rfl⟩ := List.exists_cons_of_ne_nil some
    exact ⟨_, rfl⟩
  have member := max_by_key_mem id _ top found
  have greatest : ∀ average ∈ averages, average ≤ top := max_by_key_ge id _ top found
  rw [found, Option.getD_some]
  unfold trafficLight
  constructor
  · split
    · next high => exact ⟨fun _ => ⟨top, member, high⟩, fun _ => rfl⟩
    · next low =>
        have apart : ¬ ∃ average ∈ averages, 80 ≤ average := by
          rintro ⟨average, listed, high⟩
          exact low (high.trans (greatest average listed))
        split <;> simp [apart]
  · split
    · next high =>
        have apart : ¬ ∀ average ∈ averages, average < 50 := fun all => by
          have := all top member
          omega
        simp [apart]
    · split
      · next middle =>
          have apart : ¬ ∀ average ∈ averages, average < 50 := fun all => by
            have := all top member
            omega
          simp [apart]
      · next low =>
          exact ⟨fun _ average listed => (greatest average listed).trans_lt (by omega), fun _ => rfl⟩

theorem groups_keys_nodup (entries : List UsageWindowDisplay) :
    ((groups UsageWindowDisplay.label entries).map Prod.fst).Nodup := by
  rw [groups, List.map_map]
  simpa [Function.comp_def] using keys_nodup UsageWindowDisplay.label entries

theorem group_label_iff (entries : List UsageWindowDisplay) (label : String) :
    label ∈ (groups UsageWindowDisplay.label entries).map Prod.fst ↔
      ∃ entry ∈ entries, entry.label = label := by
  rw [groups, List.map_map]
  simpa [Function.comp_def] using mem_keys UsageWindowDisplay.label entries label

/-- The groups in the order of the summary. -/
theorem ordered_groups (entries : List UsageWindowDisplay) :
    (preferred labelOrder (groups UsageWindowDisplay.label entries)).Perm
      (groups UsageWindowDisplay.label entries) :=
  preferred_perm labelOrder _ (groups_keys_nodup entries) (by decide)

/-- The summary has one window for each label an active account shows, which summarizes exactly
the percentages of that label; no percentage is lost or counted twice, and the light tells the
greatest average. -/
theorem pool_summary_exact (parseRfc3339 : String → Option Int) (now : Int)
    (rows : List AccountRow) (summary : PoolUsageSummary) (built : BuiltAt parseRfc3339 now rows)
    (shown : buildPoolSummary rows = some summary) :
    (summary.windows.map PoolWindowSummary.label).Nodup ∧
    (∀ label, label ∈ summary.windows.map PoolWindowSummary.label ↔
      ∃ row ∈ rows, row.paused = false ∧ row.hasUsage = true ∧
        ∃ window ∈ row.usageWindows, window.label = label ∧ 0 ≤ window.pct) ∧
    (∀ window ∈ summary.windows, Summarizes now (windowsOf rows window.label) window) ∧
    (summary.windows.map PoolWindowSummary.accountCount).sum =
      (rows.map AccountRow.percentages).sum ∧
    Tells summary.poolStatus (summary.windows.map PoolWindowSummary.avgPct) := by
  have displayed : ∀ entry ∈ collected rows, Displayed now entry ∧ 0 ≤ entry.pct := by
    intro entry member
    obtain ⟨row, listed, -, -, here, counted⟩ := (collected_mem rows entry).mp member
    obtain ⟨data, same⟩ := built row listed
    exact ⟨usage_windows_displayed parseRfc3339 now data entry (same ▸ here), counted⟩
  have ordered := ordered_groups (collected rows)
  unfold buildPoolSummary at shown
  split at shown
  · cases shown
  · simp only at shown
    split at shown
    · cases shown
    · next some =>
        obtain rfl := Option.some.inj shown
        simp only [List.map_map, Function.comp_def] at some ⊢
        refine ⟨?_, ?_, ?_, ?_, ?_⟩
        · exact (ordered.map Prod.fst).nodup_iff.mpr (groups_keys_nodup (collected rows))
        · intro label
          refine (ordered.map Prod.fst).mem_iff.trans ((group_label_iff (collected rows) label).trans ?_)
          simp only [collected_mem]
          grind
        · intro window member
          obtain ⟨group, here, rfl⟩ := List.mem_map.mp member
          obtain ⟨⟨entry, listed, labelled⟩, same⟩ :=
            (mem_groups ..).mp (ordered.mem_iff.mp here)
          rw [same, ← show _ = windowsOf rows (buildPoolWindow group.1 _).label from
            collected_windows rows group.1]
          refine pool_window_summarizes now _ group.1 ?_ ?_ ?_
          · exact List.ne_nil_of_mem (List.mem_filter.mpr ⟨listed, decide_eq_true labelled⟩)
          · exact fun other kept => (displayed other (List.mem_of_mem_filter kept)).2
          · exact fun other kept => (displayed other (List.mem_of_mem_filter kept)).1
        · have counts := (ordered.map fun group => group.2.length).sum_eq
          refine counts.trans ?_
          have parts := groups_total UsageWindowDisplay.label (fun _ => 1) (collected rows)
          rw [← collected_length]
          simpa only [total_one] using parts
        · exact traffic_light_tells _ (by simpa using some)

/-- An account with one window of five hours. -/
def zaiRow (percentage : Rat) (reset : Int) : AccountRow :=
  ⟨false, true, true,
    buildUsageWindows (fun _ => none) 0 (some (.zai (some ⟨percentage, some reset⟩)))⟩

/-- An account with a window of a day and one of a month. -/
def nanoGptRow (paused : Bool) : AccountRow :=
  ⟨paused, true, !paused,
    buildUsageWindows (fun _ => none) 0 (some (.nanoGpt true ⟨1 / 2, 3600000⟩ ⟨9 / 10, 86400000⟩))⟩

/-- Of the two windows of five hours the second is reset first; the last account is paused. -/
def fourRows : List AccountRow :=
  [zaiRow 40 7200000, nanoGptRow false, zaiRow 71 1500000, nanoGptRow true]

theorem four_rows_summarized : ∃ summary, buildPoolSummary fourRows = some summary ∧
    summary.windows.map (fun window => (window.label, window.avgPct, window.nextReset)) =
      [("5-hour", 55, "25m"), ("Daily", 50, "1h 0m"), ("Monthly", 90, "24h 0m")] ∧
    (summary.windows.map PoolWindowSummary.accountCount).sum = 4 ∧
    Tells summary.poolStatus (summary.windows.map PoolWindowSummary.avgPct) := by
  obtain ⟨summary, shown, windows⟩ : ∃ summary, buildPoolSummary fourRows = some summary ∧
      summary.windows.map (fun window => (window.label, window.avgPct, window.nextReset)) =
        [("5-hour", 55, "25m"), ("Daily", 50, "1h 0m"), ("Monthly", 90, "24h 0m")] := by
    apply Option.map_eq_some_iff.mp
    decide +kernel
  have built : BuiltAt (fun _ => none) 0 fourRows := by
    intro row member
    simp only [fourRows, List.mem_cons, List.not_mem_nil, or_false] at member
    rcases member with rfl | rfl | rfl | rfl
    · exact ⟨some (.zai (some ⟨40, some 7200000⟩)), rfl⟩
    · exact ⟨some (.nanoGpt true ⟨1 / 2, 3600000⟩ ⟨9 / 10, 86400000⟩), rfl⟩
    · exact ⟨some (.zai (some ⟨71, some 1500000⟩)), rfl⟩
    · exact ⟨some (.nanoGpt true ⟨1 / 2, 3600000⟩ ⟨9 / 10, 86400000⟩), rfl⟩
  obtain ⟨-, -, -, counts, status⟩ := pool_summary_exact _ 0 fourRows summary built shown
  have all : (fourRows.map AccountRow.percentages).sum = 4 := by decide +kernel
  exact ⟨summary, shown, windows, counts.trans all, status⟩

end Ccflare.PoolSummary
