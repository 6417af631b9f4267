import Ccflare.CapacityService
import Ccflare.Pricing

/-!
Two readers of one usage payload. The load balancer decides for the whole payload whether its
utilisations are fractions; the capacity estimator decides for the `five_hour` window alone, by
its size. Utilisations are exact, as rates are.
-/

namespace Ccflare.FiveHourReaders

open CapacityService JsonValue MachineNumber

/-- `serde_json::Map`: the windows of a payload by name. -/
abbrev AnthropicUsageData := List (String × Json)

def utilization (window : Json) : Option Rat := (window.get "utilization").bind Pricing.asF64

def utilizations (data : AnthropicUsageData) : List Rat :=
  data.filterMap fun entry => utilization entry.2

/-- `extract_5h_utilization` of a payload. -/
def extract5hPercent (data : AnthropicUsageData) : Option Rat :=
  extract5hUtilization (.anthropic ((Json.field "five_hour" data).bind utilization))

def fractionalMode (data : AnthropicUsageData) : Bool :=
  (utilizations data).any (fun util => decide (0 < util)) &&
    (utilizations data).all fun util => decide (util ≤ 1)

def windowKind (key : String) : WindowKind :=
  if key = "five_hour" then .fiveHour
  else if key = "seven_day" ∨ key = "seven_day_opus" ∨ key = "seven_day_sonnet" then .weekly
  else .other

def normalizedPct (fractional : Bool) (util : Rat) : Rat := if fractional then util * 100 else util

section Routing
variable (parseRfc3339 : String → Option Int)

/-- The variables of the loop over the windows. -/
structure Best where
  bestUtil : Rat
  bestReset : Option Int
  windows : List WindowUsage

def Best.visit (fractional : Bool) (best : Best) (entry : String × Json) : Best :=
  match utilization entry.2 with
  | none => best
  | some util =>
      let resetMs := (entry.2.getStr "resets_at").bind parseRfc3339
      let pct := normalizedPct fractional util
      let windows := best.windows ++ [⟨windowKind entry.1, .finite pct, resetMs⟩]
      if best.bestUtil < pct then ⟨pct, resetMs, windows⟩ else { best with windows := windows }

def anthropicRoutingInfo (data : AnthropicUsageData) : Option RoutingUsageInfo :=
  let best := data.foldl (Best.visit parseRfc3339 (fractionalMode data)) ⟨0, none, []⟩
  some ⟨.finite best.bestUtil, best.bestReset, best.windows⟩

/-- The window of an entry of the payload. -/
def windowOf (fractional : Bool) (entry : String × Json) : Option WindowUsage :=
  (utilization entry.2).map fun util =>
    ⟨windowKind entry.1, .finite (normalizedPct fractional util),
      (entry.2.getStr "resets_at").bind parseRfc3339⟩

theorem visit_windows (fractional : Bool) (best : Best) (entry : String × Json) :
    (best.visit parseRfc3339 fractional entry).windows =
      best.windows ++ (windowOf parseRfc3339 fractional entry).toList := by
  unfold Best.visit windowOf
  cases utilization entry.2 with
  | none => simp
  | some util =>
      dsimp only
      split <;> rfl

theorem loop_windows (fractional : Bool) (data : AnthropicUsageData) (best : Best) :
    (data.foldl (Best.visit parseRfc3339 fractional) best).windows =
      best.windows ++ data.filterMap (windowOf parseRfc3339 fractional) := by
  induction data generalizing best with
  | nil => simp
  | cons entry rest ih =>
      rw [List.foldl_cons, ih, visit_windows, List.append_assoc, List.filterMap_cons]
      cases windowOf parseRfc3339 fractional entry <;> rfl

theorem window_kind_iff (key : String) : windowKind key = .fiveHour ↔ key = "five_hour" := by
  unfold windowKind
  split
  · simp [*]
  · next other =>
    split <;> simp [other]

theorem other_windows (fractional : Bool) (data : AnthropicUsageData)
    (absent : "five_hour" ∉ data.map Prod.fst) :
    (data.filterMap (windowOf parseRfc3339 fractional)).filter
      (fun usage => usage.kind = .fiveHour) = [] := by
  rw [List.filter_eq_nil_iff]
  intro usage member
  obtain ⟨entry, listed, made⟩ := List.mem_filterMap.mp member
  obtain ⟨util, -, rfl⟩ := Option.map_eq_some_iff.mp made
  simp only [window_kind_iff, decide_eq_true_eq]
  exact fun same => absent (List.mem_map.mpr ⟨entry, listed, same⟩)

/-- The windows of kind five-hour come from the one entry with that name. -/
theorem five_hour_windows (fractional : Bool) (data : AnthropicUsageData)
    (distinct : (data.map Prod.fst).Nodup) (window : Json) (util : Rat)
    (held : Json.field "five_hour" data = some window) (numeric : utilization window = some util) :
    (data.filterMap (windowOf parseRfc3339 fractional)).filter
        (fun usage => usage.kind = .fiveHour) =
      [⟨.fiveHour, .finite (normalizedPct fractional util),
        (window.getStr "resets_at").bind parseRfc3339⟩] := by
  induction data with
  | nil => cases held
  | cons entry rest ih =>
      obtain ⟨key, value⟩ := entry
      obtain ⟨fresh, distinct⟩ := List.nodup_cons.mp distinct
      by_cases here : "five_hour" = key
      · subst here
        obtain rfl : value = window := by simpa [Json.field] using held
        have made : windowOf parseRfc3339 fractional ("five_hour", value) =
            some ⟨.fiveHour, .finite (normalizedPct fractional util),
              (value.getStr "resets_at").bind parseRfc3339⟩ := by
          simp [windowOf, numeric, windowKind]
        rw [List.filterMap_cons_some made, List.filter_cons_of_pos (by simp),
          other_windows parseRfc3339 fractional rest fresh]
      · have later := ih distinct (by simpa [Json.field, here] using held)
        cases made : windowOf parseRfc3339 fractional (key, value) with
        | none => rw [List.filterMap_cons_none made, later]
        | some usage =>
            rw [List.filterMap_cons_some made, List.filter_cons_of_neg, later]
            obtain ⟨-, -, rfl⟩ := Option.map_eq_some_iff.mp made
            simpa [window_kind_iff] using Ne.symm here

end Routing

/-- The estimator is fed the percentage of the one five-hour window the load balancer is given. -/
def ReadersAgree (parseRfc3339 : String → Option Int) (data : AnthropicUsageData) : Prop :=
  ∃ info window pct, anthropicRoutingInfo parseRfc3339 data = some info ∧
    info.windows.filter (fun usage => usage.kind = .fiveHour) = [window] ∧
    window.utilizationPct = .finite pct ∧ extract5hPercent data = some pct

theorem percents_agree_iff (fractional : Bool) (util : Rat) (small : fractional = true → util ≤ 1) :
    normalizedPct fractional util = (if util < 2 then util * 100 else util) ↔
      2 ≤ util ∨ util = 0 ∨ fractional = true := by
  cases fractional with
  | true =>
      have below : util < 2 := lt_of_le_of_lt (small rfl) (by norm_num)
      simp [normalizedPct, below]
  | false =>
      simp only [normalizedPct, Bool.false_eq_true, if_false, or_false]
      by_cases below : util < 2
      · rw [if_pos below]
        constructor
        · intro same
          exact Or.inr (by linarith)
        · rintro (large | rfl)
          · exact absurd below (not_lt.mpr large)
          · norm_num
      · rw [if_neg below]
        simp [not_lt.mp below]

/-- The readers agree exactly on a five-hour utilisation of at least two, on none at all, and on
payloads whose utilisations are all at most one and not all zero. -/
theorem readers_agree_iff (parseRfc3339 : String → Option Int) (data : AnthropicUsageData)
    (distinct : (data.map Prod.fst).Nodup) (util : Rat)
    (numeric : (Json.field "five_hour" data).bind utilization = some util) :
    ReadersAgree parseRfc3339 data ↔
      2 ≤ util ∨ util = 0 ∨
        (∃ other ∈ utilizations data, 0 < other) ∧ ∀ other ∈ utilizations data, other ≤ 1 := by
  obtain ⟨window, held, isNumber⟩ := Option.bind_eq_some_iff.mp numeric
  have listed : util ∈ utilizations data := by
    have member := Json.field_mem "five_hour" window data held
    exact List.mem_filterMap.mpr ⟨_, member, isNumber⟩
  have mode : ((∃ other ∈ utilizations data, 0 < other) ∧
      ∀ other ∈ utilizations data, other ≤ 1) ↔ fractionalMode data = true := by
    simp [fractionalMode]
  rw [mode, ← percents_agree_iff (fractionalMode data) util fun fractional =>
    (mode.mpr fractional).2 util listed]
  have windows := five_hour_windows parseRfc3339 (fractionalMode data) data distinct window util held
    isNumber
  have extracted : extract5hPercent data = some (if util < 2 then util * 100 else util) := by
    simp [extract5hPercent, numeric, extract5hUtilization]
  constructor
  · rintro ⟨info, usage, pct, made, one, percent, read⟩
    obtain rfl := Option.some.inj made
    dsimp only at one
    rw [loop_windows, List.nil_append, windows] at one
    obtain rfl := (List.cons.inj one).1
    rw [F64.finite.inj percent, Option.some.inj (extracted.symm.trans read)]
  · intro same
    refine ⟨_, ⟨.fiveHour, .finite (normalizedPct (fractionalMode data) util),
      (window.getStr "resets_at").bind parseRfc3339⟩, _, rfl, ?_, rfl,
      extracted.trans (congrArg some same.symm)⟩
    rw [loop_windows, List.nil_append, windows]

def noon : String := "2025-10-03T12:00:00Z"

def parseNoon (text : String) : Option Int := if text = noon then some 1759492800000 else none

def window (util : Rat) : Json :=
  Json.make [("utilization", .number (.float util)), ("resets_at", .string noon)]

theorem fractions_agree :
    ReadersAgree parseNoon [("five_hour", window (21 / 25)), ("seven_day", window (1 / 2))] :=
  (readers_agree_iff parseNoon [("five_hour", window (21 / 25)), ("seven_day", window (1 / 2))]
    (by decide) (21 / 25) rfl).mpr (by decide +kernel)

/-- One and a half per cent of the five-hour window, in a payload in percent. -/
def percentPayload : AnthropicUsageData := [("five_hour", window (3 / 2)), ("seven_day", window 40)]

/-- The load balancer is told of 1.5 per cent, the estimator of 150 per cent. -/
theorem percent_read_as_fraction :
    extract5hPercent percentPayload = some 150 ∧
      (anthropicRoutingInfo parseNoon percentPayload).map RoutingUsageInfo.windows =
        some [⟨.fiveHour, .finite (3 / 2), parseNoon noon⟩, ⟨.weekly, .finite 40, parseNoon noon⟩] ∧
      ¬ ReadersAgree parseNoon percentPayload := by
  have given : (anthropicRoutingInfo parseNoon percentPayload).map RoutingUsageInfo.windows =
      some [⟨.fiveHour, .finite (3 / 2), parseNoon noon⟩,
        ⟨.weekly, .finite 40, parseNoon noon⟩] := by
    decide +kernel
  have fed : extract5hPercent percentPayload = some 150 := by decide +kernel
  refine ⟨fed, given, ?_⟩
  rintro ⟨info, usage, pct, made, one, percent, read⟩
  rw [made, Option.map_some, Option.some.injEq] at given
  obtain rfl : (150 : Rat) = pct := Option.some.inj (fed.symm.trans read)
  rw [given] at one
  obtain rfl := (List.cons.inj one).1
  revert percent
  decide +kernel

end Ccflare.FiveHourReaders
