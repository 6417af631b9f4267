import Ccflare.Analytics

/-!
What the analytics report counts: the rows a query asks for, in buckets that part them, so
that the series adds up to the totals and its cumulative form is the totals up to a bucket.
-/

namespace Ccflare.AnalyticsTotals

open AccountAdministration Analytics Grouping

/-- One of the values of a filter, where it has any. -/
def OneOf (values : Option String) (matching : String → Prop) : Prop :=
  ∀ given, values = some given → listed given ≠ [] → ∃ value ∈ listed given, matching value

/-- What a query asks for, with no word of placeholders. -/
structure Requested (query : AnalyticsQuery) (startMs : Int) (accounts : Store)
    (row : RequestRow) : Prop where
  recent : startMs < row.timestamp
  account : OneOf query.accounts fun name =>
    ∃ account ∈ accounts.rows, row.accountUsed = some account.id ∧ account.name = name
  model : OneOf query.models fun model => row.model = some model
  apiKey : OneOf query.apiKeys fun name => row.apiKeyName = some name
  success : query.status = some "success" → row.success = some 1
  error : query.status = some "error" → row.success = some 0
  project : OneOf query.projects fun project => row.project = some project

section Filters
variable (accounts : Store)

/-- The builder numbers its parameters in order, and its conditions together mean `wanted`
however many parameters are bound after its own. -/
structure Means (builder : FilterBuilder) (wanted : RequestRow → Prop) : Prop where
  numbered : builder.idx = builder.params.length + 1
  exact : ∀ more row, (∀ condition ∈ builder.conditions,
    condition.holds accounts (builder.params ++ more) row = true) ↔ wanted row

variable {accounts}

theorem bound_append (params values : List Param) (more : List Param) (i : Nat)
    (inside : i < values.length) :
    bound (params ++ values ++ more) (params.length + 1 + i) = some values[i] := by
  have position : params.length + 1 + i - 1 = params.length + i := by omega
  rw [bound, if_neg (by omega), position, List.append_assoc,
    List.getElem?_append_right (by omega)]
  have offset : params.length + i - params.length = i := by omega
  rw [offset, List.getElem?_append_left inside, List.getElem?_eq_getElem inside]

/-- The new placeholders stand for the values they were made for. -/
theorem is_among_values (params more : List Param) (values : List String)
    (value : Option String) :
    isAmong (params ++ values.map .text ++ more)
      ((List.range values.length).map (params.length + 1 + ·)) value = true ↔
        ∃ text ∈ values, value = some text := by
  cases value with
  | none => simp [isAmong]
  | some text =>
      simp only [isAmong, Option.any_some, List.any_eq_true, List.mem_map, List.mem_range,
        decide_eq_true_eq]
      constructor
      · rintro ⟨_, ⟨i, inside, rfl⟩, found⟩
        rw [bound_append params (values.map .text) more i (by simpa using inside)] at found
        simp only [List.getElem_map, Option.some.injEq, Param.text.injEq] at found
        exact ⟨values[i], List.getElem_mem inside, by rw [found]⟩
      · rintro ⟨_, member, ⟨⟩⟩
        obtain ⟨i, inside, found⟩ := List.mem_iff_getElem.mp member
        refine ⟨_, ⟨i, inside, rfl⟩, ?_⟩
        rw [bound_append params (values.map .text) more i (by simpa using inside)]
        simp [found]

theorem new_means (accounts : Store) (startMs : Int) :
    Means accounts (.new startMs) fun row => startMs < row.timestamp where
  numbered := rfl
  exact more row := by simp [FilterBuilder.new, Condition.holds, bound]

theorem add_values_means {builder : FilterBuilder} {wanted : RequestRow → Prop}
    (means : Means accounts builder wanted) (condition : List Nat → Condition)
    (matching : RequestRow → String → Prop) (values : List String)
    (reads : ∀ params more row, (condition ((List.range values.length).map
      (params.length + 1 + ·))).holds accounts (params ++ values.map .text ++ more) row = true ↔
        ∃ value ∈ values, matching row value) :
    Means accounts (builder.addValues condition values) fun row =>
      wanted row ∧ (values ≠ [] → ∃ value ∈ values, matching row value) := by
  unfold FilterBuilder.addValues
  by_cases empty : values.isEmpty = true
  · obtain rfl := List.isEmpty_iff.mp empty
    simpa using means
  · have filled : values ≠ [] := fun none => empty (List.isEmpty_iff.mpr none)
    rw [if_neg empty]
    refine ⟨by simp [means.numbered]; omega, fun more row => ?_⟩
    have old := means.exact (values.map .text ++ more) row
    have new := reads builder.params more row
    rw [← List.append_assoc] at old
    rw [← means.numbered] at new
    simp only [List.mem_append, List.mem_singleton, or_imp, forall_and, forall_eq, old, new]
    exact and_congr_right fun _ => ⟨fun found _ => found, fun found => found filled⟩

theorem add_in_means {builder : FilterBuilder} {wanted : RequestRow → Prop}
    (means : Means accounts builder wanted) (column : Column) (given : Option String) :
    Means accounts (given.elim builder fun values => builder.addInFilter column (listed values))
      fun row => wanted row ∧ OneOf given fun value => column.read row = some value := by
  cases given with
  | none => simpa [OneOf] using means
  | some values =>
      have added := add_values_means means (.among column)
        (fun row value => column.read row = some value) (listed values) fun params more row => by
          exact is_among_values params more (listed values) (column.read row)
      simpa [OneOf, FilterBuilder.addInFilter] using added

theorem add_account_means {builder : FilterBuilder} {wanted : RequestRow → Prop}
    (means : Means accounts builder wanted) (given : Option String) :
    Means accounts (given.elim builder fun values => builder.addAccountFilter (listed values))
      fun row => wanted row ∧ OneOf given fun name =>
        ∃ account ∈ accounts.rows, row.accountUsed = some account.id ∧ account.name = name := by
  cases given with
  | none => simpa [OneOf] using means
  | some values =>
      have added := add_values_means means .account
        (fun row name => ∃ account ∈ accounts.rows,
          row.accountUsed = some account.id ∧ account.name = name) (listed values)
        fun params more row => by
          simp only [Condition.holds, List.any_eq_true, Bool.and_eq_true, decide_eq_true_eq,
            is_among_values, Option.some.injEq]
          constructor
          · rintro ⟨account, member, used, name, asked, same⟩
            exact ⟨name, asked, account, member, used, same⟩
          · rintro ⟨name, asked, account, member, used, same⟩
            exact ⟨account, member, used, name, asked, same⟩
      simpa [OneOf, FilterBuilder.addAccountFilter] using added

theorem add_status_means {builder : FilterBuilder} {wanted : RequestRow → Prop}
    (means : Means accounts builder wanted) (status : Option String) :
    Means accounts (status.elim builder builder.addStatusFilter) fun row => wanted row ∧
      (status = some "success" → row.success = some 1) ∧
      (status = some "error" → row.success = some 0) := by
  have flagged (flag : Nat) (asked : RequestRow → Prop)
      (same : ∀ row, asked row ↔ row.success = some (flag : Int)) :
      Means accounts { builder with conditions := builder.conditions ++ [.success flag] }
        fun row => wanted row ∧ asked row := by
    refine ⟨means.numbered, fun more row => ?_⟩
    simp only [List.mem_append, List.mem_singleton, or_imp, forall_and, forall_eq]
    rw [means.exact more row, same]
    simp only [Condition.holds, decide_eq_true_eq]
  cases status with
  | none => simpa using means
  | some text =>
      simp only [Option.elim_some, FilterBuilder.addStatusFilter, Option.some.injEq]
      split
      · exact flagged 1 _ fun row => by simp
      · exact flagged 0 _ fun row => by simp
      · rename_i unsuccessful unfailed
        refine ⟨means.numbered, fun more row => (means.exact more row).trans ?_⟩
        constructor
        · intro here
          exact ⟨here, fun success => absurd success unsuccessful,
            fun error => absurd error unfailed⟩
        · exact fun here => here.1

/-- The conditions built for a query mean what the query asks for. -/
theorem build_filters_means (accounts : Store) (query : AnalyticsQuery) (startMs : Int) :
    Means accounts (buildFilters query startMs) (Requested query startMs accounts) := by
  have account := add_account_means (new_means accounts startMs) query.accounts
  have model := add_in_means account .model query.models
  have apiKey := add_in_means model .apiKeyName query.apiKeys
  have built := add_in_means (add_status_means apiKey query.status) .project query.projects
  refine ⟨built.numbered, fun more row => (built.exact more row).trans ?_⟩
  constructor
  · rintro ⟨⟨⟨⟨⟨recent, account⟩, model⟩, apiKey⟩, success, error⟩, project⟩
    exact ⟨recent, account, model, apiKey, success, error, project⟩
  · rintro ⟨recent, account, model, apiKey, success, error, project⟩
    exact ⟨⟨⟨⟨⟨recent, account⟩, model⟩, apiKey⟩, success, error⟩, project⟩

/-- Builders that agree in all but the values that were bound. -/
def Alike (a b : FilterBuilder) : Prop := a.conditions = b.conditions ∧ a.idx = b.idx

theorem add_values_alike {a b : FilterBuilder} (alike : Alike a b)
    (condition : List Nat → Condition) (left right : Option String)
    (counts : (left.elim 0 fun values => (listed values).length) =
      right.elim 0 fun values => (listed values).length) :
    Alike (left.elim a fun values => a.addValues condition (listed values))
      (right.elim b fun values => b.addValues condition (listed values)) := by
  have padded (builder : FilterBuilder) (given : Option String) :
      (given.elim builder fun values => builder.addValues condition (listed values)) =
        builder.addValues condition (given.elim [] listed) := by
    cases given <;> simp [FilterBuilder.addValues]
  have length (given : Option String) :
      (given.elim 0 fun values => (listed values).length) = (given.elim [] listed).length := by
    cases given <;> rfl
  rw [length, length] at counts
  rw [padded, padded, FilterBuilder.addValues, FilterBuilder.addValues]
  simp only [List.isEmpty_iff_length_eq_zero, counts]
  split
  · exact alike
  · exact ⟨by simp [alike.1, alike.2], by simp [alike.2]⟩

theorem add_status_alike {a b : FilterBuilder} (alike : Alike a b) (status : Option String) :
    Alike (status.elim a a.addStatusFilter) (status.elim b b.addStatusFilter) := by
  cases status with
  | none => exact alike
  | some text =>
      simp only [Option.elim_some, FilterBuilder.addStatusFilter]
      split
      · exact ⟨by simp [alike.1], alike.2⟩
      · exact ⟨by simp [alike.1], alike.2⟩
      · exact alike

/-- How many values each filter of a query has, and the status it asks for. -/
def shape (query : AnalyticsQuery) : List Nat × Option String :=
  ([query.accounts, query.models, query.apiKeys, query.projects].map fun given =>
    given.elim 0 fun values => (listed values).length, query.status)

/-- No value of a query is in the text of its statement, only their numbers are. -/
theorem where_clause_alike (query other : AnalyticsQuery) (startMs otherMs : Int)
    (same : shape query = shape other) :
    (buildFilters query startMs).whereClause = (buildFilters other otherMs).whereClause := by
  obtain ⟨counts, status⟩ := Prod.mk.inj same
  simp only [List.map_cons, List.map_nil, List.cons.injEq, and_true] at counts
  obtain ⟨account, model, apiKey, project⟩ := counts
  have start : Alike (.new startMs) (.new otherMs) := ⟨rfl, rfl⟩
  have fields := add_values_alike (add_values_alike (add_values_alike start .account
    query.accounts other.accounts account) (.among .model) query.models other.models model)
    (.among .apiKeyName) query.apiKeys other.apiKeys apiKey
  have flagged := add_status_alike fields query.status
  rw [FilterBuilder.whereClause, FilterBuilder.whereClause]
  congr 2
  have built := add_values_alike flagged (.among .project) query.projects other.projects project
  refine built.1.trans ?_
  rw [status]
  rfl

end Filters

instance (query : AnalyticsQuery) (startMs : Int) (accounts : Store) :
    DecidablePred (Requested query startMs accounts) := fun row =>
  decidable_of_iff _ ((build_filters_means accounts query startMs).exact [] row)

/-- The start of the bucket a row is in. -/
def bucketStart (width : Int) (row : RequestRow) : Int := row.timestamp.tdiv width * width

section Series
variable (accounts : Store) (rows : List RequestRow) (query : AnalyticsQuery) (startMs : Int)

theorem selected_requested (more : List Param) :
    selected accounts ((buildFilters query startMs).params ++ more) (buildFilters query startMs)
        rows = rows.filter fun row => Requested query startMs accounts row := by
  refine List.filter_congr fun row _ => ?_
  rw [Bool.eq_iff_iff, decide_eq_true_eq, List.all_eq_true]
  exact (build_filters_means accounts query startMs).exact more row

theorem add_values_begins (builder : FilterBuilder) (condition : List Nat → Condition)
    (values : List String) (param : Param) (begins : builder.params.head? = some param) :
    (builder.addValues condition values).params.head? = some param := by
  unfold FilterBuilder.addValues
  split
  · exact begins
  · simp [List.head?_append, begins]

theorem add_status_params (builder : FilterBuilder) (status : String) :
    (builder.addStatusFilter status).params = builder.params := by
  unfold FilterBuilder.addStatusFilter
  split <;> rfl

theorem build_filters_begins :
    (buildFilters query startMs).params.head? = some (.int startMs) := by
  have values (condition : List Nat → Condition) (builder : FilterBuilder) (given : Option String)
      (begins : builder.params.head? = some (.int startMs)) :
      (given.elim builder fun values =>
        builder.addValues condition (listed values)).params.head? = some (.int startMs) := by
    cases given with
    | none => exact begins
    | some text => exact add_values_begins builder condition (listed text) _ begins
  have status (builder : FilterBuilder) (begins : builder.params.head? = some (.int startMs)) :
      (query.status.elim builder builder.addStatusFilter).params.head? = some (.int startMs) := by
    cases query.status with
    | none => exact begins
    | some text => exact (congrArg List.head? (add_status_params builder text)).trans begins
  exact values _ _ _ (status _ (values _ _ _ (values _ _ _ (values _ _ _ rfl))))

/-- The parameters of the series are those of the filters and the width of a bucket. -/
theorem series_params (width : Int) :
    seriesParams startMs (buildFilters query startMs) width =
      (buildFilters query startMs).params ++ [.int width] := by
  have begins := build_filters_begins query startMs
  cases params : (buildFilters query startMs).params with
  | nil => simp [params] at begins
  | cons first rest =>
      obtain rfl : first = .int startMs := by simpa [params] using begins
      simp [seriesParams, params]

theorem bucket_of_start (width : Int) (row : RequestRow) :
    bucketOf ((buildFilters query startMs).params ++ [.int width]) (buildFilters query startMs).idx
      row = bucketStart width row := by
  have numbered := (build_filters_means ⟨[], List.nodup_nil, List.nodup_nil⟩ query startMs).numbered
  have last := bound_append (buildFilters query startMs).params [.int width] [] 0 (by simp)
  rw [List.append_nil, Nat.add_zero, ← numbered] at last
  simp only [bucketOf, last, List.getElem_cons_zero, bucketStart]

theorem total_weigh (part : List RequestRow) :
    total (weigh accounts) part =
      ((part.length : Int), sumOf RequestRow.totalTokens part,
        (part.map fun row => row.costUsd.getD 0).sum, (part.map (moneySaved accounts)).sum) := by
  induction part with
  | nil => rfl
  | cons row rest ih =>
      rw [total_cons, ih]
      simp [weigh, sumOf, add_comm]

theorem point_totals (breakdown : Bool) (group : GroupKey × List RequestRow) :
    (pointOf accounts breakdown group).totals = total (weigh accounts) group.2 :=
  (total_weigh accounts group.2).symm

/-- The rows that the series counts. -/
def seriesRows (breakdown : Bool) : List RequestRow :=
  rows.filter fun row =>
    Requested query startMs accounts row ∧ (breakdown = true → row.model ≠ none)

def seriesKey (width : Int) (breakdown : Bool) (row : RequestRow) : GroupKey :=
  toLex (bucketStart width row, if breakdown then row.model.getD "" else "")

theorem analytics_series (calendar : Calendar) (now : Int) :
    (getAnalytics calendar now accounts rows query).timeSeries =
      let config := getRangeConfig calendar now query.range
      let breakdown := decide (query.modelBreakdown = some "true")
      let series := (groups (seriesKey config.2.bucketMs breakdown)
        (seriesRows accounts rows query config.1 breakdown)).map (pointOf accounts breakdown)
      if query.mode = "cumulative" then applyCumulative breakdown series else series := by
  have key (width : Int) (breakdown : Bool) (start : Int) :
      groupKey ((buildFilters query start).params ++ [.int width]) (buildFilters query start).idx
        breakdown = seriesKey width breakdown := by
    funext row
    rw [groupKey, bucket_of_start query start width row, seriesKey]
  have found (breakdown : Bool) (start : Int) (more : List Param) :
      (selected accounts ((buildFilters query start).params ++ more) (buildFilters query start)
        rows).filter (fun row => !breakdown || row.model.isSome) =
          seriesRows accounts rows query start breakdown := by
    rw [selected_requested, List.filter_filter, seriesRows]
    refine List.filter_congr fun row _ => ?_
    cases breakdown <;> cases row.model <;> simp
  simp only [getAnalytics, series_params, key, found, decide_eq_true_eq]

/-- Where a point of the series stands: its bucket and its model. -/
def place (point : Point) : Int × Option String := (point.ts, point.model)

def placeOf (breakdown : Bool) (key : GroupKey) : Int × Option String :=
  ((ofLex key).1, if breakdown then some (ofLex key).2 else none)

theorem cumulative_places (breakdown : Bool) (series : List Point) :
    (applyCumulative breakdown series).map place = series.map place := by
  unfold applyCumulative
  split
  · exact running_map _ Point.totals Point.write place (fun _ _ => rfl) _ series
  · exact running_map _ Point.totals Point.write place (fun _ _ => rfl) _ series

theorem series_places (calendar : Calendar) (now : Int) :
    (getAnalytics calendar now accounts rows query).timeSeries.map place =
      let config := getRangeConfig calendar now query.range
      let breakdown := decide (query.modelBreakdown = some "true")
      (keys (seriesKey config.2.bucketMs breakdown)
        (seriesRows accounts rows query config.1 breakdown)).map (placeOf breakdown) := by
  rw [analytics_series]
  dsimp only
  split
  · rw [cumulative_places, groups, List.map_map, List.map_map]
    rfl
  · rw [groups, List.map_map, List.map_map]
    rfl

/-- The group behind a point of a running total, and what the point counts. -/
theorem running_point {Class : Type} [DecidableEq Class] (width : Int) (breakdown : Bool)
    (part : List RequestRow) (itemClass : Point → Class) (cls : GroupKey → Class)
    (sameClass : ∀ group, itemClass (pointOf accounts breakdown group) = cls group.1)
    (point : Point) (member : point ∈ running itemClass Point.totals Point.write (fun _ => 0)
      ((groups (seriesKey width breakdown) part).map (pointOf accounts breakdown))) :
    ∃ first ∈ part, place point = placeOf breakdown (seriesKey width breakdown first) ∧
      point.totals = total (weigh accounts) (part.filter fun row =>
        cls (seriesKey width breakdown row) = cls (seriesKey width breakdown first) ∧
          seriesKey width breakdown row ≤ seriesKey width breakdown first) := by
  obtain ⟨i, bound, rfl⟩ := List.mem_iff_getElem.mp member
  have here := List.getElem?_eq_getElem bound
  rw [running_groups (seriesKey width breakdown) (weigh accounts) cls (pointOf accounts breakdown)
    itemClass Point.totals Point.write part sameClass (point_totals accounts breakdown)] at here
  obtain ⟨⟨one, kept⟩, found, same⟩ := Option.map_eq_some_iff.mp here
  obtain ⟨⟨first, member, rfl⟩, -⟩ := (mem_groups _ _ _).mp (List.mem_of_getElem? found)
  rw [← same]
  exact ⟨first, member, rfl, rfl⟩

theorem plain_point (width : Int) (breakdown : Bool) (part : List RequestRow) (point : Point)
    (member : point ∈ (groups (seriesKey width breakdown) part).map (pointOf accounts breakdown)) :
    ∃ first ∈ part, place point = placeOf breakdown (seriesKey width breakdown first) ∧
      point.totals = total (weigh accounts) (part.filter fun row =>
        seriesKey width breakdown row = seriesKey width breakdown first) := by
  obtain ⟨⟨one, kept⟩, found, rfl⟩ := List.mem_map.mp member
  obtain ⟨⟨first, listed, rfl⟩, same⟩ := (mem_groups _ _ _).mp found
  exact ⟨first, listed, rfl,
    (point_totals accounts breakdown _).trans (congrArg (total (weigh accounts)) same)⟩

/-- Keys are ordered by bucket among rows of one model, and throughout without models. -/
theorem series_key_le (width : Int) (breakdown : Bool) (row other : RequestRow)
    (model : breakdown = true → row.model.getD "" = other.model.getD "") :
    seriesKey width breakdown row ≤ seriesKey width breakdown other ↔
      bucketStart width row ≤ bucketStart width other := by
  have second : (if breakdown then row.model.getD "" else "") =
      if breakdown then other.model.getD "" else "" := by
    cases breakdown
    · rfl
    · exact model rfl
  rw [seriesKey, seriesKey, second, Prod.Lex.toLex_le_toLex]
  simp only [le_refl, and_true]
  exact le_iff_lt_or_eq.symm

theorem series_key_eq (width : Int) (breakdown : Bool) (row other : RequestRow) :
    seriesKey width breakdown row = seriesKey width breakdown other ↔
      (breakdown = true → row.model.getD "" = other.model.getD "") ∧
        bucketStart width row = bucketStart width other := by
  cases breakdown <;> simp [seriesKey, and_comm]

/-- The rows a point stands for: those of its bucket, or of every bucket so far where the
series is cumulative, and of its model where models are told apart. -/
def Counted (cumulative breakdown : Bool) (width : Int) (point : Point) (row : RequestRow) : Prop :=
  (breakdown = true → row.model = point.model) ∧
    (bucketStart width row = point.ts ∨
      cumulative = true ∧ bucketStart width row < point.ts)

instance (cumulative breakdown : Bool) (width : Int) (point : Point) :
    DecidablePred (Counted cumulative breakdown width point) := fun row => by
  unfold Counted
  infer_instance

theorem counted_model (width : Int) (point : Point) (row first : RequestRow) (breakdown : Bool)
    (known : breakdown = true → row.model ≠ none)
    (here : place point = placeOf breakdown (seriesKey width breakdown first)) :
    (breakdown = true → row.model.getD "" = first.model.getD "") ↔
      (breakdown = true → row.model = point.model) := by
  refine imp_congr_right fun broken => ?_
  obtain ⟨model, found⟩ := Option.ne_none_iff_exists'.mp (known broken)
  have same : point.model = some (first.model.getD "") := by
    have second := congrArg Prod.snd here
    simpa [place, placeOf, seriesKey, broken] using second
  simp [found, same]

theorem point_ts (width : Int) (point : Point) (first : RequestRow) (breakdown : Bool)
    (here : place point = placeOf breakdown (seriesKey width breakdown first)) :
    point.ts = bucketStart width first := congrArg Prod.fst here

theorem cumulative_counted (width : Int) (breakdown : Bool) (part : List RequestRow)
    (known : ∀ row ∈ part, breakdown = true → row.model ≠ none) (point : Point)
    (member : point ∈ applyCumulative breakdown
      ((groups (seriesKey width breakdown) part).map (pointOf accounts breakdown))) :
    point.totals = total (weigh accounts) (part.filter fun row =>
      Counted true breakdown width point row) := by
  have found : ∃ first ∈ part, place point = placeOf breakdown (seriesKey width breakdown first) ∧
      point.totals = total (weigh accounts) (part.filter fun row =>
        (breakdown = true → row.model.getD "" = first.model.getD "") ∧
          seriesKey width breakdown row ≤ seriesKey width breakdown first) := by
    cases breakdown with
    | true =>
        have found := running_point accounts width true part (fun point => point.model.getD "")
          (fun key => (ofLex key).2) (fun _ => rfl) point (by simpa [applyCumulative] using member)
        simpa [seriesKey] using found
    | false =>
        have found := running_point accounts width false part (fun _ => ()) (fun _ => ())
          (fun _ => rfl) point (by simpa [applyCumulative] using member)
        simpa using found
  obtain ⟨first, -, here, counts⟩ := found
  rw [counts]
  congr 1
  refine List.filter_congr fun row listed => ?_
  rw [decide_eq_decide, Counted, ← counted_model width point row first breakdown
    (known row listed) here, point_ts width point first breakdown here]
  refine and_congr_right fun model => ?_
  rw [series_key_le width breakdown row first model]
  simp only [true_and]
  exact le_iff_eq_or_lt

theorem plain_counted (width : Int) (breakdown : Bool) (part : List RequestRow)
    (known : ∀ row ∈ part, breakdown = true → row.model ≠ none) (point : Point)
    (member : point ∈ (groups (seriesKey width breakdown) part).map (pointOf accounts breakdown)) :
    point.totals = total (weigh accounts) (part.filter fun row =>
      Counted false breakdown width point row) := by
  obtain ⟨first, -, here, counts⟩ := plain_point accounts width breakdown part point member
  rw [counts]
  congr 1
  refine List.filter_congr fun row listed => ?_
  rw [decide_eq_decide, Counted, ← counted_model width point row first breakdown
    (known row listed) here, point_ts width point first breakdown here, series_key_eq]
  simp

theorem mem_series_rows (breakdown : Bool) (row : RequestRow) :
    row ∈ seriesRows accounts rows query startMs breakdown ↔
      row ∈ rows ∧ Requested query startMs accounts row ∧
        (breakdown = true → row.model ≠ none) := by
  rw [seriesRows, List.mem_filter, decide_eq_true_eq]

/-- By bucket, then by model. -/
def Before (a b : Int × Option String) : Prop :=
  a.1 < b.1 ∨ a.1 = b.1 ∧ a.2.getD "" < b.2.getD ""

theorem places_ascending (width : Int) (breakdown : Bool) (part : List RequestRow) :
    ((keys (seriesKey width breakdown) part).map (placeOf breakdown)).Pairwise Before := by
  rw [List.pairwise_map]
  refine (keys_ascending (seriesKey width breakdown) part).imp_of_mem ?_
  intro a b first second less
  obtain ⟨row, -, rfl⟩ := (mem_keys _ _ _).mp first
  obtain ⟨other, -, rfl⟩ := (mem_keys _ _ _).mp second
  rw [seriesKey, seriesKey, Prod.Lex.toLex_lt_toLex] at less
  rcases less with earlier | ⟨same, model⟩
  · exact Or.inl earlier
  · cases breakdown with
    | true => exact Or.inr ⟨same, model⟩
    | false => exact absurd model (lt_irrefl _)

/-- For every query, table and moment: the points of the series stand in the order of their
buckets (and models), every row that is asked for is in one of them, and each point counts
exactly its rows; in the cumulative mode these are all rows up to its bucket. -/
theorem series_exact (calendar : Calendar) (now : Int) :
    let config := getRangeConfig calendar now query.range
    let width := config.2.bucketMs
    let breakdown := decide (query.modelBreakdown = some "true")
    let cumulative := decide (query.mode = "cumulative")
    let series := (getAnalytics calendar now accounts rows query).timeSeries
    (series.Pairwise fun a b => a.ts < b.ts ∨ a.ts = b.ts ∧ a.model.getD "" < b.model.getD "") ∧
    (∀ row ∈ rows, Requested query config.1 accounts row → (breakdown = true → row.model ≠ none) →
      ∃ point ∈ series, Counted false breakdown width point row) ∧
    ∀ point ∈ series, point.totals = total (weigh accounts) (rows.filter fun row =>
      Requested query config.1 accounts row ∧ Counted cumulative breakdown width point row) := by
  intro config width breakdown cumulative series
  have places : series.map place =
      (keys (seriesKey width breakdown) (seriesRows accounts rows query config.1 breakdown)).map
        (placeOf breakdown) := series_places accounts rows query calendar now
  refine ⟨?_, ?_, ?_⟩
  · have ordered := places_ascending width breakdown
      (seriesRows accounts rows query config.1 breakdown)
    rw [← places, List.pairwise_map] at ordered
    exact ordered
  · intro row listed asked known
    have here : placeOf breakdown (seriesKey width breakdown row) ∈ series.map place := by
      rw [places]
      refine List.mem_map_of_mem ((mem_keys _ _ _).mpr ⟨row, ?_, rfl⟩)
      exact (mem_series_rows accounts rows query config.1 breakdown row).mpr ⟨listed, asked, known⟩
    obtain ⟨point, member, stands⟩ := List.mem_map.mp here
    refine ⟨point, member, ?_⟩
    refine ⟨(counted_model width point row row breakdown known stands).mp fun _ => rfl, ?_⟩
    exact Or.inl (point_ts width point row breakdown stands).symm
  · intro point member
    have broken : breakdown = true → point.model ≠ none := by
      intro broken
      have stands : place point ∈ series.map place := List.mem_map_of_mem member
      rw [places] at stands
      obtain ⟨key, -, same⟩ := List.mem_map.mp stands
      have second := congrArg Prod.snd same
      simp only [placeOf, broken, if_true, place] at second
      simp [← second]
    have counts : point.totals = total (weigh accounts)
        ((seriesRows accounts rows query config.1 breakdown).filter fun row =>
          Counted cumulative breakdown width point row) := by
      have known : ∀ row ∈ seriesRows accounts rows query config.1 breakdown,
          breakdown = true → row.model ≠ none := fun row listed =>
        ((mem_series_rows accounts rows query config.1 breakdown row).mp listed).2.2
      have listed : point ∈ (getAnalytics calendar now accounts rows query).timeSeries := member
      rw [analytics_series] at listed
      by_cases mode : query.mode = "cumulative"
      · rw [if_pos mode] at listed
        have all : cumulative = true := decide_eq_true mode
        rw [all]
        exact cumulative_counted accounts width breakdown _ known point listed
      · rw [if_neg mode] at listed
        have one : cumulative = false := decide_eq_false mode
        rw [one]
        exact plain_counted accounts width breakdown _ known point listed
    rw [counts, seriesRows, List.filter_filter]
    congr 1
    refine List.filter_congr fun row _ => ?_
    rw [← Bool.decide_and, decide_eq_decide]
    constructor
    · exact fun both => ⟨both.2.1, both.1⟩
    · rintro ⟨asked, counted⟩
      exact ⟨counted, asked, fun here => counted.1 here ▸ broken here⟩

def Summary.totals (summary : Summary) : Totals :=
  (summary.requests, summary.totalTokens, summary.totalCostUsd, summary.totalMoneySavedUsd)

end Series

end Ccflare.AnalyticsTotals
