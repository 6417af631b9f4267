import Ccflare.AccountAdministration
import Ccflare.Grouping

/-!
The analytics report: filters of a query as numbered conditions with the parameters bound to
them, a time series of buckets, its cumulative form, and the totals. Costs and speeds are
exact numbers here.
-/

namespace Ccflare.Analytics

open AccountAdministration Grouping

structure AnalyticsQuery where
  range : String
  mode : String
  modelBreakdown : Option String
  accounts : Option String
  models : Option String
  apiKeys : Option String
  status : Option String
  projects : Option String

def defaultRange : String := "24h"

def defaultMode : String := "normal"

structure BucketConfig where
  bucketMs : Int
  displayName : String

/-- What the calendar says of a moment: the start of its day, the days since Monday and the
day of the month. -/
structure Calendar where
  midnight : Int → Int
  daysFromMonday : Int → Int
  day : Int → Int

def hour : Int := 60 * 60 * 1000

def day : Int := 24 * hour

def getRangeConfig (calendar : Calendar) (now : Int) (range : String) : Int × BucketConfig :=
  match range with
  | "1h" => (now - hour, ⟨60000, "1m"⟩)
  | "6h" => (now - 6 * hour, ⟨5 * 60000, "5m"⟩)
  | "7d" => (now - 7 * day, ⟨hour, "1h"⟩)
  | "30d" => (now - 30 * day, ⟨day, "1d"⟩)
  | "today" => (calendar.midnight now, ⟨60000, "1m"⟩)
  | "this_week" => ((now - calendar.daysFromMonday now * day).tdiv day * day, ⟨hour, "1h"⟩)
  | "this_month" => ((now - (calendar.day now - 1) * day).tdiv day * day, ⟨day, "1d"⟩)
  | _ => (now - day, ⟨hour, "1h"⟩)

/-- The columns of `requests` that the report reads. -/
structure RequestRow where
  timestamp : Int
  accountUsed : Option String
  success : Option Int
  responseTimeMs : Option Int
  model : Option String
  totalTokens : Option Int
  costUsd : Option Rat
  inputTokens : Option Int
  cacheReadInputTokens : Option Int
  cacheCreationInputTokens : Option Int
  outputTokens : Option Int
  tokensPerSecond : Option Rat
  project : Option String
  apiKeyName : Option String

inductive Column where
  | model
  | apiKeyName
  | project
  deriving DecidableEq

def Column.name : Column → String
  | .model => "model"
  | .apiKeyName => "api_key_name"
  | .project => "project"

def Column.read (row : RequestRow) : Column → Option String
  | .model => row.model
  | .apiKeyName => row.apiKeyName
  | .project => row.project

inductive Param where
  | int (value : Int)
  | text (value : String)
  deriving DecidableEq

/-- A condition names its parameters by their numbers, which start at one. -/
inductive Condition where
  | after (index : Nat)
  | among (column : Column) (indices : List Nat)
  | account (indices : List Nat)
  | success (flag : Nat)

def placeholders (indices : List Nat) : String :=
  Text.joinWith "," (indices.map fun index => "?" ++ toString index)

def Condition.text : Condition → String
  | .after index => "timestamp > ?" ++ toString index
  | .among column indices => column.name ++ " IN (" ++ placeholders indices ++ ")"
  | .account indices =>
      "r.account_used IN (SELECT id FROM accounts WHERE name IN (" ++ placeholders indices ++ "))"
  | .success flag => "success = " ++ toString flag

structure FilterBuilder where
  conditions : List Condition
  params : List Param
  idx : Nat

namespace FilterBuilder

def new (startMs : Int) : FilterBuilder := ⟨[.after 1], [.int startMs], 2⟩

/-- A condition on the values, which are bound to the next numbers. -/
def addValues (builder : FilterBuilder) (condition : List Nat → Condition)
    (values : List String) : FilterBuilder :=
  if values.isEmpty then builder
  else
    ⟨builder.conditions ++ [condition ((List.range values.length).map (builder.idx + ·))],
      builder.params ++ values.map .text, builder.idx + values.length⟩

def addInFilter (builder : FilterBuilder) (column : Column) (values : List String) :
    FilterBuilder := builder.addValues (.among column) values

def addAccountFilter (builder : FilterBuilder) (values : List String) : FilterBuilder :=
  builder.addValues .account values

def addStatusFilter (builder : FilterBuilder) (status : String) : FilterBuilder :=
  match status with
  | "success" => { builder with conditions := builder.conditions ++ [.success 1] }
  | "error" => { builder with conditions := builder.conditions ++ [.success 0] }
  | _ => builder

def whereClause (builder : FilterBuilder) : String :=
  Text.joinWith " AND " (builder.conditions.map Condition.text)

end FilterBuilder

/-- `split(',')` without its empty parts. -/
def listed (values : String) : List String :=
  ((values.toList.splitOn ',').map String.ofList).filter fun value => value ≠ ""

def buildFilters (query : AnalyticsQuery) (startMs : Int) : FilterBuilder :=
  let builder := FilterBuilder.new startMs
  let builder := query.accounts.elim builder fun values => builder.addAccountFilter (listed values)
  let builder := query.models.elim builder fun values => builder.addInFilter .model (listed values)
  let builder :=
    query.apiKeys.elim builder fun values => builder.addInFilter .apiKeyName (listed values)
  let builder := query.status.elim builder builder.addStatusFilter
  query.projects.elim builder fun values => builder.addInFilter .project (listed values)

section Statements
variable (accounts : Store) (params : List Param)

/-- The value bound to a number. -/
def bound (index : Nat) : Option Param := if index = 0 then none else params[index - 1]?

/-- `value IN (..)`, which a missing value is not. -/
def isAmong (indices : List Nat) (value : Option String) : Bool :=
  value.any fun text => indices.any fun index => bound params index = some (.text text)

def Condition.holds (row : RequestRow) : Condition → Bool
  | .after index =>
      match bound params index with
      | some (.int start) => decide (start < row.timestamp)
      | _ => false
  | .among column indices => isAmong params indices (column.read row)
  | .account indices =>
      accounts.rows.any fun account =>
        decide (row.accountUsed = some account.id) && isAmong params indices (some account.name)
  | .success flag => decide (row.success = some (flag : Int))

/-- The rows a statement reads whose `WHERE` is the clause of the builder. -/
def selected (builder : FilterBuilder) (rows : List RequestRow) : List RequestRow :=
  rows.filter fun row => builder.conditions.all fun condition => condition.holds accounts params row

end Statements

/-- Requests, tokens, costs and the costs of subscriptions, as the report adds them up. -/
abbrev Totals := Int × Int × Rat × Rat

def savingProviders : List String := ["anthropic", "claude-oauth"]

def moneySaved (accounts : Store) (row : RequestRow) : Rat :=
  if (row.accountUsed.bind accounts.findById).any fun account =>
      account.provider ∈ savingProviders then row.costUsd.getD 0
  else 0

def weigh (accounts : Store) (row : RequestRow) : Totals :=
  (1, row.totalTokens.getD 0, row.costUsd.getD 0, moneySaved accounts row)

/-- A share in per cent; a whole of zero has none, which is reported as zero. -/
def percentOf (part whole : Int) : Rat := if whole = 0 then 0 else part * 100 / whole

def average (values : List Rat) : Option Rat :=
  if values.isEmpty then none else some (values.sum / values.length)

def countWhere (flag : Int) (rows : List RequestRow) : Int :=
  (rows.filter fun row => row.success = some flag).length

def sumOf (column : RequestRow → Option Int) (rows : List RequestRow) : Int :=
  (rows.map fun row => (column row).getD 0).sum

structure Point where
  ts : Int
  model : Option String
  requests : Int
  tokens : Int
  costUsd : Rat
  successRate : Rat
  errorRate : Rat
  cacheHitRate : Rat
  avgResponseTime : Rat
  avgTokensPerSecond : Option Rat
  moneySavedUsd : Rat

def Point.totals (point : Point) : Totals :=
  (point.requests, point.tokens, point.costUsd, point.moneySavedUsd)

def Point.write (point : Point) (totals : Totals) : Point :=
  { point with
    requests := totals.1
    tokens := totals.2.1
    costUsd := totals.2.2.1
    moneySavedUsd := totals.2.2.2 }

/-- The key of a group: the bucket, and the model where the report breaks it down. -/
abbrev GroupKey := Int ×ₗ String

def bucketOf (params : List Param) (index : Nat) (row : RequestRow) : Int :=
  match bound params index with
  | some (.int width) => row.timestamp.tdiv width * width
  | _ => 0

def groupKey (params : List Param) (index : Nat) (breakdown : Bool) (row : RequestRow) : GroupKey :=
  toLex (bucketOf params index row, if breakdown then row.model.getD "" else "")

def pointOf (accounts : Store) (breakdown : Bool) (group : GroupKey × List RequestRow) : Point :=
  let rows := group.2
  { ts := (ofLex group.1).1
    model := if breakdown then some (ofLex group.1).2 else none
    requests := rows.length
    tokens := sumOf RequestRow.totalTokens rows
    costUsd := (rows.map fun row => row.costUsd.getD 0).sum
    successRate := percentOf (countWhere 1 rows) rows.length
    errorRate := percentOf (countWhere 0 rows) rows.length
    cacheHitRate := percentOf (sumOf RequestRow.cacheReadInputTokens rows)
      (sumOf RequestRow.inputTokens rows + sumOf RequestRow.cacheReadInputTokens rows +
        sumOf RequestRow.cacheCreationInputTokens rows)
    avgResponseTime := (average ((rows.filterMap RequestRow.responseTimeMs).map Int.cast)).getD 0
    avgTokensPerSecond := average (rows.filterMap RequestRow.tokensPerSecond)
    moneySavedUsd := (rows.map (moneySaved accounts)).sum }

/-- Running totals over the whole series, or of each model apart. -/
def applyCumulative (breakdown : Bool) (series : List Point) : List Point :=
  if breakdown then
    running (fun point : Point => point.model.getD "") Point.totals Point.write (fun _ => 0) series
  else running (fun _ => ()) Point.totals Point.write (fun _ => 0) series

structure Summary where
  requests : Int
  successRate : Rat
  avgResponseTime : Rat
  totalTokens : Int
  totalCostUsd : Rat
  avgTokensPerSecond : Option Rat
  activeAccounts : Int
  totalMoneySavedUsd : Rat
  inputTokens : Int
  cacheReadInputTokens : Int
  cacheCreationInputTokens : Int
  outputTokens : Int

def summarize (accounts : Store) (rows : List RequestRow) : Summary where
  requests := rows.length
  successRate := percentOf (countWhere 1 rows) rows.length
  avgResponseTime := (average ((rows.filterMap RequestRow.responseTimeMs).map Int.cast)).getD 0
  totalTokens := sumOf RequestRow.totalTokens rows
  totalCostUsd := (rows.map fun row => row.costUsd.getD 0).sum
  avgTokensPerSecond := average (rows.filterMap RequestRow.tokensPerSecond)
  activeAccounts := (rows.filterMap RequestRow.accountUsed).dedup.length
  totalMoneySavedUsd := (rows.map (moneySaved accounts)).sum
  inputTokens := sumOf RequestRow.inputTokens rows
  cacheReadInputTokens := sumOf RequestRow.cacheReadInputTokens rows
  cacheCreationInputTokens := sumOf RequestRow.cacheCreationInputTokens rows
  outputTokens := sumOf RequestRow.outputTokens rows

/-- The parameters of the time series, the filters' own copied and the bucket width last. -/
def seriesParams (startMs : Int) (builder : FilterBuilder) (bucketMs : Int) : List Param :=
  .int startMs :: builder.params.drop 1 ++ [.int bucketMs]

structure Report where
  range : String
  bucket : String
  cumulative : Bool
  totals : Summary
  timeSeries : List Point

/-- The parts of the report that are not lists of the ten best. -/
def getAnalytics (calendar : Calendar) (now : Int) (accounts : Store) (rows : List RequestRow)
    (query : AnalyticsQuery) : Report :=
  let config := getRangeConfig calendar now query.range
  let builder := buildFilters query config.1
  let cumulative := decide (query.mode = "cumulative")
  let breakdown := decide (query.modelBreakdown = some "true")
  let params := seriesParams config.1 builder config.2.bucketMs
  let found := (selected accounts params builder rows).filter fun row =>
    !breakdown || row.model.isSome
  let series := (groups (groupKey params builder.idx breakdown) found).map
    (pointOf accounts breakdown)
  { range := query.range
    bucket := config.2.displayName
    cumulative := cumulative
    totals := summarize accounts (selected accounts builder.params builder rows)
    timeSeries := if cumulative then applyCumulative breakdown series else series }

end Ccflare.Analytics
