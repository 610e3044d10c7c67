import Teiryo.Core.Domain
import Teiryo.Framework.Json
import Mathlib.Data.List.DropRight

/-!
# The Claude usage parser

Quota windows from one response of the usage endpoint, following
`teiryo-providers/src/claude/parser.rs`. What `serde_json` and `chrono` make of texts is a
parameter; which shapes the response types accept is not.
-/

namespace Teiryo

/-- `serde_json` and `chrono` on texts. -/
structure Serde (F : Type) where
  /-- The document in a body, or why it is none. -/
  fromSlice : List UInt8 → Except String Json
  /-- What is said of a document that is no usage response. -/
  unexpected : List UInt8 → String
  f64 : String → Option F
  dateTime : String → Option DateTime

structure RawResponse where
  status : UInt16
  body : List UInt8
  deriving DecidableEq, Repr

inductive ParseError where
  | schemaDrift (message : String)
  deriving DecidableEq, Repr

namespace Claude

def assumedSchema : String :=
  "five_hour/seven_day[/seven_day_opus/seven_day_sonnet] objects with utilization " ++
    "(percent used) and optional resets_at, plus limits[] rows of kind weekly_scoped with " ++
    "percent, resets_at and scope.model.display_name"

def fiveHours : StdDuration := 5 * 60 * 60 * 1000000000

def sevenDays : StdDuration := 7 * 24 * 60 * 60 * 1000000000

/-- One fixed top-level bucket. -/
structure UsageBucket where
  utilization : Option Json
  resetsAt : Option Json

def UsageBucket.deserialize (value : Json) : Option UsageBucket :=
  match value.fields ["utilization", "resets_at"] with
  | some [utilization, resetsAt] =>
    some { utilization := Json.raw utilization, resetsAt := Json.raw resetsAt }
  | _ => none

structure UsageResponse where
  fiveHour : Option UsageBucket
  sevenDay : Option UsageBucket
  sevenDayOpus : Option UsageBucket
  sevenDaySonnet : Option UsageBucket
  limits : Option Json

def UsageResponse.deserialize (value : Json) : Option UsageResponse :=
  match value.fields ["five_hour", "seven_day", "seven_day_opus", "seven_day_sonnet", "limits"] with
  | some [fiveHour, sevenDay, sevenDayOpus, sevenDaySonnet, limits] => do
    let fiveHour ← Json.optional UsageBucket.deserialize fiveHour
    let sevenDay ← Json.optional UsageBucket.deserialize sevenDay
    let sevenDayOpus ← Json.optional UsageBucket.deserialize sevenDayOpus
    let sevenDaySonnet ← Json.optional UsageBucket.deserialize sevenDaySonnet
    return { fiveHour, sevenDay, sevenDayOpus, sevenDaySonnet, limits := Json.raw limits }
  | _ => none

structure LimitModel where
  id : Option String
  displayName : Option String
  deriving DecidableEq, Repr

def LimitModel.deserialize (value : Json) : Option LimitModel :=
  match value.fields ["id", "display_name"] with
  | some [id, displayName] => do
    let id ← Json.optional Json.asString id
    let displayName ← Json.optional Json.asString displayName
    return { id, displayName }
  | _ => none

structure LimitScope where
  model : Option LimitModel
  deriving DecidableEq, Repr

def LimitScope.deserialize (value : Json) : Option LimitScope :=
  match value.fields ["model"] with
  | some [model] => do
    let model ← Json.optional LimitModel.deserialize model
    return { model }
  | _ => none

/-- One row of `limits[]`. -/
structure LimitEntry where
  kind : Option String
  percent : Option Json
  resetsAt : Option Json
  scope : Option LimitScope

def LimitEntry.deserialize (value : Json) : Option LimitEntry :=
  match value.fields ["kind", "percent", "resets_at", "scope"] with
  | some [kind, percent, resetsAt, scope] => do
    let kind ← Json.optional Json.asString kind
    let scope ← Json.optional LimitScope.deserialize scope
    return { kind, percent := Json.raw percent, resetsAt := Json.raw resetsAt, scope }
  | _ => none

/-- Read one raw JSON value, treating anything unreadable as absent. -/
def readable {α : Type} (fromValue : Json → Option α) (raw : Option Json) : Option α :=
  raw.bind fromValue

section Parser

variable {F : Type} (serde : Serde F)

def f64Value : Json → Option F
  | .number text => serde.f64 text
  | _ => none

def dateTimeValue : Json → Option DateTime
  | .string text => serde.dateTime text
  | _ => none

def weeklyScopedKind : String := "weekly_scoped"

structure BucketSpec where
  id : String
  label : String
  scope : WindowScope
  length : StdDuration
  deriving DecidableEq, Repr

abbrev BucketGetter := UsageResponse → Option UsageBucket

def specs : List (BucketSpec × BucketGetter) :=
  [({ id := "session_5h", label := "Session — 5 hour", scope := .accountWide, length := fiveHours },
      fun r => r.fiveHour),
    ({ id := "weekly", label := "Weekly — all models", scope := .accountWide, length := sevenDays },
      fun r => r.sevenDay),
    ({ id := "weekly_opus", label := "Weekly — Opus", scope := .model "opus", length := sevenDays },
      fun r => r.sevenDayOpus),
    ({ id := "weekly_sonnet", label := "Weekly — Sonnet", scope := .model "sonnet",
       length := sevenDays },
      fun r => r.sevenDaySonnet)]

/-- Whether `id` is one that `parse` derived from a name the server chose. -/
def isServerDerived (id : WindowId) : Bool := !specs.any fun entry => entry.1.id == id.val

/-- The rows of `limits[]`, still undecoded. Anything but an array has none. -/
def limitRows : Option Json → List Json
  | some (.array rows) => rows
  | _ => []

/-- A reading outside `0..=100` is logged and kept. -/
def checkedPercent (_window : String) (used : F) : F := used

/-- Pop the last part while it is a number, but not the only one. The parts come last first. -/
def popVersion : List (List Char) → List (List Char)
  | last :: part :: rest =>
    if last.all Char.isDigit then popVersion (part :: rest) else last :: part :: rest
  | parts => parts

/-- A slug reduced to the model it names: no vendor prefix, no version tail. -/
def canonicalModel (slug : String) : String :=
  let parts := (slug.toList.splitOn '_').filter fun part => !part.isEmpty
  let parts :=
    if parts.head? = some "claude".toList ∧ 1 < parts.length then parts.tail else parts
  let parts :=
    if parts.head?.any fun part => !part.all Char.isDigit then (popVersion parts.reverse).reverse
    else parts
  String.ofList (['_'].intercalate parts)

/-- Whether a scoped row's slug names the same model as a fixed bucket. -/
def sameModel (slug fixed : String) : Bool := canonicalModel slug == fixed

def slugStep (slug : List Char) (c : Char) : List Char :=
  if c.isAlphanum then slug ++ [c.toLower]
  else if slug ≠ [] ∧ slug.getLast? ≠ some '_' then slug ++ ['_']
  else slug

/-- Lower-case `[a-z0-9]` runs joined by `_`. -/
def modelSlug (displayName : String) : String :=
  String.ofList ((displayName.toList.foldl slugStep []).rdropWhile fun c => c == '_')

/-- The slug of a model: from the server's own id where that has one, from the label otherwise. -/
def LimitModel.slug (model : LimitModel) : String :=
  let name := model.displayName.getD ""
  match model.id.map modelSlug with
  | some id => if id ≠ "" then id else modelSlug name
  | none => modelSlug name

variable [F64 F]

def bucketWindow (spec : BucketSpec) (bucket : UsageBucket) (used : F) : QuotaWindow F where
  id := ⟨spec.id⟩
  label := spec.label
  scope := spec.scope
  resetKind := .rolling spec.length
  unit := .percent
  used := checkedPercent spec.id used
  limit := some 100.0
  resetAt := readable (dateTimeValue serde) bucket.resetsAt

/-- The windows of the fixed buckets so far, and the models they account for. -/
structure FixedBuckets (F : Type) where
  windows : List (QuotaWindow F) := []
  fixedModels : List String := []

def pushBucket (usage : UsageResponse) (acc : FixedBuckets F)
    (entry : BucketSpec × BucketGetter) : FixedBuckets F :=
  match entry.2 usage with
  | none => acc
  | some bucket =>
    let fixedModels := match entry.1.scope with
      | .model name => acc.fixedModels ++ [name]
      | .accountWide => acc.fixedModels
    match readable (f64Value serde) bucket.utilization with
    | none => { acc with fixedModels }
    | some used =>
      { windows := acc.windows ++ [bucketWindow serde entry.1 bucket used], fixedModels }

def limitWindow (entry : LimitEntry) (model : LimitModel) (used : F) : QuotaWindow F where
  id := ⟨"weekly_" ++ model.slug⟩
  label :=
    if model.displayName.getD "" = "" then "Weekly — " ++ model.slug
    else "Weekly — " ++ model.displayName.getD ""
  scope := .model model.slug
  resetKind := .rolling sevenDays
  unit := .percent
  used := checkedPercent ("weekly_" ++ model.slug) used
  limit := some 100.0
  resetAt := readable (dateTimeValue serde) entry.resetsAt

/-- One row of `limits[]`: what it adds to the windows, or nothing when it is unreadable, of
another kind, unnamed, a second one of its id, about a fixed bucket's model, or without a
reading. -/
def pushLimit (fixedModels : List String) (windows : List (QuotaWindow F)) (value : Json) :
    List (QuotaWindow F) :=
  match LimitEntry.deserialize value with
  | none => windows
  | some entry =>
    if entry.kind ≠ some weeklyScopedKind then windows
    else match entry.scope.bind LimitScope.model with
      | none => windows
      | some model =>
        if model.slug = "" then windows
        else if windows.any fun w => w.id == ⟨"weekly_" ++ model.slug⟩ then windows
        else if fixedModels.any fun fixed => sameModel model.slug fixed then windows
        else match readable (f64Value serde) entry.percent with
          | none => windows
          | some used => windows ++ [limitWindow serde entry model used]

/-- Parse one usage response into quota windows. -/
def parse (raw : RawResponse) : Except ParseError (List (QuotaWindow F)) :=
  if raw.status ≠ 200 then
    .error (.schemaDrift ("expected HTTP 200 from usage endpoint, got " ++ toString raw.status))
  else
    match serde.fromSlice raw.body with
    | .error e => .error (.schemaDrift ("usage payload is not the expected JSON: " ++ e))
    | .ok value =>
      match UsageResponse.deserialize value with
      | none => .error (.schemaDrift
          ("usage payload is not the expected JSON: " ++ serde.unexpected raw.body))
      | some usage =>
        let fixed := specs.foldl (pushBucket serde usage) {}
        let windows := (limitRows usage.limits).foldl (pushLimit serde fixed.fixedModels)
          fixed.windows
        if windows = [] then .error (.schemaDrift
          ("no recognized usage windows in payload; assumed schema: " ++ assumedSchema))
        else .ok windows

end Parser
end Claude
end Teiryo
