import UsageBoard.Palette
import UsageBoard.Usage.BucketLabel
import UsageBoard.Usage.Tally
import UsageBoard.Usage.TimeRange

/-!
# The usage dashboard

`Dashboard.build?` adds up usage records by model and by time bucket.  The consumption has one row
for each bucket of the timeline and each model; the timeline has at least seven buckets.
-/

namespace UsageBoard.Usage

open UsageBoard.Document

structure CallCount where
  model : String
  value : Int64
deriving DecidableEq, Repr

structure Consumption where
  time : String
  model : String
  usage : Float

structure Rates where
  rpm : Float
  tpm : Float

/-- What the usage charts and the summary show for one query. -/
structure Dashboard where
  granularity : Granularity
  /-- By value, the greatest first. -/
  callCounts : List CallCount
  consumption : List Consumption
  /-- A colour for each model, by model. -/
  modelColors : List (String × String)
  totals : Totals

def leastBuckets : Nat := 7

namespace Aggregation

/-- The records by time; an empty result is one row with nothing in it. -/
def ordered (a : Aggregation) (records : List UsageRecord) : List UsageRecord :=
  if records.isEmpty then [UsageRecord.placeholder a.now]
  else records.mergeSort fun r s => decide (r.createdAt ≤ s.createdAt)

/-- The start of the bucket that lies a number of steps before another. -/
def before (a : Aggregation) (latest : Int64) (steps : Nat) : Int64 :=
  Saturating.sub latest (Saturating.clamp (steps * a.granularity.seconds))

/-- The buckets that are charted: those with records, or, if they are few, the last seven up to the
latest of them. -/
def timeline (a : Aggregation) (buckets : List Int64) : List Int64 :=
  match buckets.getLast? with
  | some latest =>
      if buckets.length < leastBuckets then timesOnce ((List.range leastBuckets).map (a.before latest))
      else buckets
  | none => buckets

/-- The rows of one bucket, or nothing if it has no label. -/
def bucketRows? (a : Aggregation) (tally : Tally) (time : Int64) : Option (List Consumption) :=
  (bucketLabel? time a.granularity a.offset).map fun label =>
    tally.models.map fun model => ⟨label, model, tally.usage time model⟩

/-- A row for each bucket and each model, by label; rows with equal labels stay in the order of
their buckets. -/
def consumption? (a : Aggregation) (tally : Tally) : Option (List Consumption) :=
  ((a.timeline tally.buckets).mapM (a.bucketRows? tally)).map fun rows =>
    rows.flatten.mergeSort fun p q => decide (p.time ≤ q.time)

/-- The calls of each model, the greatest number first; models with equal numbers stay in the order
in which they appear. -/
def callCounts (tally : Tally) : List CallCount :=
  (tally.calls.map fun (model, calls) => ⟨model, calls⟩).mergeSort fun p q =>
    decide (q.value ≤ p.value)

end Aggregation

namespace Dashboard

/-- What a tally shows, and the session with the colours of its models.  There is nothing to show if
a bucket has no label. -/
def ofTally? (a : Aggregation) (session : Palette.Session) (tally : Tally) :
    Option (Dashboard × Palette.Session) :=
  let (colors, session) := session.resolveAll tally.models
  (a.consumption? tally).map fun consumption =>
    ({ granularity := a.granularity
       callCounts := Aggregation.callCounts tally
       consumption
       modelColors := colors.mergeSort fun p q => decide (p.1 ≤ q.1)
       totals := tally.totals }, session)

/-- The dashboard of some records, and the session with the colours of their models.  There is none
if a bucket has no start in the range of times, or no label. -/
def build? (a : Aggregation) (session : Palette.Session) (records : List UsageRecord) :
    Option (Dashboard × Palette.Session) :=
  (Tally.ofRecords? a (a.ordered records)).bind (ofTally? a session)

end Dashboard

/-- The averages over a window, unless it is empty or inverted. -/
def Totals.rates (totals : Totals) (range : TimeRange) : Option Rates :=
  range.minutes.map fun minutes =>
    ⟨Decimal.ofInt totals.requests.toInt / minutes, Decimal.ofInt totals.tokens.toInt / minutes⟩

namespace CallCount

def decoder : Decoder CallCount :=
  (CallCount.mk <$> Record.required "type" Decoder.string
    <*> Record.required "value" Decoder.int64).decoder "CallCountPoint" .data

def toJson (c : CallCount) : Json := .object [("type", .text c.model), ("value", .integer c.value.toInt)]

end CallCount

namespace Consumption

def decoder : Decoder Consumption :=
  (Consumption.mk <$> Record.required "Time" Decoder.string
    <*> Record.required "Model" Decoder.string
    <*> Record.required "Usage" Decoder.real).decoder "ConsumptionPoint" .data

def toJson (c : Consumption) : Json :=
  .object [("Time", .text c.time), ("Model", .text c.model), ("Usage", .real c.usage)]

end Consumption

namespace Totals

def decoder : Decoder Totals :=
  (Totals.mk <$> Record.required "quota" Decoder.real
    <*> Record.required "tokens" Decoder.int64
    <*> Record.required "requests" Decoder.int64).decoder "UsageTotals" .data

def toJson (t : Totals) : Json :=
  .object [("quota", .real t.quota), ("tokens", .integer t.tokens.toInt),
    ("requests", .integer t.requests.toInt)]

end Totals

namespace Rates

def decoder : Decoder Rates :=
  (Rates.mk <$> Record.required "rpm" Decoder.real
    <*> Record.required "tpm" Decoder.real).decoder "RateMetrics" .data

def toJson (r : Rates) : Json := .object [("rpm", .real r.rpm), ("tpm", .real r.tpm)]

end Rates

/-- Members by key, of equal keys the last. -/
def lastByKey (members : List (String × String)) : List (String × String) :=
  (members.foldr (fun entry kept => if kept.any (·.1 == entry.1) then kept else entry :: kept)
    []).mergeSort fun p q => decide (p.1 ≤ q.1)

def colorsJson (colors : List (String × String)) : Json :=
  .object (colors.map fun (model, color) => (model, .text color))

namespace Dashboard

def decoder : Decoder Dashboard :=
  (Dashboard.mk <$> Record.required "granularity" Granularity.decoder
    <*> Record.required "call_counts" (Decoder.list CallCount.decoder)
    <*> Record.required "consumption" (Decoder.list Consumption.decoder)
    <*> Record.required "model_colors" (fun depth node =>
          (Decoder.members Decoder.string depth node).map lastByKey)
    <*> Record.required "totals" Totals.decoder).decoder "UsageDashboard" .data

def toJson (d : Dashboard) : Json :=
  .object [("granularity", d.granularity.toJson),
    ("call_counts", .list (d.callCounts.map CallCount.toJson)),
    ("consumption", .list (d.consumption.map Consumption.toJson)),
    ("model_colors", colorsJson d.modelColors),
    ("totals", d.totals.toJson)]

end Dashboard

end UsageBoard.Usage
