import UsageBoard.Document.Decoder
import UsageBoard.Json.Value
import UsageBoard.Saturating

/-!
# The window of a query
-/

namespace UsageBoard.Usage

open UsageBoard.Document

/-- A window in seconds since 1970, both ends included. -/
structure TimeRange where
  start : Int64
  «end» : Int64
deriving DecidableEq, Repr

namespace TimeRange

/-- The length in seconds, negative for an inverted window. -/
def duration (range : TimeRange) : Int64 := Saturating.sub range.end range.start

/-- The length in minutes, unless the window is empty or inverted. -/
def minutes (range : TimeRange) : Option Float :=
  if 0 < range.duration then some (Decimal.ofInt range.duration.toInt / 60.0) else none

theorem minutes_eq_none_iff (range : TimeRange) : range.minutes = none ↔ range.end ≤ range.start := by
  have hduration : 0 < range.duration ↔ range.start < range.end := by
    rw [Int64.lt_iff_toInt_lt, Int64.lt_iff_toInt_lt, duration, Saturating.toInt_sub,
      Saturating.int64End_eq, Int64.toInt_zero]
    omega
  unfold minutes
  by_cases h : range.start < range.end
  · simp [hduration.mpr h, Int64.not_le.mpr h]
  · simp [mt hduration.mp h, Int64.not_lt.mp h]

def record : Record TimeRange :=
  TimeRange.mk <$> Record.required "start" Decoder.int64 <*> Record.required "end" Decoder.int64

def decoder : Decoder TimeRange := record.decoder "TimeRange" .data

def toJson (range : TimeRange) : Json :=
  .object [("start", .integer range.start.toInt), ("end", .integer range.end.toInt)]

end TimeRange

end UsageBoard.Usage
