import UsageBoard.Calendar
import UsageBoard.Usage.Granularity

/-!
# Labels of time buckets

Within a calendar year labels sort in the order of time: `01-15 08:00`, `01-15` and
`01-15 - 01-21`.
-/

namespace UsageBoard.Usage

/-- How far behind its start a week's last day begins. -/
def weekSpan : Int := 6 * Calendar.daySeconds

/-- The label of a bucket in the time zone that is `offset` seconds east.  A start without a date
is shown as a number; a week whose last day has no date has no label. -/
def bucketLabel? (start : Int64) (granularity : Granularity) (offset : Int) : Option String :=
  let second := start.toInt
  if Calendar.representable second = false then some (toString second)
  else
    let firstDay := Calendar.monthDay (second + offset)
    match granularity with
    | .hour => some (firstDay ++ " " ++ Calendar.twoDigits (Calendar.hour (second + offset)) ++ ":00")
    | .day => some firstDay
    | .week =>
        if Calendar.representable (second + weekSpan) then
          some (firstDay ++ " - " ++ Calendar.monthDay (second + weekSpan + offset))
        else none

end UsageBoard.Usage
