import UsageBoard.Charts
import UsageBoard.Pages.Content
import UsageBoard.Store.Preferences

/-!
# The detail page

The detail page asks for usage in a window and shows it as numbers and charts.  Each refresh makes
three calls; one that fails leaves what it gave before in place.
-/

namespace UsageBoard.Pages

open UsageBoard.Backend (Client Endpoint Outcome Scope UsageQuery)
open UsageBoard.Store (Edit Entries)
open UsageBoard.Usage

variable {m : Type → Type} [Monad m]

structure DetailQuery where
  start : Int64
  stop : Int64
  granularity : Granularity
  /-- The user whose usage administrators ask for; all users if it is empty. -/
  username : String
  modelName : String
deriving DecidableEq

namespace DetailQuery

def lookback : Granularity → Int64
  | .hour => 86400
  | .day => 7 * 86400
  | .week => 30 * 86400

/-- The window at first; it ends in an hour, so that the current hour is in it. -/
def initial (granularity : Granularity) (now : Int64) : DetailQuery :=
  ⟨now - lookback granularity, now + 3600, granularity, "", ""⟩

def range (query : DetailQuery) : TimeRange := ⟨query.start, query.stop⟩

def given (text : String) : Option String := if text = "" then none else some text

def usageQuery (query : DetailQuery) : UsageQuery :=
  ⟨query.start, query.stop, query.granularity, given query.username, given query.modelName⟩

def toJson (query : DetailQuery) : Json :=
  .object [("start_timestamp", .integer query.start.toInt), ("end_timestamp", .integer query.stop.toInt),
    ("granularity", query.granularity.toJson), ("username", .text query.username),
    ("model_name", .text query.modelName)]

end DetailQuery

structure DetailView where
  dashboard : Option Dashboard
  cacheHits : List CachePoint
  account : Option Account
  /-- Only for a window that is not empty. -/
  rates : Option Rates
  notifications : List Notification

namespace DetailView

def empty : DetailView := ⟨none, [], none, none, []⟩

def toJson (view : DetailView) : Json :=
  .object [("dashboard", Json.ofOption Dashboard.toJson view.dashboard),
    ("cache_hits", .list (view.cacheHits.map CachePoint.toJson)),
    ("profile", Json.ofOption Account.toJson view.account),
    ("rates", Json.ofOption Rates.toJson view.rates),
    ("notifications", .list (view.notifications.map Notification.toJson))]

end DetailView

structure DetailCharts where
  callCount : Json
  consumption : Json
  tokenCache : Json

/-- The outcomes of the calls of a refresh, and when it was. -/
structure Answers where
  usage : Outcome (List UsageRecord)
  cacheHits : Outcome (List CacheRecord)
  account : Outcome Account
  now : Int64

/-- The state of the page.  The colours of models stay for as long as the page does. -/
structure Detail where
  format : QuotaFormat
  /-- Seconds east of UTC. -/
  offset : Int
  /-- Whether usage is asked for all users. -/
  admin : Bool
  session : Palette.Session
  query : DetailQuery
  view : DetailView

namespace Detail

def initial (format : QuotaFormat) (offset : Int) (admin : Bool) (query : DetailQuery) : Detail :=
  ⟨format, offset, admin, Palette.Session.empty, query, DetailView.empty⟩

def scope (page : Detail) : Scope := if page.admin then .everyone page.query.username else .own

def usageEndpoint (page : Detail) : Endpoint (List UsageRecord) :=
  Endpoint.usage page.scope page.query.usageQuery

def cacheEndpoint (page : Detail) : Endpoint (List CacheRecord) :=
  Endpoint.cacheHits page.query.usageQuery

def withQuery (page : Detail) (query : DetailQuery) : Detail := { page with query }

def withGranularity (page : Detail) (granularity : Granularity) : Detail :=
  { page with query := { page.query with granularity } }

def granularityEdits (page : Detail) (granularity : Granularity) : List Edit :=
  if page.query.granularity = granularity then [] else [rememberGranularity granularity]

def setGranularity (fx : Effects m) (page : Detail) (store : LocalStore) (granularity : Granularity) :
    m (Detail × LocalStore) := do
  return (page.withGranularity granularity,
    ← store.editAll fx (page.granularityEdits granularity))

def aggregation (page : Detail) (now : Int64) : Aggregation :=
  ⟨page.query.granularity, page.offset, now⟩

/-- Shows the usage that a call gave; there is nothing to show if a bucket has no start or no label. -/
def showUsage? (page : Detail) (usage : Outcome (List UsageRecord)) (now : Int64) : Option Detail :=
  match usage with
  | .error _ => some page
  | .ok records =>
      (Dashboard.build? (page.aggregation now) page.session records).map fun (dashboard, session) =>
        { page with
          session
          view := { page.view with
            dashboard := some dashboard
            rates := dashboard.totals.rates page.query.range } }

def showCacheHits (view : DetailView) : Outcome (List CacheRecord) → DetailView
  | .ok records => { view with cacheHits := CachePoint.series records }
  | .error _ => view

def showAccount (view : DetailView) : Outcome Account → DetailView
  | .ok account => { view with account := some account }
  | .error _ => view

def notifications (answers : Answers) : List Notification :=
  Notification.ofOutcome "usage_data" answers.usage ++
    Notification.ofOutcome "token_cache_hits" answers.cacheHits ++
    Notification.ofOutcome "user_self" answers.account

def refreshed? (page : Detail) (answers : Answers) : Option Detail :=
  (page.showUsage? answers.usage answers.now).map fun shown =>
    let view := showAccount (showCacheHits shown.view answers.cacheHits) answers.account
    { shown with view := { view with notifications := notifications answers } }

def events (page : Detail) (answers : Answers) : List Log.Event :=
  let granularity := page.query.granularity.name
  let built : List Log.Event :=
    match answers.usage with
    | .ok _ => [⟨.debug, ["analytics", "series"], "Built usage dashboard", [("granularity", granularity)]⟩]
    | .error _ => []
  built ++ (notifications answers).map Notification.event ++
    [⟨.info, ["pages", "detail"], "Detail page refreshed",
      [("granularity", granularity), ("notifications", toString (notifications answers).length)]⟩]

def fetch [Url.DomainNames] (fx : Effects m) (client : Client) (page : Detail) : m Answers := do
  let usage ← client.call fx page.usageEndpoint
  let cacheHits ← client.call fx page.cacheEndpoint
  let account ← client.call fx Endpoint.account
  return ⟨usage, cacheHits, account, ← fx.now⟩

def refresh? [Url.DomainNames] (fx : Effects m) (client : Client) (page : Detail) : m (Option Detail) := do
  let answers ← page.fetch fx client
  match page.refreshed? answers with
  | none => return none
  | some shown => do
      logAll fx (page.events answers)
      return some shown

def charts (page : Detail) : Option DetailCharts :=
  page.view.dashboard.map fun dashboard =>
    { callCount :=
        Charts.callCount dashboard.callCounts dashboard.modelColors dashboard.totals.requests
      consumption :=
        Charts.consumption dashboard.consumption dashboard.modelColors dashboard.totals.quota
          page.format
      tokenCache := Charts.tokenCache page.view.cacheHits }

end Detail

end UsageBoard.Pages
