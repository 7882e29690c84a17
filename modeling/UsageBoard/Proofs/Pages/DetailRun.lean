import UsageBoard.Pages.Detail
import UsageBoard.Proofs.Usage.Colors
import UsageBoard.Proofs.Usage.Consumption

/-!
# Runs of the detail page

A run is any sequence of new queries, new granularities and refreshes, whose answers arrive in any
order.  What a program does with a page is a visit: it calls the backend, keeps a store and logs, in
surroundings that may do anything.

## Main statements

* `Detail.shows_of_run`: after a run each part of the view comes from the latest refresh whose call for it
  succeeded, and the notifications from the latest refresh alone.
* `Detail.exists_run_of_visit`: a visit is a run, with the answers that its surroundings gave it.
* `Detail.shows_of_visit`: so the page that a visit leads to shows what its refreshes gave.
-/

namespace UsageBoard.Pages

open UsageBoard.Backend (CallError Outcome)
open UsageBoard.Usage

inductive Arrival where
  | usage (outcome : Outcome (List UsageRecord))
  | cacheHits (outcome : Outcome (List CacheRecord))
  | account (outcome : Outcome Account)

structure Inbox where
  usage : Option (Outcome (List UsageRecord))
  cacheHits : Option (Outcome (List CacheRecord))
  account : Option (Outcome Account)

namespace Inbox

def empty : Inbox := ⟨none, none, none⟩

def receive (inbox : Inbox) : Arrival → Inbox
  | .usage outcome => { inbox with usage := some outcome }
  | .cacheHits outcome => { inbox with cacheHits := some outcome }
  | .account outcome => { inbox with account := some outcome }

/-- The answers of a refresh, once none is missing. -/
def answers? (inbox : Inbox) (now : Int64) : Option Answers := do
  return ⟨← inbox.usage, ← inbox.cacheHits, ← inbox.account, now⟩

end Inbox

def Answers.arrivals (answers : Answers) : List Arrival :=
  [.usage answers.usage, .cacheHits answers.cacheHits, .account answers.account]

/-- The order in which answers arrive makes no difference. -/
theorem Answers.answers?_receive (answers : Answers) {order : List Arrival}
    (complete : order.Perm answers.arrivals) :
    (order.foldl Inbox.receive Inbox.empty).answers? answers.now = some answers := by
  have swap : ∀ x ∈ answers.arrivals, ∀ y ∈ answers.arrivals, ∀ inbox : Inbox,
      (inbox.receive x).receive y = (inbox.receive y).receive x := by
    intro x hx y hy inbox
    simp only [arrivals, List.mem_cons, List.not_mem_nil, or_false] at hx hy
    rcases hx with rfl | rfl | rfl <;> rcases hy with rfl | rfl | rfl <;> rfl
  have inOrder : order.foldl Inbox.receive Inbox.empty =
      answers.arrivals.foldl Inbox.receive Inbox.empty := by
    refine complete.foldl_eq' ?_ Inbox.empty
    intro x hx y hy inbox
    exact swap x (complete.mem_iff.mp hx) y (complete.mem_iff.mp hy) inbox
  rw [inOrder]
  rfl

inductive Action where
  | setQuery (query : DetailQuery)
  | setGranularity (granularity : Granularity)
  | refresh (answers : Answers) (order : List Arrival) (complete : order.Perm answers.arrivals)

namespace Detail

/-- The page after an action; there is none if no dashboard can be built. -/
def after? (page : Detail) : Action → Option Detail
  | .setQuery query => some (page.withQuery query)
  | .setGranularity granularity => some (page.withGranularity granularity)
  | .refresh answers order _ =>
      ((order.foldl Inbox.receive Inbox.empty).answers? answers.now).bind page.refreshed?

def run? : Detail → List Action → Option Detail
  | page, [] => some page
  | page, action :: actions => (page.after? action).bind fun page => page.run? actions

end Detail

/-- A refresh: the query for which it was made, and the answers to its calls. -/
structure Refresh where
  query : DetailQuery
  answers : Answers

namespace Refresh

def aggregation (offset : Int) (r : Refresh) : Aggregation :=
  ⟨r.query.granularity, offset, r.answers.now⟩

/-- The refresh with the usage that it gave, if its call for usage succeeded. -/
def loaded? (r : Refresh) : Option (Refresh × List UsageRecord) :=
  r.answers.usage.toOption.map fun records => (r, records)

def cacheHits? (r : Refresh) : Option (List CacheRecord) := r.answers.cacheHits.toOption

def account? (r : Refresh) : Option Account := r.answers.account.toOption

def fault? {α : Type} : Outcome α → Option CallError
  | .ok _ => none
  | .error fault => some fault

def failures (r : Refresh) : List Notification :=
  [("usage_data", fault? r.answers.usage), ("token_cache_hits", fault? r.answers.cacheHits),
    ("user_self", fault? r.answers.account)].filterMap fun (operation, fault) =>
      fault.map (Notification.ofError operation)

def Aggregates (offset : Int) (r : Refresh) : Prop :=
  ∀ records, r.answers.usage = .ok records →
    (Dashboard.build? (r.aggregation offset) Palette.Session.empty records).isSome

end Refresh

/-- The refreshes of a run that begins with a query. -/
def refreshes : DetailQuery → List Action → List Refresh
  | _, [] => []
  | _, .setQuery query :: actions => refreshes query actions
  | query, .setGranularity granularity :: actions => refreshes { query with granularity } actions
  | query, .refresh answers _ _ :: actions => ⟨query, answers⟩ :: refreshes query actions

/-- What the latest refresh gives that gives anything. -/
def latest? {α : Type} (find : Refresh → Option α) (rs : List Refresh) : Option α :=
  rs.reverse.findSome? find

theorem latest?_append {α : Type} (find : Refresh → Option α) (rs : List Refresh) (r : Refresh) :
    latest? find (rs ++ [r]) = (find r).or (latest? find rs) :=
  findSome?_reverse_append find rs r

/-- The dashboard and the rates are those of the latest usage that loaded. -/
structure ShowsUsage (offset : Int) (rs : List Refresh) (dashboard : Option Dashboard)
    (rates : Option Rates) : Prop where
  unloaded : latest? Refresh.loaded? rs = none → dashboard = none ∧ rates = none
  loaded : ∀ r records, latest? Refresh.loaded? rs = some (r, records) →
    ∃ built later,
      Dashboard.build? (r.aggregation offset) Palette.Session.empty records = some (built, later) ∧
        dashboard = some built ∧ rates = built.totals.rates r.query.range

/-- A view shows what some refreshes gave: each part comes from the latest refresh whose call for it
succeeded, and the notifications are those of the last refresh. -/
structure Shows (offset : Int) (rs : List Refresh) (view : DetailView) : Prop where
  usage : ShowsUsage offset rs view.dashboard view.rates
  cacheHits : view.cacheHits = ((latest? Refresh.cacheHits? rs).map CachePoint.series).getD []
  account : view.account = latest? Refresh.account? rs
  notifications : view.notifications = (rs.getLast?.map Refresh.failures).getD []

namespace ShowsUsage

variable {offset : Int} {rs : List Refresh} {dashboard : Option Dashboard} {rates : Option Rates}

theorem append_failed (h : ShowsUsage offset rs dashboard rates) {r : Refresh}
    (failed : r.loaded? = none) : ShowsUsage offset (rs ++ [r]) dashboard rates := by
  constructor
  · intro hnone
    rw [latest?_append, failed, Option.none_or] at hnone
    exact h.unloaded hnone
  · intro s records hsome
    rw [latest?_append, failed, Option.none_or] at hsome
    exact h.loaded s records hsome

theorem append_loaded {r : Refresh} {records : List UsageRecord}
    (loaded : r.loaded? = some (r, records)) {built : Dashboard} {later : Palette.Session}
    (hbuilt : Dashboard.build? (r.aggregation offset) Palette.Session.empty records =
      some (built, later)) :
    ShowsUsage offset (rs ++ [r]) (some built) (built.totals.rates r.query.range) := by
  constructor
  · intro hnone
    rw [latest?_append, loaded, Option.some_or] at hnone
    cases hnone
  · intro s found hsome
    rw [latest?_append, loaded, Option.some_or] at hsome
    obtain ⟨rfl, rfl⟩ := Prod.mk.inj (Option.some.inj hsome)
    exact ⟨built, later, hbuilt, rfl, rfl⟩

/-- There are no rates exactly as long as no usage has loaded, or if it is that of an empty
window. -/
theorem rates_eq_none_iff (h : ShowsUsage offset rs dashboard rates) :
    rates = none ↔ ∀ r records, latest? Refresh.loaded? rs = some (r, records) →
      r.query.stop ≤ r.query.start := by
  cases hlatest : latest? Refresh.loaded? rs with
  | none => exact iff_of_true (h.unloaded hlatest).2 (by simp)
  | some found =>
      obtain ⟨r, records⟩ := found
      obtain ⟨built, later, -, -, hrates⟩ := h.loaded r records hlatest
      rw [hrates, Totals.rates, Option.map_eq_none_iff, TimeRange.minutes_eq_none_iff]
      constructor
      · intro hempty s found hsome
        obtain ⟨rfl, -⟩ := Prod.mk.inj (Option.some.inj hsome)
        exact hempty
      · intro hempty
        exact hempty r records rfl

end ShowsUsage

theorem shows_empty (offset : Int) : Shows offset [] DetailView.empty where
  usage := ⟨fun _ => ⟨rfl, rfl⟩, fun _ _ h => by cases h⟩
  cacheHits := rfl
  account := rfl
  notifications := rfl

theorem notifications_eq_failures (r : Refresh) : Detail.notifications r.answers = r.failures := by
  rcases r with ⟨_, usage, cacheHits, account, _⟩
  cases usage <;> cases cacheHits <;> cases account <;> rfl

theorem showAccount_showCacheHits (view : DetailView) (cacheHits : Outcome (List CacheRecord))
    (account : Outcome Account) :
    Detail.showAccount (Detail.showCacheHits view cacheHits) account =
      { view with
        cacheHits := (cacheHits.toOption.map CachePoint.series).getD view.cacheHits
        account := account.toOption.or view.account } := by
  cases cacheHits <;> cases account <;> rfl

structure Tracks (offset : Int) (rs : List Refresh) (page : Detail) : Prop where
  offset_eq : page.offset = offset
  plain : page.session.IsPlain
  shows : Shows offset rs page.view

namespace Tracks

variable {offset : Int} {rs : List Refresh} {page : Detail}

theorem initial (format : QuotaFormat) (offset : Int) (admin : Bool) (query : DetailQuery) :
    Tracks offset [] (Detail.initial format offset admin query) :=
  ⟨rfl, Palette.Session.isPlain_empty, shows_empty offset⟩

theorem showUsage? (h : Tracks offset rs page) (answers : Answers)
    (charted : Refresh.Aggregates offset ⟨page.query, answers⟩) :
    ∃ session dashboard rates,
      page.showUsage? answers.usage answers.now =
          some { page with session, view := { page.view with dashboard, rates } } ∧
        session.IsPlain ∧ ShowsUsage offset (rs ++ [⟨page.query, answers⟩]) dashboard rates := by
  cases hUsage : answers.usage with
  | error fault =>
      refine ⟨page.session, page.view.dashboard, page.view.rates, rfl, h.plain, ?_⟩
      exact h.shows.usage.append_failed (by simp [Refresh.loaded?, hUsage, Except.toOption])
  | ok records =>
      obtain ⟨⟨built, fresh⟩, hfresh⟩ := Option.isSome_iff_exists.mp (charted records hUsage)
      have haggregation : page.aggregation answers.now =
          Refresh.aggregation offset ⟨page.query, answers⟩ := by
        rw [Detail.aggregation, h.offset_eq]
        rfl
      have hsame := Dashboard.build?_of_isPlain h.plain (page.aggregation answers.now) records
      rw [haggregation, hfresh] at hsame
      obtain ⟨⟨found, later⟩, hlater, hfound⟩ := Option.map_eq_some_iff.mp hsame
      obtain rfl : found = built := hfound
      refine ⟨later, some found, found.totals.rates page.query.range, ?_, ?_, ?_⟩
      · rw [Detail.showUsage?, haggregation, hlater]
        rfl
      · exact Dashboard.isPlain_of_build? h.plain hlater
      · exact ShowsUsage.append_loaded (by simp [Refresh.loaded?, hUsage, Except.toOption]) hfresh

theorem refreshed? (h : Tracks offset rs page) (answers : Answers)
    (charted : Refresh.Aggregates offset ⟨page.query, answers⟩) :
    ∃ later, page.refreshed? answers = some later ∧ later.query = page.query ∧
      Tracks offset (rs ++ [⟨page.query, answers⟩]) later := by
  obtain ⟨session, dashboard, rates, hshown, hplain, husage⟩ := h.showUsage? answers charted
  rw [Detail.refreshed?, hshown, Option.map_some]
  refine ⟨_, rfl, rfl, h.offset_eq, hplain, ?_⟩
  rw [showAccount_showCacheHits]
  constructor
  · exact husage
  · simp only [latest?_append, Refresh.cacheHits?, h.shows.cacheHits]
    cases answers.cacheHits <;> rfl
  · simp only [latest?_append, Refresh.account?, h.shows.account]
  · simp [notifications_eq_failures ⟨page.query, answers⟩]

theorem withQuery (h : Tracks offset rs page) (query : DetailQuery) :
    Tracks offset rs (page.withQuery query) :=
  ⟨h.offset_eq, h.plain, h.shows⟩

theorem withGranularity (h : Tracks offset rs page) (granularity : Granularity) :
    Tracks offset rs (page.withGranularity granularity) :=
  ⟨h.offset_eq, h.plain, h.shows⟩

theorem run? (h : Tracks offset rs page) (actions : List Action)
    (charted : ∀ r ∈ refreshes page.query actions, r.Aggregates offset) :
    ∃ later, page.run? actions = some later ∧
      Tracks offset (rs ++ refreshes page.query actions) later := by
  induction actions generalizing page rs with
  | nil => exact ⟨page, rfl, by simpa [refreshes] using h⟩
  | cons action actions ih =>
      cases action with
      | setQuery query => exact ih (h.withQuery query) charted
      | setGranularity granularity => exact ih (h.withGranularity granularity) charted
      | refresh answers order complete =>
          obtain ⟨first, others⟩ := List.forall_mem_cons.mp charted
          obtain ⟨next, hnext, hquery, htracks⟩ := h.refreshed? answers first
          obtain ⟨later, hlater, hlast⟩ := ih htracks (hquery ▸ others)
          refine ⟨later, ?_, ?_⟩
          · rw [Detail.run?, Detail.after?, answers.answers?_receive complete, Option.bind_some, hnext]
            exact hlater
          · rw [hquery] at hlast
            simpa [refreshes] using hlast

end Tracks

/-- After any run the page shows what its refreshes gave; other actions leave the view alone. -/
theorem Detail.shows_of_run (format : QuotaFormat) (offset : Int) (admin : Bool)
    (query : DetailQuery) (actions : List Action)
    (charted : ∀ r ∈ refreshes query actions, r.Aggregates offset) :
    ∃ page, (Detail.initial format offset admin query).run? actions = some page ∧
      Shows offset (refreshes query actions) page.view ∧
      (page.view.rates = none ↔
        ∀ r records, latest? Refresh.loaded? (refreshes query actions) = some (r, records) →
          r.query.stop ≤ r.query.start) ∧
      (∀ next, (page.withQuery next).view = page.view) ∧
      ∀ granularity, (page.withGranularity granularity).view = page.view := by
  obtain ⟨page, hrun, tracked⟩ := (Tracks.initial format offset admin query).run? actions charted
  exact ⟨page, hrun, tracked.shows, tracked.shows.usage.rates_eq_none_iff, fun _ => rfl, fun _ => rfl⟩

/-- A refresh without cache statistics, a new granularity, and one that gives nothing else. -/
theorem Detail.shows_of_run_with_failures :
    let query : DetailQuery := ⟨0, 3600, .hour, "", ""⟩
    let first : Answers := ⟨.ok [], .error (.status 500), .ok Account.empty, 7200⟩
    let second : Answers :=
      ⟨.error (.refused "busy"), .ok [⟨"01-01", 80, 20⟩], .error (.status 500), 10800⟩
    let actions : List Action :=
      [.refresh first [.account first.account, .usage first.usage, .cacheHits first.cacheHits]
          ((List.Perm.swap _ _ _).trans ((List.Perm.swap _ _ _).cons _)),
        .setGranularity .day, .refresh second second.arrivals (List.Perm.refl _)]
    (∀ r ∈ refreshes query actions, r.Aggregates 0) ∧
      ∃ page, (Detail.initial QuotaFormat.default 0 false query).run? actions = some page ∧
        Shows 0 (refreshes query actions) page.view ∧
        (page.view.rates = none ↔
          ∀ r records, latest? Refresh.loaded? (refreshes query actions) = some (r, records) →
            r.query.stop ≤ r.query.start) ∧
        (∀ next, (page.withQuery next).view = page.view) ∧
        ∀ granularity, (page.withGranularity granularity).view = page.view := by
  intro query first second actions
  have charted : ∀ r ∈ refreshes query actions, r.Aggregates 0 := by
    intro r hr records loaded
    simp only [actions, refreshes, List.mem_cons, List.not_mem_nil, or_false] at hr
    rcases hr with rfl | rfl
    · cases loaded
      obtain ⟨dashboard, later, built⟩ :=
        Dashboard.exists_build? (Refresh.aggregation 0 ⟨query, first⟩) Palette.Session.empty [] (by decide)
          (by decide)
      rw [built]
      rfl
    · cases loaded
  exact ⟨charted, Detail.shows_of_run QuotaFormat.default 0 false query actions charted⟩

inductive Command where
  | setQuery (query : DetailQuery)
  | setGranularity (granularity : Granularity)
  | refresh

def Action.command : Action → Command
  | .setQuery query => .setQuery query
  | .setGranularity granularity => .setGranularity granularity
  | .refresh _ _ _ => .refresh

namespace Detail

variable [Url.DomainNames] {σ : Type} (fx : Effects (StateM σ)) (client : Backend.Client)

def visit : Detail → LocalStore → List Command → StateM σ (Option Detail)
  | page, _, [] => return some page
  | page, store, .setQuery query :: commands => visit (page.withQuery query) store commands
  | page, store, .setGranularity granularity :: commands => do
      let (page, store) ← page.setGranularity fx store granularity
      visit page store commands
  | page, store, .refresh :: commands => do
      match ← page.refresh? fx client with
      | none => return none
      | some page => visit page store commands

theorem refresh?_fst (page : Detail) (s : σ) :
    ((page.refresh? fx client).run s).1 = page.refreshed? ((page.fetch fx client).run s).1 := by
  simp only [refresh?, StateT.run_bind]
  generalize (page.fetch fx client).run s = fetched
  change (StateT.run (match page.refreshed? fetched.1 with
    | none => pure none
    | some shown => do
        logAll fx (page.events fetched.1)
        pure (some shown)) fetched.2).1 = _
  cases page.refreshed? fetched.1 <;> rfl

/-- Whatever the surroundings answer, a visit is a run. -/
theorem exists_run_of_visit (page : Detail) (store : LocalStore) (commands : List Command) (s : σ) :
    ∃ actions : List Action, actions.map Action.command = commands ∧
      ((visit fx client page store commands).run s).1 = page.run? actions := by
  induction commands generalizing page store s with
  | nil => exact ⟨[], rfl, rfl⟩
  | cons command commands ih =>
      cases command with
      | setQuery query =>
          obtain ⟨actions, hcommands, hrun⟩ := ih (page.withQuery query) store s
          exact ⟨.setQuery query :: actions, congrArg _ hcommands, hrun⟩
      | setGranularity granularity =>
          let kept := (store.editAll fx (page.granularityEdits granularity)).run s
          obtain ⟨actions, hcommands, hrun⟩ := ih (page.withGranularity granularity) kept.1 kept.2
          exact ⟨.setGranularity granularity :: actions, congrArg _ hcommands, hrun⟩
      | refresh =>
          let answers := ((page.fetch fx client).run s).1
          have hshown := refresh?_fst fx client page s
          have hstep : page.after? (.refresh answers answers.arrivals (List.Perm.refl _)) =
              ((page.refresh? fx client).run s).1 := by
            rw [hshown, after?, answers.answers?_receive (List.Perm.refl _)]
            rfl
          simp only [visit, StateT.run_bind]
          generalize (page.refresh? fx client).run s = shown at hstep
          obtain ⟨_ | next, s'⟩ := shown
          · -- nothing is done after a failure, so any actions stand for the other commands
            obtain ⟨actions, hcommands, -⟩ := ih page store s'
            refine ⟨.refresh answers answers.arrivals (List.Perm.refl _) :: actions,
              congrArg _ hcommands, ?_⟩
            rw [run?, hstep]
            rfl
          · obtain ⟨actions, hcommands, hrun⟩ := ih next store s'
            refine ⟨.refresh answers answers.arrivals (List.Perm.refl _) :: actions,
              congrArg _ hcommands, ?_⟩
            rw [run?, hstep]
            exact hrun

theorem shows_of_visit (format : QuotaFormat) (offset : Int) (admin : Bool) (query : DetailQuery)
    (store : LocalStore) (commands : List Command) (s : σ) :
    ∃ actions : List Action, actions.map Action.command = commands ∧
      ((∀ r ∈ refreshes query actions, r.Aggregates offset) →
        ∃ page, ((visit fx client (Detail.initial format offset admin query) store commands).run s).1 =
            some page ∧ Shows offset (refreshes query actions) page.view) := by
  obtain ⟨actions, hcommands, hrun⟩ :=
    exists_run_of_visit fx client (Detail.initial format offset admin query) store commands s
  refine ⟨actions, hcommands, fun charted => ?_⟩
  obtain ⟨page, hpage, tracked⟩ := (Tracks.initial format offset admin query).run? actions charted
  exact ⟨page, hrun.trans hpage, tracked.shows⟩

end Detail

end UsageBoard.Pages
