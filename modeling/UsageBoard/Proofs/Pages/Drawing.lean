import UsageBoard.Proofs.Pages.DetailRun
import UsageBoard.Proofs.Usage.Reordering

/-!
# The charts of the detail page

The page draws its charts from the dashboard that it shows, which may stem from an earlier refresh.
Each row has a value in its chart, and each model a colour.

## Main statements

* `Json.member?_sorted`: what a member holds once the members are in order.
* `ShowsBuilt.after?`: no action makes the page show a dashboard that was not built from records.
* `Detail.charts_show_dashboard`: what the charts hold after any run.
-/

namespace UsageBoard

namespace Json

def members? : Json → Option (List (String × Json))
  | .object members => some members
  | _ => none

def items? : Json → Option (List Json)
  | .list items => some items
  | _ => none

/-- The value of a member; of members with one key the first counts. -/
def member? (value : Json) (key : String) : Option Json :=
  value.members?.bind fun members => members.lookup key

theorem lookup_insertMember (member : String × Json) (members : List (String × Json)) (key : String) :
    (insertMember member members).lookup key =
      if key == member.1 then some member.2 else members.lookup key := by
  induction members with
  | nil => exact lookup_cons_eq_ite key member []
  | cons other rest ih =>
      rw [insertMember]
      split
      · rename_i before
        have apart : other.1 ≠ member.1 := String.ne_of_lt before
        rw [lookup_cons_eq_ite, ih, lookup_cons_eq_ite]
        rcases eq_or_ne key other.1 with rfl | hne
        · simp [apart]
        · simp [hne]
      · exact lookup_cons_eq_ite key member (other :: rest)

theorem insertMember_perm (member : String × Json) (members : List (String × Json)) :
    (insertMember member members).Perm (member :: members) := by
  induction members with
  | nil => exact List.Perm.refl _
  | cons other rest ih =>
      rw [insertMember]
      split
      · exact (ih.cons other).trans (List.Perm.swap member other rest)
      · exact List.Perm.refl _

theorem lookup_sortedMembers (members : List (String × Json)) (key : String) :
    (sortedMembers members).lookup key = (members.lookup key).map sorted := by
  induction members with
  | nil => rfl
  | cons member members ih =>
      rw [sortedMembers, lookup_insertMember, ih, lookup_cons_eq_ite]
      split <;> rfl

theorem sortedMembers_perm (members : List (String × Json)) :
    (sortedMembers members).Perm (members.map fun (key, value) => (key, sorted value)) := by
  induction members with
  | nil => exact List.Perm.refl _
  | cons member members ih => exact (insertMember_perm _ _).trans (ih.cons _)

theorem sortedItems_eq_map (items : List Json) : sortedItems items = items.map sorted := by
  induction items with
  | nil => rfl
  | cons item items ih => rw [sortedItems, ih, List.map_cons]

theorem member?_sorted (value : Json) (key : String) :
    value.sorted.member? key = (value.member? key).map sorted := by
  cases value with
  | object members => exact lookup_sortedMembers members key
  | _ => rfl

theorem items?_sorted (value : Json) : value.sorted.items? = value.items?.map (List.map sorted) := by
  cases value with
  | list items => exact congrArg some (sortedItems_eq_map items)
  | _ => rfl

end Json

namespace Charts

open UsageBoard.Usage

/-- The values of a chart that has one series. -/
def values? (chart : Json) : Option (List Json) :=
  (chart.member? "data").bind fun data =>
    match data.items? with
    | some [series] => (series.member? "values").bind Json.items?
    | _ => none

/-- The colours that a chart specifies, by name. -/
def colors? (chart : Json) : Option (List (String × Json)) :=
  (chart.member? "color").bind fun color => (color.member? "specified").bind Json.members?

theorem values?_sorted {chart : Json} {id : String} {values : List Json}
    (drawn : chart.member? "data" = some (series id values)) :
    values? chart.sorted = some (values.map Json.sorted) := by
  have data : chart.sorted.member? "data" = some (series id values).sorted := by
    rw [Json.member?_sorted, drawn]
    rfl
  have inner : (Json.object [("id", .text id), ("values", .list values)]).sorted.member? "values" =
      some (Json.list values).sorted := by
    rw [Json.member?_sorted]
    rfl
  have items : (Json.list values).sorted.items? = some (values.map Json.sorted) := by
    rw [Json.items?_sorted]
    rfl
  rw [values?, data, Option.bind_some, series, Json.items?_sorted]
  change ((Json.object [("id", .text id), ("values", .list values)]).sorted.member? "values").bind
    Json.items? = _
  rw [inner, Option.bind_some, items]

/-- A chart with one series has a value for each row that is drawn. -/
theorem exists_values?_sorted {α : Type} {Shows : Json → α → Prop} {draw : α → Json}
    (shows : ∀ row, Shows (draw row).sorted row) {chart : Json} {id : String} {rows : List α}
    (drawn : chart.member? "data" = some (series id (rows.map draw))) :
    ∃ values, values? chart.sorted = some values ∧ List.Forall₂ Shows values rows := by
  refine ⟨_, values?_sorted drawn, ?_⟩
  rw [List.map_map, List.forall₂_map_left_iff, List.forall₂_same]
  intro row _
  exact shows row

theorem colors?_sorted {chart : Json} {colors : List (String × String)}
    (drawn : chart.member? "color" = some (specified (colorsJson colors))) :
    colors? chart.sorted =
      some (Json.sortedMembers (colors.map fun (model, color) => (model, .text color))) := by
  have color : chart.sorted.member? "color" = some (specified (colorsJson colors)).sorted := by
    rw [Json.member?_sorted, drawn]
    rfl
  have inner : (specified (colorsJson colors)).sorted.member? "specified" =
      some (colorsJson colors).sorted := by
    rw [Json.member?_sorted]
    rfl
  rw [colors?, color, Option.bind_some, inner]
  rfl

/-- A value of the call-count chart is for a row. -/
structure ShowsCalls (value : Json) (c : CallCount) : Prop where
  model : value.member? "type" = some (.text c.model)
  calls : value.member? "value" = some (.integer c.value.toInt)

/-- A value of the consumption chart is for a row. -/
structure ShowsConsumption (format : QuotaFormat) (value : Json) (row : Consumption) : Prop where
  time : value.member? "Time" = some (.text row.time)
  model : value.member? "Model" = some (.text row.model)
  usage : value.member? "Usage" = some (.real (plotted format row.usage))

/-- A value of the token-cache chart is for a row. -/
structure ShowsCache (value : Json) (p : CachePoint) : Prop where
  time : value.member? "Time" = some (.text p.time)
  kind : value.member? "Type" = some (.text p.kind)
  tokens : value.member? "Value" = some (.integer p.value.toInt)

theorem exists_values?_callCount (counts : List CallCount) (colors : List (String × String))
    (total : Int64) :
    ∃ values, values? (callCount counts colors total) = some values ∧
      List.Forall₂ ShowsCalls values counts := by
  refine exists_values?_sorted ?_ rfl
  intro c
  constructor <;> rw [Json.member?_sorted] <;> rfl

theorem exists_values?_consumption (rows : List Consumption) (colors : List (String × String))
    (total : Float) (format : QuotaFormat) :
    ∃ values, values? (consumption rows colors total format) = some values ∧
      List.Forall₂ (ShowsConsumption format) values rows := by
  refine exists_values?_sorted ?_ rfl
  intro row
  constructor <;> rw [Json.member?_sorted] <;> rfl

theorem exists_values?_tokenCache (points : List CachePoint) :
    ∃ values, values? (tokenCache points) = some values ∧ List.Forall₂ ShowsCache values points := by
  refine exists_values?_sorted ?_ rfl
  intro p
  constructor <;> rw [Json.member?_sorted] <;> rfl

end Charts

namespace Usage

variable {a : Aggregation} {session later : Palette.Session} {records : List UsageRecord}
  {dashboard : Dashboard}

theorem Dashboard.Shows.map_fst_modelColors_perm {tally : Tally}
    (shown : dashboard.Shows a session tally later) :
    (dashboard.modelColors.map Prod.fst).Perm tally.models := by
  rw [shown.modelColors_eq]
  refine ((List.mergeSort_perm _ _).map Prod.fst).trans (List.Perm.of_eq ?_)
  rw [List.map_map]
  exact List.map_id _

/-- Each of some names is that of a model with calls, and of a row of each charted bucket, and no other
name is. -/
structure Dashboard.IsAbout (a : Aggregation) (records : List UsageRecord) (dashboard : Dashboard)
    (names : List String) : Prop where
  nodup : names.Nodup
  mem_iff : ∀ name, name ∈ names ↔ name ∈ dashboard.callCounts.map CallCount.model
  rows : ∃ (models : List String) (starts : List Int64) (latest : Int64) (keys : List (Int64 × String)),
    a.buckets? (a.present records) = some starts ∧ IsGreatest {t | t ∈ starts} latest ∧
    a.Crosses (a.ordered records) models (a.charted starts.toFinset latest) keys dashboard.consumption ∧
    ∀ time ∈ a.charted starts.toFinset latest, ∀ name, (time, name) ∈ keys ↔ name ∈ names

theorem Dashboard.isAbout_of_build? (built : Dashboard.build? a session records = some (dashboard, later))
    {names : List String} (perm : names.Perm (dashboard.modelColors.map Prod.fst)) :
    dashboard.IsAbout a records names := by
  obtain ⟨tally, known, shown⟩ := exists_tally_of_build? built
  have models := perm.trans shown.map_fst_modelColors_perm
  refine ⟨models.nodup_iff.mpr known.models.nodup, ?_, ?_⟩
  · intro name
    rw [models.mem_iff, known.models.mem_iff, (callCounts_of_build? built).mem_iff]
  · obtain ⟨starts, latest, bucketed, greatest, last, buckets⟩ := known.exists_starts_present
    have crossing := a.crosses_of_consumption? known last shown.consumption
    rw [buckets] at crossing
    refine ⟨_, starts, latest, _, bucketed, greatest, crossing, ?_⟩
    intro time htime name
    rw [crossing.mem_iff, models.mem_iff]
    exact and_iff_right htime

end Usage

namespace Pages

open UsageBoard.Usage

/-- Charts that are drawn from a dashboard and from cached tokens, and specify some colours. -/
structure DrawnFrom (format : QuotaFormat) (dashboard : Dashboard) (points : List CachePoint)
    (colors : List (String × Json)) (charts : DetailCharts) : Prop where
  callCounts : ∃ values, Charts.values? charts.callCount = some values ∧
    List.Forall₂ Charts.ShowsCalls values dashboard.callCounts
  consumption : ∃ values, Charts.values? charts.consumption = some values ∧
    List.Forall₂ (Charts.ShowsConsumption format) values dashboard.consumption
  tokenCache : ∃ values, Charts.values? charts.tokenCache = some values ∧
    List.Forall₂ Charts.ShowsCache values points
  callColors : Charts.colors? charts.callCount = some colors
  consumptionColors : Charts.colors? charts.consumption = some colors
  perm : colors.Perm (dashboard.modelColors.map fun (model, color) => (model, .text color))

theorem Detail.exists_drawnFrom {page : Detail} {charts : DetailCharts}
    (drawn : page.charts = some charts) :
    ∃ dashboard colors, page.view.dashboard = some dashboard ∧
      DrawnFrom page.format dashboard page.view.cacheHits colors charts := by
  obtain ⟨dashboard, shown, rfl⟩ := Option.map_eq_some_iff.mp drawn
  refine ⟨dashboard, _, shown, ?_, ?_, ?_, Charts.colors?_sorted rfl, Charts.colors?_sorted rfl, ?_⟩
  · exact Charts.exists_values?_callCount _ _ _
  · exact Charts.exists_values?_consumption _ _ _ _
  · exact Charts.exists_values?_tokenCache _
  · refine (Json.sortedMembers_perm _).trans (List.Perm.of_eq ?_)
    rw [List.map_map]
    rfl

/-- The dashboard that is shown, if there is one, was built for the same offset. -/
def ShowsBuilt (page : Detail) : Prop :=
  ∀ dashboard, page.view.dashboard = some dashboard → ∃ a session records later,
    a.offset = page.offset ∧ Dashboard.build? a session records = some (dashboard, later)

namespace ShowsBuilt

variable {page next : Detail}

theorem showUsage? (h : ShowsBuilt page) {usage : Backend.Outcome (List UsageRecord)} {now : Int64}
    (shown : page.showUsage? usage now = some next) : ShowsBuilt next := by
  cases usage with
  | error fault =>
      obtain rfl := Option.some.inj shown
      exact h
  | ok records =>
      obtain ⟨⟨built, later⟩, hbuilt, rfl⟩ := Option.map_eq_some_iff.mp shown
      intro dashboard hdashboard
      obtain rfl := Option.some.inj hdashboard
      exact ⟨page.aggregation now, page.session, records, later, rfl, hbuilt⟩

theorem refreshed? (h : ShowsBuilt page) {answers : Answers}
    (shown : page.refreshed? answers = some next) : ShowsBuilt next := by
  obtain ⟨between, hbetween, rfl⟩ := Option.map_eq_some_iff.mp shown
  have kept := h.showUsage? hbetween
  rw [showAccount_showCacheHits]
  exact kept

theorem after? (h : ShowsBuilt page) {action : Action} (done : page.after? action = some next) :
    ShowsBuilt next := by
  cases action with
  | setQuery query =>
      obtain rfl := Option.some.inj done
      exact h
  | setGranularity granularity =>
      obtain rfl := Option.some.inj done
      exact h
  | refresh answers order complete =>
      rw [Detail.after?, answers.answers?_receive complete, Option.bind_some] at done
      exact h.refreshed? done

theorem run? (h : ShowsBuilt page) {actions : List Action} (done : page.run? actions = some next) :
    ShowsBuilt next := by
  induction actions generalizing page with
  | nil =>
      obtain rfl := Option.some.inj done
      exact h
  | cons action actions ih =>
      obtain ⟨between, hbetween, hrest⟩ := Option.bind_eq_some_iff.mp done
      exact ih (h.after? hbetween) hrest

end ShowsBuilt

/-- Whenever the page has charts, they have a value for each row of the dashboard that it shows and for
each of the cached tokens.  Both charts of models specify one colour for each model whose calls are
counted and no other, and these are the models of the rows of every charted bucket. -/
theorem Detail.charts_show_dashboard (format : QuotaFormat) (offset : Int) (admin : Bool)
    (query : DetailQuery) (actions : List Action) (page : Detail) (charts : DetailCharts)
    (reached : (Detail.initial format offset admin query).run? actions = some page)
    (drawn : page.charts = some charts) :
    ∃ dashboard colors a session records later,
      page.view.dashboard = some dashboard ∧
      a.offset = page.offset ∧ Dashboard.build? a session records = some (dashboard, later) ∧
      DrawnFrom page.format dashboard page.view.cacheHits colors charts ∧
      dashboard.IsAbout a records (colors.map Prod.fst) := by
  have start : ShowsBuilt (Detail.initial format offset admin query) := nofun
  obtain ⟨dashboard, colors, shown, fromDashboard⟩ := Detail.exists_drawnFrom drawn
  obtain ⟨a, session, records, later, sameOffset, built⟩ := start.run? reached dashboard shown
  refine ⟨dashboard, colors, a, session, records, later, shown, sameOffset, built, fromDashboard, ?_⟩
  have names : (colors.map Prod.fst).Perm (dashboard.modelColors.map Prod.fst) := by
    refine (fromDashboard.perm.map Prod.fst).trans (List.Perm.of_eq ?_)
    rw [List.map_map]
    rfl
  exact Dashboard.isAbout_of_build? built names

/-- The second refresh gives no usage, so the charts are still those of the two models of the first one,
next to the cached tokens of the second. -/
theorem Detail.charts_show_dashboard_of_stale :
    let query : DetailQuery := ⟨0, 10800, .hour, "", ""⟩
    let records : List UsageRecord :=
      [⟨none, none, none, "b", 7300, 2, 0.5, 9⟩, ⟨none, none, none, "a", 3700, 1, 1.0, 8⟩]
    let first : Answers := ⟨.ok records, .error (.status 500), .ok Account.empty, 7200⟩
    let second : Answers :=
      ⟨.error (.status 500), .ok [⟨"01-01", 80, 20⟩], .ok Account.empty, 10800⟩
    let actions : List Action :=
      [.refresh first first.arrivals (List.Perm.refl _), .setGranularity .week,
        .refresh second second.arrivals (List.Perm.refl _)]
    ∃ page charts, (Detail.initial QuotaFormat.default 0 false query).run? actions = some page ∧
      page.charts = some charts ∧
      page.view.cacheHits = CachePoint.series [⟨"01-01", 80, 20⟩] ∧
      ∃ dashboard colors a session records later,
        page.view.dashboard = some dashboard ∧
        a.offset = page.offset ∧ Dashboard.build? a session records = some (dashboard, later) ∧
        DrawnFrom page.format dashboard page.view.cacheHits colors charts ∧
        dashboard.IsAbout a records (colors.map Prod.fst) := by
  intro query records first second actions
  have start : Tracks 0 [] (Detail.initial QuotaFormat.default 0 false query) :=
    ⟨rfl, Palette.Session.isPlain_empty, shows_empty 0⟩
  have charted : ∀ r ∈ refreshes query actions, r.Aggregates 0 := by
    intro r hr found loaded
    rcases List.mem_cons.mp hr with rfl | hr
    · cases loaded
      obtain ⟨dashboard, later, built⟩ :=
        Dashboard.exists_build? (Refresh.aggregation 0 ⟨query, first⟩) Palette.Session.empty records
          (by decide) (by decide)
      rw [built]
      rfl
    · obtain rfl := List.mem_singleton.mp hr
      cases loaded
  obtain ⟨page, reached, tracked⟩ := start.run? actions charted
  obtain ⟨dashboard, later, -, shown, -⟩ := tracked.shows.usage.loaded ⟨query, first⟩ records rfl
  have drawn : ∃ charts, page.charts = some charts := by
    rw [Detail.charts, shown]
    exact ⟨_, rfl⟩
  obtain ⟨charts, drawn⟩ := drawn
  exact ⟨page, charts, reached, drawn, tracked.shows.cacheHits,
    Detail.charts_show_dashboard _ _ _ _ _ page charts reached drawn⟩

end Pages

end UsageBoard
