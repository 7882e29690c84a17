import UsageBoard.Proofs.Pages.DetailRun
import UsageBoard.Proofs.Pages.Remembered
import UsageBoard.Proofs.Store.Preferences

/-!
# Granularities that are picked

A page tells the store about a granularity that is picked only if its own query has another one.  The
store is not asked, so what it remembers afterwards depends on how the page came to its granularity.

## Main statements

* `Detail.granularity_of_run?`: a page has the granularity that it was given last.
* `Detail.run_setGranularity`: what a pick does to the page and to the store.
* `Detail.remembers_picked_iff`: after any run a pick is remembered just if it is another granularity
  than the one last given, or if the store remembers it already.
-/

namespace UsageBoard.Pages

open UsageBoard.Backend (Outcome)
open UsageBoard.Usage

/-- The granularity that an action gives to the page. -/
def Action.granularity? : Action → Option Granularity
  | .setQuery query => some query.granularity
  | .setGranularity granularity => some granularity
  | .refresh _ _ _ => none

namespace Detail

variable {page later : Detail}

/-! ## The granularity of a page -/

theorem query_of_showUsage? {usage : Outcome (List UsageRecord)} {now : Int64}
    (shown : page.showUsage? usage now = some later) : later.query = page.query := by
  cases usage with
  | error fault =>
      obtain rfl : page = later := Option.some.inj shown
      rfl
  | ok records =>
      obtain ⟨built, -, rfl⟩ := Option.map_eq_some_iff.mp shown
      rfl

theorem query_of_refreshed? {answers : Answers} (refreshed : page.refreshed? answers = some later) :
    later.query = page.query := by
  obtain ⟨shown, hshown, rfl⟩ := Option.map_eq_some_iff.mp refreshed
  have same : shown.query = page.query := query_of_showUsage? hshown
  exact same

theorem granularity_of_after? {action : Action} (reached : page.after? action = some later) :
    later.query.granularity = action.granularity?.getD page.query.granularity := by
  cases action with
  | setQuery query =>
      obtain rfl : page.withQuery query = later := Option.some.inj reached
      rfl
  | setGranularity granularity =>
      obtain rfl : page.withGranularity granularity = later := Option.some.inj reached
      rfl
  | refresh answers order complete =>
      rw [after?, answers.answers?_receive complete, Option.bind_some] at reached
      rw [query_of_refreshed? reached]
      rfl

theorem granularity_of_run? {actions : List Action} (reached : page.run? actions = some later) :
    later.query.granularity =
      (latestOf? Action.granularity? actions).getD page.query.granularity := by
  induction actions generalizing page with
  | nil =>
      obtain rfl : page = later := Option.some.inj reached
      rfl
  | cons action actions ih =>
      obtain ⟨next, first, others⟩ := Option.bind_eq_some_iff.mp reached
      rw [ih others, granularity_of_after? first, latestOf?_cons, Remembers.getD_or]

/-! ## What a pick leaves -/

variable {σ : Type} (fx : Effects (StateM σ)) (store : LocalStore) (granularity : Granularity) (s : σ)

/-- The page has the granularity that was picked, and the store is told of it if the page had another
one. -/
theorem run_setGranularity (page : Detail) :
    let picked := (page.setGranularity fx store granularity).run s
    picked.1.1 = page.withGranularity granularity ∧
      (page.query.granularity = granularity → picked = ((page, store), s)) ∧
      (page.query.granularity ≠ granularity →
        ∀ fallback, picked.1.2.entries.granularity fallback = granularity) := by
  intro picked
  refine ⟨rfl, ?_, ?_⟩
  · intro same
    have unedited : page.granularityEdits granularity = [] := if_pos same
    have unchanged : page.withGranularity granularity = page := by rw [withGranularity, ← same]
    simp only [picked, setGranularity, run_bind_eq, run_pure_eq, unedited, unchanged]
    rfl
  · intro other fallback
    have edited : page.granularityEdits granularity =
        ((some granularity).map rememberGranularity).toList := if_neg other
    simp only [picked, setGranularity, run_bind_eq, run_pure_eq, LocalStore.fst_run_editAll, edited,
      Store.Entries.granularity_applyAll, Option.getD_some]

/-- After any sequence of queries, granularities and refreshes a pick gives its granularity to the page.
The store then remembers it, whatever the fallback, just if it is not the granularity that the page was
given last, by a query or on its own, or if the store remembered it before.  A pick of the granularity that
the page was given last does nothing at all. -/
theorem remembers_picked_iff (format : QuotaFormat) (offset : Int) (admin : Bool) (query : DetailQuery)
    (actions : List Action) (reached : (initial format offset admin query).run? actions = some page) :
    let last := (latestOf? Action.granularity? actions).getD query.granularity
    let picked := (page.setGranularity fx store granularity).run s
    picked.1.1.query = { page.query with granularity } ∧
      ((∀ fallback t, ((picked.1.2.granularity fx fallback).run t).1 = granularity) ↔
        last ≠ granularity ∨
          ∀ fallback t, ((store.granularity fx fallback).run t).1 = granularity) ∧
      (last = granularity → picked = ((page, store), s)) := by
  intro last picked
  obtain ⟨given, unchanged, told⟩ := run_setGranularity fx store granularity s page
  have current : page.query.granularity = last := granularity_of_run? reached
  rw [current] at unchanged told
  refine ⟨by rw [given]; rfl, ?_, unchanged⟩
  simp only [LocalStore.fst_run_granularity]
  by_cases same : last = granularity
  · -- the page has the granularity already, so all depends on what the store remembered before
    have kept : picked.1.2 = store := congrArg (fun after => after.1.2) (unchanged same)
    rw [kept]
    exact ⟨.inr, fun known => known.resolve_left (not_not_intro same)⟩
  · exact iff_of_true (fun fallback _ => told same fallback) (.inl same)

/-- Another granularity than the one last given is picked after a refresh without any answer. -/
theorem remembers_picked_of_other :
    let query : DetailQuery := ⟨0, 3600, .week, "", ""⟩
    let silence : Answers :=
      ⟨.error (.unreachable "a"), .error (.unreachable "b"), .error (.unreachable "c"), 7200⟩
    let actions : List Action :=
      [.setGranularity .hour, .refresh silence silence.arrivals (List.Perm.refl _)]
    let store : LocalStore := ⟨none, Store.Entries.empty.apply (rememberGranularity .week)⟩
    let disk : Store.Disk := ⟨fun _ => .error .notFound, []⟩
    ∃ page, (initial QuotaFormat.default 0 false query).run? actions = some page ∧
      let picked := (page.setGranularity Store.Disk.effects store .day).run disk
      picked.1.1.query = { query with granularity := .day } ∧
        ∀ fallback t, ((picked.1.2.granularity Store.Disk.effects fallback).run t).1 = .day := by
  intro query silence actions store disk
  have reached : (initial QuotaFormat.default 0 false query).run? actions = some _ := rfl
  obtain ⟨given, remembered, -⟩ := remembers_picked_iff Store.Disk.effects store .day disk
    QuotaFormat.default 0 false query actions reached
  exact ⟨_, reached, given, remembered.mpr (.inl (by decide))⟩

/-- A query brings the page to the granularity that is picked then, and the store keeps the old one. -/
theorem forgets_picked_of_query :
    let query : DetailQuery := ⟨0, 3600, .week, "", ""⟩
    let actions : List Action := [.setQuery { query with granularity := .day }]
    let store : LocalStore := ⟨none, Store.Entries.empty.apply (rememberGranularity .week)⟩
    let disk : Store.Disk := ⟨fun _ => .error .notFound, []⟩
    ∃ page, (initial QuotaFormat.default 0 false query).run? actions = some page ∧
      let picked := (page.setGranularity Store.Disk.effects store .day).run disk
      picked.1.1.query.granularity = .day ∧
        ∀ fallback t, ((picked.1.2.granularity Store.Disk.effects fallback).run t).1 = .week := by
  intro query actions store disk
  have reached : (initial QuotaFormat.default 0 false query).run? actions = some _ := rfl
  refine ⟨_, reached, rfl, ?_⟩
  intro fallback t
  obtain ⟨-, unchanged, -⟩ := run_setGranularity Store.Disk.effects store .day disk
    ((initial QuotaFormat.default 0 false query).withQuery { query with granularity := .day })
  rw [LocalStore.fst_run_granularity]
  have kept := congrArg (fun after => after.1.2.entries.granularity fallback) (unchanged rfl)
  exact kept.trans (Store.Entries.granularity_applyAll Store.Entries.empty (some .week) fallback)

end Detail

end UsageBoard.Pages
