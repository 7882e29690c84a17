import UsageBoard.Proofs.Usage.Labels
import UsageBoard.Proofs.Usage.Reordering

/-!
# Colours over a session

A session is used again and again: colours are assigned, looked up, and looked up for the models of a
dashboard.  Whatever its past, it gives a name the preferred colour, or else the one assigned last, or
else the one that the name has anywhere.

## Main statements

* `SessionStep.Follows.step`: what one step leaves of what the past tells about a session.
* `colors_over_session`: the colours given at any moment of a session, and its size.
-/

namespace UsageBoard

namespace Palette.Session

variable {session : Session}

def names (session : Session) : List String := session.assigned.map Prod.fst

theorem mem_names {name : String} : name ∈ session.names ↔ (session.color? name).isSome := by
  rw [names, color?, List.lookup_isSome_iff, List.mem_map]
  constructor
  · rintro ⟨entry, hentry, rfl⟩
    exact ⟨entry, hentry, by simp⟩
  · rintro ⟨entry, hentry, hname⟩
    exact ⟨entry, hentry, (by simpa using hname : name = entry.1).symm⟩

theorem names_assign (session : Session) (model color : String) :
    (session.assign model color).names = model :: session.names.filter (· != model) := by
  simp only [names, assign, List.map_cons, List.filter_map]
  rfl

theorem nodup_names_assign (distinct : session.names.Nodup) (model color : String) :
    (session.assign model color).names.Nodup := by
  rw [names_assign, List.nodup_cons]
  exact ⟨by simp, distinct.filter _⟩

theorem nodup_names_resolve (distinct : session.names.Nodup) (model : String) :
    (session.resolve model).2.names.Nodup := by
  by_cases new : session.IsNew model
  · rw [resolve_of_isNew new]
    exact nodup_names_assign distinct model _
  · rwa [resolve_of_not_isNew new]

theorem nodup_names_resolveAll (distinct : session.names.Nodup) (models : List String) :
    (session.resolveAll models).2.names.Nodup := by
  induction models generalizing session with
  | nil => exact distinct
  | cons model models ih => exact ih (nodup_names_resolve distinct model)

theorem size_eq_card (distinct : session.names.Nodup) {names : Finset String}
    (known : ∀ name, name ∈ names ↔ (session.color? name).isSome) : session.size = names.card := by
  have all : session.names.toFinset = names := by
    ext name
    rw [List.mem_toFinset, mem_names, known]
  rw [← all, List.toFinset_card_of_nodup distinct, Session.names, List.length_map, size]

end Palette.Session

namespace Usage

open UsageBoard.Palette (Session preferred?)

/-- A use of a session. -/
inductive SessionStep where
  | assign (model color : String)
  | resolve (model : String)
  | build (a : Aggregation) (records : List UsageRecord)

namespace SessionStep

/-- The colours that a session gives, by name. -/
def given (session : Session) : SessionStep → List (String × String)
  | assign _ _ => []
  | resolve model => [(model, (session.resolve model).1)]
  | build a records => ((Dashboard.build? a session records).map (·.1.modelColors)).getD []

/-- A session after its use; one that was to serve a dashboard that there is not remains as it was. -/
def after (session : Session) : SessionStep → Session
  | assign model color => session.assign model color
  | resolve model => (session.resolve model).2
  | build a records => ((Dashboard.build? a session records).map Prod.snd).getD session

def afterAll (steps : List SessionStep) : Session := steps.foldl after Session.empty

/-- The names that are looked up: of a dashboard those of its models, if there is one. -/
def sought : SessionStep → List String
  | assign _ _ => []
  | resolve model => [model]
  | build a records =>
      if (Dashboard.build? a Session.empty records).isSome then
        (a.present records).map UsageRecord.modelName
      else []

/-- The names that are assigned, or looked up without being preferred. -/
def entered : SessionStep → List String
  | assign model _ => [model]
  | step => step.sought.filter fun model => (preferred? model).isNone

/-- The colour that is assigned to a name. -/
def assigned? (name : String) : SessionStep → Option String
  | assign model color => if name = model then some color else none
  | _ => none

/-- The colour assigned last to a name. -/
def lastAssigned? (past : List SessionStep) (name : String) : Option String :=
  past.reverse.findSome? (assigned? name)

/-- The colour that a name has to have after some steps. -/
def due (past : List SessionStep) (name : String) : String :=
  ((preferred? name).or (lastAssigned? past name)).getD (Palette.color name)

theorem lastAssigned?_append (past : List SessionStep) (last : SessionStep) (name : String) :
    lastAssigned? (past ++ [last]) name = (last.assigned? name).or (lastAssigned? past name) :=
  findSome?_reverse_append (assigned? name) past last

/-- The names for which a step but an assignment looks up colours, in order. -/
structure Seeks (step : SessionStep) (models : List String) : Prop where
  nodup : models.Nodup
  mem_iff : ∀ name, name ∈ models ↔ name ∈ step.sought
  mem_given : ∀ session entry,
    entry ∈ step.given session ↔ entry ∈ (session.resolveAll models).1
  after_eq : ∀ session, step.after session = (session.resolveAll models).2

theorem seeks_resolve (model : String) : (resolve model).Seeks [model] where
  nodup := List.nodup_singleton model
  mem_iff _ := Iff.rfl
  mem_given _ _ := Iff.rfl
  after_eq _ := rfl

theorem isSome_build? (a : Aggregation) (one other : Session) (records : List UsageRecord) :
    (Dashboard.build? a one records).isSome = (Dashboard.build? a other records).isSome := by
  rw [Bool.eq_iff_iff, Dashboard.build?_isSome_iff, Dashboard.build?_isSome_iff]

/-- A dashboard that there is not seeks nothing. -/
theorem exists_seeks_build (a : Aggregation) (records : List UsageRecord) :
    ∃ models, (build a records).Seeks models := by
  by_cases there : (Dashboard.build? a Session.empty records).isSome
  · obtain ⟨tally, taken, labelled⟩ := (Dashboard.build?_isSome_iff a Session.empty records).mp there
    have known := Tally.describes_ofRecords? taken
    have shows : ∀ session, ∃ dashboard later,
        Dashboard.build? a session records = some (dashboard, later) ∧
          dashboard.Shows a session tally later := by
      intro session
      obtain ⟨⟨dashboard, later⟩, shown⟩ :=
        Option.isSome_iff_exists.mp (Dashboard.isSome_ofTally?_iff.mpr labelled)
      refine ⟨dashboard, later, ?_, Dashboard.shows_of_ofTally? shown⟩
      rw [Dashboard.build?, taken, Option.bind_some, shown]
    refine ⟨tally.models, known.models.nodup, ?_, ?_, ?_⟩
    · intro name
      rw [known.models.mem_iff, sought, if_pos there]
      exact ((a.isByTime_ordered records).perm.map _).mem_iff
    · intro session entry
      obtain ⟨dashboard, later, built, shown⟩ := shows session
      rw [given, built, session.fst_resolveAll]
      simp [shown.modelColors_eq]
    · intro session
      obtain ⟨dashboard, later, built, shown⟩ := shows session
      rw [after, built]
      exact shown.session
  · refine ⟨[], List.nodup_nil, ?_, ?_, ?_⟩
    · simp [sought, there]
    · intro session entry
      have never : Dashboard.build? a session records = none := by
        rwa [isSome_build? a Session.empty session, Option.not_isSome_iff_eq_none] at there
      simp [given, never, Session.resolveAll]
    · intro session
      have never : Dashboard.build? a session records = none := by
        rwa [isSome_build? a Session.empty session, Option.not_isSome_iff_eq_none] at there
      rw [after, never]
      rfl

/-- What the past tells about a session. -/
structure Follows (past : List SessionStep) (session : Session) : Prop where
  nodup : session.names.Nodup
  color? : ∀ name, session.color? name = (lastAssigned? past name).or
    (if name ∈ past.flatMap entered then some (Palette.color name) else none)

namespace Follows

variable {past : List SessionStep} {session : Session}

theorem empty : Follows [] Session.empty := ⟨List.nodup_nil, fun _ => rfl⟩

/-- A name that was assigned was entered. -/
theorem mem_entered_of_assigned? {step : SessionStep} {name color : String}
    (told : step.assigned? name = some color) : name ∈ step.entered := by
  cases step with
  | assign model color =>
      simp only [assigned?, Option.ite_none_right_eq_some] at told
      exact List.mem_singleton.mpr told.1
  | resolve model => cases told
  | build a records => cases told

theorem isSome_color?_iff (h : Follows past session) (name : String) :
    (session.color? name).isSome ↔ name ∈ past.flatMap entered := by
  rw [h.color?]
  cases hlast : lastAssigned? past name with
  | none => simp
  | some color =>
      obtain ⟨step, hstep, told⟩ := List.exists_of_findSome?_eq_some hlast
      have entered := List.mem_flatMap_of_mem (List.mem_reverse.mp hstep) (mem_entered_of_assigned? told)
      exact iff_of_true rfl entered

/-- The colour that a session gives is the one due. -/
theorem shade_eq (h : Follows past session) (name : String) : session.shade name = due past name := by
  unfold Session.shade due
  rw [h.color?]
  cases preferred? name with
  | some color => rfl
  | none =>
      cases lastAssigned? past name with
      | some color => rfl
      | none =>
          simp only [Option.none_or]
          split <;> rfl

theorem isNew_iff (h : Follows past session) (name : String) :
    session.IsNew name ↔ preferred? name = none ∧ name ∉ past.flatMap entered := by
  rw [Session.IsNew, ← h.isSome_color?_iff, Option.not_isSome_iff_eq_none]

theorem assign (h : Follows past session) (model color : String) :
    Follows (past ++ [.assign model color]) (session.assign model color) where
  nodup := Session.nodup_names_assign h.nodup model color
  color? := by
    intro name
    rw [Session.color?_assign, lastAssigned?_append, List.flatMap_append, assigned?]
    rcases eq_or_ne name model with rfl | hne
    · rw [if_pos rfl, if_pos rfl]
      rfl
    · simp [hne, h.color?, entered]

/-- The names that are sought get what the session would give them, and keep it. -/
theorem seek (h : Follows past session) {step : SessionStep} {models : List String}
    (seeks : step.Seeks models) (unassigned : ∀ name, step.assigned? name = none)
    (hentered : step.entered = step.sought.filter fun model => (preferred? model).isNone) :
    Follows (past ++ [step]) (session.resolveAll models).2 where
  nodup := Session.nodup_names_resolveAll h.nodup models
  color? := by
    intro name
    have mem_entered : name ∈ (past ++ [step]).flatMap entered ↔
        name ∈ past.flatMap entered ∨ name ∈ models ∧ preferred? name = none := by
      rw [List.flatMap_append, List.mem_append, List.flatMap_singleton, hentered, List.mem_filter,
        ← seeks.mem_iff, Option.isNone_iff_eq_none]
    rw [Session.color?_resolveAll, lastAssigned?_append, unassigned, Option.none_or]
    simp only [mem_entered]
    split
    · rename_i both
      obtain ⟨hmodel, new⟩ := both
      have never : lastAssigned? past name = none := by
        have hnone := new.2
        rw [h.color?, Option.or_eq_none_iff] at hnone
        exact hnone.1
      rw [never, if_pos (.inr ⟨hmodel, new.1⟩), h.shade_eq, due, new.1, never]
      rfl
    · rename_i known
      have already : name ∈ past.flatMap entered ∨ name ∈ models ∧ preferred? name = none ↔
          name ∈ past.flatMap entered := by
        rw [or_iff_left_iff_imp]
        rintro ⟨hmodel, unpreferred⟩
        by_contra absent
        exact known ⟨hmodel, (h.isNew_iff name).mpr ⟨unpreferred, absent⟩⟩
      simp only [already, h.color?]

theorem step (h : Follows past session) (step : SessionStep) :
    Follows (past ++ [step]) (step.after session) := by
  cases step with
  | assign model color => exact h.assign model color
  | resolve model => exact h.seek (seeks_resolve model) (fun _ => rfl) rfl
  | build a records =>
      obtain ⟨models, seeks⟩ := exists_seeks_build a records
      rw [seeks.after_eq]
      exact h.seek seeks (fun _ => rfl) rfl

theorem afterAll (past : List SessionStep) : Follows past (afterAll past) := by
  induction past using List.reverseRecOn with
  | nil => exact empty
  | append_singleton past last ih =>
      rw [SessionStep.afterAll, List.foldl_append]
      exact ih.step last

theorem mem_given_iff (h : Follows past session) (step : SessionStep) (name color : String) :
    (name, color) ∈ step.given session ↔ name ∈ step.sought ∧ color = due past name := by
  have ofSeeks : ∀ {models}, step.Seeks models →
      ((name, color) ∈ step.given session ↔ name ∈ step.sought ∧ color = due past name) := by
    intro models seeks
    rw [seeks.mem_given, ← seeks.mem_iff, Session.fst_resolveAll, List.mem_map]
    constructor
    · rintro ⟨model, hmodel, hpair⟩
      cases hpair
      exact ⟨hmodel, h.shade_eq name⟩
    · rintro ⟨hmodel, rfl⟩
      exact ⟨name, hmodel, by rw [h.shade_eq]⟩
  cases step with
  | assign model color => simp [given, sought]
  | resolve model => exact ofSeeks (seeks_resolve model)
  | build a records =>
      obtain ⟨models, seeks⟩ := exists_seeks_build a records
      exact ofSeeks seeks

theorem size_eq (h : Follows past session) :
    session.size = (past.flatMap entered).toFinset.card := by
  apply Session.size_eq_card h.nodup
  intro name
  rw [List.mem_toFinset, h.isSome_color?_iff]

end Follows

theorem due_of_unassigned {past : List SessionStep}
    (unassigned : ∀ model color, .assign model color ∉ past) (name : String) :
    due past name = Palette.color name := by
  have none_assigned : lastAssigned? past name = none := by
    rw [lastAssigned?, List.findSome?_eq_none_iff]
    intro step hstep
    cases step with
    | assign model color => exact absurd (List.mem_reverse.mp hstep) (unassigned model color)
    | resolve model => rfl
    | build a records => rfl
  rw [due, none_assigned, Option.or_none, Palette.color]
  cases preferred? name <;> rfl

/-- At any moment a session gives exactly the names that are sought the colours that are due to them.
While nothing is assigned these are the colours that the names have anywhere.  The session holds as many
colours as there were names assigned, or sought without being preferred. -/
theorem colors_over_session (past : List SessionStep) (step : SessionStep) :
    (∀ name color, (name, color) ∈ step.given (afterAll past) ↔
      name ∈ step.sought ∧ color = due past name) ∧
    ((∀ model color, .assign model color ∉ past) →
      ∀ name color, (name, color) ∈ step.given (afterAll past) → color = Palette.color name) ∧
    (afterAll past).size = (past.flatMap entered).toFinset.card := by
  have follows := Follows.afterAll past
  refine ⟨follows.mem_given_iff step, ?_, follows.size_eq⟩
  intro unassigned name color hgiven
  obtain ⟨-, hcolor⟩ := (follows.mem_given_iff step name color).mp hgiven
  rw [hcolor, due_of_unassigned unassigned]

/-- A name that is assigned twice, a preferred one that is assigned in vain, and one that is only looked
up.  Before the assignments the same dashboard has the colours that the names have anywhere. -/
theorem colors_over_session_of_reassignment :
    let a : Aggregation := ⟨.hour, 0, 0⟩
    let records := [⟨none, none, none, "harbor", 7300, 2, 0.5, 9⟩,
      ⟨none, none, none, "gpt-4", 7200, 1, 1.0, 8⟩]
    let plain := [resolve "quay", build a records]
    let past := plain ++ [assign "gpt-4" "#000000", assign "harbor" "#000000", assign "harbor" "#ffffff"]
    (∀ color, ("harbor", color) ∈ (build a records).given (afterAll past) ↔ color = "#ffffff") ∧
    (∀ color, ("gpt-4", color) ∈ (build a records).given (afterAll past) ↔ color = "rgb(135,206,235)") ∧
    (∀ color, ("harbor", color) ∈ (build a records).given (afterAll plain) →
      color = Palette.color "harbor") ∧
    (afterAll past).size = 3 := by
  intro a records plain past
  obtain ⟨given, -, size⟩ := colors_over_session past (build a records)
  obtain ⟨-, anywhere, -⟩ := colors_over_session plain (build a records)
  obtain ⟨dashboard, later, built⟩ := Dashboard.exists_build? a Session.empty records (by decide) (by decide)
  have sought : (build a records).sought = ["harbor", "gpt-4"] := by
    rw [SessionStep.sought, built]
    rfl
  have entered : past.flatMap entered = ["quay", "harbor", "gpt-4", "harbor", "harbor"] := by
    have shown : (build a records).entered = ["harbor"] := by
      change (build a records).sought.filter _ = _
      rw [sought]
      decide +kernel
    rw [List.flatMap_append, List.flatMap_cons, List.flatMap_singleton, shown]
    decide +kernel
  refine ⟨?_, ?_, ?_, ?_⟩
  · intro color
    have colored : due past "harbor" = "#ffffff" := by decide +kernel
    simp [given, sought, colored]
  · intro color
    have colored : due past "gpt-4" = "rgb(135,206,235)" := by decide +kernel
    simp [given, sought, colored]
  · intro color
    refine anywhere ?_ "harbor" color
    intro model color there
    simp [plain] at there
  · rw [size, entered]
    decide

end SessionStep

end Usage

end UsageBoard
