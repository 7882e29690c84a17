import UsageBoard.Proofs.Usage.Shades
import UsageBoard.Proofs.Usage.Tally

/-!
# Colours that no one assigned

In a session in which colours were only looked up, every model has the colour that it has anywhere,
so what the session has seen makes no difference to a dashboard.
-/

namespace UsageBoard

namespace Palette.Session

/-- Every colour of the session is the one that the name has anywhere. -/
def IsPlain (session : Session) : Prop :=
  ∀ model color, session.color? model = some color → color = Palette.color model

theorem isPlain_empty : empty.IsPlain := by
  intro model color h
  cases h

theorem shade_of_isPlain {session : Session} (plain : session.IsPlain) (model : String) :
    session.shade model = Palette.color model := by
  unfold shade
  cases hpreferred : preferred? model with
  | some color =>
      rw [Palette.color, hpreferred]
      rfl
  | none =>
      cases hcolor : session.color? model with
      | none => rfl
      | some color => exact plain model color hcolor

theorem isPlain_resolveAll {session : Session} (plain : session.IsPlain) (models : List String) :
    (session.resolveAll models).2.IsPlain := by
  intro model color h
  rw [color?_resolveAll] at h
  split at h
  · exact (Option.some.inj h).symm.trans (shade_of_isPlain plain model)
  · exact plain model color h

end Palette.Session

namespace Usage.Dashboard

/-- Of a session only the shades count, and of the records their order by time. -/
theorem map_fst_build?_congr {one other : Palette.Session}
    (shades : ∀ model, one.shade model = other.shade model) {a : Aggregation}
    {records shuffled : List UsageRecord} (ordered : a.ordered records = a.ordered shuffled) :
    (build? a one records).map Prod.fst = (build? a other shuffled).map Prod.fst := by
  have colors : ∀ models, (one.resolveAll models).1 = (other.resolveAll models).1 := by
    intro models
    simp only [Palette.Session.fst_resolveAll, shades]
  simp only [build?, ofTally?, Option.map_bind, Function.comp_def, Option.map_map, ordered, colors]

/-- A dashboard does not depend on what a session without assigned colours has seen. -/
theorem build?_of_isPlain {session : Palette.Session} (plain : session.IsPlain) (a : Aggregation)
    (records : List UsageRecord) :
    (build? a session records).map Prod.fst =
      (build? a Palette.Session.empty records).map Prod.fst := by
  refine map_fst_build?_congr ?_ rfl
  intro model
  rw [Palette.Session.shade_of_isPlain plain,
    Palette.Session.shade_of_isPlain Palette.Session.isPlain_empty]

theorem isPlain_of_build? {session later : Palette.Session} (plain : session.IsPlain)
    {a : Aggregation} {records : List UsageRecord} {dashboard : Dashboard}
    (built : build? a session records = some (dashboard, later)) : later.IsPlain := by
  obtain ⟨tally, -, shown⟩ := exists_tally_of_build? built
  exact shown.session ▸ Palette.Session.isPlain_resolveAll plain _

end Usage.Dashboard

end UsageBoard
