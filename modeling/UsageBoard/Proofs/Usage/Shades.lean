import UsageBoard.Palette
import UsageBoard.Pairs

/-!
# The colours that a session gives

The shade of a name is the colour that a session would give it now.  Looking up names never changes a
shade, so the colours of some names, and the session afterwards, do not depend on the order in which
the names are looked up.

## Main statements

* `fst_resolveAll`: the names looked up get their shades.
* `color?_resolveAll`, `size_resolveAll`: what the session holds afterwards.
* `Agrees.resolveAll`: the order of the names makes no difference to the session.
-/

namespace UsageBoard.Palette.Session

def shade (session : Session) (model : String) : String :=
  ((preferred? model).or (session.color? model)).getD (Palette.color model)

theorem color?_assign (session : Session) (model color name : String) :
    (session.assign model color).color? name =
      if name = model then some color else session.color? name := by
  unfold color? assign
  by_cases h : name = model
  · simp [h]
  · rw [if_neg h, lookup_cons_eq_ite, if_neg (by simpa using h)]
    induction session.assigned with
    | nil => rfl
    | cons entry rest ih =>
        by_cases hentry : entry.1 = model
        · simpa [hentry, lookup_cons_eq_ite, h] using ih
        · simp [hentry, lookup_cons_eq_ite, ih]

/-- Whether looking up a name assigns it a colour. -/
def IsNew (session : Session) (model : String) : Prop :=
  preferred? model = none ∧ session.color? model = none

instance (session : Session) (model : String) : Decidable (session.IsNew model) := instDecidableAnd

theorem resolve_of_isNew {session : Session} {model : String} (new : session.IsNew model) :
    session.resolve model = (session.shade model, session.assign model (session.shade model)) := by
  simp [resolve, shade, new.1, new.2]

theorem resolve_of_not_isNew {session : Session} {model : String} (known : ¬session.IsNew model) :
    session.resolve model = (session.shade model, session) := by
  unfold resolve shade
  cases hpreferred : preferred? model with
  | some color => rfl
  | none =>
      cases hcolor : session.color? model with
      | some color => rfl
      | none => exact absurd ⟨hpreferred, hcolor⟩ known

theorem fst_resolve (session : Session) (model : String) :
    (session.resolve model).1 = session.shade model := by
  by_cases new : session.IsNew model
  · rw [resolve_of_isNew new]
  · rw [resolve_of_not_isNew new]

theorem color?_resolve (session : Session) (model name : String) :
    (session.resolve model).2.color? name =
      if name = model ∧ session.IsNew name then some (session.shade name) else session.color? name := by
  by_cases new : session.IsNew model
  · rw [resolve_of_isNew new, color?_assign]
    by_cases h : name = model
    · subst h
      rw [if_pos rfl, if_pos ⟨rfl, new⟩]
    · rw [if_neg h, if_neg fun both => h both.1]
  · rw [resolve_of_not_isNew new, if_neg]
    rintro ⟨rfl, hnew⟩
    exact new hnew

theorem shade_resolve (session : Session) (model name : String) :
    (session.resolve model).2.shade name = session.shade name := by
  unfold shade
  rw [color?_resolve]
  split
  · rename_i h
    simp [shade, h.2.1, h.2.2]
  · rfl

theorem isNew_resolve (session : Session) (model name : String) :
    (session.resolve model).2.IsNew name ↔ name ≠ model ∧ session.IsNew name := by
  unfold IsNew
  rw [color?_resolve]
  by_cases h : name = model
  · by_cases new : session.IsNew name
    · simp [h ▸ new, h]
    · have hnew : ¬(name = model ∧ session.IsNew name) := fun both => new both.2
      rw [if_neg hnew]
      exact iff_of_false new fun both => both.1 h
  · simp [h]

theorem size_resolve (session : Session) (model : String) :
    (session.resolve model).2.size = session.size + if session.IsNew model then 1 else 0 := by
  by_cases new : session.IsNew model
  · have absent : ∀ entry ∈ session.assigned, entry.1 != model := by
      intro entry hentry
      have hne := List.lookup_eq_none_iff.mp new.2 entry hentry
      rwa [bne_comm]
    rw [resolve_of_isNew new, if_pos new]
    simp only [assign, size, List.filter_eq_self.mpr absent, List.length_cons]
  · rw [resolve_of_not_isNew new, if_neg new]
    rfl

theorem fst_resolveAll (session : Session) (models : List String) :
    (session.resolveAll models).1 = models.map fun model => (model, session.shade model) := by
  induction models generalizing session with
  | nil => rfl
  | cons model models ih =>
      simp only [resolveAll, ih, fst_resolve, shade_resolve, List.map_cons]

theorem color?_resolveAll (session : Session) (models : List String) (name : String) :
    (session.resolveAll models).2.color? name =
      if name ∈ models ∧ session.IsNew name then some (session.shade name) else session.color? name := by
  induction models generalizing session with
  | nil => simp [resolveAll]
  | cons model models ih =>
      simp only [resolveAll, ih, isNew_resolve, shade_resolve, color?_resolve, List.mem_cons]
      by_cases new : session.IsNew name
      · by_cases h : name = model <;> simp [new, h]
      · simp [new]

theorem size_resolveAll (session : Session) {models : List String} (distinct : models.Nodup) :
    (session.resolveAll models).2.size = session.size + models.countP (session.IsNew ·) := by
  induction models generalizing session with
  | nil => rfl
  | cons model models ih =>
      obtain ⟨hmodel, hmodels⟩ := List.nodup_cons.mp distinct
      have others : models.countP (fun name => (session.resolve model).2.IsNew name) =
          models.countP (session.IsNew ·) := by
        refine List.countP_congr ?_
        intro name hname
        have hne : name ≠ model := fun e => hmodel (e ▸ hname)
        simp [isNew_resolve, hne]
      simp only [resolveAll, ih _ hmodels, size_resolve, others, List.countP_cons, decide_eq_true_eq]
      omega

/-- Two sessions with the same colours for the same names. -/
structure Agrees (one other : Session) : Prop where
  color? : ∀ model, one.color? model = other.color? model
  size : one.size = other.size

theorem Agrees.refl (session : Session) : session.Agrees session := ⟨fun _ => rfl, rfl⟩

namespace Agrees

variable {one other : Session} (same : one.Agrees other)

include same

theorem shade (model : String) : one.shade model = other.shade model := by
  rw [Session.shade, Session.shade, same.color?]

theorem isNew (model : String) : one.IsNew model ↔ other.IsNew model := by
  rw [IsNew, IsNew, same.color?]

theorem resolveAll {models others : List String} (distinct : models.Nodup) (perm : models.Perm others) :
    (one.resolveAll models).2.Agrees (other.resolveAll others).2 := by
  constructor
  · intro model
    simp only [color?_resolveAll, perm.mem_iff, same.isNew, same.shade, same.color?]
  · rw [size_resolveAll one distinct, size_resolveAll other (perm.nodup_iff.mp distinct), same.size,
      perm.countP_eq]
    simp only [same.isNew]

end Agrees

end UsageBoard.Palette.Session
