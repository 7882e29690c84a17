import UsageBoard.Json.Parser
import UsageBoard.Pairs

/-!
# Stored texts

Texts are stored by key, in the order of the keys.  They are written as a JSON object and read from
one.
-/

namespace UsageBoard.Store

open UsageBoard.Document

inductive Edit where
  | put (key value : String)
  | erase (key : String)
deriving DecidableEq, Repr

namespace Edit

def key : Edit → String
  | put key _ => key
  | erase key => key

def value? : Edit → Option String
  | put _ value => some value
  | erase _ => none

end Edit

/-- Puts a pair into its place in the order of the keys. -/
def putPair (key value : String) : List (String × String) → List (String × String)
  | [] => [(key, value)]
  | other :: rest =>
      if key < other.1 then (key, value) :: other :: rest
      else if key = other.1 then (key, value) :: rest
      else other :: putPair key value rest

def AreOrdered (pairs : List (String × String)) : Prop :=
  pairs.Pairwise fun one other => one.1 < other.1

theorem mem_putPair {key value : String} {pair : String × String} {pairs : List (String × String)}
    (h : pair ∈ putPair key value pairs) : pair = (key, value) ∨ pair ∈ pairs := by
  induction pairs with
  | nil => exact .inl (List.mem_singleton.mp h)
  | cons other rest ih =>
      simp only [putPair] at h
      split at h
      · exact List.mem_cons.mp h
      · split at h
        · exact (List.mem_cons.mp h).imp_right (List.mem_cons_of_mem _)
        · rcases List.mem_cons.mp h with rfl | h
          · exact .inr List.mem_cons_self
          · exact (ih h).imp_right (List.mem_cons_of_mem _)

theorem areOrdered_putPair (key value : String) {pairs : List (String × String)}
    (h : AreOrdered pairs) : AreOrdered (putPair key value pairs) := by
  induction pairs with
  | nil => exact List.pairwise_singleton _ _
  | cons other rest ih =>
      have ⟨first, later⟩ := List.pairwise_cons.mp h
      simp only [putPair]
      split
      · rename_i hlt
        refine List.pairwise_cons.mpr ⟨?_, h⟩
        intro pair hpair
        rcases List.mem_cons.mp hpair with rfl | hpair
        · exact hlt
        · exact String.lt_trans hlt (first pair hpair)
      · split
        · rename_i heq
          exact List.pairwise_cons.mpr ⟨heq ▸ first, later⟩
        · rename_i hlt hne
          have hgt : other.1 < key :=
            Std.lt_of_le_of_ne (String.not_lt.mp hlt) fun e => hne e.symm
          refine List.pairwise_cons.mpr ⟨?_, ih later⟩
          intro pair hpair
          rcases mem_putPair hpair with rfl | hpair
          · exact hgt
          · exact first pair hpair

theorem putPair_of_forall_lt {key value : String} {pairs : List (String × String)}
    (h : ∀ pair ∈ pairs, pair.1 < key) : putPair key value pairs = pairs ++ [(key, value)] := by
  induction pairs with
  | nil => rfl
  | cons other rest ih =>
      have hlt := h other List.mem_cons_self
      have hne : key ≠ other.1 := fun e => String.ne_of_lt hlt e.symm
      rw [putPair, if_neg (String.lt_asymm hlt), if_neg hne,
        ih fun pair hpair => h pair (List.mem_cons_of_mem _ hpair)]
      rfl

theorem lookup_putPair (k key value : String) (pairs : List (String × String)) :
    (putPair key value pairs).lookup k = if k == key then some value else pairs.lookup k := by
  induction pairs with
  | nil => simp [putPair, lookup_cons_eq_ite]
  | cons other rest ih =>
      simp only [putPair]
      split
      · rw [lookup_cons_eq_ite]
      · split
        · rename_i heq
          subst heq
          by_cases hk : k = other.1 <;> simp [lookup_cons_eq_ite, hk]
        · rename_i hne
          have hne' : other.1 ≠ key := fun e => hne e.symm
          by_cases hk : k = other.1 <;> simp [lookup_cons_eq_ite, hk, hne', ih]

@[ext]
structure Entries where
  pairs : List (String × String)
  ordered : AreOrdered pairs

namespace Entries

instance : DecidableEq Entries := fun one other =>
  decidable_of_iff (one.pairs = other.pairs) Entries.ext_iff.symm

def empty : Entries := ⟨[], List.Pairwise.nil⟩

def get? (entries : Entries) (key : String) : Option String := entries.pairs.lookup key

def put (entries : Entries) (key value : String) : Entries :=
  ⟨putPair key value entries.pairs, areOrdered_putPair key value entries.ordered⟩

def erase (entries : Entries) (key : String) : Entries :=
  ⟨entries.pairs.filter fun pair => pair.1 != key, entries.ordered.filter _⟩

/-- The entries of some pairs; of equal keys the last one counts. -/
def ofPairs (pairs : List (String × String)) : Entries :=
  pairs.foldl (fun entries pair => entries.put pair.1 pair.2) empty

def apply (entries : Entries) : Edit → Entries
  | .put key value => entries.put key value
  | .erase key => entries.erase key

def applyAll (entries : Entries) (edits : List Edit) : Entries := edits.foldl apply entries

/-- Whether an edit must be written: erasing a key that is not there need not. -/
def isChangedBy (entries : Entries) : Edit → Bool
  | .put _ _ => true
  | .erase key => (entries.get? key).isSome

theorem get?_apply (entries : Entries) (edit : Edit) (key : String) :
    (entries.apply edit).get? key = if key == edit.key then edit.value? else entries.get? key := by
  cases edit with
  | put other value => exact lookup_putPair key other value entries.pairs
  | erase other => exact lookup_filter_ne key other entries.pairs

theorem foldl_put {pairs : List (String × String)} (entries : Entries)
    (h : AreOrdered (entries.pairs ++ pairs)) :
    (pairs.foldl (fun entries pair => entries.put pair.1 pair.2) entries).pairs =
      entries.pairs ++ pairs := by
  induction pairs generalizing entries with
  | nil => simp
  | cons pair rest ih =>
      have hlast : (entries.put pair.1 pair.2).pairs = entries.pairs ++ [pair] :=
        putPair_of_forall_lt fun other hother =>
          (List.pairwise_append.mp h).2.2 other hother pair List.mem_cons_self
      have happend : entries.pairs ++ pair :: rest = (entries.put pair.1 pair.2).pairs ++ rest := by
        rw [hlast, List.append_assoc, List.singleton_append]
      rw [List.foldl_cons, ih _ (happend ▸ h), happend]

theorem ofPairs_pairs (entries : Entries) : ofPairs entries.pairs = entries :=
  Entries.ext (foldl_put empty entries.ordered)

def toJson (entries : Entries) : Json :=
  .object (entries.pairs.map fun (key, value) => (key, .text value))

def text (entries : Entries) : String := entries.toJson.pretty

def decoder : Decoder Entries := fun depth node =>
  (Decoder.members Decoder.string depth node).map ofPairs

def ofText (text : String) : Except DecodeError Entries := Json.decode decoder text

end Entries

end UsageBoard.Store
