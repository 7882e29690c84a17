import Mathlib.Data.String.Basic
import UsageBoard.Account
import UsageBoard.Proofs.Json.Codec
import UsageBoard.Site
import UsageBoard.Usage.Dashboard

/-!
# The records that pass between the program, the backend and the cache

Each of these types is written as an object whose members are read back field by field.  Usage records
leave out the fields without a value, the public settings of a site write them as null, and the
colours of a dashboard are members of any name.

Main statement: for each of the types, reading undoes writing (`records_roundTrip`).
-/

namespace UsageBoard

open UsageBoard.Document
open UsageBoard.Document.Decoder
open UsageBoard.Json (Codec ReadsBack)

open UsageBoard.Json (legible_integer legible_real legible_text legible_ofOption legible_list legible_object)

/-! ## Accounts and sites -/

namespace Account

def codec : Codec Account :=
  ⟨toJson, decoder, fun account => [account.quota, account.usedQuota], fun _ => True⟩

theorem lawful_codec : codec.Lawful where
  legible account back := by
    obtain ⟨quota, usedQuota⟩ : ReadsBack account.quota ∧ ReadsBack account.usedQuota := by
      simpa [Codec.RealsReadBack, codec] using back
    exact ⟨legible_integer _, trivial, trivial, legible_integer _, legible_real quota,
      legible_real usedQuota, legible_integer _, trivial, trivial⟩
  decoder_node account _ depth := by
    simp only [codec, decoder, toJson]
    refine Record.Reads.decoder_node ?_ (.refl _) (by decide) _ _
    exact (((((((Record.Reads.map Account.mk (.field rfl (inverts_int64.reads _))).seq
      (.field rfl (inverts_string.reads _))).seq (.field rfl (inverts_string.reads _))).seq
      (.field rfl (inverts_int64.reads _))).seq (.field rfl (inverts_real.reads _))).seq
      (.field rfl (inverts_real.reads _))).seq (.field rfl (inverts_int64.reads _))).seq
      (.field rfl (inverts_string.reads _))
  ordered _ _ _ _ := trivial

end Account

namespace SiteStatus

def codec : Codec SiteStatus :=
  ⟨toJson, decoder, fun status => status.quotaPerUnit.toList, fun _ => True⟩

theorem lawful_codec : codec.Lawful where
  legible status back := by
    refine ⟨legible_ofOption fun _ _ => trivial, legible_ofOption fun _ _ => trivial,
      legible_ofOption fun x there => legible_real (back x ?_), legible_ofOption fun _ _ => trivial,
      legible_ofOption fun _ _ => trivial, trivial⟩
    simp [codec, there]
  decoder_node status _ depth := by
    simp only [codec, decoder, toJson]
    refine Record.Reads.decoder_node ?_ (.refl _) (by decide) _ _
    exact ((((Record.Reads.map SiteStatus.mk (.field rfl (inverts_string.optional_node _))).seq
      (.field rfl (inverts_string.optional_node _))).seq
      (.field rfl (inverts_real.optional_node _))).seq
      (.field rfl (inverts_bool.optional_node _))).seq
      (.field rfl (inverts_string.optional_node _))
  ordered _ _ _ _ := trivial

end SiteStatus

namespace Usage

/-! ## Records of usage -/

namespace UsageRecord

def codec : Codec UsageRecord := ⟨toJson, decoder, fun r => [r.quota], fun _ => True⟩

section Given

variable {α : Type} {name : String} {encode : α → Json} {value : Option α}

theorem lookup_given (key : String) :
    (given name encode value).lookup key = if key == name then value.map encode else none := by
  cases value <;> simp [given, lookup_cons_eq_ite]

theorem sublist_given : ((given name encode value).map Prod.fst).Sublist [name] := by
  cases value <;> simp [given]

theorem legible_given (legible : ∀ found, (encode found).Legible) :
    ∀ member ∈ given name encode value, member.2.Legible := by
  cases value <;> simp [given, legible]

end Given

theorem lawful_codec : codec.Lawful where
  legible r back := by
    have quota : ReadsBack r.quota := back _ (by simp [codec])
    refine legible_object.mpr fun member there => ?_
    rcases List.mem_append.mp there with there | there
    · rcases List.mem_append.mp there with there | there
      · rcases List.mem_append.mp there with there | there
        · exact legible_given legible_integer member there
        · exact legible_given legible_integer member there
      · exact legible_given legible_text member there
    · refine legible_object.mp ?_ member there
      exact ⟨trivial, legible_integer _, legible_integer _, legible_real quota, legible_integer _, trivial⟩
  decoder_node r _ depth := by
    simp only [codec, decoder, toJson]
    refine Record.Reads.decoder_node ?_ ?_ (by decide) _ _
    · refine (((((((Record.Reads.map UsageRecord.mk (.optional inverts_int64 ?_)).seq
        (.optional inverts_int64 ?_)).seq (.optional inverts_string ?_)).seq
        (.field ?_ (inverts_string.reads _))).seq (.field ?_ (inverts_lenientInt64.reads _))).seq
        (.field ?_ (inverts_lenientInt64.reads _))).seq (.field ?_ (inverts_real.reads _))).seq
        (.field ?_ (inverts_lenientInt64.reads _))
      all_goals simp [List.lookup_append, lookup_given, lookup_cons_eq_ite]
    · simp only [List.map_append]
      exact ((sublist_given.append sublist_given).append sublist_given).append (.refl _)
  ordered _ _ _ _ := trivial

end UsageRecord

namespace CacheRecord

def codec : Codec CacheRecord := ⟨toJson, decoder, fun _ => [], fun _ => True⟩

theorem lawful_codec : codec.Lawful where
  legible r _ := ⟨trivial, legible_integer _, legible_integer _, trivial⟩
  decoder_node r _ depth := by
    simp only [codec, decoder, toJson]
    refine Record.Reads.decoder_node ?_ (.refl _) (by decide) _ _
    exact ((Record.Reads.map CacheRecord.mk (.field rfl (inverts_string.reads _))).seq
      (.field rfl (inverts_lenientInt64.reads _))).seq (.field rfl (inverts_lenientInt64.reads _))
  ordered _ _ _ _ := trivial

end CacheRecord

namespace TimeRange

def codec : Codec TimeRange := ⟨toJson, decoder, fun _ => [], fun _ => True⟩

theorem lawful_codec : codec.Lawful where
  legible range _ := ⟨legible_integer _, legible_integer _, trivial⟩
  decoder_node range _ depth := by
    simp only [codec, decoder, toJson]
    refine Record.Reads.decoder_node ?_ (.refl _) (by decide) _ _
    exact (Record.Reads.map TimeRange.mk (.field rfl (inverts_int64.reads _))).seq
      (.field rfl (inverts_int64.reads _))
  ordered _ _ _ _ := trivial

end TimeRange

namespace Rates

def codec : Codec Rates := ⟨toJson, decoder, fun rates => [rates.rpm, rates.tpm], fun _ => True⟩

theorem lawful_codec : codec.Lawful where
  legible rates back := by
    obtain ⟨rpm, tpm⟩ : ReadsBack rates.rpm ∧ ReadsBack rates.tpm := by
      simpa [Codec.RealsReadBack, codec] using back
    exact ⟨legible_real rpm, legible_real tpm, trivial⟩
  decoder_node rates _ depth := by
    simp only [codec, decoder, toJson]
    refine Record.Reads.decoder_node ?_ (.refl _) (by decide) _ _
    exact (Record.Reads.map Rates.mk (.field rfl (inverts_real.reads _))).seq
      (.field rfl (inverts_real.reads _))
  ordered _ _ _ _ := trivial

end Rates

/-! ## Dashboards -/

variable {depth : Nat}

theorem CallCount.inverts_decoder : CallCount.decoder.Inverts (depth + 2) CallCount.toJson where
  reads c := by
    simp only [decoder, toJson]
    refine Record.Reads.decoder_node ?_ (.refl _) (by decide) _ _
    exact (Record.Reads.map CallCount.mk (.field rfl (inverts_string.reads _))).seq
      (.field rfl (inverts_int64.reads _))
  notNull := nofun

theorem Consumption.inverts_decoder : Consumption.decoder.Inverts (depth + 2) Consumption.toJson where
  reads c := by
    simp only [decoder, toJson]
    refine Record.Reads.decoder_node ?_ (.refl _) (by decide) _ _
    exact ((Record.Reads.map Consumption.mk (.field rfl (inverts_string.reads _))).seq
      (.field rfl (inverts_string.reads _))).seq (.field rfl (inverts_real.reads _))
  notNull := nofun

theorem Totals.inverts_decoder : Totals.decoder.Inverts (depth + 2) Totals.toJson where
  reads t := by
    simp only [decoder, toJson]
    refine Record.Reads.decoder_node ?_ (.refl _) (by decide) _ _
    exact ((Record.Reads.map Totals.mk (.field rfl (inverts_real.reads _))).seq
      (.field rfl (inverts_int64.reads _))).seq (.field rfl (inverts_int64.reads _))
  notNull := nofun

theorem Granularity.inverts_decoder : Granularity.decoder.Inverts depth Granularity.toJson where
  reads granularity := by cases granularity <;> rfl
  notNull granularity := by cases granularity <;> nofun

/-- Members stand in the order of their keys, and no key is there twice. -/
def InOrder (members : List (String × String)) : Prop := members.Pairwise fun p q => p.1 < q.1

/-- Members of which each is dropped that a later one with its key replaces. -/
def latest (members : List (String × String)) : List (String × String) :=
  members.foldr (fun entry kept => if kept.any (·.1 == entry.1) then kept else entry :: kept) []

theorem nodup_latest (members : List (String × String)) : ((latest members).map Prod.fst).Nodup := by
  induction members with
  | nil => exact List.nodup_nil
  | cons entry members ih =>
      rw [latest, List.foldr_cons, ← latest]
      split
      · exact ih
      · rename_i new
        refine List.nodup_cons.mpr ⟨fun there => new ?_, ih⟩
        obtain ⟨other, kept, same⟩ := List.mem_map.mp there
        exact List.any_eq_true.mpr ⟨other, kept, by simpa using same⟩

theorem latest_of_inOrder {members : List (String × String)} (ordered : InOrder members) :
    latest members = members := by
  induction members with
  | nil => rfl
  | cons entry members ih =>
      obtain ⟨before, ordered⟩ := List.pairwise_cons.mp ordered
      have new : members.any (·.1 == entry.1) = false := by
        refine List.any_eq_false.mpr fun other there => ?_
        simpa using (before other there).ne'
      rw [latest, List.foldr_cons, ← latest, ih ordered, new]
      rfl

theorem inOrder_lastByKey (members : List (String × String)) : InOrder (lastByKey members) := by
  have sorted : (lastByKey members).Pairwise fun p q => decide (p.1 ≤ q.1) := by
    refine List.pairwise_mergeSort ?_ ?_ _
    · intro p q r pq qr
      exact decide_eq_true ((of_decide_eq_true pq).trans (of_decide_eq_true qr))
    · intro p q
      simpa using le_total p.1 q.1
  have distinct : (lastByKey members).Pairwise fun p q => p.1 ≠ q.1 := by
    have perm : (lastByKey members).Perm (latest members) := List.mergeSort_perm _ _
    exact List.pairwise_map.mp ((perm.map Prod.fst).nodup_iff.mpr (nodup_latest members))
  refine (sorted.and distinct).imp fun h => ?_
  exact lt_of_le_of_ne (by simpa using h.1) h.2

theorem lastByKey_of_inOrder {members : List (String × String)} (ordered : InOrder members) :
    lastByKey members = members := by
  have same : lastByKey members = (latest members).mergeSort fun p q => decide (p.1 ≤ q.1) := rfl
  rw [same, latest_of_inOrder ordered]
  exact List.mergeSort_of_pairwise (ordered.imp fun h => by simpa using h.le)

theorem members_colorsJson (colors : List (String × String)) :
    Decoder.members Decoder.string (depth + 2) (colorsJson colors).node = .ok colors := by
  have deep : ¬depth + 2 ≤ 1 := by omega
  rw [colorsJson, Json.node, memberNodes_eq_map, List.map_map, Decoder.members, nested, if_neg deep]
  exact mapM_map_eq_ok fun _ _ => rfl

namespace Dashboard

def codec : Codec Dashboard :=
  ⟨toJson, decoder, fun d => d.totals.quota :: d.consumption.map Consumption.usage,
    fun d => InOrder d.modelColors⟩

theorem lawful_codec : codec.Lawful where
  legible d back := by
    have quota : ReadsBack d.totals.quota := back _ List.mem_cons_self
    refine ⟨legible_text _, legible_list.mpr ?_, legible_list.mpr ?_, legible_object.mpr ?_,
      ⟨legible_real quota, legible_integer _, legible_integer _, trivial⟩, trivial⟩
    · refine List.forall_mem_map.mpr fun c _ => ?_
      exact ⟨trivial, legible_integer _, trivial⟩
    · refine List.forall_mem_map.mpr fun c there => ?_
      have usage : ReadsBack c.usage := back _ (List.mem_cons_of_mem _ (List.mem_map_of_mem there))
      exact ⟨trivial, trivial, legible_real usage, trivial⟩
    · exact List.forall_mem_map.mpr fun _ _ => legible_text _
  decoder_node d ordered depth := by
    simp only [codec, decoder, toJson]
    refine Record.Reads.decoder_node ?_ (.refl _) (by decide) _ _
    refine (((((Record.Reads.map Dashboard.mk (.field rfl (Granularity.inverts_decoder.reads _))).seq
      (.field rfl (CallCount.inverts_decoder.list.reads _))).seq
      (.field rfl (Consumption.inverts_decoder.list.reads _))).seq
      (.field rfl ?_)).seq (.field rfl (Totals.inverts_decoder.reads _)))
    rw [members_colorsJson]
    exact congrArg Except.ok (lastByKey_of_inOrder ordered)
  ordered depth node d read := by
    obtain ⟨_, lookup, built⟩ := Record.exists_build_of_decoder read
    obtain ⟨_, totals, built₁, -, rfl⟩ := Record.exists_of_build_seq built
    obtain ⟨_, colors, built₂, found, rfl⟩ := Record.exists_of_build_seq built₁
    obtain ⟨_, consumption, built₃, -, rfl⟩ := Record.exists_of_build_seq built₂
    obtain ⟨_, calls, built₄, -, rfl⟩ := Record.exists_of_build_seq built₃
    obtain ⟨_, granularity, built₅, -, rfl⟩ := Record.exists_of_build_seq built₄
    obtain rfl := Except.ok.inj built₅
    obtain ⟨node, found⟩ := Record.exists_node_of_build_required found
    obtain ⟨members, -, rfl⟩ := exists_of_map_eq_ok found
    exact inOrder_lastByKey members

end Dashboard

end Usage

open Usage in
/-- For each type of record, a value whose numbers are read back from their own texts is read back from
its own text; and what is read from any text is read again from the text that is written for it. -/
theorem records_roundTrip :
    UsageRecord.codec.RoundTrips ∧ CacheRecord.codec.RoundTrips ∧ Account.codec.RoundTrips ∧
      SiteStatus.codec.RoundTrips ∧ TimeRange.codec.RoundTrips ∧ Rates.codec.RoundTrips ∧
      Dashboard.codec.RoundTrips :=
  ⟨UsageRecord.lawful_codec.roundTrips, CacheRecord.lawful_codec.roundTrips,
    Account.lawful_codec.roundTrips, SiteStatus.lawful_codec.roundTrips,
    TimeRange.lawful_codec.roundTrips, Rates.lawful_codec.roundTrips, Dashboard.lawful_codec.roundTrips⟩

/-- A dashboard with a quote in a name, fractions and the least integer of 64 bits. -/
def weeklyDashboard : Usage.Dashboard where
  granularity := .week
  callCounts := [⟨"o1", 3⟩, ⟨"say \"β\"", Int64.minValue⟩]
  consumption := [⟨"01-05 - 01-11", "o1", 0.1⟩, ⟨"01-05 - 01-11", "say \"β\"", 1e-7⟩]
  modelColors := [("o1", "#1f77b4"), ("say \"β\"", "#ff7f0e")]
  totals := ⟨0.30000000000000004, 12, 7⟩

theorem weeklyDashboard_readsOwnText :
    Usage.Dashboard.codec.IsOrdered weeklyDashboard ∧
      Usage.Dashboard.codec.RealsReadBack weeklyDashboard ∧
      Usage.Dashboard.codec.ReadsOwnText weeklyDashboard := by
  have ordered : Usage.Dashboard.codec.IsOrdered weeklyDashboard :=
    List.pairwise_pair.mpr (by decide)
  have reals : Usage.Dashboard.codec.RealsReadBack weeklyDashboard := by
    unfold Codec.RealsReadBack
    decide +kernel
  exact ⟨ordered, reals, records_roundTrip.2.2.2.2.2.2.value weeklyDashboard ordered reals⟩

end UsageBoard
