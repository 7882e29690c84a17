import UsageBoard.Proofs.Document.Replaced
import UsageBoard.Proofs.Json.Kept
import UsageBoard.Proofs.Json.Places
import UsageBoard.Usage.Record

/-!
# Fields of usage that are integers

The records of usage have five fields that are decoded from integers in any spelling.  They are treated
alike: whatever is said of a number is said of a field and of a place for its value in the text of a record.

## Main statements

* `WholeField.decoder_table_eq_ok_iff`: the value of a field is decoded by itself.
* `WholeField.keeps_iff`: a record keeps the number in a field just if the numeral is kept.
-/

namespace UsageBoard.Usage

open UsageBoard.Document (Node Record Lookup Decoder)
open UsageBoard.Json (Numeral Place)

/-- The fields of records that are decoded from integers in any spelling. -/
inductive WholeField where
  | createdAt
  | count
  | tokenUsed
  | nonCacheTokens
  | cacheHitTokens

namespace WholeField

def Row : WholeField → Type
  | createdAt | count | tokenUsed => UsageRecord
  | nonCacheTokens | cacheHitTokens => CacheRecord

def key : WholeField → String
  | createdAt => "created_at"
  | count => "count"
  | tokenUsed => "token_used"
  | nonCacheTokens => "non_cache_tokens"
  | cacheHitTokens => "cache_hit_tokens"

def record : (field : WholeField) → Record field.Row
  | createdAt | count | tokenUsed => UsageRecord.record
  | nonCacheTokens | cacheHitTokens => CacheRecord.record

def decoder : (field : WholeField) → Decoder field.Row
  | createdAt | count | tokenUsed => UsageRecord.decoder
  | nonCacheTokens | cacheHitTokens => CacheRecord.decoder

/-- A record with another value of the field. -/
def assign : (field : WholeField) → field.Row → Int64 → field.Row
  | createdAt, row, n => { row with createdAt := n }
  | count, row, n => { row with count := n }
  | tokenUsed, row, n => { row with tokenUsed := n }
  | nonCacheTokens, row, n => { row with nonCacheTokens := n }
  | cacheHitTokens, row, n => { row with cacheHitTokens := n }

variable {field : WholeField} {depth : Nat} {node replaced : Node} {lookup later : Lookup} {n : Int64}

/-! ## Records with another value of a field -/

/-- A usage record in which one of the integers is replaced. -/
theorem related_usage {created count tokens : Int64 → Int64 → Prop} {key : String}
    (differ : Lookup.DifferAt key node replaced lookup later)
    (others : ∀ name ∈ ["id", "user_id", "username", "model_name", "quota"], name ≠ key)
    (hcreated : (Record.required "created_at" Decoder.lenientInt64).Related depth lookup later created)
    (hcount : (Record.defaulted "count" Decoder.lenientInt64 0).Related depth lookup later count)
    (htokens : (Record.defaulted "token_used" Decoder.lenientInt64 0).Related depth lookup later tokens) :
    UsageRecord.record.Related depth lookup later fun row other =>
      ∃ c k t, created row.createdAt c ∧ count row.count k ∧ tokens row.tokenUsed t ∧
        other = { row with createdAt := c, count := k, tokenUsed := t } := by
  refine Record.Related.seq (Record.Related.seq (Record.Related.seq (Record.Related.seq (Record.Related.seq
    (Record.Related.seq (Record.Related.seq (Record.Related.map UsageRecord.mk ?_
      (Record.Related.other differ (others _ (by simp)) _ _)) (Record.Related.other differ (others _ (by simp)) _ _))
      (Record.Related.other differ (others _ (by simp)) _ _)) (Record.Related.other differ (others _ (by simp)) _ _))
      hcreated) hcount) (Record.Related.other differ (others _ (by simp)) _ _)) htokens
  rintro id _ rfl user _ rfl name _ rfl model _ rfl first c hc calls k hk quota _ rfl used t ht
  exact ⟨c, k, t, hc, hk, ht, rfl⟩

/-- A cache record in which one of the integers is replaced. -/
theorem related_cache {missed hit : Int64 → Int64 → Prop} {key : String}
    (differ : Lookup.DifferAt key node replaced lookup later) (other : "time" ≠ key)
    (hmissed : (Record.defaulted "non_cache_tokens" Decoder.lenientInt64 0).Related depth lookup later missed)
    (hhit : (Record.defaulted "cache_hit_tokens" Decoder.lenientInt64 0).Related depth lookup later hit) :
    CacheRecord.record.Related depth lookup later fun row other =>
      ∃ m h, missed row.nonCacheTokens m ∧ hit row.cacheHitTokens h ∧
        other = { row with nonCacheTokens := m, cacheHitTokens := h } := by
  refine Record.Related.seq (Record.Related.seq (Record.Related.map CacheRecord.mk ?_
    (Record.Related.other differ other _ _)) hmissed) hhit
  rintro time _ rfl tokens m hm cached h hh
  exact ⟨m, h, hm, hh, rfl⟩

theorem related_record (differ : Lookup.DifferAt field.key node replaced lookup later)
    (decodes : Decoder.lenientInt64 depth replaced = .ok n) :
    field.record.Related depth lookup later fun row other => other = field.assign row n := by
  have named (default : Option Int64) :
      (Record.fieldWith field.key Decoder.lenientInt64 default).Related depth lookup later fun _ other => other = n :=
    Record.Related.field differ default fun _ _ => ⟨n, decodes, rfl⟩
  have kept {name : String} (other : name ≠ field.key) (default : Option Int64) :
      (Record.fieldWith name Decoder.lenientInt64 default).Related depth lookup later Eq :=
    Record.Related.other differ other Decoder.lenientInt64 default
  cases field with
  | createdAt =>
      refine (related_usage differ (by decide) (named none) (kept (by decide) _) (kept (by decide) _)).mono ?_
      rintro row _ ⟨c, k, t, rfl, rfl, rfl, rfl⟩
      rfl
  | count =>
      refine (related_usage differ (by decide) (kept (by decide) _) (named (some 0)) (kept (by decide) _)).mono ?_
      rintro row _ ⟨c, k, t, rfl, rfl, rfl, rfl⟩
      rfl
  | tokenUsed =>
      refine (related_usage differ (by decide) (kept (by decide) _) (kept (by decide) _) (named (some 0))).mono ?_
      rintro row _ ⟨c, k, t, rfl, rfl, rfl, rfl⟩
      rfl
  | nonCacheTokens =>
      refine (related_cache differ (by decide) (named (some 0)) (kept (by decide) _)).mono ?_
      rintro row _ ⟨m, h, rfl, rfl, rfl⟩
      rfl
  | cacheHitTokens =>
      refine (related_cache differ (by decide) (kept (by decide) _) (named (some 0))).mono ?_
      rintro row _ ⟨m, h, rfl, rfl, rfl⟩
      rfl

theorem assign_inj {row : field.Row} {m : Int64} : field.assign row n = field.assign row m ↔ n = m := by
  refine ⟨fun same => ?_, fun same => same ▸ rfl⟩
  cases field with
  | createdAt => exact congrArg UsageRecord.createdAt same
  | count => exact congrArg UsageRecord.count same
  | tokenUsed => exact congrArg UsageRecord.tokenUsed same
  | nonCacheTokens => exact congrArg CacheRecord.nonCacheTokens same
  | cacheHitTokens => exact congrArg CacheRecord.cacheHitTokens same

theorem lookup_key (field : WholeField) : field.record.fields.lookup field.key =
    some fun depth node => (Decoder.lenientInt64 depth node).map fun _ => () := by
  cases field <;> rfl

theorem exists_decoder_eq (field : WholeField) : ∃ title, field.decoder = field.record.decoder title .data := by
  cases field <;> exact ⟨_, rfl⟩

/-- The value of the field is decoded by itself, whatever the other members are. -/
theorem decoder_table_eq_ok_iff {before after : List (Option String × Node)} {row other : field.Row}
    (valid : field.decoder depth (.table (before ++ (some field.key, node) :: after)) = .ok row) :
    field.decoder depth (.table (before ++ (some field.key, replaced) :: after)) = .ok other ↔
      ∃ n, Decoder.lenientInt64 (depth - 1) replaced = .ok n ∧ other = field.assign row n := by
  obtain ⟨title, same⟩ := field.exists_decoder_eq
  rw [same] at valid ⊢
  have decoded (n : Int64) (decodes : Decoder.lenientInt64 (depth - 1) replaced = .ok n) :
      field.record.decoder title .data depth (.table (before ++ (some field.key, replaced) :: after)) =
        .ok (field.assign row n) := by
    have typed : (Decoder.lenientInt64 (depth - 1) node).map (fun _ => ()) = .ok () →
        (Decoder.lenientInt64 (depth - 1) replaced).map (fun _ => ()) = .ok () := fun _ => by
      rw [decodes]
      rfl
    obtain ⟨other, decoded, rfl⟩ :=
      Record.Related.decoder field.lookup_key typed (fun _ _ differ => related_record differ decodes) valid
    exact decoded
  constructor
  · intro found
    obtain ⟨-, accepts, -⟩ := Record.decoder_table_eq_ok_iff.mp found
    have there : (before ++ (some field.key, replaced) :: after).lookup (some field.key) = some replaced :=
      Record.lookup_of_notMem_before (accepts.notMem_before field.lookup_key) replaced
    have typed := accepts.typed field.key _ replaced field.lookup_key there
    obtain ⟨n, decodes, -⟩ := exists_of_map_eq_ok typed
    exact ⟨n, decodes, Except.ok.inj (found.symm.trans (decoded n decodes))⟩
  · rintro ⟨n, decodes, rfl⟩
    exact decoded n decodes

/-! ## Numbers in the texts of records -/

theorem decode_text (place : Place) {number : List Char} {numeral : Numeral}
    (lexed : Numeral.lex number = some (numeral, [])) :
    Json.decode field.decoder (place.text field.key number) =
      field.decoder Document.depthLimit (place.table field.key numeral.node) := by
  rw [Json.decode, place.read_text field.key lexed, Document.Reading.decode]
  cases field.decoder Document.depthLimit (place.table field.key numeral.node) <;> rfl

/-- The record is decoded, with the field as the integer that a number denotes, just if the number denotes one of
64 bits. -/
def Keeps (field : WholeField) (place : Place) (row : field.Row) (number : List Char) (numeral : Numeral) : Prop :=
  ∀ other, Json.decode field.decoder (place.text field.key number) = .ok other ↔
    ∃ n : Int64, numeral.value = n.toInt ∧ other = field.assign row n

variable {place : Place} {row : field.Row} {number : List Char} {numeral : Numeral}

theorem decode_eq_ok_iff (valid : Json.decode field.decoder (place.text field.key ['0']) = .ok row)
    (lexed : Numeral.lex number = some (numeral, [])) (other : field.Row) :
    Json.decode field.decoder (place.text field.key number) = .ok other ↔
      ∃ n, Decoder.lenientInt64 (Document.depthLimit - 1) numeral.node = .ok n ∧ other = field.assign row n := by
  have zero : Numeral.lex ['0'] = some (⟨false, ['0'], [], none⟩, []) := rfl
  rw [decode_text place zero] at valid
  rw [decode_text place lexed]
  exact decoder_table_eq_ok_iff valid

theorem keeps_iff (valid : Json.decode field.decoder (place.text field.key ['0']) = .ok row)
    (lexed : Numeral.lex number = some (numeral, [])) : field.Keeps place row number numeral ↔ numeral.IsKept := by
  simp only [Keeps, decode_eq_ok_iff valid lexed]
  constructor
  · intro kept depth n
    have same := kept (field.assign row n)
    simp only [assign_inj, exists_eq_right'] at same
    rw [numeral.lenientInt64_depth depth, same]
  · intro kept other
    simp only [kept _ _]

/-- The place of the tokens that are not cached in a cache record, between its time and no tokens that are. -/
def afterTime : Place where
  style := .compact
  spacing := Json.Style.isSpacing_compact
  before := [.written .compact "time" (.text "t")]
  after := [.written .compact "cache_hit_tokens" (.integer 0)]
  read_before := List.forall_mem_singleton.mpr (Json.Member.isRead_written Json.Style.isSpacing_compact _ trivial)
  read_after := List.forall_mem_singleton.mpr
    (Json.Member.isRead_written Json.Style.isSpacing_compact _ (Json.spells_integerChars (Json.fitsWord_toInt 0)))

/-- What is decoded where the value of a field is a number.  An integer that is written out is kept unless it is
rounded to the least one of 64 bits, a number of few digits unless it is an integer of too many bits, and any
number with a point or an exponent is decoded as the floating point number that it is read as. -/
theorem keeps_number_iff (valid : Json.decode field.decoder (place.text field.key ['0']) = .ok row)
    (lexed : Numeral.lex number = some (numeral, [])) :
    (numeral.IsPlain → (field.Keeps place row number numeral ↔ ¬numeral.RoundsToLeast)) ∧
    (numeral.HasFewDigits → (field.Keeps place row number numeral ↔
      ∀ n : Int64, numeral.value = n.toInt → Json.IsShort n.toInt)) ∧
    (¬numeral.IsPlain → ∀ other, Json.decode field.decoder (place.text field.key number) = .ok other ↔
      ∃ n : Int64, (∃ x, numeral.real? = some x ∧ Decimal.exactValue x = some (n.toInt : ℚ)) ∧
        other = field.assign row n) := by
  have digits := Json.isDigit_of_mem_whole lexed
  refine ⟨fun plain => ?_, fun short => ?_, fun marked other => ?_⟩
  · rw [keeps_iff valid lexed, Numeral.isKept_iff_of_plain digits plain]
  · rw [keeps_iff valid lexed, Numeral.isKept_iff_of_few_digits digits short]
  · rw [decode_eq_ok_iff valid lexed]
    simp only [Numeral.lenientInt64_eq_ok_iff_of_marked marked]

/-- Of three integers that are written in place of the tokens one is kept, one is clamped, and one is rounded. -/
theorem keeps_number_iff_afterTime :
    nonCacheTokens.Keeps afterTime (⟨"t", 0, 0⟩ : CacheRecord) "1.20e3".toList
      ⟨false, ['1'], ['2', '0'], some (false, ['3'])⟩ ∧
    ¬nonCacheTokens.Keeps afterTime (⟨"t", 0, 0⟩ : CacheRecord) "-9223372036854775809".toList
      ⟨true, "9223372036854775809".toList, [], none⟩ ∧
    Json.decode CacheRecord.decoder (afterTime.text "non_cache_tokens" "9007199254740993.0".toList) =
      .ok ⟨"t", 9007199254740994, 0⟩ := by
  have valid : Json.decode nonCacheTokens.decoder (afterTime.text nonCacheTokens.key ['0']) =
      .ok (⟨"t", 0, 0⟩ : CacheRecord) :=
    toOption_eq_some_iff.mp (show (Json.decode CacheRecord.decoder
      (afterTime.text "non_cache_tokens" ['0'])).toOption = some ⟨"t", 0, 0⟩ by decide +kernel)
  have spelled : Numeral.lex "1.20e3".toList = some (⟨false, ['1'], ['2', '0'], some (false, ['3'])⟩, []) := rfl
  have least : Numeral.lex "-9223372036854775809".toList =
      some (⟨true, "9223372036854775809".toList, [], none⟩, []) := rfl
  have pointed : Numeral.lex "9007199254740993.0".toList =
      some (⟨false, "9007199254740993".toList, ['0'], none⟩, []) := rfl
  refine ⟨((keeps_number_iff valid spelled).2.1 ?_).mpr ?_, ?_, ?_⟩
  · exact ⟨by decide +kernel, by simp only [Option.mem_some_iff, forall_eq']; decide, by decide +kernel⟩
  · intro n hn
    have value : (⟨false, ['1'], ['2', '0'], some (false, ['3'])⟩ : Numeral).value = (1200 : ℤ) := by decide +kernel
    rw [value, Int.cast_inj] at hn
    exact ⟨1200, 0, by norm_num, by rw [← hn]; rfl⟩
  · rw [(keeps_number_iff valid least).1 ⟨rfl, rfl⟩, not_not]
    exact ⟨by decide +kernel, by decide +kernel⟩
  · refine ((keeps_number_iff valid pointed).2.2 (fun plain => nomatch plain.1) _).mpr ⟨9007199254740994, ?_, rfl⟩
    exact Option.bind_eq_some_iff.mp (by decide +kernel)

/-- What is decoded from the text is not what is written in it. -/
theorem not_keeps {number : List Char} {numeral : Numeral} {row other : CacheRecord}
    (decoded : (Json.decode CacheRecord.decoder (afterTime.text "non_cache_tokens" number)).toOption = some other)
    (differs : numeral.value ≠ other.nonCacheTokens.toInt) :
    ¬nonCacheTokens.Keeps afterTime row number numeral := by
  intro keeps
  obtain ⟨n, same, rfl⟩ := (keeps other).mp (toOption_eq_some_iff.mp decoded)
  exact differs same

/-- An integer below the least one is decoded as the least one, and one with a point as another integer. -/
theorem clamps_and_rounds :
    ((Json.decode CacheRecord.decoder (afterTime.text "non_cache_tokens" "-9223372036854775809".toList)).toOption =
        some ⟨"t", Int64.minValue, 0⟩ ∧
      ¬nonCacheTokens.Keeps afterTime (⟨"t", 0, 0⟩ : CacheRecord) "-9223372036854775809".toList
        ⟨true, "9223372036854775809".toList, [], none⟩) ∧
    (Json.decode CacheRecord.decoder (afterTime.text "non_cache_tokens" "9007199254740993.0".toList)).toOption =
        some ⟨"t", 9007199254740994, 0⟩ ∧
      ¬nonCacheTokens.Keeps afterTime (⟨"t", 0, 0⟩ : CacheRecord) "9007199254740993.0".toList
        ⟨false, "9007199254740993".toList, ['0'], none⟩ := by
  have clamped : (Json.decode CacheRecord.decoder
      (afterTime.text "non_cache_tokens" "-9223372036854775809".toList)).toOption =
      some ⟨"t", Int64.minValue, 0⟩ := by decide +kernel
  have rounded : (Json.decode CacheRecord.decoder
      (afterTime.text "non_cache_tokens" "9007199254740993.0".toList)).toOption =
      some ⟨"t", 9007199254740994, 0⟩ := by decide +kernel
  exact ⟨⟨clamped, not_keeps clamped (by decide +kernel)⟩, rounded, not_keeps rounded (by decide +kernel)⟩

end WholeField

end UsageBoard.Usage
