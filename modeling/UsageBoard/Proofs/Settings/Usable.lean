import Mathlib.Control.Monad.Basic
import UsageBoard.Proofs.Settings.Marks
import UsageBoard.Settings.Loading
import UsageBoard.Store.Preferences
import UsageBoard.World

/-!
# Settings that can be used

What later steps divide by and shift times by is checked when settings are read, is right in the default
settings, and is checked once more where the store has another value.

## Main statements

* `Display.offsetOf?_eq`: which numbers of minutes lead to a time zone.
* `check_withOffset`: what becomes of an offset that is given.
* `given_settings_are_usable`: what holds of all settings that a run can have.
-/

namespace UsageBoard.Settings

open UsageBoard.Store (Entries)

variable {settings : Settings} {display : Display}

/-! ## Time zones -/

namespace Display

theorem toInt_of_secondsIn? {minutes seconds : Int32} (fits : secondsIn? minutes = some seconds) :
    seconds.toInt = 60 * minutes.toInt := by
  rw [secondsIn?, Option.ite_none_right_eq_some] at fits
  obtain ⟨⟨least, most⟩, same⟩ := fits
  rw [← Option.some.inj same, Int32.toInt_mul]
  have bounds : Int32.minValue.toInt = -2147483648 ∧ Int32.maxValue.toInt = 2147483647 := by decide
  have sixty : (60 : Int32).toInt = 60 := by decide
  rw [sixty]
  exact Int.bmod_eq_of_le (by omega) (by omega)

theorem exists_secondsIn? {minutes : Int32} (near : -1440 < minutes.toInt ∧ minutes.toInt < 1440) :
    ∃ seconds, secondsIn? minutes = some seconds := by
  have bounds : Int32.minValue.toInt = -2147483648 ∧ Int32.maxValue.toInt = 2147483647 := by decide
  exact ⟨60 * minutes, if_pos (by omega)⟩

/-- A zone is less than a day away from UTC; a number of minutes of which the seconds cannot be counted
leads to none. -/
theorem offsetOf?_eq (minutes : Int32) :
    offsetOf? minutes =
      if -1440 < minutes.toInt ∧ minutes.toInt < 1440 then some (60 * minutes.toInt) else none := by
  cases fits : secondsIn? minutes with
  | none =>
      have far : ¬(-1440 < minutes.toInt ∧ minutes.toInt < 1440) := by
        intro near
        obtain ⟨seconds, found⟩ := exists_secondsIn? near
        rw [fits] at found
        cases found
      rw [offsetOf?, fits, if_neg far]
      rfl
  | some seconds =>
      rw [offsetOf?, fits, Option.bind_some, zone?, toInt_of_secondsIn? fits]
      unfold daySeconds
      exact if_congr (by omega) rfl rfl

theorem offsetIn_of_near {minutes : Int32} (given : display.offsetMinutes = some minutes)
    (near : -1440 < minutes.toInt ∧ minutes.toInt < 1440) (own : Int) :
    display.offsetIn own = 60 * minutes.toInt := by
  rw [offsetIn, given, Option.bind_some, offsetOf?_eq, if_pos near]
  rfl

end Display

/-! ## Checks -/

/-- A number of units that an amount can be divided by. -/
def IsUnit (perUnit : Float) : Prop := perUnit.isFinite = true ∧ 0.0 < perUnit

/-- What has been read from the store does not take the place of a unit unless it is one. -/
theorem isUnit_withOverrides {format : QuotaFormat} (unit : IsUnit format.perUnit)
    (perUnit inCurrency : Option String) : IsUnit (format.withOverrides perUnit inCurrency).perUnit := by
  unfold QuotaFormat.withOverrides
  cases perUnit.bind Decimal.parse? with
  | none => exact unit
  | some value =>
      dsimp only
      split
      · rename_i checked
        simpa [IsUnit] using checked
      · exact unit

theorem isUnit_withStored {format : QuotaFormat} (unit : IsUnit format.perUnit) (entries : Entries) :
    IsUnit (format.withStored entries).perUnit :=
  isUnit_withOverrides unit (entries.get? StoreKey.quotaPerUnit) (entries.get? StoreKey.inCurrency)

theorem check_eq_ok_iff [Url.DomainNames] :
    settings.check = .ok () ↔ settings.backend.check = .ok () ∧ settings.display.check = .ok () := by
  unfold check
  cases settings.backend.check with
  | error misfit => exact iff_of_false nofun fun h => nomatch h.1
  | ok done => exact (and_iff_right rfl).symm

theorem check_of_ofText [Url.DomainNames] {env : Environment} {text : String}
    (read : ofText env text = .ok settings) : settings.check = .ok () := by
  rw [ofText_eq] at read
  obtain ⟨expanded, -, decoded⟩ := exists_of_bind_eq_ok read
  exact (ofExpanded_eq_ok_iff.mp decoded).2

theorem Backend.timeout_of_check [Url.DomainNames] {backend : Backend}
    (checked : backend.check = .ok ()) : backend.timeoutSeconds ≠ some 0 := by
  unfold Backend.check at checked
  intro zero
  cases read : Url.parse backend.baseUrl with
  | error why =>
      rw [read] at checked
      cases checked
  | ok url =>
      rw [read] at checked
      dsimp only at checked
      rw [if_pos zero] at checked
      split at checked <;> cases checked

theorem Display.isUnit_of_check (checked : display.check = .ok ()) : IsUnit display.quotaPerUnit := by
  unfold Display.check at checked
  split at checked
  · cases checked
  · rename_i unit
    simpa [IsUnit] using unit

theorem Display.check_of_isUnit (unit : IsUnit display.quotaPerUnit) :
    display.check =
      match display.offsetMinutes with
      | none => .ok ()
      | some minutes =>
          if -1440 < minutes.toInt ∧ minutes.toInt < 1440 then .ok () else .error (.offset minutes) := by
  unfold Display.check
  rw [if_neg (by simpa [IsUnit] using unit)]
  cases display.offsetMinutes with
  | none => rfl
  | some minutes =>
      dsimp only
      rw [offsetOf?_eq]
      split <;> rfl

theorem Display.near_of_check (checked : display.check = .ok ()) {minutes : Int32}
    (given : display.offsetMinutes = some minutes) : -1440 < minutes.toInt ∧ minutes.toInt < 1440 := by
  rw [check_of_isUnit (isUnit_of_check checked), given] at checked
  dsimp only at checked
  split at checked
  · assumption
  · cases checked

/-! ## Settings of a run -/

/-- Whatever the store holds, amounts can be divided; requests are given time; and an offset that is
given is the offset that is used, on every machine. -/
structure IsUsable (settings : Settings) : Prop where
  unit : ∀ entries : Entries, IsUnit (settings.display.quotaFormat.withStored entries).perUnit
  timeout : settings.backend.timeoutSeconds ≠ some 0
  offset : ∀ minutes, settings.display.offsetMinutes = some minutes →
    ∀ own, settings.display.offsetIn own = 60 * minutes.toInt

theorem isUsable_of_check [Url.DomainNames] (checked : settings.check = .ok ()) :
    settings.IsUsable where
  unit := isUnit_withStored (Display.isUnit_of_check (check_eq_ok_iff.mp checked).2)
  timeout := Backend.timeout_of_check (check_eq_ok_iff.mp checked).1
  offset _ given := Display.offsetIn_of_near given
    (Display.near_of_check (check_eq_ok_iff.mp checked).2 given)

/-- No check has been made of the default settings. -/
theorem isUsable_default : default.IsUsable where
  unit := isUnit_withStored ⟨by decide +kernel, by decide +kernel⟩
  timeout := nofun
  offset := nofun

theorem ofText_or_default_of_load [Url.DomainNames] {σ : Type} {fx : Effects (StateM σ)}
    {env : Environment} {path : Option String} {s : σ} (loaded : ((load fx env path).run s).1 = .ok settings) :
    (∃ text, ofText env text = .ok settings) ∨ settings = default := by
  have ofFile_ok {path : String} {s : σ} (loaded : ((ofFile fx env path).run s).1 = .ok settings) :
      ∃ text, ofText env text = .ok settings := by
    obtain ⟨text, -, read⟩ := exists_of_bind_eq_ok loaded
    exact ⟨text, read⟩
  cases path with
  | some path => exact .inl (ofFile_ok loaded)
  | none =>
      unfold load at loaded
      cases place : defaultPath? env with
      | none =>
          rw [place] at loaded
          exact .inr (Except.ok.inj loaded).symm
      | some path =>
          simp only [place, run_bind_eq] at loaded
          split at loaded
          · exact .inl (ofFile_ok loaded)
          · exact .inr (Except.ok.inj loaded).symm

/-- The same settings with another offset, or none. -/
def withOffset (settings : Settings) (minutes : Option Int32) : Settings :=
  { settings with display := { settings.display with offsetMinutes := minutes } }

/-- Of settings that are right otherwise, only the offset is left to be checked. -/
theorem check_withOffset [Url.DomainNames] (checked : (settings.withOffset none).check = .ok ())
    (minutes : Int32) :
    let given := settings.withOffset (some minutes)
    given.check = given.display.check ∧ given.display.check =
      if -1440 < minutes.toInt ∧ minutes.toInt < 1440 then .ok () else .error (.offset minutes) := by
  intro given
  obtain ⟨backend, display⟩ := check_eq_ok_iff.mp checked
  have unit : IsUnit (settings.withOffset none).display.quotaPerUnit := Display.isUnit_of_check display
  have accepted : given.backend.check = .ok () := backend
  constructor
  · rw [check, accepted]
    rfl
  · exact Display.check_of_isUnit unit

theorem given_settings_are_usable [Url.DomainNames] (env : Environment) :
    (∀ text settings, ofText env text = .ok settings → settings.IsUsable) ∧
      (∀ {σ : Type} (fx : Effects (StateM σ)) path s settings,
        ((load fx env path).run s).1 = .ok settings → settings.IsUsable) ∧
      ∀ (settings : Settings) (minutes : Int32), (settings.withOffset none).check = .ok () →
        let given := settings.withOffset (some minutes)
        (given.display.check = .ok () ↔ -1440 < minutes.toInt ∧ minutes.toInt < 1440) ∧
          (given.display.check ≠ .ok () → given.check = .error (.offset minutes)) ∧
          (given.display.check = .ok () →
            given.check = .ok () ∧ ∀ own, given.display.offsetIn own = 60 * minutes.toInt) := by
  refine ⟨fun text settings read => isUsable_of_check (check_of_ofText read), ?_, ?_⟩
  · intro σ fx path s settings loaded
    rcases ofText_or_default_of_load loaded with ⟨text, read⟩ | rfl
    · exact isUsable_of_check (check_of_ofText read)
    · exact isUsable_default
  · intro settings minutes checked given
    obtain ⟨whole, shown⟩ := check_withOffset checked minutes
    by_cases near : -1440 < minutes.toInt ∧ minutes.toInt < 1440
    · rw [if_pos near] at shown
      have usable := isUsable_of_check (whole.trans shown)
      exact ⟨iff_of_true shown near, fun wrong => absurd shown wrong,
        fun _ => ⟨whole.trans shown, usable.offset minutes rfl⟩⟩
    · rw [if_neg near] at shown
      have wrong : given.display.check ≠ .ok () := by
        rw [shown]
        nofun
      exact ⟨iff_of_false wrong near, fun _ => whole.trans shown, fun right => absurd right wrong⟩

open scoped Url.Alphabets in
/-- The longest offset to the west, a store in which the unit is no number, and a number of minutes of which
the seconds cannot be counted. -/
theorem given_settings_are_usable_of_west :
    let text := "[backend]\ntimeout_secs = 1\n[display]\nquota_per_unit = 0.5\nutc_offset_minutes = -1439\n"
    let env : Environment := ⟨fun _ => none, none, 0⟩
    let stored := Entries.empty.apply (.put StoreKey.quotaPerUnit "NaN")
    (∃ settings, ofText env text = .ok settings ∧ settings.display.offsetIn 3600 = -86340 ∧
        IsUnit (settings.display.quotaFormat.withStored stored).perUnit) ∧
      ((load World.effects env none).run (World.initial .empty [] 0 fun _ _ => none)).1 = .ok default ∧
      IsUnit (default.display.quotaFormat.withStored stored).perUnit ∧
      (default.withOffset none).check = .ok () ∧
      (default.withOffset (some 35791395)).check = .error (.offset 35791395) := by
  intro text env stored
  obtain ⟨ofRead, ofLoaded, ofOffset⟩ := given_settings_are_usable env
  have loaded :
      ((load World.effects env none).run (World.initial .empty [] 0 fun _ _ => none)).1 = .ok default := rfl
  have checked : (default.withOffset none).check = .ok () := by decide +kernel
  obtain ⟨near, refused, -⟩ := ofOffset default 35791395 checked
  have far : ¬(-1440 < (35791395 : Int32).toInt ∧ (35791395 : Int32).toInt < 1440) := by decide
  refine ⟨?_, loaded, (ofLoaded World.effects none _ default loaded).unit stored, checked,
    refused fun accepted => far (near.mp accepted)⟩
  have given : ((ofText env text).toOption.bind fun settings => settings.display.offsetMinutes) =
      some (-1439) := by decide +kernel
  cases read : ofText env text with
  | error fault =>
      rw [read] at given
      cases given
  | ok settings =>
      rw [read] at given
      have usable := ofRead text settings read
      exact ⟨settings, rfl, usable.offset (-1439) given 3600, usable.unit stored⟩

end UsageBoard.Settings
