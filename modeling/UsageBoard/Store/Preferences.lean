import UsageBoard.Quota
import UsageBoard.Store.Local

/-!
# What the store remembers

The public settings of the site, as they were last fetched, and the granularity that was last picked.
-/

namespace UsageBoard

open UsageBoard.Store (Edit Entries)
open UsageBoard.Usage (Granularity)

variable {m : Type → Type} [Monad m]

def truthText (value : Bool) : String := if value then "true" else "false"

/-- What the store remembers of a site's settings.  An empty footer makes it forget the old one; what
is not given stays as it is. -/
def SiteStatus.edits (status : SiteStatus) : List Edit :=
  (status.systemName.map (Edit.put StoreKey.systemName)).toList ++
    (status.footerHtml.map fun html =>
      if html = "" then Edit.erase StoreKey.footerHtml else Edit.put StoreKey.footerHtml html).toList ++
    (status.quotaPerUnit.map fun x => Edit.put StoreKey.quotaPerUnit (Decimal.displayText x)).toList ++
    (status.displayInCurrency.map fun b => Edit.put StoreKey.inCurrency (truthText b)).toList

def LocalStore.sync [Url.DomainNames] (fx : Effects m) (client : Backend.Client) (store : LocalStore) :
    m (Backend.Outcome SiteStatus × LocalStore) := do
  match ← client.call fx Backend.Endpoint.status with
  | .error fault => return (.error fault, store)
  | .ok status => do
      let store ← store.editAll fx status.edits
      fx.log ⟨.debug, ["services", "status"], "Synced site status",
        [("system_name", status.systemName.getD "")]⟩
      return (.ok status, store)

/-- How quota is shown, as the site's settings have it. -/
def QuotaFormat.withStored (format : QuotaFormat) (entries : Entries) : QuotaFormat :=
  format.withOverrides (entries.get? StoreKey.quotaPerUnit) (entries.get? StoreKey.inCurrency)

def Store.Entries.granularity (entries : Entries) (fallback : Granularity) : Granularity :=
  match entries.get? StoreKey.granularity with
  | some text =>
      match Granularity.parse text with
      | .ok granularity => granularity
      | .error _ => fallback
  | none => fallback

/-- The granularity that was last picked; a text that is none is logged. -/
def LocalStore.granularity (fx : Effects m) (store : LocalStore) (fallback : Granularity) :
    m Granularity := do
  match store.get? StoreKey.granularity with
  | some text =>
      match Granularity.parse text with
      | .ok _ => pure ()
      | .error found =>
          fx.log ⟨.warn, ["pages", "detail"], "Ignoring stored granularity",
            [("value", text), ("error", Granularity.unknownMessage found)]⟩
  | none => pure ()
  return store.entries.granularity fallback

def rememberGranularity (granularity : Granularity) : Edit :=
  .put StoreKey.granularity granularity.name

end UsageBoard
