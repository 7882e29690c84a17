import UsageBoard.Document.Decoder
import UsageBoard.Json.Value

/-!
# The public settings of a site
-/

namespace UsageBoard

open UsageBoard.Document

/-- The public settings that the backend publishes; each may be missing. -/
structure SiteStatus where
  systemName : Option String
  footerHtml : Option String
  quotaPerUnit : Option Float
  displayInCurrency : Option Bool
  version : Option String
deriving Inhabited

namespace SiteStatus

def empty : SiteStatus := ⟨none, none, none, none, none⟩

def record : Record SiteStatus :=
  SiteStatus.mk <$> Record.optional "system_name" Decoder.string
    <*> Record.optional "footer_html" Decoder.string
    <*> Record.optional "quota_per_unit" Decoder.real
    <*> Record.optional "display_in_currency" Decoder.bool
    <*> Record.optional "version" Decoder.string

def decoder : Decoder SiteStatus := record.decoder "StatusInfo" .data

def toJson (status : SiteStatus) : Json :=
  .object [("system_name", Json.ofOption .text status.systemName),
    ("footer_html", Json.ofOption .text status.footerHtml),
    ("quota_per_unit", Json.ofOption .real status.quotaPerUnit),
    ("display_in_currency", Json.ofOption .bool status.displayInCurrency),
    ("version", Json.ofOption .text status.version)]

end SiteStatus

end UsageBoard
