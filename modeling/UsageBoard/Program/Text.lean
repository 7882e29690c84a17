import UsageBoard.Pages.Detail

/-!
# What is printed

The pages as text for a terminal.
-/

namespace UsageBoard.Program

open UsageBoard.Pages
open UsageBoard.Usage

def padded (width : Nat) (text : String) : String := text ++ String.ofList (List.replicate (width - text.length) ' ')

def indented (width : Nat) (text : String) : String := String.ofList (List.replicate (width - text.length) ' ') ++ text

def row (label value : String) : String := padded 13 (label ++ ":") ++ value

def accountLines (format : QuotaFormat) (account : Account) : List String :=
  [row "User" account.username, row "Balance" (format.render account.quota 2),
    row "Used" (format.render account.usedQuota 2),
    row "Requests" (toString account.requestCount.toInt), ""]

def rateLines : Option Rates → List String
  | some rates => [row "Avg RPM" (Decimal.fixed 3 rates.rpm), row "Avg TPM" (Decimal.fixed 3 rates.tpm)]
  | none => [row "Avg RPM" "-", row "Avg TPM" "-"]

def dashboardLines (format : QuotaFormat) (dashboard : Dashboard) (rates : Option Rates) :
    List String :=
  [row "Consumption" (format.render dashboard.totals.quota 2),
    row "Calls" (abbreviated (Decimal.ofInt dashboard.totals.requests.toInt)),
    row "Tokens" (abbreviated (Decimal.ofInt dashboard.totals.tokens.toInt))] ++
    rateLines rates ++
    ["", "Calls by model (" ++ dashboard.granularity.name ++ "):"] ++
    dashboard.callCounts.map fun c =>
      "  " ++ padded 40 c.model ++ " " ++ indented 10 (toString c.value.toInt)

def detailText (format : QuotaFormat) (view : DetailView) : String :=
  Landing.ofLines ((view.account.map (accountLines format)).getD [] ++
    (view.dashboard.map fun dashboard => dashboardLines format dashboard view.rates).getD [])

def contentText (builtIn : String) : PageContent → String
  | .builtIn => builtIn
  | .embed address => "Embedded page: " ++ address ++ "\n"
  | .html html => html ++ "\n"

def homeText (page : Home) : String :=
  (page.notice.map fun html => "Notice:\n" ++ html ++ "\n").getD "" ++
    contentText (Landing.builtIn.text page.call) page.content

def aboutPageText (page : About) : String := contentText aboutText page.content

def notificationText (notifications : List Notification) : String :=
  Landing.ofLines (notifications.map fun n => "[" ++ n.operation ++ "] " ++ n.message)

end UsageBoard.Program
