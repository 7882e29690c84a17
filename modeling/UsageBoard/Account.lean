import UsageBoard.Document.Decoder
import UsageBoard.Json.Value

/-!
# The signed-in user's account
-/

namespace UsageBoard

open UsageBoard.Document

structure Account where
  id : Int64
  username : String
  displayName : String
  role : Int64
  /-- The remaining balance in quota units. -/
  quota : Float
  usedQuota : Float
  requestCount : Int64
  group : String
deriving Inhabited

namespace Account

def empty : Account := ⟨0, "", "", 0, 0.0, 0.0, 0, ""⟩

/-- The role of administrators; higher roles are theirs too. -/
def adminRole : Int64 := 10

def isAdmin (account : Account) : Bool := decide (adminRole ≤ account.role)

def record : Record Account :=
  Account.mk <$> Record.defaulted "id" Decoder.int64 0
    <*> Record.defaulted "username" Decoder.string ""
    <*> Record.defaulted "display_name" Decoder.string ""
    <*> Record.defaulted "role" Decoder.int64 0
    <*> Record.defaulted "quota" Decoder.real 0.0
    <*> Record.defaulted "used_quota" Decoder.real 0.0
    <*> Record.defaulted "request_count" Decoder.int64 0
    <*> Record.defaulted "group" Decoder.string ""

def decoder : Decoder Account := record.decoder "UserProfile" .data

def toJson (account : Account) : Json :=
  .object [("id", .integer account.id.toInt), ("username", .text account.username),
    ("display_name", .text account.displayName), ("role", .integer account.role.toInt),
    ("quota", .real account.quota), ("used_quota", .real account.usedQuota),
    ("request_count", .integer account.requestCount.toInt), ("group", .text account.group)]

end Account

end UsageBoard
