import UsageBoard.Account
import UsageBoard.Backend.Status
import UsageBoard.Json.Parser
import UsageBoard.Site
import UsageBoard.Text.Utf8
import UsageBoard.Usage.Granularity
import UsageBoard.Usage.Record

/-!
# Endpoints of the backend

An endpoint is a path with parameters and the data that are found there.  Every reply is an envelope:
whether the backend did what was asked, a message, and the data.
-/

namespace UsageBoard.Backend

open UsageBoard.Document
open UsageBoard.Usage (CacheRecord Granularity UsageRecord)

inductive CallError where
  /-- No request can be made; the address is given if there is one. -/
  | unbuildable (url : Option String)
  /-- No reply came. -/
  | unreachable (url : String)
  | status (code : Nat)
  /-- The backend says that it failed. -/
  | refused (message : String)
  | malformed (path : String) (fault : DecodeError)
  | invalidClient (text : String)

namespace CallError

def message : CallError → String
  | unbuildable none => "HTTP request failed: builder error"
  | unbuildable (some url) => "HTTP request failed: builder error for url (" ++ url ++ ")"
  | unreachable url => "HTTP request failed: error sending request for url (" ++ url ++ ")"
  | status code => "Backend returned HTTP " ++ statusText code
  | refused message => message
  | malformed path fault =>
      "Invalid response format: " ++ path ++ ": " ++ fault.message Json.numberLayout
  | invalidClient text => "Invalid client configuration: " ++ text

def isApplication : CallError → Bool
  | refused _ => true
  | _ => false

end CallError

abbrev Outcome (α : Type) := Except CallError α

structure Reply where
  status : Nat
  body : ByteArray

structure Envelope (α : Type) where
  success : Bool
  message : String
  data : Option α

namespace Envelope

def defaultMessage : String := "request failed"

def decoder {α : Type} (data : Decoder α) : Decoder (Envelope α) :=
  (Envelope.mk <$> Record.required "success" Decoder.bool
    <*> Record.defaulted "message" Decoder.string ""
    <*> Record.optional "data" data).decoder "Envelope" .data

/-- The data, or those of an envelope without data. -/
def outcome {α : Type} (envelope : Envelope α) (empty : α) : Outcome α :=
  if envelope.success then .ok (envelope.data.getD empty)
  else .error (.refused (if envelope.message = "" then defaultMessage else envelope.message))

end Envelope

structure Endpoint (α : Type) where
  path : String
  parameters : List (String × String)
  decoder : Decoder α
  /-- The data of an envelope without data. -/
  empty : α

def stain : Char := Char.ofNat 0x10FFFF

def Reply.document (reply : Reply) : Reading :=
  match String.fromUTF8? reply.body with
  | some text => Json.read text
  | none => Json.readChars (some stain) (Text.decodeWith stain reply.body.toList)

def Endpoint.outcome {α : Type} (endpoint : Endpoint α) (reply : Reply) : Outcome α :=
  if isSuccess reply.status then
    match reply.document.decode (Envelope.decoder endpoint.decoder) with
    | .ok envelope => envelope.outcome endpoint.empty
    | .error fault => .error (.malformed endpoint.path fault)
  else .error (.status reply.status)

inductive Scope where
  | own
  /-- All users, or one of them if the name is not empty. -/
  | everyone (username : String)
deriving DecidableEq, Repr

structure UsageQuery where
  start : Int64
  stop : Int64
  granularity : Granularity
  username : Option String
  modelName : Option String
deriving DecidableEq

namespace UsageQuery

def parameters (query : UsageQuery) : List (String × String) :=
  [("start_timestamp", toString query.start.toInt), ("end_timestamp", toString query.stop.toInt),
    ("default_time", query.granularity.name)]

/-- A parameter for a text that is there and not empty. -/
def given (name : String) : Option String → List (String × String)
  | some value => if value = "" then [] else [(name, value)]
  | none => []

end UsageQuery

namespace Endpoint

def usage (scope : Scope) (query : UsageQuery) : Endpoint (List UsageRecord) :=
  match scope with
  | .own => ⟨"/api/data/self/", query.parameters, Decoder.list UsageRecord.decoder, []⟩
  | .everyone username =>
      ⟨"/api/data/", query.parameters ++ [("username", username)], Decoder.list UsageRecord.decoder, []⟩

def cacheHits (query : UsageQuery) : Endpoint (List CacheRecord) :=
  ⟨"/api/log/token/cache/hit",
    query.parameters ++ UsageQuery.given "username" query.username ++
      UsageQuery.given "model_name" query.modelName,
    Decoder.list CacheRecord.decoder, []⟩

def account : Endpoint Account := ⟨"/api/user/self", [], Account.decoder, Account.empty⟩

def status : Endpoint SiteStatus := ⟨"/api/status", [], SiteStatus.decoder, SiteStatus.empty⟩

def notice : Endpoint String := ⟨"/api/notice", [], Decoder.string, ""⟩

def homePage : Endpoint String := ⟨"/api/home_page_content", [], Decoder.string, ""⟩

def about : Endpoint String := ⟨"/api/about", [], Decoder.string, ""⟩

end Endpoint

end UsageBoard.Backend
