import UsageBoard.Backend.Endpoint
import UsageBoard.Settings.Basic
import UsageBoard.Url.Parser

/-!
# Requests to the backend

A client turns an endpoint into a request: the address of the backend, the path of the endpoint and
its parameters, and who asks.
-/

namespace UsageBoard.Backend

structure Request where
  url : Url
  authorization : Option String
  userId : Option Int64
  timeoutSeconds : Option UInt64
deriving DecidableEq

def version : String := "0.1.0"

def userAgent : String := "harbor-dashboard/" ++ version

structure Client where
  /-- The address of the backend without slashes at its end. -/
  baseUrl : String
  authorization : Option String
  userId : Option Int64
  timeoutSeconds : Option UInt64
deriving DecidableEq

namespace Client

def inHeader (c : Char) : Bool := c == '\t' || (decide (0x20 ≤ c.toNat) && c != '\x7f')

def withoutSlashes (text : String) : String :=
  String.ofList (text.toList.reverse.dropWhile (· == '/')).reverse

/-- What a request says about who asks, for an access token that is fit for a header. -/
def authorizationOf? (token : Option String) : Except CallError (Option String) :=
  match token with
  | some token =>
      if token = "" then .ok none
      else if token.toList.all inHeader then .ok (some ("Bearer " ++ token))
      else .error (.invalidClient "access token: failed to parse header value")
  | none => .ok none

def ofSettings (settings : Settings.Backend) : Except CallError Client :=
  (authorizationOf? settings.accessToken).map fun authorization =>
    ⟨withoutSlashes settings.baseUrl, authorization, settings.userId, settings.timeoutSeconds⟩

def sixBitDigits : List Char :=
  "ABCDEFGHIJKLMNOPQRSTUVWXYZabcdefghijklmnopqrstuvwxyz0123456789+/".toList

def sixBitDigit (n : Nat) : Char := sixBitDigits.getD (n % 64) 'A'

/-- Bytes in digits of six bits, filled up to groups of four. -/
def sixBits : List UInt8 → List Char
  | [] => []
  | [a] =>
      let n := a.toNat * 16
      [sixBitDigit (n / 64), sixBitDigit n, '=', '=']
  | [a, b] =>
      let n := (a.toNat * 256 + b.toNat) * 4
      [sixBitDigit (n / 4096), sixBitDigit (n / 64), sixBitDigit n, '=']
  | a :: b :: c :: rest =>
      let n := (a.toNat * 256 + b.toNat) * 256 + c.toNat
      sixBitDigit (n / 262144) :: sixBitDigit (n / 4096) :: sixBitDigit (n / 64) :: sixBitDigit n ::
        sixBits rest

def ownAuthorization (url : Url) : Option String :=
  match url.authority with
  | none => none
  | some a =>
      if a.user = "" ∧ a.password.isNone then none
      else
        let credentials :=
          Url.decode a.user.toList ++ ':'.toNat.toUInt8 :: Url.decode (a.password.getD "").toList
        some ("Basic " ++ String.ofList (sixBits credentials))

def sendable (url : Url) : Bool := url.scheme == "http" || url.scheme == "https"

def address? [Url.DomainNames] (client : Client) (path : String) : Except CallError Url :=
  match Url.parse (client.baseUrl ++ path) with
  | .error _ => .error (.unbuildable none)
  | .ok url => if url.hasHost then .ok url else .error (.unbuildable (some url.text))

def request? [Url.DomainNames] {α : Type} (client : Client) (endpoint : Endpoint α) :
    Except CallError Request := do
  let url ← client.address? endpoint.path
  let target := url.withoutCredentials.addParameters endpoint.parameters
  if sendable url then
    let authorization :=
      match ownAuthorization url with
      | some own => some own
      | none => client.authorization
    return ⟨target, authorization, client.userId, client.timeoutSeconds⟩
  else throw (.unbuildable (some target.text))

end Client

end UsageBoard.Backend
