import UsageBoard.Text.Blank
import UsageBoard.Url.Host

/-!
# Addresses

An address has a scheme, which may have a host and more before the path, and a query and a
fragment after it.  `Url.parse` reads one and brings it into its one form.
-/

namespace UsageBoard

structure Authority where
  user : String
  /-- A password that is not empty. -/
  password : Option String
  /-- It may be empty where the scheme is not one of the net. -/
  host : String
  /-- The number after a colon, unless it is the scheme's own. -/
  number : Option Nat
deriving DecidableEq, Repr

structure Url where
  scheme : String
  authority : Option Authority
  path : String
  query : Option String
  fragment : Option String
deriving DecidableEq, Repr

namespace Url

/-- The schemes with hosts of the net, with their own numbers. -/
def netSchemes : List (String × Nat) := [("http", 80), ("https", 443), ("ws", 80), ("wss", 443), ("ftp", 21)]

def fileScheme : String := "file"

def isSpecial (scheme : String) : Bool := scheme == fileScheme || (netSchemes.lookup scheme).isSome

def hasHost (url : Url) : Bool :=
  match url.authority with
  | some authority => authority.host != ""
  | none => false

def authorityText (a : Authority) : String :=
  let credentials := a.user ++ ((a.password.map (":" ++ ·)).getD "")
  (if credentials = "" then "" else credentials ++ "@") ++ a.host ++
    ((a.number.map fun number => ":" ++ toString number).getD "")

def text (url : Url) : String :=
  let start :=
    match url.authority with
    | some a => "//" ++ authorityText a
    | none => if Text.startsWith url.path "//" then "/." else ""
  url.scheme ++ ":" ++ start ++ url.path ++ ((url.query.map ("?" ++ ·)).getD "") ++
    ((url.fragment.map ("#" ++ ·)).getD "")

def endsPath (c : Char) : Bool := c == '?' || c == '#'

def isSlash (special : Bool) (c : Char) : Bool := c == '/' || (special && c == '\\')

def splitBefore (test : Char → Bool) (cs : List Char) : List Char × List Char :=
  (cs.takeWhile fun c => !test c, cs.dropWhile fun c => !test c)

def scheme? (cs : List Char) : Option (String × List Char) :=
  match splitBefore (· == ':') cs with
  | (c :: name, _ :: rest) =>
      if c.isAlpha ∧ name.all fun d => d.isAlphanum || d == '+' || d == '-' || d == '.' then
        some (String.ofList ((c :: name).map Char.toLower), rest)
      else none
  | _ => none

def segments (special : Bool) : List Char → List (List Char)
  | [] => [[]]
  | c :: rest =>
      if isSlash special c then [] :: segments special rest
      else
        match segments special rest with
        | part :: parts => (c :: part) :: parts
        | [] => [[c]]

/-- A part of a path with its encoded points as points. -/
def withPoints : List Char → List Char
  | '%' :: '2' :: 'e' :: rest | '%' :: '2' :: 'E' :: rest => '.' :: withPoints rest
  | c :: rest => c :: withPoints rest
  | [] => []

def onePoint : List Char := ['.']

def twoPoints : List Char := ['.', '.']

/-- Follows the parts of a path; a single point stays and two points go back.  The parts before
are given in reverse. -/
def follow : (before : List (List Char)) → List (List Char) → List (List Char)
  | before, [] => before.reverse
  | before, part :: parts =>
      let point := withPoints part
      let before :=
        if point = twoPoints then before.drop 1 else if point = onePoint then before else part :: before
      follow (if (point = twoPoints ∨ point = onePoint) ∧ parts.isEmpty then [] :: before else before) parts

/-- The path of the text after its first slash. -/
def pathText (special : Bool) (cs : List Char) : String :=
  let parts := follow [] ((segments special cs).map (encode inPath))
  String.ofList (parts.flatMap fun part => '/' :: part)

/-- An address of which the query and the fragment are still to be read. -/
def withRest (scheme : String) (authority : Option Authority) (path : String) (cs : List Char) : Url :=
  let (query, fragment) := splitBefore (· == '#') cs
  { scheme, authority, path,
    query :=
      match query with
      | '?' :: query => some (String.ofList (encode (inQuery (isSpecial scheme)) query))
      | _ => none
    fragment :=
      match fragment with
      | _ :: fragment => some (String.ofList (encode inFragment fragment))
      | [] => none }

def splitAtLast (c : Char) (cs : List Char) : Option (List Char × List Char) :=
  if cs.contains c then
    let after := (cs.reverse.takeWhile (· != c)).reverse
    some (cs.take (cs.length - after.length - 1), after)
  else none

def credentials (cs : List Char) : String × Option String :=
  let encoded := fun part => String.ofList (encode inUserInfo part)
  match splitBefore (· == ':') cs with
  | (user, _ :: password) => (encoded user, if password.isEmpty then none else some (encoded password))
  | (user, []) => (encoded user, none)

/-- Splits before the colon of the number, which is not within brackets. -/
def splitNumber : (inside : Bool) → List Char → List Char × List Char
  | _, [] => ([], [])
  | inside, c :: rest =>
      if c = ':' ∧ inside = false then ([], c :: rest)
      else
        let (host, after) := splitNumber (if c = '[' then true else if c = ']' then false else inside) rest
        (c :: host, after)

/-- The number after a colon, unless it is the scheme's own or missing. -/
def number? (scheme : String) (digits : List Char) : Except UrlError (Option Nat) :=
  let value := Decimal.digitsValue digits
  if digits.all Char.isDigit ∧ value < 65536 then
    .ok (if digits.isEmpty ∨ netSchemes.lookup scheme = some value then none else some value)
  else .error .badNumber

def authority? [DomainNames] (scheme : String) (cs : List Char) : Except UrlError Authority := do
  let (userInfo, hostAndNumber) := (splitAtLast '@' cs).getD ([], cs)
  let (user, password) := credentials userInfo
  let (host, number) := splitNumber false hostAndNumber
  let special := isSpecial scheme
  if host.isEmpty ∧ (special ∨ !number.isEmpty ∨ user ≠ "" ∨ password.isSome) then
    throw .emptyHost
  let host ← if special then netHost? host else otherHost? host
  return ⟨user, password, String.ofList host, ← number? scheme (number.drop 1)⟩

def withAuthority? [DomainNames] (scheme : String) (cs : List Char) : Except UrlError Url := do
  let special := isSpecial scheme
  let (front, rest) := splitBefore (fun c => isSlash special c || endsPath c) cs
  let authority ← authority? scheme front
  let (path, rest) := splitBefore endsPath rest
  let path := if path.isEmpty ∧ !special then "" else pathText special (path.drop 1)
  return withRest scheme (some authority) path rest

def isDrive : List Char → Bool
  | [letter, mark] => letter.isAlpha && (mark == ':' || mark == '|')
  | _ => false

def file? [DomainNames] (cs : List Char) : Except UrlError Url := do
  let (named, rest) :=
    match cs with
    | a :: b :: rest => if isSlash true a ∧ isSlash true b then (true, rest) else (false, cs)
    | _ => (false, cs)
  let (front, after) := splitBefore (fun c => isSlash true c || endsPath c) rest
  let isHost := named && !front.isEmpty && !isDrive front
  let host ← if isHost then netHost? front else .ok []
  let (path, rest) := splitBefore endsPath (if isHost then after else rest)
  let path := match path with
    | c :: tail => if isSlash true c then tail else path
    | [] => []
  let host := if String.ofList host = "localhost" then "" else String.ofList host
  return withRest fileScheme (some ⟨"", none, host, none⟩) (pathText true path) rest

/-- Reads an address of a scheme that does not belong to the net, after the scheme. -/
def other? [DomainNames] (scheme : String) (cs : List Char) : Except UrlError Url :=
  match cs with
  | '/' :: '/' :: rest => withAuthority? scheme rest
  | _ =>
      let (path, rest) := splitBefore endsPath cs
      match path with
      | '/' :: tail => .ok (withRest scheme none (pathText false tail) rest)
      | _ => .ok (withRest scheme none (String.ofList (encode isControl path)) rest)

/-- Reads an address; blanks and controls around it and line breaks within do not count. -/
def parse [DomainNames] (text : String) : Except UrlError Url :=
  let trimmed := Text.trimBy (fun c => decide (c.toNat ≤ 0x20)) text.toList
  let cs := trimmed.filter fun c => c != '\t' && c != '\n' && c != '\r'
  match scheme? cs with
  | none => .error .relative
  | some (scheme, rest) =>
      if scheme = fileScheme then file? rest
      else if (netSchemes.lookup scheme).isSome then
        withAuthority? scheme (rest.dropWhile (isSlash true))
      else other? scheme rest

/-- Appends parameters to the query; an empty query without parameters is dropped. -/
def addParameters (url : Url) (pairs : List (String × String)) : Url :=
  let query :=
    match url.query, pairs with
    | none, [] => ""
    | some query, [] => query
    | none, _ => formQuery pairs
    | some query, _ => if query = "" then formQuery pairs else query ++ "&" ++ formQuery pairs
  { url with query := if query = "" then none else some query }

/-- The same address without the user's name and the password. -/
def withoutCredentials (url : Url) : Url :=
  { url with authority := url.authority.map fun a => { a with user := "", password := none } }

end Url

end UsageBoard
