import UsageBoard.Backend.Client
import UsageBoard.Text.Parts

/-!
# Messages

A request as the bytes that are sent, and a reply from the bytes that come back.  The connection is
used once, so a body of unknown length ends where the bytes end.
-/

namespace UsageBoard.Backend

/-! ## Requests -/

namespace Request

def target (request : Request) : String :=
  (if request.url.path = "" then "/" else request.url.path) ++
    ((request.url.query.map ("?" ++ ·)).getD "")

/-- The host with its number, unless that is the scheme's own. -/
def hostText (request : Request) : String :=
  match request.url.authority with
  | some a => a.host ++ ((a.number.map fun number => ":" ++ toString number).getD "")
  | none => ""

def headers (request : Request) : List (String × String) :=
  [("host", request.hostText), ("user-agent", userAgent), ("accept", "*/*"), ("connection", "close")] ++
    (request.authorization.map fun text => ("authorization", text)).toList ++
    (request.userId.map fun id => ("new-api-user", toString id.toInt)).toList

def message (request : Request) : String :=
  "GET " ++ request.target ++ " HTTP/1.1\r\n" ++
    String.join (request.headers.map fun (name, value) => name ++ ": " ++ value ++ "\r\n") ++ "\r\n"

end Request

/-! ## Replies -/

/-- The first line of some bytes, each byte as a character, and the bytes after it. -/
def takeLine : List UInt8 → Option (List Char × List UInt8)
  | [] => none
  | byte :: rest =>
      if byte = 10 then some ([], rest)
      else
        (takeLine rest).map fun (line, rest) =>
          (if byte = 13 ∧ line = [] then [] else Char.ofNat byte.toNat :: line, rest)

theorem length_of_takeLine {bytes rest : List UInt8} {line : List Char}
    (h : takeLine bytes = some (line, rest)) : rest.length < bytes.length := by
  induction bytes generalizing line rest with
  | nil => simp [takeLine] at h
  | cons byte bytes ih =>
      rw [takeLine] at h
      split at h
      · simp only [Option.some.injEq, Prod.mk.injEq] at h
        simp [← h.2]
      · obtain ⟨⟨found, left⟩, hfound, heq⟩ := Option.map_eq_some_iff.1 h
        simp only [Prod.mk.injEq] at heq
        have := ih hfound
        simp only [List.length_cons, ← heq.2]
        omega

/-- The lines up to an empty one, and the bytes after that. -/
def takeHead (bytes : List UInt8) : Option (List (List Char) × List UInt8) :=
  match h : takeLine bytes with
  | none => none
  | some ([], rest) => some ([], rest)
  | some (line, rest) =>
      have := length_of_takeLine h
      (takeHead rest).map fun (lines, rest) => (line :: lines, rest)
termination_by bytes.length

def hexPrefixValue (line : List Char) : Nat :=
  (line.takeWhile fun c => (Json.hexValue? c).isSome).foldl
    (fun n c => 16 * n + (Json.hexValue? c).getD 0) 0

/-- The body in chunks, each after a line with its size; a chunk of no bytes ends it. -/
def joinChunks (bytes : List UInt8) : List UInt8 :=
  match h : takeLine bytes with
  | none => []
  | some (line, rest) =>
      have := length_of_takeLine h
      let size := hexPrefixValue line
      if size = 0 then [] else rest.take size ++ joinChunks (rest.drop (size + 2))
termination_by bytes.length
decreasing_by simp only [List.length_drop]; omega

def headerOf (line : List Char) : String × String :=
  (Text.lower (String.ofList (line.takeWhile (· != ':'))),
    Text.trim (String.ofList ((line.dropWhile (· != ':')).drop 1)))

def statusOf? (line : List Char) : Option Nat :=
  match Text.parts ' ' line with
  | _ :: code :: _ => (String.ofList code).toNat?
  | _ => none

/-- The body of a reply, given its headers and the bytes after them. -/
def bodyOf (headers : List (String × String)) (bytes : List UInt8) : List UInt8 :=
  if headers.lookup "transfer-encoding" = some "chunked" then joinChunks bytes
  else
    match (headers.lookup "content-length").bind String.toNat? with
    | some size => bytes.take size
    | none => bytes

def Reply.ofBytes? (bytes : ByteArray) : Option Reply :=
  match takeHead bytes.toList with
  | some (first :: lines, rest) =>
      (statusOf? first).map fun status => ⟨status, ⟨(bodyOf (lines.map headerOf) rest).toArray⟩⟩
  | _ => none

end UsageBoard.Backend
