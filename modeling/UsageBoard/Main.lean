import Std.Async.DNS
import Std.Async.TCP
import Std.Async.Timer
import Std.Time.DateTime.Timestamp
import Std.Time.Zoned.Database
import UsageBoard.Backend.Message
import UsageBoard.Log.Line
import UsageBoard.Program.Run
import UsageBoard.Url.Alphabets

/-!
# The program

The program as it is started: its means act on the files, the net and the clock of the machine.
-/

namespace UsageBoard.Main

open Std.Async
open Std.Net (IPAddr SocketAddress)

/-! ## Files -/

/-- The fault that an error of the operating system stands for. -/
def faultOf (e : IO.Error) : Files.Fault :=
  match e with
  | .noFileOrDirectory _ _ _ => .notFound
  | .alreadyExists _ _ _ => .alreadyExists
  | .inappropriateType _ code _ => if code = 20 then .notFolder else .isFolder
  | other => .other (toString other)

def attempt {α : Type} (action : IO α) : IO (Except Files.Fault α) := do
  try
    return .ok (← action)
  catch e =>
    return .error (faultOf e)

def exists? (path : String) : IO Bool := do
  try
    discard <| IO.FS.realPath path
    return true
  catch _ =>
    return false

/-! ## The net -/

def socketsOf (host : String) (number : UInt16) : Async (List SocketAddress) := do
  let plain := String.ofList (host.toList.filter fun c => c != '[' && c != ']')
  let addresses ← DNS.getAddrInfo plain (toString number)
  return addresses.toList.map fun address =>
    match address with
    | .v4 found => .v4 ⟨found, number⟩
    | .v6 found => .v6 ⟨found, number⟩

/-- Receives bytes until the other side closes the connection. -/
partial def receive (socket : TCP.Socket.Client) (soFar : ByteArray) : Async ByteArray := do
  match ← socket.recv? 65536 with
  | some bytes => receive socket (soFar ++ bytes)
  | none => return soFar

/-- Sends a request to one address after the other until one of them takes it. -/
def exchange (message : ByteArray) : List SocketAddress → Async (Option ByteArray)
  | [] => return none
  | address :: others => do
      try
        let socket ← TCP.Socket.Client.mk
        socket.connect address
        socket.send message
        return some (← receive socket .empty)
      catch _ =>
        exchange message others

/-- Waits for a reply; only plain connections are made. -/
def awaitReply (request : Backend.Request) : Async (Option Backend.Reply) := do
  match request.url.authority with
  | none => return none
  | some authority =>
      if request.url.scheme != "http" then return none
      let number := UInt16.ofNat (authority.number.getD 80)
      let found ← exchange request.message.toUTF8 (← socketsOf authority.host number)
      return found.bind Backend.Reply.ofBytes?

/-- Waits for a reply no longer than the request may take. -/
def send (request : Backend.Request) : IO (Option Backend.Reply) := do
  try
    let reply := awaitReply request
    match request.timeoutSeconds with
    | none => reply.block
    | some seconds =>
        let limit : Async (Option Backend.Reply) := do
          sleep (.ofNat (1000 * seconds.toNat))
          return none
        (Async.race reply limit).block
  catch _ =>
    return none

/-! ## The surroundings -/

def now : IO Int64 := do
  return Int64.ofInt (← Std.Time.Timestamp.now).toSecondsSinceUnixEpoch.val

def effects : Effects IO where
  readFile path := attempt (IO.FS.readBinFile path)
  writeFile path contents := attempt (IO.FS.writeFile path contents)
  makeFolders path := attempt (IO.FS.createDirAll path)
  fileExists path := exists? path
  send := send
  now := now
  log _ := pure ()

def console : Program.Console IO where
  print text := IO.print text
  printError text := IO.eprint text
  logLine logging event := do IO.eprintln (event.line logging (← now).toInt)

/-- A variable of an entry such as `name=value`. -/
def variableOf (entry : List UInt8) : String × Variable :=
  let isName (byte : UInt8) : Bool := byte != '='.toNat.toUInt8
  let value : ByteArray := ⟨((entry.dropWhile isName).drop 1).toArray⟩
  (Text.shownText ⟨(entry.takeWhile isName).toArray⟩,
    ⟨Text.shownText value, (String.fromUTF8? value).isSome⟩)

def knownVariables : IO (List (String × Variable)) := do
  match ← attempt (IO.FS.readBinFile "/proc/self/environ") with
  | .ok bytes => return (bytes.toList.splitOn 0).map variableOf
  | .error _ => do
      let names := ["HOME", "XDG_CONFIG_HOME", "XDG_DATA_HOME", Log.Filter.variableName]
      names.filterMapM fun name => do
        return (← IO.getEnv name).map fun value => (name, Variable.mk value true)

/-- The seconds east of UTC of the machine's time zone as it is now; a machine without one is in UTC. -/
def zone : IO Int := do
  match ← attempt Std.Time.Database.defaultGetLocalZoneRules with
  | .ok rules => return (rules.timezoneAt (← Std.Time.Timestamp.now)).offset.second.val
  | .error _ => return 0

def environment : IO Environment := do
  let known ← knownVariables
  return ⟨fun name => known.lookup name, none, ← zone⟩

end UsageBoard.Main

open scoped UsageBoard.Url.Alphabets in
def main (args : List String) : IO UInt32 := do
  let env ← UsageBoard.Main.environment
  let code ← UsageBoard.Program.run UsageBoard.Main.effects UsageBoard.Main.console env args
  return UInt32.ofNat code
