import UsageBoard.Decimal.Reading
import UsageBoard.Usage.Granularity
import UsageBoard.Words

/-!
# Arguments

The words after the program's name: options, which begin with a hyphen, and one command with options of
its own.  The words are read from left to right, and the first that ends the run decides how.
-/

namespace UsageBoard.Program

open UsageBoard.Usage (Granularity)

inductive Halt where
  | usage
  | help
  | version
deriving DecidableEq, Repr

structure DetailOptions where
  start : Option Int64
  stop : Option Int64
  granularity : Option Granularity
  username : Option String
  modelName : Option String
  chartsFolder : Option String
  json : Bool
deriving DecidableEq

inductive Command where
  | detail (options : DetailOptions)
  | home
  | about
  | footer
  | init (output : Option String) (force : Bool)
deriving DecidableEq

structure Arguments where
  command : Command
  settingsPath : Option String
deriving DecidableEq

structure Flag where
  name : String
  letter : Option Char
  hasValue : Bool
  accepts : String → Bool

namespace Flag

def text (name : String) (letter : Option Char) : Flag := ⟨name, letter, true, fun _ => true⟩

def switch (name : String) (letter : Option Char) : Flag := ⟨name, letter, false, fun _ => true⟩

end Flag

/-- The integer that a text denotes, maybe with a sign, if it has 64 bits. -/
def integer? (text : String) : Option Int64 :=
  let (negative, digits) := Decimal.splitSign text.toList
  if digits = [] ∨ !digits.all Char.isDigit then none
  else
    let size : Int := Decimal.digitsValue digits
    Words.int64? (if negative then -size else size)

def granularity? (text : String) : Option Granularity := (Granularity.parse text).toOption

def settingsFlag : Flag := .text "config" (some 'c')

def helpFlag : Flag := .switch "help" (some 'h')

def versionFlag : Flag := .switch "version" (some 'V')

def commonFlags : List Flag := [settingsFlag, helpFlag, versionFlag]

def commandFlags? (name : String) : Option (List Flag) :=
  match name with
  | "detail" => some
      [⟨"start", none, true, fun text => (integer? text).isSome⟩,
        ⟨"end", none, true, fun text => (integer? text).isSome⟩,
        ⟨"granularity", some 'g', true, fun text => (granularity? text).isSome⟩,
        .text "username" (some 'u'), .text "model" (some 'm'),
        ⟨"charts-dir", none, true, fun text => text != ""⟩,
        .switch "json" none, settingsFlag, helpFlag]
  | "home" | "about" | "footer" => some [settingsFlag, helpFlag]
  | "init" => some [.text "output" (some 'o'), .switch "force" none, settingsFlag, helpFlag]
  | _ => none

abbrev Given := List (String × String)

/-- Adds an option; each may be given once. -/
def give (given : Given) (flag : Flag) (value : String) : Except Halt Given :=
  if flag.name = helpFlag.name then .error .help
  else if flag.name = versionFlag.name then .error .version
  else if (given.lookup flag.name).isSome ∨ !flag.accepts value then .error .usage
  else .ok ((flag.name, value) :: given)

/-- Whether a word begins like an option; a hyphen alone does not. -/
def isOption (word : String) : Bool :=
  match word.toList with
  | '-' :: _ :: _ => true
  | _ => false

inductive Word where
  /-- The word after which there are no more options. -/
  | terminator
  /-- An option, and its value if it has one in the same word. -/
  | option (flag : Flag) (value : Option String)
  | unknown
  | plain

/-- The value after an option's letter, with or without an equals sign. -/
def attached : List Char → Option String
  | [] => none
  | '=' :: value => some (String.ofList value)
  | value => some (String.ofList value)

def Word.of (flags : List Flag) (word : String) : Word :=
  match word.toList with
  | ['-', '-'] => .terminator
  | '-' :: '-' :: rest =>
      let name := String.ofList (rest.takeWhile (· != '='))
      match flags.find? fun flag => flag.name == name with
      | none => .unknown
      | some flag => .option flag (attached (rest.dropWhile (· != '=')))
  | '-' :: letter :: rest =>
      match flags.find? fun flag => flag.letter == some letter with
      | none => .unknown
      | some flag => .option flag (if flag.hasValue then attached rest else none)
  | _ => .plain

/-- Reads options up to the first word that is none; that word and those after it are left. -/
def readOptions (flags : List Flag) (given : Given) : List String →
    Except Halt (Given × List String)
  | [] => .ok (given, [])
  | word :: rest =>
      match Word.of flags word with
      | .terminator => if rest.isEmpty then .ok (given, []) else .error .usage
      | .unknown => .error .usage
      | .plain => .ok (given, word :: rest)
      | .option flag value =>
          if !flag.hasValue then
            if value.isSome then .error .usage
            else (give given flag "").bind fun given => readOptions flags given rest
          else
            match value, rest with
            | some value, rest => (give given flag value).bind fun given => readOptions flags given rest
            | none, [] => .error .usage
            | none, value :: rest =>
                if isOption value then .error .usage
                else (give given flag value).bind fun given => readOptions flags given rest

def command? (name : String) (given : Given) : Except Halt Command :=
  match name with
  | "detail" =>
      .ok (.detail
        { start := (given.lookup "start").bind integer?
          stop := (given.lookup "end").bind integer?
          granularity := (given.lookup "granularity").bind granularity?
          username := given.lookup "username"
          modelName := given.lookup "model"
          chartsFolder := given.lookup "charts-dir"
          json := (given.lookup "json").isSome })
  | "home" => .ok .home
  | "about" => .ok .about
  | "footer" => .ok .footer
  | "init" => .ok (.init (given.lookup "output") (given.lookup "force").isSome)
  | _ => .error .usage

/-- Whether words after a request for help name a command, or nothing. -/
def isHelpTopic : List String → Bool
  | [] => true
  | [name] => name == "help" || (commandFlags? name).isSome
  | _ => false

/-- What the arguments call for.  The settings may be named before or after the command. -/
def Arguments.parse (args : List String) : Except Halt Arguments := do
  match ← readOptions commonFlags [] args with
  | (_, []) => throw .usage
  | (common, name :: rest) =>
      if name = "help" then throw (if isHelpTopic rest then .help else .usage)
      match commandFlags? name with
      | none => throw .usage
      | some flags =>
          match ← readOptions flags [] rest with
          | (given, []) =>
              let path := (given.lookup settingsFlag.name).or (common.lookup settingsFlag.name)
              return ⟨← command? name given, path⟩
          | _ => throw .usage

end UsageBoard.Program
