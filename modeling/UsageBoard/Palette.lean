import UsageBoard.Text.Units

/-!
# Colours of models

Well-known models have a colour of their own.  Any other name is hashed into a palette, so that it
has the same colour in every session; a session may assign colours of its own first.
-/

namespace UsageBoard.Palette

def preferredColors : List (String × String) :=
  [("dall-e", "rgb(147,112,219)"), ("dall-e-2", "rgb(147,112,219)"),
    ("dall-e-3", "rgb(153,50,204)"), ("gpt-3.5-turbo", "rgb(184,227,167)"),
    ("gpt-3.5-turbo-0613", "rgb(60,179,113)"), ("gpt-3.5-turbo-1106", "rgb(32,178,170)"),
    ("gpt-3.5-turbo-16k", "rgb(149,252,206)"), ("gpt-3.5-turbo-instruct", "rgb(168,209,205)"),
    ("gpt-4", "rgb(135,206,235)"), ("gpt-4-0613", "rgb(100,149,237)"),
    ("gpt-4-1106-preview", "rgb(30,144,255)"), ("gpt-4-0125-preview", "rgb(2,177,236)"),
    ("gpt-4-turbo-preview", "rgb(2,177,255)"), ("gpt-4-32k", "rgb(104,111,238)"),
    ("gpt-4-all", "rgb(65,105,225)"), ("gpt-4-vision-preview", "rgb(25,25,112)"),
    ("gpt-4o", "rgb(16,163,127)"), ("gpt-4o-mini", "rgb(94,201,170)"),
    ("text-embedding-ada-002", "rgb(255,182,193)"), ("text-embedding-v1", "rgb(255,174,185)"),
    ("text-moderation-latest", "rgb(255,130,171)"), ("tts-1", "rgb(255,140,0)"),
    ("tts-1-hd", "rgb(255,215,0)"), ("whisper-1", "rgb(245,245,220)"),
    ("claude-3-opus-20240229", "rgb(255,132,31)"), ("claude-3-sonnet-20240229", "rgb(253,135,93)"),
    ("claude-3-haiku-20240307", "rgb(255,175,146)"), ("claude-2.1", "rgb(255,209,190)"),
    ("deepseek-chat", "rgb(77,107,254)"), ("deepseek-reasoner", "rgb(41,72,204)"),
    ("qwen-max", "rgb(97,92,237)"), ("qwen-plus", "rgb(139,135,242)"),
    ("qwen-turbo", "rgb(181,178,247)"), ("glm-4", "rgb(52,120,246)"),
    ("moonshot-v1-8k", "rgb(30,30,30)"), ("moonshot-v1-32k", "rgb(30,30,30)"),
    ("moonshot-v1-128k", "rgb(30,30,30)")]

def baseColors : List String :=
  ["#1664FF", "#1AC6FF", "#FF8A00", "#3CC780", "#7442D4", "#FFC400", "#304D77", "#B48DEB",
    "#009488", "#FF7DDA"]

def extendedColors : List String :=
  ["#5470C6", "#91CC75", "#FAC858", "#EE6666", "#73C0DE", "#3BA272", "#FC8452", "#9A60B4",
    "#EA7CCC", "#4E79A7", "#F28E2B", "#E15759", "#76B7B2", "#59A14F", "#EDC948", "#B07AA1",
    "#FF9DA7", "#9C755F", "#BAB0AC", "#2F4554"]

def shortLength : Nat := 10

def preferred? (model : String) : Option String := preferredColors.lookup model

/-- One step of the hash: `hash * 31 + unit` in 32 bits. -/
def hashStep (hash : Int32) (unit : Nat) : Int32 := (hash <<< 5) - hash + Int32.ofNat unit

def hash (model : String) : Int32 := (Text.units model).foldl hashStep 0

def colorsFor (length : Nat) : List String :=
  if shortLength < length then extendedColors else baseColors

def hashed (model : String) : String :=
  let colors := colorsFor (Text.units model).length
  colors.getD ((hash model).toInt.natAbs % colors.length) ""

def color (model : String) : String := (preferred? model).getD (hashed model)

/-- The colours assigned in a session, one for each name. -/
structure Session where
  assigned : List (String × String)
deriving Repr, DecidableEq

namespace Session

def empty : Session := ⟨[]⟩

def color? (session : Session) (model : String) : Option String := session.assigned.lookup model

def size (session : Session) : Nat := session.assigned.length

def assign (session : Session) (model color : String) : Session :=
  ⟨(model, color) :: session.assigned.filter fun entry => entry.1 != model⟩

/-- The colour of a name: the preferred one, else the one assigned, else one assigned now. -/
def resolve (session : Session) (model : String) : String × Session :=
  match preferred? model, session.color? model with
  | some color, _ => (color, session)
  | none, some color => (color, session)
  | none, none => (Palette.color model, session.assign model (Palette.color model))

def resolveAll (session : Session) : List String → List (String × String) × Session
  | [] => ([], session)
  | model :: models =>
      let (color, session) := session.resolve model
      let (colors, session) := resolveAll session models
      ((model, color) :: colors, session)

end Session

end UsageBoard.Palette
