/-!
# Built-in pages

What the home page and the about page show where a site has no content of its own.
-/

namespace UsageBoard.Pages

structure CallToAction where
  label : String
  path : String
  text : String
  /-- What visitors are told who may have an account already. -/
  loginHint : Option String
deriving DecidableEq, Repr

/-- The call to action for users that are logged in, or are not. -/
def CallToAction.of (loggedIn : Bool) : CallToAction :=
  if loggedIn then
    ⟨"Try it now", "/token", "Start using leading AI services right away.", none⟩
  else
    ⟨"Sign up free", "/register", "Create an account and start using leading AI services.",
      some "Already have an account? Log in at /login"⟩

structure Topic (α : Type) where
  title : String
  content : α

structure Landing where
  title : String
  subtitle : String
  features : List (Topic String)
  /-- The models of each category, each with what it is good at. -/
  models : List (Topic (List (Topic (List String))))
  uses : List (Topic String)
  plans : List (Topic (List String))

namespace Landing

def builtIn : Landing where
  title := "A leading AI API integration platform"
  subtitle := "One account for many AI providers. Stable, reliable, billed at list price."
  features :=
    [⟨"Multi-platform integration", "Qwen, Hunyuan, GLM-4, ERNIE and more behind one account and one API."⟩,
      ⟨"List-price billing", "Every model is billed at the provider's official price with no markup."⟩,
      ⟨"Stable and reliable",
        "Multi-line BGP servers, private deployment on request and round-the-clock support."⟩,
      ⟨"Secure and compliant",
        "Data protection, NDAs on request and compliance documentation for enterprises."⟩]
  models :=
    [⟨"General chat",
        [⟨"Qwen 4.0", ["200K context", "Chinese-optimised", "Broad knowledge"]⟩,
          ⟨"GLM-4", ["128K context", "Multimodal", "Strong at code"]⟩,
          ⟨"Moonshot Kimi", ["32K context", "Math reasoning", "Low cost"]⟩,
          ⟨"DeepSeek Chat", ["32K context", "Strong at code", "Great value"]⟩]⟩,
      ⟨"Understanding and writing",
        [⟨"ERNIE 4.0", ["Broad knowledge", "Chinese writing", "Multimodal"]⟩,
          ⟨"Hunyuan", ["Fluent dialogue", "General tasks", "Predictable cost"]⟩,
          ⟨"Spark 3.0", ["Chinese-optimised", "Vertical domains", "Low cost"]⟩,
          ⟨"MiniMax", ["Fluent dialogue", "Predictable cost", "Fast responses"]⟩]⟩]
  uses :=
    [⟨"Video production", "Generate scripts, subtitles, voice-over and music for short videos."⟩,
      ⟨"Copywriting", "Draft marketing copy, product descriptions and articles quickly."⟩,
      ⟨"Software development", "Code suggestions, bug analysis and fixes."⟩,
      ⟨"Design", "Ideas and drafts for logos, posters and UI layouts."⟩,
      ⟨"Document processing", "Extract, translate and summarise PDF and Word documents."⟩,
      ⟨"Search and summaries", "Condense long material into reports and competitor analyses."⟩]
  plans :=
    [⟨"Pay as you go",
        ["Official list price for every model", "Models updated in real time",
          "Prices synced with providers", "No minimum spend", "Balance never expires"]⟩,
      ⟨"Enterprise",
        ["Dedicated technical support", "Priority response", "Named account contact",
          "NDA available", "Private deployment"]⟩]

def statement (topic : Topic String) : String := "  * " ++ topic.title ++ ": " ++ topic.content

def category (topic : Topic (List (Topic (List String)))) : List String :=
  ("  " ++ topic.title) :: topic.content.map fun model =>
    "    - " ++ model.title ++ " (" ++ ", ".intercalate model.content ++ ")"

def plan (topic : Topic (List String)) : List String :=
  ("  " ++ topic.title) :: topic.content.map ("    - " ++ ·)

def lines (page : Landing) (call : CallToAction) : List String :=
  [page.title, page.subtitle, "", "Why us"] ++ page.features.map statement ++
    ["", "Models"] ++ page.models.flatMap category ++
    ["", "Use cases"] ++ page.uses.map statement ++
    ["", "Pricing"] ++ page.plans.flatMap plan ++
    ["", call.text, "[" ++ call.label ++ "] -> " ++ call.path] ++ call.loginHint.toList

def ofLines (ls : List String) : String := String.join (ls.map (· ++ "\n"))

def text (page : Landing) (call : CallToAction) : String := ofLines (page.lines call)

end Landing

def aboutText : String :=
  Landing.ofLines
    ["About us", "",
      "NextDreamAPI is an AI API integration platform that gives users a simple way to reach many " ++
        "mainstream models, with a focus on stable, reliable service.",
      "",
      "If the project helps you, you can support us here: https://afdian.com/leaflet?slug=Nextdream",
      "", "NextAPI © 2024 Nextdream. All Rights Reserved.", "Created by gtxy27"]

end UsageBoard.Pages
