import UsageBoard.Backend.Client
import UsageBoard.Store.Local

/-!
# The footer of all pages
-/

namespace UsageBoard.Pages

open UsageBoard.Store (Entries)

inductive Footer where
  /-- The HTML that the site gave. -/
  | custom (html : String)
  /-- The name of the program and its makers. -/
  | builtIn
deriving DecidableEq, Repr

namespace Footer

structure Credit where
  name : String
  page : String

def program : Credit := ⟨"Harbor-API", "https://github.com/gtxy27/Harbor-API"⟩

def maker : Credit := ⟨"gtxy27", "https://github.com/gtxy27"⟩

def base : Credit := ⟨"New-API", "https://github.com/songquanpeng/new-api"⟩

def link (credit : Credit) (text : String) : String :=
  "<a href=\"" ++ credit.page ++ "\" target=\"_blank\" rel=\"noreferrer\">" ++ text ++ "</a>"

def ofEntries (entries : Entries) : Footer :=
  match entries.get? StoreKey.footerHtml with
  | some html => if html = "" then .builtIn else .custom html
  | none => .builtIn

def html : Footer → String
  | custom html => html
  | builtIn =>
      "<div class=\"custom-footer\">" ++ link program (program.name ++ " " ++ Backend.version) ++
        " by " ++ link maker maker.name ++ ", based on " ++ link base base.name ++ "</div>"

def text : Footer → String
  | custom html => html
  | builtIn =>
      program.name ++ " " ++ Backend.version ++ " by " ++ maker.name ++ ", based on " ++ base.name

end Footer

end UsageBoard.Pages
