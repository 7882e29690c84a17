import UsageBoard.PageContent
import UsageBoard.Pages.Landing
import UsageBoard.Store.Local

/-!
# The home page and the about page

Both show content that the site gives, and remember it.  What a page shows and what is remembered
depend only on the outcomes of the calls and on what is stored.
-/

namespace UsageBoard.Pages

open UsageBoard.Backend (CallError Client Endpoint Outcome)
open UsageBoard.Store (Edit Entries)

variable {m : Type → Type} [Monad m]

structure Notification where
  operation : String
  message : String
deriving DecidableEq, Repr

namespace Notification

def ofError (operation : String) (fault : CallError) : Notification := ⟨operation, fault.message⟩

def ofOutcome {α : Type} (operation : String) : Outcome α → List Notification
  | .ok _ => []
  | .error fault => [ofError operation fault]

def toJson (n : Notification) : Json :=
  .object [("operation", .text n.operation), ("message", .text n.message)]

def event (n : Notification) : Log.Event :=
  ⟨.error, ["pages"], "Backend call failed", [("operation", n.operation), ("error", n.message)]⟩

end Notification

def logAll (fx : Effects m) (events : List Log.Event) : m Unit := events.forM fx.log

def refusals (destinations : List String) : List Log.Event :=
  destinations.map fun url =>
    ⟨.debug, ["render", "markdown"], "Dropping link with disallowed scheme", [("url", url)]⟩

/-! ## Content that a site gives -/

namespace Given

/-- What is shown: the content, or the built-in page if the call failed. -/
def content : Outcome String → PageContent
  | .ok raw => PageContent.ofResolved (PageContent.resolve raw)
  | .error _ => .builtIn

/-- What is remembered: the content in the form in which it is kept. -/
def edits (key : String) : Outcome String → List Edit
  | .ok raw => [.put key (PageContent.resolve raw)]
  | .error _ => []

def refused : Outcome String → List String
  | .ok raw => PageContent.refusedDestinations raw
  | .error _ => []

def remembered (entries : Entries) (key : String) : PageContent :=
  PageContent.ofResolved ((entries.get? key).getD "")

end Given

/-! ## The home page -/

structure Home where
  /-- A notice as HTML that was not shown before. -/
  notice : Option String
  content : PageContent
  call : CallToAction
  notifications : List Notification
deriving DecidableEq

namespace Home

def noticeOperation : String := "notice"

def contentOperation : String := "home_page_content"

/-- A notice that is not empty and not the one that is remembered. -/
def newNotice (entries : Entries) : Outcome String → Option String
  | .ok notice => if notice = "" ∨ entries.get? StoreKey.notice = some notice then none else some notice
  | .error _ => none

def cached (entries : Entries) (loggedIn : Bool) : Home :=
  ⟨none, Given.remembered entries StoreKey.homePage, .of loggedIn, []⟩

def ofOutcomes (entries : Entries) (loggedIn : Bool) (notice content : Outcome String) : Home :=
  ⟨(newNotice entries notice).map Markup.toHtml, Given.content content, .of loggedIn,
    Notification.ofOutcome noticeOperation notice ++ Notification.ofOutcome contentOperation content⟩

def edits (entries : Entries) (notice content : Outcome String) : List Edit :=
  ((newNotice entries notice).map (Edit.put StoreKey.notice)).toList ++
    Given.edits StoreKey.homePage content

def events (entries : Entries) (notice content : Outcome String) : List Log.Event :=
  refusals ((newNotice entries notice).elim [] Markup.refusedDestinations ++ Given.refused content) ++
    (Notification.ofOutcome noticeOperation notice ++
      Notification.ofOutcome contentOperation content).map Notification.event

def load [Url.DomainNames] (fx : Effects m) (client : Client) (store : LocalStore) (loggedIn : Bool) :
    m (Home × LocalStore) := do
  let notice ← client.call fx Endpoint.notice
  let content ← client.call fx Endpoint.homePage
  logAll fx (events store.entries notice content)
  let page := ofOutcomes store.entries loggedIn notice content
  return (page, ← store.editAll fx (edits store.entries notice content))

end Home

/-! ## The about page -/

structure About where
  content : PageContent
  notifications : List Notification
deriving DecidableEq

namespace About

def operation : String := "about"

def cached (entries : Entries) : About := ⟨Given.remembered entries StoreKey.about, []⟩

def ofOutcome (content : Outcome String) : About :=
  ⟨Given.content content, Notification.ofOutcome operation content⟩

def edits (content : Outcome String) : List Edit := Given.edits StoreKey.about content

def events (content : Outcome String) : List Log.Event :=
  refusals (Given.refused content) ++
    (Notification.ofOutcome operation content).map Notification.event

def load [Url.DomainNames] (fx : Effects m) (client : Client) (store : LocalStore) :
    m (About × LocalStore) := do
  let content ← client.call fx Endpoint.about
  logAll fx (events content)
  return (ofOutcome content, ← store.editAll fx (edits content))

end About

end UsageBoard.Pages
