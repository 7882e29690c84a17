import UsageBoard.Effects
import UsageBoard.Files.Path
import UsageBoard.Store.Entries

/-!
# The local store

The local store keeps what was last fetched, so that a page can be shown before the backend answers.
Nothing in it is decisive: a store that cannot be read is empty, and most failures to write it are
only logged.
-/

namespace UsageBoard

open UsageBoard.Store (Edit Entries)

/-- Stored texts, and the file in which they are kept; without one they are kept in memory. -/
structure LocalStore where
  path : Option String
  entries : Entries
deriving DecidableEq

structure StoreError where
  path : String
  fault : Files.Fault
deriving DecidableEq, Repr

def StoreError.message (e : StoreError) : String :=
  "Failed to write local store " ++ e.path ++ ": " ++ e.fault.message

/-! ## Keys -/

namespace StoreKey

def footerHtml : String := "footer_html"

def homePage : String := "home_page_content"

def about : String := "about"

def notice : String := "notice"

def systemName : String := "system_name"

def quotaPerUnit : String := "quota_per_unit"

def inCurrency : String := "display_in_currency"

def granularity : String := "data_export_default_time"

def all : List String :=
  [footerHtml, homePage, about, notice, systemName, quotaPerUnit, inCurrency, granularity]

end StoreKey

/-! ## Reading and writing -/

namespace LocalStore

variable {m : Type → Type} [Monad m]

def inMemory : LocalStore := ⟨none, Entries.empty⟩

def source : List String := ["local_store"]

def get? (store : LocalStore) (key : String) : Option String := store.entries.get? key

/-- What a file holds, given what reading it gave.  A file that is not there holds nothing; of any
other file without entries, a message and the fault say why. -/
def entriesOf (found : Except Files.Fault ByteArray) : Except (String × String) Entries :=
  let unreadable := "Failed to read local store, starting empty"
  match found with
  | .error .notFound => .ok Entries.empty
  | .error fault => .error (unreadable, fault.message)
  | .ok contents =>
      match Files.text? contents with
      | .error fault => .error (unreadable, fault.message)
      | .ok text =>
          (Entries.ofText text).mapError fun fault =>
            ("Local store is corrupt, starting empty", fault.message Json.numberLayout)

def openFile (fx : Effects m) (path : String) : m LocalStore := do
  match entriesOf (← fx.readFile path) with
  | .ok entries => return ⟨some path, entries⟩
  | .error (message, fault) => do
      fx.log ⟨.warn, source, message, [("path", path), ("error", fault)]⟩
      return ⟨some path, Entries.empty⟩

/-- Writes entries to a file, in a folder that is made if it is not there. -/
def write (fx : Effects m) (path : String) (entries : Entries) : m (Except StoreError Unit) := do
  let folder := (Files.parent? path).getD ""
  let made ← if folder = "" then pure (.ok ()) else fx.makeFolders folder
  match made with
  | .error fault => return .error ⟨folder, fault⟩
  | .ok () => return (← fx.writeFile path entries.text).mapError fun fault => ⟨path, fault⟩

/-- Changes an entry and keeps the change, which stays in memory even if it cannot be written. -/
def edit (fx : Effects m) (store : LocalStore) (change : Edit) :
    m (Except StoreError Unit × LocalStore) := do
  let entries := store.entries.apply change
  let written ←
    match store.path with
    | none => pure (.ok ())
    | some path => if store.entries.isChangedBy change then write fx path entries else pure (.ok ())
  return (written, { store with entries })

def failure (change : Edit) (fault : StoreError) : Log.Event :=
  match change with
  | .put key _ =>
      ⟨.warn, source, "Failed to persist local store entry", [("key", key), ("error", fault.message)]⟩
  | .erase _ =>
      ⟨.warn, ["services", "status"], "Failed to clear cached footer", [("error", fault.message)]⟩

/-- Changes an entry; a failure is only logged. -/
def editOrWarn (fx : Effects m) (store : LocalStore) (change : Edit) : m LocalStore := do
  match ← store.edit fx change with
  | (.ok (), store) => return store
  | (.error fault, store) => do
      fx.log (failure change fault)
      return store

def editAll (fx : Effects m) : LocalStore → List Edit → m LocalStore
  | store, [] => return store
  | store, change :: rest => do editAll fx (← store.editOrWarn fx change) rest

end LocalStore

end UsageBoard
