import UsageBoard.Backend.Client
import UsageBoard.Files.Fault
import UsageBoard.Log.Event

/-!
# What a program can do

The parts of the program that deal with files, the backend, the clock and the log are given the means
to do so.  The means are the same whether they act on the surroundings or on a value.
-/

namespace UsageBoard

structure Effects (m : Type → Type) where
  readFile : (path : String) → m (Except Files.Fault ByteArray)
  writeFile : (path : String) → (contents : String) → m (Except Files.Fault Unit)
  /-- Makes a folder and those on the way to it. -/
  makeFolders : (path : String) → m (Except Files.Fault Unit)
  fileExists : (path : String) → m Bool
  /-- Sends a request; there may be no reply. -/
  send : Backend.Request → m (Option Backend.Reply)
  /-- The time in seconds since 1970. -/
  now : m Int64
  log : Log.Event → m Unit

/-- Means that act on a value do one thing after the other. -/
theorem run_bind_eq {σ α β : Type} (x : StateM σ α) (f : α → StateM σ β) (s : σ) :
    (x >>= f).run s = (f (x.run s).1).run (x.run s).2 := rfl

theorem run_pure_eq {σ α : Type} (x : α) (s : σ) : (pure x : StateM σ α).run s = (x, s) := rfl

namespace Backend

def callSource : List String := ["services", "api_client"]

def Client.call [Url.DomainNames] {m : Type → Type} [Monad m] {α : Type} (client : Client)
    (fx : Effects m) (endpoint : Endpoint α) : m (Outcome α) := do
  let url := client.baseUrl ++ endpoint.path
  fx.log ⟨.debug, callSource, "Backend request", [("url", url)]⟩
  match client.request? endpoint with
  | .error fault => return .error fault
  | .ok request =>
      match ← fx.send request with
      | none => return .error (.unreachable request.url.text)
      | some reply =>
          let outcome := endpoint.outcome reply
          match outcome with
          | .error (.status code) =>
              fx.log ⟨.warn, callSource, "Backend returned error status",
                [("url", url), ("status", statusText code)]⟩
          | .error (.refused message) =>
              fx.log ⟨.warn, callSource, "Backend reported failure",
                [("path", endpoint.path), ("error", message)]⟩
          | _ => pure ()
          return outcome

end Backend

end UsageBoard
