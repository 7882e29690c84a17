import UsageBoard.Proofs.Backend.Sent
import UsageBoard.Url.Alphabets

/-!
# What a refresh asks for

The usage and the cache hits of a refresh are asked for in two requests.  Main statement: both cover the
same window, but the same users only on the page of an administrator or if no user is named
(`Detail.coverage_of_refresh`).
-/

namespace UsageBoard.Pages

open UsageBoard.Backend (Client Endpoint RecordsRequests Request)

abbrev Parameters := List (String × String)

def valuesOf (name : String) (parameters : Parameters) : List String :=
  (parameters.filter fun parameter => parameter.1 == name).map Prod.snd

/-- The values of the parameters for the window of time and its buckets. -/
def windowOf (parameters : Parameters) : List (List String) :=
  ["start_timestamp", "end_timestamp", "default_time"].map fun name => valuesOf name parameters

/-- The users to which parameters restrict an answer; an empty name stands for all users. -/
def usersOf (parameters : Parameters) : List String :=
  (valuesOf "username" parameters).filter fun name => name != ""

namespace DetailQuery

def window (query : DetailQuery) : List (List String) :=
  [[toString query.start.toInt], [toString query.stop.toInt], [query.granularity.name]]

/-- The user that a query names, if its name is not empty. -/
def users (query : DetailQuery) : List String := (given query.username).toList

end DetailQuery

namespace Detail

def naming (page : Detail) (username : String) : Detail :=
  page.withQuery { page.query with username }

theorem windowOf_usage (page : Detail) : windowOf page.usageEndpoint.parameters = page.query.window := by
  cases h : page.admin <;> simp only [usageEndpoint, scope, h] <;> rfl

theorem windowOf_cacheHits (page : Detail) :
    windowOf page.cacheEndpoint.parameters = page.query.window := by
  simp only [cacheEndpoint, Endpoint.cacheHits, DetailQuery.usageQuery, DetailQuery.given]
  by_cases huser : page.query.username = "" <;> by_cases hmodel : page.query.modelName = "" <;>
    simp only [huser, hmodel, if_true, if_false, Backend.UsageQuery.given] <;> rfl

theorem usersOf_usage (page : Detail) :
    usersOf page.usageEndpoint.parameters = if page.admin then page.query.users else [] := by
  cases h : page.admin with
  | false =>
      simp only [usageEndpoint, scope, h]
      rfl
  | true =>
      have sent : valuesOf "username" page.usageEndpoint.parameters = [page.query.username] := by
        simp only [usageEndpoint, scope, h]
        rfl
      rw [usersOf, sent, DetailQuery.users, DetailQuery.given]
      by_cases huser : page.query.username = "" <;> simp [huser]

theorem usersOf_cacheHits (page : Detail) :
    usersOf page.cacheEndpoint.parameters = page.query.users := by
  have sent : valuesOf "username" page.cacheEndpoint.parameters = page.query.users := by
    simp only [cacheEndpoint, Endpoint.cacheHits, DetailQuery.usageQuery, DetailQuery.users,
      DetailQuery.given]
    by_cases huser : page.query.username = "" <;> by_cases hmodel : page.query.modelName = "" <;>
      simp only [huser, hmodel, if_true, if_false, Backend.UsageQuery.given] <;> rfl
  rw [usersOf, sent, DetailQuery.users, DetailQuery.given]
  by_cases huser : page.query.username = "" <;> simp [huser]

theorem usageEndpoint_naming {page : Detail} (own : page.admin = false) (username : String) :
    (page.naming username).usageEndpoint = page.usageEndpoint := by
  simp only [usageEndpoint, scope, naming, withQuery, own]
  rfl

/-- A refresh sends three requests at most.  Those for usage and for cache hits carry the same window.
The first is restricted to the named user just on the page of an administrator, and does not depend on
that name on other pages; the second is restricted to the named user in any case. -/
theorem coverage_of_refresh [Url.DomainNames] {σ : Type} {fx : Effects (StateM σ)} {sent : σ → List Request}
    (records : RecordsRequests fx sent) (client : Client) (page : Detail) (s : σ) :
    let usage := page.usageEndpoint.parameters
    let hits := page.cacheEndpoint.parameters
    (sent ((page.refresh? fx client).run s).2 =
        client.asked Endpoint.account ++ client.asked page.cacheEndpoint ++
          client.asked page.usageEndpoint ++ sent s ∧
      (∀ request ∈ client.asked page.usageEndpoint, request.Carries usage) ∧
      ∀ request ∈ client.asked page.cacheEndpoint, request.Carries hits) ∧
    (windowOf usage = page.query.window ∧ windowOf hits = page.query.window) ∧
    usersOf usage = (if page.admin then page.query.users else []) ∧
    usersOf hits = page.query.users ∧
    (usersOf usage = usersOf hits ↔ page.admin ∨ page.query.username = "") ∧
    (page.admin = false →
      ∀ username, client.asked (page.naming username).usageEndpoint = client.asked page.usageEndpoint) := by
  intro usage hits
  refine ⟨⟨records.refresh? client page s, ?_, ?_⟩, ⟨page.windowOf_usage, page.windowOf_cacheHits⟩,
    page.usersOf_usage, page.usersOf_cacheHits, ?_, ?_⟩
  · exact fun request => Client.carries_of_mem_asked
  · exact fun request => Client.carries_of_mem_asked
  · rw [page.usersOf_usage, page.usersOf_cacheHits, DetailQuery.users, DetailQuery.given]
    cases page.admin <;> by_cases huser : page.query.username = "" <;> simp [huser]
  · intro own username
    rw [usageEndpoint_naming own]

section

open scoped Url.Alphabets

/-- An administrator asks for one user and one model. -/
theorem coverage_of_refresh_of_admin :
    let client : Client := ⟨"http://localhost", none, none, none⟩
    let query : DetailQuery := ⟨0, 3600, .hour, "bob", "gpt-4"⟩
    let page := initial QuotaFormat.default 0 true query
    let world := World.initial .empty [] 0 fun _ _ => none
    ((page.refresh? World.effects client).run world).2.requests =
        client.asked Endpoint.account ++ client.asked page.cacheEndpoint ++
          client.asked page.usageEndpoint ∧
      usersOf page.usageEndpoint.parameters = ["bob"] ∧
      usersOf page.usageEndpoint.parameters = usersOf page.cacheEndpoint.parameters := by
  intro client query page world
  obtain ⟨⟨sent, -⟩, -, husage, -, hsame, -⟩ :=
    coverage_of_refresh World.recordsRequests client page world
  exact ⟨sent.trans (List.append_nil _), husage, hsame.mpr (.inl rfl)⟩

/-- A page that is not an administrator's, with a user's name: usage is asked for without the name, and
cache hits with it. -/
theorem coverage_of_refresh_of_own :
    let client : Client := ⟨"http://localhost", none, none, none⟩
    let page := initial QuotaFormat.default 0 false ⟨0, 3600, .hour, "bob", ""⟩
    let world := World.initial .empty [] 0 fun _ _ => none
    (((page.refresh? World.effects client).run world).2.requests.map fun request => request.url.text) =
        ["http://localhost/api/user/self",
          "http://localhost/api/log/token/cache/hit" ++
            "?start_timestamp=0&end_timestamp=3600&default_time=hour&username=bob",
          "http://localhost/api/data/self/?start_timestamp=0&end_timestamp=3600&default_time=hour"] ∧
      usersOf page.usageEndpoint.parameters = [] ∧
      usersOf page.cacheEndpoint.parameters = ["bob"] := by
  intro client page world
  refine ⟨?_, rfl, rfl⟩
  rw [World.recordsRequests.refresh? client page world]
  decide +kernel

end

end Detail

end UsageBoard.Pages
