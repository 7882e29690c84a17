import UsageBoard.Proofs.Backend.Addresses
import UsageBoard.Proofs.Url.Forms
import UsageBoard.Url.Alphabets

/-!
# Queries of requests

What is asked for is read back from the query of a request, whatever characters the names of users and
models have.  Main statement: `Client.asks_query`.
-/

namespace UsageBoard.Backend

namespace Client

variable {σ α : Type}

/-- At every address to which requests can be sent, a call sends one.  It differs from the address in the
query only, and there the pairs of the address itself are read first and then those that are asked for. -/
def Asks [Url.DomainNames] (client : Client) (fx : Effects (StateM σ)) (sent : σ → List Request)
    (endpoint : Endpoint α) (path : String) (asked : List (String × String)) (s : σ) : Prop :=
  ∀ url, client.address? path = .ok url → sendable url = true →
    ∃ request raw, sent ((client.call fx endpoint).run s).2 = request :: sent s ∧
      request.url = { url.withoutCredentials with query := some raw } ∧ request.url.path = url.path ∧
      Url.formPairs raw = url.pairs ++ asked ∧ (url.query = none → Url.formPairs raw = asked)

theorem asks_of_parameters [Url.DomainNames] {fx : Effects (StateM σ)} {sent : σ → List Request}
    (records : RecordsRequests fx sent) (client : Client) {endpoint : Endpoint α}
    {pair : String × String} {others : List (String × String)}
    (parameters : endpoint.parameters = pair :: others) (s : σ) :
    client.Asks fx sent endpoint endpoint.path (pair :: others) s := by
  intro url found fit
  obtain ⟨request, made, target⟩ := exists_request?_of_address found fit
  obtain ⟨raw, query, read⟩ := Url.addParameters_cons url.withoutCredentials pair others
  have address : request.url = { url.withoutCredentials with query := some raw } := by
    rw [target, parameters, ← query]
    rfl
  refine ⟨request, raw, ?_, address, by rw [address]; rfl, read, ?_⟩
  · rw [records.call, asked, made]
    rfl
  · intro no_query
    have none_before : url.withoutCredentials.pairs = [] := by
      rw [Url.pairs, show url.withoutCredentials.query = none from no_query]
      rfl
    rw [read, none_before, List.nil_append]

theorem given_eq (name : String) (text : Option String) :
    UsageQuery.given name text = (text.filter (· ≠ "")).toList.map fun text => (name, text) := by
  cases text with
  | none => rfl
  | some text =>
      rw [UsageQuery.given, Option.filter_some]
      split <;> simp_all

/-- The window comes first, with the name of a user if all users are looked at, and with the names of a
user and a model that are there for what was read from the cache. -/
theorem asks_query [Url.DomainNames] {fx : Effects (StateM σ)} {sent : σ → List Request}
    (records : RecordsRequests fx sent) (client : Client) (query : UsageQuery) (s : σ) :
    let window := [("start_timestamp", toString query.start.toInt),
      ("end_timestamp", toString query.stop.toInt), ("default_time", query.granularity.name)]
    let named (key : String) (text : Option String) : List (String × String) :=
      (text.filter (· ≠ "")).toList.map fun text => (key, text)
    client.Asks fx sent (Endpoint.usage .own query) "/api/data/self/" window s ∧
      (∀ username, client.Asks fx sent (Endpoint.usage (.everyone username) query) "/api/data/"
        (window ++ [("username", username)]) s) ∧
      client.Asks fx sent (Endpoint.cacheHits query) "/api/log/token/cache/hit"
        (window ++ named "username" query.username ++ named "model_name" query.modelName) s := by
  intro window named
  refine ⟨asks_of_parameters records client rfl s, ?_, ?_⟩
  · intro username
    exact asks_of_parameters records client rfl s
  · apply asks_of_parameters records client ?_ s
    rw [Endpoint.cacheHits, given_eq, given_eq]
    rfl

open scoped Url.Alphabets in
/-- Names that hold every character with a meaning in a form. -/
theorem asks_query_of_marks :
    let client : Client := ⟨"http://127.0.0.1:3000/board", none, none, none⟩
    let query : UsageQuery := ⟨-9223372036854775808, 86400, .week, some "a&b=c +%20#é", some "&username=root"⟩
    let world := World.initial .empty [] 0 fun _ _ => none
    ∃ request raw, ((client.call World.effects (Endpoint.cacheHits query)).run world).2.requests = [request] ∧
      request.url.path = "/board/api/log/token/cache/hit" ∧ request.url.query = some raw ∧
      Url.formPairs raw = [("start_timestamp", "-9223372036854775808"), ("end_timestamp", "86400"),
        ("default_time", "week"), ("username", "a&b=c +%20#é"), ("model_name", "&username=root")] := by
  intro client query world
  obtain ⟨-, -, asks⟩ := asks_query World.recordsRequests client query world
  have known : Url.parse "http://127.0.0.1:3000/board/api/log/token/cache/hit" =
      .ok ⟨"http", some ⟨"", none, "127.0.0.1", some 3000⟩, "/board/api/log/token/cache/hit", none, none⟩ := by
    decide +kernel
  have found : client.address? "/api/log/token/cache/hit" =
      .ok ⟨"http", some ⟨"", none, "127.0.0.1", some 3000⟩, "/board/api/log/token/cache/hit", none, none⟩ := by
    rw [address?, show client.baseUrl ++ "/api/log/token/cache/hit" =
      "http://127.0.0.1:3000/board/api/log/token/cache/hit" from rfl, known]
    rfl
  obtain ⟨request, raw, sent, address, path, -, read⟩ := asks _ found rfl
  refine ⟨request, raw, sent, path, by rw [address], (read rfl).trans ?_⟩
  decide +kernel

end Client

end UsageBoard.Backend
