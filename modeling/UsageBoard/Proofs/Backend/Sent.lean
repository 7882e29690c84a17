import UsageBoard.Proofs.Program.Moves

/-!
# Requests that are sent

Main statement: a call sends the request for its endpoint, if one can be made, and nothing else
(`RecordsRequests.call`).
-/

namespace UsageBoard

namespace Backend

variable {σ α : Type}

/-- The request of a call; there is none if the address of the backend is not fit for one. -/
def Client.asked [Url.DomainNames] (client : Client) (endpoint : Endpoint α) : List Request :=
  (client.request? endpoint).toOption.toList

/-- A request carries parameters if they are what was added last to its address. -/
def Request.Carries (request : Request) (parameters : List (String × String)) : Prop :=
  ∃ url : Url, request.url = url.addParameters parameters

theorem Client.carries_of_mem_asked [Url.DomainNames] {client : Client} {endpoint : Endpoint α}
    {request : Request} (sent : request ∈ client.asked endpoint) :
    request.Carries endpoint.parameters := by
  have made : client.request? endpoint = .ok request := by
    unfold asked at sent
    cases h : client.request? endpoint <;> simp_all [Except.toOption]
  simp only [request?, bind, Except.bind] at made
  cases haddress : client.address? endpoint.path with
  | error fault => simp [haddress] at made
  | ok url =>
      simp only [haddress] at made
      split at made
      · exact ⟨url.withoutCredentials, by rw [← Except.ok.inj made]⟩
      · cases made

/-- A list of requests, the latest first, to which sending adds and nothing else does. -/
structure RecordsRequests (fx : Effects (StateM σ)) (sent : σ → List Request) : Prop where
  looks : Looks (fun s later => sent later = sent s) fx
  send : ∀ request s, sent ((fx.send request).run s).2 = request :: sent s

namespace RecordsRequests

variable [Url.DomainNames] {fx : Effects (StateM σ)} {sent : σ → List Request}
  (records : RecordsRequests fx sent)

include records

theorem call (client : Client) (endpoint : Endpoint α) (s : σ) :
    sent ((client.call fx endpoint).run s).2 = client.asked endpoint ++ sent s := by
  obtain ⟨ready, start, rest⟩ := records.looks.exists_run_call client endpoint s
  unfold Client.asked
  cases made : client.request? endpoint with
  | error fault =>
      simp only [made] at rest
      rw [rest, start]
      rfl
  | ok request =>
      simp only [made] at rest
      rw [rest, records.send, start]
      rfl

theorem fetch (client : Client) (page : Pages.Detail) (s : σ) :
    sent ((page.fetch fx client).run s).2 =
      client.asked Endpoint.account ++ client.asked page.cacheEndpoint ++
        client.asked page.usageEndpoint ++ sent s := by
  simp only [Pages.Detail.fetch, run_bind_eq, run_pure_eq, records.looks.now _, records.call,
    List.append_assoc]

theorem refresh? (client : Client) (page : Pages.Detail) (s : σ) :
    sent ((page.refresh? fx client).run s).2 =
      client.asked Endpoint.account ++ client.asked page.cacheEndpoint ++
        client.asked page.usageEndpoint ++ sent s :=
  (records.looks.refresh?_after_fetch client page s).trans (records.fetch client page s)

theorem sync (client : Client) {store : LocalStore}
    (writes : ∀ path, store.path = some path → Writes (fun s later => sent later = sent s) fx path)
    (s : σ) :
    sent ((store.sync fx client).run s).2 = client.asked Endpoint.status ++ sent s := by
  rw [← records.call client Endpoint.status s]
  simp only [LocalStore.sync, run_bind_eq]
  generalize (client.call fx Endpoint.status).run s = called
  obtain ⟨_ | status, later⟩ := called
  · rfl
  · exact (records.looks.log _ _).trans (records.looks.editAll writes status.edits later)

theorem syncedStore (env : Environment) (settings : Settings) (client : Client)
    (writes : ∀ path, Settings.storePath? env settings.storePath = some path →
      Writes (fun s later => sent later = sent s) fx path) (s : σ) :
    sent ((Program.syncedStore fx env settings client).run s).2 =
      client.asked Endpoint.status ++ sent s := by
  rw [← Program.path_of_openStore fx env settings s] at writes
  rw [← records.looks.openStore env settings s, ← records.sync client writes]
  exact records.looks.syncedStore_after_sync env settings client s

end RecordsRequests

end Backend

namespace World

theorem silent_requests : Silent requests :=
  ⟨fun _ _ => rfl, fun _ _ => rfl, fun _ _ => rfl, fun _ _ => rfl⟩

theorem recordsRequests : Backend.RecordsRequests effects requests :=
  ⟨silent_requests.looks, fun _ _ => rfl⟩

end World

end UsageBoard
