import UsageBoard.Proofs.Backend.Sent
import UsageBoard.Proofs.Settings.Usable
import UsageBoard.Proofs.Url.Extending
import UsageBoard.Url.Alphabets

/-!
# Where requests go

Settings are checked by reading the address of the backend, but a client puts the path of an endpoint
after its text.

## Main statements

* `Settings.check_backend_of_ofText`: the address in settings that were read has been checked.
* `Backend.Client.request?_iff`: at which addresses a client asks.
* `Backend.Client.asks_at_base_iff`: what is sent goes to the address that was checked just if its text
  can be extended.
-/

namespace UsageBoard

theorem Settings.Backend.exists_url [Url.DomainNames] {backend : Settings.Backend}
    (accepted : backend.check = .ok ()) :
    ∃ url, Url.parse backend.baseUrl = .ok url ∧ Url.IsWeb url.scheme := by
  unfold Settings.Backend.check at accepted
  cases read : Url.parse backend.baseUrl with
  | error why =>
      rw [read] at accepted
      cases accepted
  | ok url =>
      refine ⟨url, rfl, ?_⟩
      rw [read] at accepted
      dsimp only at accepted
      split at accepted
      · cases accepted
      · rename_i known
        have listed : url.scheme ∈ Settings.webSchemes := by simpa using known
        simpa [Settings.webSchemes, Url.IsWeb] using listed

/-- Settings that were read have passed the check. -/
theorem Settings.check_backend_of_ofText [Url.DomainNames] {env : Environment} {text : String}
    {settings : Settings} (read : Settings.ofText env text = .ok settings) : settings.backend.check = .ok () :=
  (Settings.check_eq_ok_iff.mp (Settings.check_of_ofText read)).1

namespace Backend

/-- The address of an endpoint at that of the backend: the same host, the longer path, and the
parameters of the endpoint. -/
def Endpoint.addressAt {α : Type} (base : Url) (endpoint : Endpoint α) : Url :=
  { base.withoutCredentials with
    path := Client.withoutSlashes base.path ++ endpoint.path
    query := if endpoint.parameters = [] then none else some (Url.formQuery endpoint.parameters)
    fragment := none }

/-- The endpoints that the backend has. -/
inductive Endpoint.IsOffered : {α : Type} → Endpoint α → Prop
  | usage (scope : Scope) (query : UsageQuery) : IsOffered (Endpoint.usage scope query)
  | cacheHits (query : UsageQuery) : IsOffered (Endpoint.cacheHits query)
  | account : IsOffered Endpoint.account
  | status : IsOffered Endpoint.status
  | notice : IsOffered Endpoint.notice
  | homePage : IsOffered Endpoint.homePage
  | about : IsOffered Endpoint.about

def Endpoint.paths : List String :=
  ["/api/data/self/", "/api/data/", "/api/log/token/cache/hit", "/api/user/self", "/api/status",
    "/api/notice", "/api/home_page_content", "/api/about"]

theorem Endpoint.IsOffered.isPlainPath {α : Type} {endpoint : Endpoint α} (offered : endpoint.IsOffered) :
    Url.IsPlainPath endpoint.path := by
  have there : endpoint.path ∈ Endpoint.paths := by
    cases offered with
    | usage scope query => cases scope <;> simp [Endpoint.paths, Endpoint.usage]
    | _ => simp [Endpoint.paths, Endpoint.cacheHits, Endpoint.account, Endpoint.status, Endpoint.notice,
        Endpoint.homePage, Endpoint.about]
  have plain : ∀ path ∈ Endpoint.paths, path.toList.head? = some '/' ∧
      path.toList.all Url.isPlain = true ∧ path.toList.any (· != '/') = true := by decide
  obtain ⟨start, all, named⟩ := plain endpoint.path there
  obtain ⟨c, hc, noSlash⟩ := List.any_eq_true.mp named
  exact ⟨start, List.all_eq_true.mp all, c, hc, by simpa using noSlash⟩

theorem Client.exists_of_request? [Url.DomainNames] {α : Type} {client : Client} {endpoint : Endpoint α}
    {request : Request} (made : client.request? endpoint = .ok request) :
    ∃ url, Url.parse (client.baseUrl ++ endpoint.path) = .ok url ∧
      request.url = url.withoutCredentials.addParameters endpoint.parameters := by
  unfold Client.request? at made
  obtain ⟨url, found, rest⟩ := exists_of_bind_eq_ok made
  dsimp only at rest
  split at rest
  · refine ⟨url, ?_, by rw [← Except.ok.inj rest]⟩
    unfold Client.address? at found
    cases read : Url.parse (client.baseUrl ++ endpoint.path) with
    | error why =>
        rw [read] at found
        cases found
    | ok other =>
        rw [read] at found
        dsimp only at found
        split at found
        · exact congrArg _ (Except.ok.inj found)
        · cases found
  · cases rest

theorem Client.exists_request?_of_address [Url.DomainNames] {α : Type} {client : Client}
    {endpoint : Endpoint α} {url : Url} (found : client.address? endpoint.path = .ok url)
    (fit : Client.sendable url = true) :
    ∃ request, client.request? endpoint = .ok request ∧
      request.url = url.withoutCredentials.addParameters endpoint.parameters := by
  simp only [Client.request?, found, bind, Except.bind, fit, if_true]
  exact ⟨_, rfl, rfl⟩

theorem Client.exists_request?_of_parse [Url.DomainNames] {α : Type} {client : Client}
    {endpoint : Endpoint α} {url : Url} (read : Url.parse (client.baseUrl ++ endpoint.path) = .ok url)
    (named : url.hasHost = true) (web : Url.IsWeb url.scheme) :
    ∃ request, client.request? endpoint = .ok request ∧
      request.url = url.withoutCredentials.addParameters endpoint.parameters := by
  have found : client.address? endpoint.path = .ok url := by
    rw [Client.address?, read]
    exact if_pos named
  exact Client.exists_request?_of_address found (by simpa [Client.sendable, Url.IsWeb] using web)

theorem Client.request?_iff [Url.DomainNames] (blanks : Url.DomainNames.RefusesBlanks) {α : Type}
    {client : Client} {endpoint : Endpoint α} (offered : endpoint.IsOffered) {text : String}
    (hclient : client.baseUrl = Client.withoutSlashes text) {base : Url}
    (read : Url.parse text = .ok base) (web : Url.IsWeb base.scheme) :
    (∃ request, client.request? endpoint = .ok request ∧ request.url = endpoint.addressAt base) ↔
      Url.Extends text := by
  constructor
  · rintro ⟨request, made, address⟩
    obtain ⟨joined, rejoined, target⟩ := Client.exists_of_request? made
    rw [hclient] at rejoined
    refine Url.extends_of_parse blanks read web offered.isPlainPath rejoined ?_
    exact congrArg Url.path (target.symm.trans address)
  · intro extends_
    have joined := Url.parse_of_extends read web extends_ offered.isPlainPath
    rw [← hclient] at joined
    have named : base.hasHost = true := Url.hasHost_of_parse read web
    obtain ⟨request, made, target⟩ := Client.exists_request?_of_parse joined named web
    refine ⟨request, made, ?_⟩
    rw [target, Url.addParameters_of_query rfl]
    rfl

theorem Client.asked_eq_singleton_iff [Url.DomainNames] {α : Type} {client : Client} {endpoint : Endpoint α}
    {request : Request} : client.asked endpoint = [request] ↔ client.request? endpoint = .ok request := by
  unfold Client.asked
  cases client.request? endpoint <;> simp [Except.toOption]

theorem Client.baseUrl_of_ofSettings {backend : Settings.Backend} {client : Client}
    (made : Client.ofSettings backend = .ok client) :
    client.baseUrl = Client.withoutSlashes backend.baseUrl := by
  unfold Client.ofSettings at made
  cases found : Client.authorizationOf? backend.accessToken with
  | error fault =>
      rw [found] at made
      cases made
  | ok authorization =>
      rw [found] at made
      rw [← Except.ok.inj made]

/-- What a client asks for is found at the address that was checked just if the text of that address
can be extended. -/
theorem Client.asks_at_base_iff [Url.DomainNames] (blanks : Url.DomainNames.RefusesBlanks) {σ α : Type}
    {fx : Effects (StateM σ)} {sent : σ → List Request} (records : RecordsRequests fx sent)
    {backend : Settings.Backend} (accepted : backend.check = .ok ()) {client : Client}
    (made : Client.ofSettings backend = .ok client) {endpoint : Endpoint α} (offered : endpoint.IsOffered)
    (s : σ) :
    ∃ base, Url.parse backend.baseUrl = .ok base ∧
      ((∃ request, sent ((client.call fx endpoint).run s).2 = request :: sent s ∧
          request.url = endpoint.addressAt base) ↔
        Url.Extends backend.baseUrl) := by
  obtain ⟨base, read, web⟩ := Settings.Backend.exists_url accepted
  refine ⟨base, read, ?_⟩
  rw [← Client.request?_iff blanks offered (Client.baseUrl_of_ofSettings made) read web, records.call]
  apply exists_congr
  intro request
  refine and_congr_left fun _ => ?_
  rw [← List.singleton_append, List.append_cancel_right_eq, Client.asked_eq_singleton_iff]

section

open scoped Url.Alphabets

/-- Under a folder of the host. -/
theorem Client.asks_at_base_of_folder :
    let backend : Settings.Backend := ⟨"http://127.0.0.1:3000/board/", none, none, false, none⟩
    let client : Client := ⟨"http://127.0.0.1:3000/board", none, none, none⟩
    let world := World.initial .empty [] 0 fun _ _ => none
    backend.check = .ok () ∧ Client.ofSettings backend = .ok client ∧
      ∃ request, ((client.call World.effects Endpoint.status).run world).2.requests = [request] ∧
        request.url.text = "http://127.0.0.1:3000/board/api/status" := by
  intro backend client world
  have accepted : backend.check = .ok () := by decide +kernel
  have trimmed : Client.withoutSlashes backend.baseUrl = client.baseUrl := by decide +kernel
  have made : Client.ofSettings backend = .ok client := by
    rw [Client.ofSettings, trimmed]
    rfl
  have extends_ : Url.Extends backend.baseUrl := by
    have all : backend.baseUrl.toList.all (fun c => Url.endsPath c == false) = true := by decide +kernel
    have last : (backend.baseUrl.toList.filter Url.isKept).getLast? = some '/' := by decide +kernel
    constructor
    · intro c hc
      exact beq_iff_eq.mp (List.all_eq_true.mp all c hc)
    · intro c hc
      rw [← Option.some.inj (last.symm.trans hc)]
      rfl
    · decide +kernel
  have known : Url.parse backend.baseUrl =
      .ok ⟨"http", some ⟨"", none, "127.0.0.1", some 3000⟩, "/board/", none, none⟩ := by decide +kernel
  obtain ⟨base, read, asks⟩ :=
    Client.asks_at_base_iff Url.Alphabets.refusesBlanks World.recordsRequests accepted made
      Endpoint.IsOffered.status world
  obtain rfl := Except.ok.inj (known.symm.trans read)
  obtain ⟨request, sent, address⟩ := asks.mpr extends_
  refine ⟨accepted, made, request, sent, ?_⟩
  rw [address]
  decide +kernel

/-- A blank at the end of the address: settings with it are accepted, but nothing is sent. -/
theorem Client.not_asks_at_base_of_padding :
    let backend : Settings.Backend := ⟨"http://127.0.0.1:9 ", none, none, false, none⟩
    let client : Client := ⟨"http://127.0.0.1:9 ", none, none, none⟩
    let world := World.initial .empty [] 0 fun _ _ => none
    backend.check = .ok () ∧ Client.ofSettings backend = .ok client ∧
      Url.parse backend.baseUrl =
        .ok ⟨"http", some ⟨"", none, "127.0.0.1", some 9⟩, "/", none, none⟩ ∧
      ((client.call World.effects Endpoint.status).run world).2.requests = [] := by
  intro backend client world
  have trimmed : Client.withoutSlashes backend.baseUrl = client.baseUrl := by decide +kernel
  have made : Client.ofSettings backend = .ok client := by
    rw [Client.ofSettings, trimmed]
    rfl
  have asked : client.asked Endpoint.status = [] := by decide +kernel
  have sent := World.recordsRequests.call client Endpoint.status world
  rw [asked] at sent
  exact ⟨by decide +kernel, made, by decide +kernel, sent⟩

end

end Backend

end UsageBoard
