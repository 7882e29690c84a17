import Mathlib.Data.List.Pairwise
import UsageBoard.Proofs.Backend.Failure
import UsageBoard.Proofs.Pages.DetailRun
import UsageBoard.Proofs.Store.Edits

/-!
# Operations of pages on one store

What an operation shows and what it stores are a function of the outcomes of its calls and of what is
stored at the keys that are its own.

## Main statements

* `PageOperation.fst_run_perform`: what an operation shows, and the store after it.
* `Visit.after_comm`: visits that change different keys may change places.
* `PageOperation.confined_and_commuting`: the four operations that change the store leave each other's
  keys alone, so that their order makes no difference.
-/

namespace UsageBoard.Pages

open UsageBoard.Backend (Client Endpoint Outcome)
open UsageBoard.Store (Edit Entries)
open UsageBoard.Usage (Granularity)

inductive PageOperation where
  | home (loggedIn : Bool)
  | about
  | sync
  | remember (granularity : Granularity)
  /-- Picks a granularity on the detail page, which remembers it if it is another one. -/
  | pick (page : Detail) (granularity : Granularity)
  | refresh (page : Detail)

/-- An operation with the outcomes of its calls. -/
inductive Visit where
  | home (loggedIn : Bool) (notice content : Outcome String)
  | about (content : Outcome String)
  | sync (status : Outcome SiteStatus)
  | remember (granularity : Granularity)
  | pick (page : Detail) (granularity : Granularity)
  | refresh (page : Detail) (answers : Answers)

inductive View where
  | home (page : Home)
  | about (page : About)
  | status (status : Outcome SiteStatus)
  /-- The detail page, which is lost if no dashboard can be built. -/
  | detail (page : Option Detail)
  | nothing

namespace PageOperation

variable [Url.DomainNames] {m : Type → Type} [Monad m]

def perform (fx : Effects m) (client : Client) (store : LocalStore) :
    PageOperation → m (View × LocalStore)
  | home loggedIn => do
      let (page, store) ← Home.load fx client store loggedIn
      return (.home page, store)
  | about => do
      let (page, store) ← About.load fx client store
      return (.about page, store)
  | sync => do
      let (status, store) ← store.sync fx client
      return (.status status, store)
  | remember granularity => return (.nothing, ← store.editOrWarn fx (rememberGranularity granularity))
  | pick page granularity => do
      let (page, store) ← page.setGranularity fx store granularity
      return (.detail (some page), store)
  | refresh page => return (.detail (← page.refresh? fx client), store)

/-- Makes the calls of an operation, and nothing else. -/
def fetch (fx : Effects m) (client : Client) : PageOperation → m Visit
  | home loggedIn =>
      return .home loggedIn (← client.call fx Endpoint.notice) (← client.call fx Endpoint.homePage)
  | about => return .about (← client.call fx Endpoint.about)
  | sync => return .sync (← client.call fx Endpoint.status)
  | remember granularity => return .remember granularity
  | pick page granularity => return .pick page granularity
  | refresh page => return .refresh page (← page.fetch fx client)

def performAll (fx : Effects m) (client : Client) :
    LocalStore → List PageOperation → m (List View × LocalStore)
  | store, [] => return ([], store)
  | store, operation :: rest => do
      let (view, store) ← operation.perform fx client store
      let (views, store) ← performAll fx client store rest
      return (view :: views, store)

end PageOperation

/-! ## Visits -/

theorem Home.newNotice_eq_some_iff {entries : Entries} {notice : Outcome String} {text : String} :
    newNotice entries notice = some text ↔
      notice = .ok text ∧ text ≠ "" ∧ entries.get? StoreKey.notice ≠ some text := by
  cases notice with
  | error fault => simp [newNotice]
  | ok found =>
      simp only [newNotice, Except.ok.injEq]
      split
      · rename_i h
        refine iff_of_false nofun ?_
        rintro ⟨rfl, nonempty, unseen⟩
        exact h.elim nonempty unseen
      · rename_i h
        obtain ⟨nonempty, unseen⟩ := not_or.mp h
        rw [Option.some.injEq]
        refine ⟨?_, And.left⟩
        rintro rfl
        exact ⟨rfl, nonempty, unseen⟩

namespace Visit

def view (entries : Entries) : Visit → View
  | home loggedIn notice content => .home (Home.ofOutcomes entries loggedIn notice content)
  | about content => .about (About.ofOutcome content)
  | sync status => .status status
  | remember _ => .nothing
  | pick page granularity => .detail (some (page.withGranularity granularity))
  | refresh page answers => .detail (page.refreshed? answers)

def edits (entries : Entries) : Visit → List Edit
  | home _ notice content => Home.edits entries notice content
  | about content => About.edits content
  | sync (.ok status) => status.edits
  | sync (.error _) => []
  | remember granularity => [rememberGranularity granularity]
  | pick page granularity => page.granularityEdits granularity
  | refresh _ _ => []

def after (entries : Entries) (visit : Visit) : Entries := entries.applyAll (visit.edits entries)

def keysOf {α : Type} (keys : List String) : Outcome α → List String
  | .ok _ => keys
  | .error _ => []

/-- The keys that a visit may change.  A call that fails gives it none. -/
def keys : Visit → List String
  | home _ notice content => keysOf [StoreKey.notice] notice ++ keysOf [StoreKey.homePage] content
  | about content => keysOf [StoreKey.about] content
  | sync status =>
      keysOf [StoreKey.systemName, StoreKey.footerHtml, StoreKey.quotaPerUnit, StoreKey.inCurrency]
        status
  | remember _ => [StoreKey.granularity]
  | pick _ _ => [StoreKey.granularity]
  | refresh _ _ => []

/-- The keys of a kind of visit, whatever the outcomes are. -/
def reach : Visit → List String
  | home _ _ _ => [StoreKey.notice, StoreKey.homePage]
  | about _ => [StoreKey.about]
  | sync _ => [StoreKey.systemName, StoreKey.footerHtml, StoreKey.quotaPerUnit, StoreKey.inCurrency]
  | remember _ => [StoreKey.granularity]
  | pick _ _ => [StoreKey.granularity]
  | refresh _ _ => []

def views : Entries → List Visit → List View
  | _, [] => []
  | entries, visit :: rest => visit.view entries :: views (visit.after entries) rest

variable {one other entries : Entries} {key : String}

theorem key_mem_of_mem_edits {key : String} {content : Outcome String} {edit : Edit}
    (there : edit ∈ Given.edits key content) : edit.key ∈ keysOf [key] content := by
  cases content with
  | error fault => cases there
  | ok raw =>
      obtain rfl := List.mem_singleton.mp there
      exact List.mem_cons_self

theorem key_mem_keys {visit : Visit} {edit : Edit} (there : edit ∈ visit.edits entries) :
    edit.key ∈ visit.keys := by
  cases visit with
  | home loggedIn notice content =>
      rcases List.mem_append.mp there with hnotice | hcontent
      · rw [Option.mem_toList, Option.map_eq_some_iff] at hnotice
        obtain ⟨text, hnew, rfl⟩ := hnotice
        obtain ⟨rfl, -⟩ := Home.newNotice_eq_some_iff.mp hnew
        exact List.mem_append_left _ List.mem_cons_self
      · exact List.mem_append_right _ (key_mem_of_mem_edits hcontent)
  | about content => exact key_mem_of_mem_edits there
  | sync status =>
      cases status with
      | error fault => cases there
      | ok status =>
          simp only [edits, SiteStatus.edits, List.mem_append, Option.mem_toList,
            Option.map_eq_some_iff] at there
          rcases there with ((⟨name, -, rfl⟩ | ⟨html, -, rfl⟩) | ⟨unit, -, rfl⟩) | ⟨shown, -, rfl⟩
          · simp [keys, keysOf, Edit.key]
          · split <;> simp [keys, keysOf, Edit.key]
          · simp [keys, keysOf, Edit.key]
          · simp [keys, keysOf, Edit.key]
  | remember granularity =>
      obtain rfl := List.mem_singleton.mp there
      exact List.mem_cons_self
  | pick page granularity =>
      simp only [edits, Detail.granularityEdits] at there
      split at there
      · cases there
      · obtain rfl := List.mem_singleton.mp there
        exact List.mem_cons_self
  | refresh page answers => cases there

theorem get?_after_of_not_mem (visit : Visit) (outside : key ∉ visit.keys) :
    (visit.after entries).get? key = entries.get? key := by
  apply Entries.get?_applyAll_of_forall_ne
  rintro edit there rfl
  exact outside (key_mem_keys there)

/-- A visit reads no other keys than those that it may change. -/
theorem reads_own_keys (visit : Visit) (same : ∀ key ∈ visit.keys, one.get? key = other.get? key) :
    visit.view one = visit.view other ∧ visit.edits one = visit.edits other := by
  cases visit with
  | home loggedIn notice content =>
      have hnew : Home.newNotice one notice = Home.newNotice other notice := by
        cases notice with
        | error fault => rfl
        | ok text =>
            rw [Home.newNotice, Home.newNotice, same StoreKey.notice List.mem_cons_self]
      simp only [view, edits, Home.ofOutcomes, Home.edits, hnew, and_self]
  | about content => exact ⟨rfl, rfl⟩
  | sync status => cases status <;> exact ⟨rfl, rfl⟩
  | remember granularity => exact ⟨rfl, rfl⟩
  | pick page granularity => exact ⟨rfl, rfl⟩
  | refresh page answers => exact ⟨rfl, rfl⟩

theorem get?_after_congr (visit : Visit) (same : ∀ key ∈ visit.keys, one.get? key = other.get? key)
    (here : one.get? key = other.get? key) :
    (visit.after one).get? key = (visit.after other).get? key := by
  rw [after, after, (visit.reads_own_keys same).2]
  exact Entries.get?_applyAll_congr here

theorem view_after_of_disjoint {first second : Visit} (apart : first.keys.Disjoint second.keys) :
    second.view (first.after entries) = second.view entries := by
  refine (second.reads_own_keys ?_).1
  intro key mine
  exact first.get?_after_of_not_mem fun yours => apart yours mine

theorem after_comm {first second : Visit} (apart : first.keys.Disjoint second.keys)
    (entries : Entries) : second.after (first.after entries) = first.after (second.after entries) := by
  have unseen : ∀ key ∈ second.keys, (first.after entries).get? key = entries.get? key :=
    fun key mine => first.get?_after_of_not_mem fun yours => apart yours mine
  have unseen' : ∀ key ∈ first.keys, entries.get? key = (second.after entries).get? key :=
    fun key mine => (second.get?_after_of_not_mem fun yours => apart mine yours).symm
  apply Entries.ext_get?
  intro key
  -- a key belongs to at most one of the two, and the other passes over it
  by_cases mine : key ∈ first.keys
  · calc
      (second.after (first.after entries)).get? key = (first.after entries).get? key :=
        second.get?_after_of_not_mem (apart mine)
      _ = (first.after (second.after entries)).get? key :=
        first.get?_after_congr unseen' (unseen' key mine)
  · calc
      (second.after (first.after entries)).get? key = (second.after entries).get? key :=
        second.get?_after_congr unseen (first.get?_after_of_not_mem mine)
      _ = (first.after (second.after entries)).get? key :=
        (first.get?_after_of_not_mem mine).symm

theorem mem_of_mem_keysOf {α : Type} {keys : List String} {outcome : Outcome α}
    (there : key ∈ keysOf keys outcome) : key ∈ keys := by
  cases outcome with
  | ok value => exact there
  | error fault => cases there

theorem keys_subset_reach (visit : Visit) : visit.keys ⊆ visit.reach := by
  intro key there
  cases visit with
  | home loggedIn notice content =>
      exact (List.mem_append.mp there).elim
        (fun h => List.mem_append_left [StoreKey.homePage] (mem_of_mem_keysOf h))
        (fun h => List.mem_append_right [StoreKey.notice] (mem_of_mem_keysOf h))
  | about content => exact mem_of_mem_keysOf there
  | sync status => exact mem_of_mem_keysOf there
  | remember granularity => exact there
  | pick page granularity => exact there
  | refresh page answers => exact there

theorem disjoint_keys_of_round (loggedIn : Bool) (notice content about : Outcome String)
    (status : Outcome SiteStatus) (granularity : Granularity) :
    List.Pairwise (fun first second => first.keys.Disjoint second.keys)
      [home loggedIn notice content, .about about, sync status, remember granularity] := by
  have apart : List.Pairwise (fun first second => first.reach.Disjoint second.reach)
      [home loggedIn notice content, .about about, sync status, remember granularity] := by
    simp [reach, StoreKey.notice, StoreKey.homePage, StoreKey.about, StoreKey.systemName,
      StoreKey.footerHtml, StoreKey.quotaPerUnit, StoreKey.inCurrency, StoreKey.granularity]
  refine apart.imp ?_
  intro first second h key mine yours
  exact h (first.keys_subset_reach mine) (second.keys_subset_reach yours)

theorem after_of_keys_eq_nil {visit : Visit} (none : visit.keys = []) :
    visit.after entries = entries := by
  apply Entries.ext_get?
  intro key
  exact visit.get?_after_of_not_mem (by simp [none])

variable {visits order : List Visit}

theorem views_of_pairwise_disjoint (entries : Entries)
    (apart : visits.Pairwise fun first second => first.keys.Disjoint second.keys) :
    views entries visits = visits.map (view entries) := by
  induction visits generalizing entries with
  | nil => rfl
  | cons visit rest ih =>
      obtain ⟨first, later⟩ := List.pairwise_cons.mp apart
      rw [views, ih _ later, List.map_cons]
      congr 1
      refine List.map_congr_left ?_
      intro second there
      exact view_after_of_disjoint (first second there)

theorem foldl_after_of_perm (entries : Entries) (perm : visits.Perm order)
    (apart : visits.Pairwise fun first second => first.keys.Disjoint second.keys) :
    visits.foldl after entries = order.foldl after entries := by
  have commute : visits.Pairwise fun first second =>
      ∀ entries, second.after (first.after entries) = first.after (second.after entries) :=
    apart.imp fun h => after_comm h
  have flipped : visits.Pairwise fun first second =>
      ∀ entries, first.after (second.after entries) = second.after (first.after entries) :=
    commute.imp fun h entries => (h entries).symm
  refine perm.foldl_eq' ?_ entries
  exact commute.forall_of_forall_of_flip (fun _ _ _ => rfl) flipped

end Visit

/-! ## A backend that has a notice and fails otherwise -/

namespace NoticeOnly

open scoped Url.Alphabets

def client : Client := ⟨"http://localhost", none, none, none⟩

def greeting : Json :=
  .object [("success", .bool true), ("message", .text ""), ("data", .text "hello")]

def reply (request : Backend.Request) : Backend.Reply :=
  if request.url.path = "/api/notice" then ⟨200, greeting.pretty.toUTF8⟩ else ⟨500, .empty⟩

def effects : Effects (StateM Unit) where
  readFile _ := pure (.error .notFound)
  writeFile _ _ := pure (.ok ())
  makeFolders _ := pure (.ok ())
  fileExists _ := pure false
  send request := pure (some (reply request))
  now := pure 0
  log _ := pure ()

variable {α : Type}

def Reaches (endpoint : Endpoint α) (path : String) : Prop :=
  (client.request? endpoint).toOption.map (fun request => request.url.path) = some path

instance (endpoint : Endpoint α) (path : String) : Decidable (Reaches endpoint path) :=
  inferInstanceAs (Decidable (_ = _))

theorem Reaches.exists_request {endpoint : Endpoint α} {path : String} (h : Reaches endpoint path) :
    ∃ request, client.request? endpoint = .ok request ∧ request.url.path = path := by
  unfold Reaches at h
  cases made : client.request? endpoint with
  | error fault => simp [made, Except.toOption] at h
  | ok request => exact ⟨request, rfl, by simpa [made, Except.toOption] using h⟩

theorem call_notice (s : Unit) :
    ((client.call effects Endpoint.notice).run s).1 = .ok "hello" := by
  have reaches : Reaches Endpoint.notice "/api/notice" := by decide +kernel
  obtain ⟨request, asked, there⟩ := reaches.exists_request
  have replied : reply request = ⟨200, greeting.pretty.toUTF8⟩ := if_pos there
  have body := Backend.document_pretty 200
    (show greeting.Legible by simp [greeting, Json.Legible, Json.MembersLegible])
  rw [client.fst_run_call effects s Endpoint.notice asked fun _ => rfl, replied, Endpoint.outcome,
    if_pos (by decide), body]
  rfl

theorem call_broken {endpoint : Endpoint α} {path : String} (s : Unit) (reaches : Reaches endpoint path)
    (other : path ≠ "/api/notice") :
    ((client.call effects endpoint).run s).1 = .error (.status 500) := by
  obtain ⟨request, asked, rfl⟩ := reaches.exists_request
  have replied : reply request = ⟨500, .empty⟩ := if_neg other
  rw [client.fst_run_call effects s endpoint asked fun _ => rfl, replied]
  rfl

theorem call_about (s : Unit) :
    ((client.call effects Endpoint.about).run s).1 = .error (.status 500) :=
  call_broken s (show Reaches _ "/api/about" by decide +kernel) (by decide)

theorem call_homePage (s : Unit) :
    ((client.call effects Endpoint.homePage).run s).1 = .error (.status 500) :=
  call_broken s (show Reaches _ "/api/home_page_content" by decide +kernel) (by decide)

theorem call_status (s : Unit) :
    ((client.call effects Endpoint.status).run s).1 = .error (.status 500) :=
  call_broken s (show Reaches _ "/api/status" by decide +kernel) (by decide)

end NoticeOnly

/-! ## Runs -/

namespace PageOperation

variable [Url.DomainNames] {σ : Type} (fx : Effects (StateM σ)) (client : Client)

theorem fst_run_home (store : LocalStore) (loggedIn : Bool) (s : σ) :
    let notice := (client.call fx Endpoint.notice).run s
    let content := (client.call fx Endpoint.homePage).run notice.2
    ((Home.load fx client store loggedIn).run s).1 =
      (Home.ofOutcomes store.entries loggedIn notice.1 content.1,
        ⟨store.path, store.entries.applyAll (Home.edits store.entries notice.1 content.1)⟩) := by
  simp only [Home.load, run_bind_eq, run_pure_eq, LocalStore.fst_run_editAll]

theorem fst_run_about (store : LocalStore) (s : σ) :
    let content := (client.call fx Endpoint.about).run s
    ((About.load fx client store).run s).1 =
      (About.ofOutcome content.1,
        ⟨store.path, store.entries.applyAll (About.edits content.1)⟩) := by
  simp only [About.load, run_bind_eq, run_pure_eq, LocalStore.fst_run_editAll]

theorem fst_run_sync (store : LocalStore) (s : σ) :
    let status := (client.call fx Endpoint.status).run s
    ((store.sync fx client).run s).1 =
      (status.1, ⟨store.path, (Visit.sync status.1).after store.entries⟩) := by
  simp only [LocalStore.sync, run_bind_eq]
  rcases (client.call fx Endpoint.status).run s with ⟨_ | status, later⟩
  · rfl
  · simp only [run_bind_eq, run_pure_eq, LocalStore.fst_run_editAll]
    rfl

/-- An operation shows and stores what the outcomes of its calls say. -/
theorem fst_run_perform (store : LocalStore) (operation : PageOperation) (s : σ) :
    let visit := ((operation.fetch fx client).run s).1
    ((operation.perform fx client store).run s).1 =
      (visit.view store.entries, ⟨store.path, visit.after store.entries⟩) := by
  intro visit
  cases operation with
  | home loggedIn =>
      simp only [visit, fetch, perform, run_bind_eq, run_pure_eq, fst_run_home]
      rfl
  | about =>
      simp only [visit, fetch, perform, run_bind_eq, run_pure_eq, fst_run_about]
      rfl
  | sync =>
      simp only [visit, fetch, perform, run_bind_eq, run_pure_eq, fst_run_sync]
      rfl
  | remember granularity =>
      simp only [visit, fetch, perform, run_bind_eq, run_pure_eq, LocalStore.fst_run_editOrWarn]
      rfl
  | pick page granularity =>
      simp only [visit, fetch, perform, Detail.setGranularity, run_bind_eq, run_pure_eq,
        LocalStore.fst_run_editAll]
      rfl
  | refresh page =>
      have shown := Detail.refresh?_fst fx client page s
      simp only [visit, fetch, perform, run_bind_eq, run_pure_eq, shown]
      rfl

/-- The visits of a run: its operations with the outcomes that they met. -/
def visitsOf : LocalStore → List PageOperation → σ → List Visit
  | _, [], _ => []
  | store, operation :: rest, s =>
      let performed := (operation.perform fx client store).run s
      ((operation.fetch fx client).run s).1 :: visitsOf performed.1.2 rest performed.2

theorem fst_run_performAll (store : LocalStore) (operations : List PageOperation) (s : σ) :
    let visits := visitsOf fx client store operations s
    ((performAll fx client store operations).run s).1 =
      (Visit.views store.entries visits, ⟨store.path, visits.foldl Visit.after store.entries⟩) := by
  induction operations generalizing store s with
  | nil => rfl
  | cons operation rest ih =>
      have performed := fst_run_perform fx client store operation s
      simp only [performAll, run_bind_eq, run_pure_eq, ih, visitsOf, performed]
      rfl

/-- An operation changes no entries but its own, and of these only those for which a call succeeded.
For fixed outcomes the order of the four operations makes no difference: each shows what it would show
alone, and the store holds the same in the end. -/
theorem confined_and_commuting (store : LocalStore) :
    (∀ (operation : PageOperation) (s : σ),
      let visit := ((operation.fetch fx client).run s).1
      let later := ((operation.perform fx client store).run s).1.2
      later.path = store.path ∧ (∀ key, key ∉ visit.keys → later.get? key = store.get? key) ∧
        (visit.keys = [] → later = store)) ∧
    ∀ (loggedIn : Bool) (notice content about : Outcome String) (status : Outcome SiteStatus)
        (granularity : Granularity) (operations : List PageOperation) (s : σ),
      let round : List Visit :=
        [.home loggedIn notice content, .about about, .sync status, .remember granularity]
      let visits := visitsOf fx client store operations s
      visits.Perm round →
        ((performAll fx client store operations).run s).1 =
          (visits.map (Visit.view store.entries),
            ⟨store.path, round.foldl Visit.after store.entries⟩) := by
  constructor
  · intro operation s visit later
    have performed : later = ⟨store.path, visit.after store.entries⟩ :=
      congrArg Prod.snd (fst_run_perform fx client store operation s)
    rw [performed]
    refine ⟨rfl, ?_, ?_⟩
    · intro key outside
      exact visit.get?_after_of_not_mem outside
    · intro none
      rw [Visit.after_of_keys_eq_nil none]
  · intro loggedIn notice content about status granularity operations s round visits perm
    have apart : visits.Pairwise fun first second => first.keys.Disjoint second.keys :=
      perm.symm.pairwise
        (Visit.disjoint_keys_of_round loggedIn notice content about status granularity)
        fun h _ mine yours => h yours mine
    rw [fst_run_performAll, Visit.views_of_pairwise_disjoint _ apart,
      Visit.foldl_after_of_perm _ perm apart]

end PageOperation

namespace PageOperation

open NoticeOnly
open scoped Url.Alphabets

/-- The notice comes third and is remembered; the calls before it fail. -/
theorem confined_and_commuting_of_failures :
    let operations : List PageOperation := [.sync, .about, .home true, .remember .week]
    let visits : List Visit :=
      [.sync (.error (.status 500)), .about (.error (.status 500)),
        .home true (.ok "hello") (.error (.status 500)), .remember .week]
    let performed := ((performAll effects client .inMemory operations).run ()).1
    visitsOf effects client .inMemory operations () = visits ∧
      performed.1 = visits.map (Visit.view Entries.empty) ∧
      performed.2.get? StoreKey.notice = some "hello" ∧
      performed.2.get? StoreKey.granularity = some "week" := by
  intro operations visits performed
  have met : visitsOf effects client .inMemory operations () = visits := by
    -- explicit steps keep the kernel from making the calls
    simp -implicitDefEqProofs only [visitsOf, operations, visits, fetch, run_bind_eq, run_pure_eq,
      call_notice, call_about, call_homePage, call_status]
  have perm : (visitsOf effects client .inMemory operations ()).Perm
      [.home true (.ok "hello") (.error (.status 500)), .about (.error (.status 500)),
        .sync (.error (.status 500)), .remember .week] := by
    rw [met]
    exact (List.reverse_perm [_, _, _]).append_right [Visit.remember .week]
  have hrun := (confined_and_commuting effects client .inMemory).2 _ _ _ _ _ _ operations () perm
  rw [met] at hrun
  refine ⟨met, congrArg Prod.fst hrun, ?_⟩
  rw [show performed.2 = _ from congrArg Prod.snd hrun]
  decide +kernel

end PageOperation

end UsageBoard.Pages
