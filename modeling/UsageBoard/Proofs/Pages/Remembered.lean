import UsageBoard.Proofs.Pages.Visits

/-!
# What pages remember

Over any run of operations the store remembers, for each page, the content that its latest visit showed
for which there was any, and the latest notice that was not empty.  What a page shows at first, and
whether a notice is new, depends on that alone.

## Main statements

* `Remembers.after`: what a visit leaves of this.
* `shown_after_run`: what is shown after any run.
-/

namespace UsageBoard.Pages

open UsageBoard.Backend (Client Endpoint Outcome)
open UsageBoard.Store (Entries)

namespace Given

variable {entries : Entries}

theorem get?_applyAll_edits_of_ne {key other : String} (hne : key ≠ other) (content : Outcome String) :
    (entries.applyAll (edits key content)).get? other = entries.get? other := by
  apply Entries.get?_applyAll_of_forall_ne
  cases content with
  | error fault => exact fun _ there => nomatch there
  | ok raw => exact List.forall_mem_singleton.mpr hne

theorem remembered_applyAll_edits (key : String) (fetched : Outcome String) :
    remembered (entries.applyAll (edits key fetched)) key =
      (fetched.toOption.map fun _ => content fetched).getD (remembered entries key) := by
  cases fetched with
  | error fault => rfl
  | ok raw =>
      have stored : (entries.applyAll (edits key (.ok raw))).get? key =
          some (PageContent.resolve raw) := by
        simp [Entries.get?_applyAll, Store.latestEdit?, edits, Store.Edit.key, Store.Edit.value?]
      rw [remembered, stored]
      rfl

end Given

namespace Visit

/-- The notice that a visit met, if there was one that is not empty. -/
def notice? : Visit → Option String
  | home _ (.ok text) _ => if text = "" then none else some text
  | _ => none

def homeContent? : Visit × View → Option PageContent
  | (home _ _ (.ok _), .home page) => some page.content
  | _ => none

def aboutContent? : Visit × View → Option PageContent
  | (about (.ok _), .about page) => some page.content
  | _ => none

variable {entries : Entries}

theorem get?_after_of_not_reach {key : String} (visit : Visit) (outside : key ∉ visit.reach) :
    (visit.after entries).get? key = entries.get? key :=
  visit.get?_after_of_not_mem fun there => outside (visit.keys_subset_reach there)

theorem remembered_after_of_not_reach {key : String} (visit : Visit) (outside : key ∉ visit.reach) :
    Given.remembered (visit.after entries) key = Given.remembered entries key := by
  rw [Given.remembered, visit.get?_after_of_not_reach outside, Given.remembered]

theorem get?_applyAll_put? (key : String) (value : Option String) :
    (entries.applyAll (value.map (Store.Edit.put key)).toList).get? key =
      value.or (entries.get? key) := by
  cases value <;>
    simp [Entries.get?_applyAll, Store.latestEdit?, Store.Edit.key, Store.Edit.value?]

/-- A notice that was seen before is what is remembered already. -/
theorem newNotice_or (loggedIn : Bool) (notice content : Outcome String) :
    (Home.newNotice entries notice).or (entries.get? StoreKey.notice) =
      (home loggedIn notice content).notice?.or (entries.get? StoreKey.notice) := by
  cases notice with
  | error fault => rfl
  | ok text =>
      simp only [Home.newNotice, notice?]
      by_cases hempty : text = ""
      · simp [hempty]
      · by_cases seen : entries.get? StoreKey.notice = some text <;> simp [hempty, seen]

theorem get?_notice_after (visit : Visit) :
    (visit.after entries).get? StoreKey.notice = visit.notice?.or (entries.get? StoreKey.notice) := by
  cases visit with
  | home loggedIn notice content =>
      have hne : StoreKey.homePage ≠ StoreKey.notice := by decide
      rw [after, edits, Home.edits, Entries.applyAll_append, Given.get?_applyAll_edits_of_ne hne,
        get?_applyAll_put?, newNotice_or]
  | _ => exact get?_after_of_not_reach _ (by simp only [reach]; decide)

theorem remembered_homePage_after (visit : Visit) :
    Given.remembered (visit.after entries) StoreKey.homePage =
      (homeContent? (visit, visit.view entries)).getD
        (Given.remembered entries StoreKey.homePage) := by
  cases visit with
  | home loggedIn notice content =>
      have untouched : (entries.applyAll ((Home.newNotice entries notice).map
            (Store.Edit.put StoreKey.notice)).toList).get? StoreKey.homePage =
          entries.get? StoreKey.homePage := by
        apply Entries.get?_applyAll_of_forall_ne
        cases Home.newNotice entries notice <;> simp [Store.Edit.key, StoreKey.notice, StoreKey.homePage]
      rw [after, edits, Home.edits, Entries.applyAll_append, Given.remembered_applyAll_edits,
        Given.remembered, untouched]
      cases content <;> rfl
  | _ => exact remembered_after_of_not_reach _ (by simp only [reach]; decide)

theorem remembered_about_after (visit : Visit) :
    Given.remembered (visit.after entries) StoreKey.about =
      (aboutContent? (visit, visit.view entries)).getD (Given.remembered entries StoreKey.about) := by
  cases visit with
  | about content =>
      rw [after, edits, About.edits, Given.remembered_applyAll_edits]
      cases content <;> rfl
  | _ => exact remembered_after_of_not_reach _ (by simp only [reach]; decide)

end Visit

/-- What the latest of some visits gave that gave anything. -/
def latestOf? {α β : Type} (find : α → Option β) (past : List α) : Option β :=
  past.reverse.findSome? find

theorem latestOf?_append {α β : Type} (find : α → Option β) (past : List α) (last : α) :
    latestOf? find (past ++ [last]) = (find last).or (latestOf? find past) :=
  findSome?_reverse_append find past last

theorem latestOf?_cons {α β : Type} (find : α → Option β) (first : α) (later : List α) :
    latestOf? find (first :: later) = (latestOf? find later).or (find first) := by
  rw [latestOf?, List.reverse_cons, List.findSome?_append, latestOf?]
  cases h : find first <;> simp [h]

/-- Entries remember what some visits gave, from given entries on. -/
structure Remembers (start : Entries) (past : List (Visit × View)) (entries : Entries) : Prop where
  notice : entries.get? StoreKey.notice =
    (latestOf? (fun seen => seen.1.notice?) past).or (start.get? StoreKey.notice)
  home : Given.remembered entries StoreKey.homePage =
    (latestOf? Visit.homeContent? past).getD (Given.remembered start StoreKey.homePage)
  about : Given.remembered entries StoreKey.about =
    (latestOf? Visit.aboutContent? past).getD (Given.remembered start StoreKey.about)

namespace Remembers

variable {start entries : Entries} {past : List (Visit × View)}

theorem of_start (start : Entries) : Remembers start [] start := ⟨rfl, rfl, rfl⟩

theorem getD_or {α : Type} (last earlier : Option α) (first : α) :
    (last.or earlier).getD first = last.getD (earlier.getD first) := by
  cases last <;> rfl

theorem after (h : Remembers start past entries) (visit : Visit) :
    Remembers start (past ++ [(visit, visit.view entries)]) (visit.after entries) where
  notice := by
    rw [visit.get?_notice_after, h.notice, latestOf?_append, Option.or_assoc]
  home := by
    rw [visit.remembered_homePage_after, h.home, latestOf?_append, getD_or]
  about := by
    rw [visit.remembered_about_after, h.about, latestOf?_append, getD_or]

theorem run (h : Remembers start past entries) (visits : List Visit) :
    Remembers start (past ++ visits.zip (Visit.views entries visits))
      (visits.foldl Visit.after entries) := by
  induction visits generalizing past entries with
  | nil => simpa [Visit.views] using h
  | cons visit rest ih => simpa [Visit.views] using ih (h.after visit)

end Remembers

theorem Home.notice_eq_some_iff {entries : Entries} {loggedIn : Bool} {notice content : Outcome String}
    {html : String} :
    (Home.ofOutcomes entries loggedIn notice content).notice = some html ↔
      ∃ text, notice = .ok text ∧ text ≠ "" ∧ entries.get? StoreKey.notice ≠ some text ∧
        html = Markup.toHtml text := by
  simp only [Home.ofOutcomes, Option.map_eq_some_iff, Home.newNotice_eq_some_iff]
  constructor
  · rintro ⟨text, ⟨fetched, nonempty, unseen⟩, rfl⟩
    exact ⟨text, fetched, nonempty, unseen, rfl⟩
  · rintro ⟨text, fetched, nonempty, unseen, rfl⟩
    exact ⟨text, ⟨fetched, nonempty, unseen⟩, rfl⟩

theorem Home.contentNotifications_eq (entries : Entries) (loggedIn : Bool)
    (notice content : Outcome String) :
    ((Home.ofOutcomes entries loggedIn notice content).notifications.filter fun shown =>
      shown.operation == Home.contentOperation) =
        Notification.ofOutcome Home.contentOperation content := by
  cases notice <;> cases content <;> rfl

/-- After any run of operations the pages show at first what was shown last of what was fetched, or
else what they showed before the run.  A notice is shown just if it is not empty and not the latest
such notice; content that cannot be fetched is shown as the built-in page, with one notification. -/
theorem shown_after_run [Url.DomainNames] {σ : Type} (fx : Effects (StateM σ)) (client : Client)
    (store : LocalStore) (operations : List PageOperation) (s : σ) :
    let reached := (PageOperation.performAll fx client store operations).run s
    let past := (PageOperation.visitsOf fx client store operations s).zip reached.1.1
    let seen := (latestOf? (fun visited => visited.1.notice?) past).or (store.get? StoreKey.notice)
    (∀ loggedIn, (Home.cached reached.1.2.entries loggedIn).content =
      (latestOf? Visit.homeContent? past).getD (Home.cached store.entries loggedIn).content) ∧
    (About.cached reached.1.2.entries).content =
      (latestOf? Visit.aboutContent? past).getD (About.cached store.entries).content ∧
    (∀ loggedIn,
      let page := ((Home.load fx client reached.1.2 loggedIn).run reached.2).1.1
      let notice := (client.call fx Endpoint.notice).run reached.2
      let content := (client.call fx Endpoint.homePage).run notice.2
      (∀ html, page.notice = some html ↔
        ∃ text, notice.1 = .ok text ∧ text ≠ "" ∧ seen ≠ some text ∧ html = Markup.toHtml text) ∧
      ∀ fault, content.1 = .error fault → page.content = .builtIn ∧
        (page.notifications.filter fun shown => shown.operation == Home.contentOperation) =
          [.ofError Home.contentOperation fault]) ∧
    (let page := ((About.load fx client reached.1.2).run reached.2).1.1
      let content := (client.call fx Endpoint.about).run reached.2
      ∀ fault, content.1 = .error fault →
        page.content = .builtIn ∧ page.notifications = [.ofError About.operation fault]) := by
  intro reached past seen
  have hrun := PageOperation.fst_run_performAll fx client store operations s
  have remembers : Remembers store.entries past reached.1.2.entries := by
    have h := (Remembers.of_start store.entries).run
      (PageOperation.visitsOf fx client store operations s)
    rw [List.nil_append] at h
    simp only [past, reached, hrun]
    exact h
  refine ⟨fun _ => remembers.home, remembers.about, ?_, ?_⟩
  · intro loggedIn page notice content
    have hpage : page = Home.ofOutcomes reached.1.2.entries loggedIn notice.1 content.1 :=
      congrArg Prod.fst (PageOperation.fst_run_home fx client reached.1.2 loggedIn reached.2)
    rw [hpage]
    constructor
    · intro html
      have hseen : seen = reached.1.2.entries.get? StoreKey.notice := remembers.notice.symm
      rw [hseen]
      exact Home.notice_eq_some_iff
    · intro fault failed
      rw [failed]
      exact ⟨rfl, Home.contentNotifications_eq _ loggedIn notice.1 (.error fault)⟩
  · intro page content fault failed
    have hpage : page = About.ofOutcome content.1 :=
      congrArg Prod.fst (PageOperation.fst_run_about fx client reached.1.2 reached.2)
    rw [hpage, failed]
    exact ⟨rfl, rfl⟩

section

open PageOperation NoticeOnly
open scoped Url.Alphabets

/-- The second notice is the one that was shown first; the contents cannot be fetched. -/
theorem shown_after_run_of_second_visit :
    let reached := (performAll effects client .inMemory [.about, .home true]).run ()
    let home := ((Home.load effects client reached.1.2 true).run reached.2).1.1
    let about := ((About.load effects client reached.1.2).run reached.2).1.1
    (home.notice = none ∧ home.content = .builtIn ∧
      (home.notifications.filter fun shown => shown.operation == Home.contentOperation) =
        [.ofError Home.contentOperation (.status 500)]) ∧
      about.content = .builtIn ∧ about.notifications = [.ofError About.operation (.status 500)] := by
  intro reached home about
  have met : visitsOf effects client .inMemory [.about, .home true] () =
      [.about (.error (.status 500)), .home true (.ok "hello") (.error (.status 500))] := by
    -- explicit steps keep the kernel from making the calls
    simp -implicitDefEqProofs only [visitsOf, fetch, run_bind_eq, run_pure_eq, call_notice, call_about,
      call_homePage]
  have hrun := fst_run_performAll effects client .inMemory [.about, .home true] ()
  obtain ⟨-, -, hhome, habout⟩ := shown_after_run effects client .inMemory [.about, .home true] ()
  obtain ⟨hnotice, hcontent⟩ := hhome true
  refine ⟨⟨?_, hcontent _ (call_homePage _)⟩, habout _ (call_about _)⟩
  rw [Option.eq_none_iff_forall_ne_some]
  intro html shown
  obtain ⟨text, fetched, -, unseen, -⟩ := (hnotice html).mp shown
  obtain rfl : "hello" = text := Except.ok.inj ((call_notice _).symm.trans fetched)
  refine unseen ?_
  rw [met, hrun, met]
  rfl

end

end UsageBoard.Pages
