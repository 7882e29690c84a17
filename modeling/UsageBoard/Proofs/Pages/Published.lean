import UsageBoard.Pages.Footer
import UsageBoard.Proofs.Backend.Sent
import UsageBoard.Proofs.Pages.Remembered

/-!
# What a site published

A store is synced with the settings of a site again and again, and some of the calls fail.  Of each
setting the store then holds the latest that was published, or what it held at first.

## Main statements

* `SiteStatus.get?_after_sync`: what one answer leaves at each key.
* `SiteStatus.get?_afterAll`: what any number of answers leave at each key.
* `published_after_syncs`: what is stored and shown after any number of syncs.
-/

namespace UsageBoard

open UsageBoard.Backend (Client Endpoint Outcome)
open UsageBoard.Pages (Footer PageOperation Visit latestOf? latestOf?_append)
open UsageBoard.Store (Edit Entries)

/-- Edits for a field that may be missing, all of which are about one key. -/
theorem Store.Entries.get?_applyAll_field {α : Type} {edit : α → Edit} {own : String}
    (about : ∀ x, (edit x).key = own) (field : Option α) (entries : Entries) (key : String) :
    (entries.applyAll (field.map edit).toList).get? key =
      if key = own then (field.map fun x => (edit x).value?).getD (entries.get? key)
      else entries.get? key := by
  cases field with
  | none => simp [Entries.applyAll]
  | some x =>
      have applied : entries.applyAll [edit x] = entries.apply (edit x) := rfl
      by_cases h : key = own <;> simp [applied, Entries.get?_apply, about, h]

namespace SiteStatus

/-- What an answer says of a key: nothing, or what is there from now on. -/
def change? (status : SiteStatus) (key : String) : Option (Option String) :=
  if key = StoreKey.systemName then status.systemName.map some
  else if key = StoreKey.footerHtml then
    status.footerHtml.map fun html => if html = "" then none else some html
  else if key = StoreKey.quotaPerUnit then
    status.quotaPerUnit.map fun x => some (Decimal.displayText x)
  else if key = StoreKey.inCurrency then status.displayInCurrency.map fun b => some (truthText b)
  else none

theorem get?_applyAll_edits (status : SiteStatus) (entries : Entries) (key : String) :
    (entries.applyAll status.edits).get? key = (status.change? key).getD (entries.get? key) := by
  have ofName : ∀ name, (Edit.put StoreKey.systemName name).key = StoreKey.systemName := fun _ => rfl
  have ofFooter : ∀ html, (if html = "" then Edit.erase StoreKey.footerHtml
      else Edit.put StoreKey.footerHtml html).key = StoreKey.footerHtml := by
    intro html
    split <;> rfl
  have ofUnit : ∀ x, (Edit.put StoreKey.quotaPerUnit (Decimal.displayText x)).key =
      StoreKey.quotaPerUnit := fun _ => rfl
  have ofCurrency : ∀ b, (Edit.put StoreKey.inCurrency (truthText b)).key = StoreKey.inCurrency :=
    fun _ => rfl
  rw [edits, Entries.applyAll_append, Entries.applyAll_append, Entries.applyAll_append,
    Entries.get?_applyAll_field ofCurrency, Entries.get?_applyAll_field ofUnit,
    Entries.get?_applyAll_field ofFooter, Entries.get?_applyAll_field ofName, change?]
  simp only [Edit.value?]
  have apart : [StoreKey.systemName, StoreKey.footerHtml, StoreKey.quotaPerUnit,
      StoreKey.inCurrency].Nodup := by decide
  grind

/-- The latest value that some answers give for a field. -/
def latest? {α : Type} (field : SiteStatus → Option α) (answers : List (Outcome SiteStatus)) : Option α :=
  latestOf? (fun answer => answer.toOption.bind field) answers

/-- What is stored at a key is told by one field, if each answer says of the key what the field holds. -/
theorem latest?_change? {α : Type} {key : String} {field : SiteStatus → Option α}
    {stored : α → Option String} (told : ∀ status, change? status key = (field status).map stored)
    (answers : List (Outcome SiteStatus)) :
    latest? (change? · key) answers = (latest? field answers).map stored := by
  simp only [latest?, latestOf?, List.map_findSome?, told]
  congr 1
  funext answer
  cases answer <;> rfl

theorem latest?_append {α : Type} (field : SiteStatus → Option α) (answers : List (Outcome SiteStatus))
    (last : Outcome SiteStatus) :
    latest? field (answers ++ [last]) = (last.toOption.bind field).or (latest? field answers) :=
  latestOf?_append _ answers last

theorem get?_after_sync (answer : Outcome SiteStatus) (entries : Entries) (key : String) :
    ((Visit.sync answer).after entries).get? key =
      (answer.toOption.bind (change? · key)).getD (entries.get? key) := by
  cases answer with
  | error fault => rfl
  | ok status => exact status.get?_applyAll_edits entries key

/-- The same answer once more changes nothing. -/
theorem after_sync_idem (answer : Outcome SiteStatus) (entries : Entries) :
    (Visit.sync answer).after ((Visit.sync answer).after entries) = (Visit.sync answer).after entries := by
  apply Entries.ext_get?
  intro key
  rw [get?_after_sync, get?_after_sync]
  cases answer.toOption.bind (change? · key) <;> rfl

/-- The entries after each of some answers has been synced. -/
def afterAll (start : Entries) (answers : List (Outcome SiteStatus)) : Entries :=
  answers.foldl (fun entries answer => (Visit.sync answer).after entries) start

theorem get?_afterAll (start : Entries) (answers : List (Outcome SiteStatus)) (key : String) :
    (afterAll start answers).get? key = (latest? (change? · key) answers).getD (start.get? key) := by
  induction answers using List.reverseRecOn with
  | nil => rfl
  | append_singleton answers last ih =>
      have step : afterAll start (answers ++ [last]) = (Visit.sync last).after (afterAll start answers) := by
        rw [afterAll, List.foldl_append]
        rfl
      rw [step, get?_after_sync, ih, latest?_append, Pages.Remembers.getD_or]

end SiteStatus

open SiteStatus (afterAll latest?)

/-- Entries hold of each setting what was published last, and what they held at first of all else. -/
structure HoldsPublished (start : Entries) (answers : List (Outcome SiteStatus)) (entries : Entries) :
    Prop where
  systemName : entries.get? StoreKey.systemName =
    (latest? SiteStatus.systemName answers).or (start.get? StoreKey.systemName)
  quotaPerUnit : entries.get? StoreKey.quotaPerUnit =
    ((latest? SiteStatus.quotaPerUnit answers).map Decimal.displayText).or
      (start.get? StoreKey.quotaPerUnit)
  inCurrency : entries.get? StoreKey.inCurrency =
    ((latest? SiteStatus.displayInCurrency answers).map truthText).or (start.get? StoreKey.inCurrency)
  /-- There is no footer after an empty one. -/
  footerHtml : entries.get? StoreKey.footerHtml =
    match latest? SiteStatus.footerHtml answers with
    | some html => if html = "" then none else some html
    | none => start.get? StoreKey.footerHtml
  others : ∀ key, key ∉ [StoreKey.systemName, StoreKey.footerHtml, StoreKey.quotaPerUnit,
    StoreKey.inCurrency] → entries.get? key = start.get? key

namespace HoldsPublished

variable {start entries : Entries} {answers : List (Outcome SiteStatus)}

theorem getD_map_some {α β : Type} (write : α → β) (found : Option α) (first : Option β) :
    (found.map fun x => some (write x)).getD first = (found.map write).or first := by
  cases found <;> rfl

theorem of_afterAll (start : Entries) (answers : List (Outcome SiteStatus)) :
    HoldsPublished start answers (afterAll start answers) where
  systemName := by
    rw [SiteStatus.get?_afterAll, SiteStatus.latest?_change? fun _ => rfl]
    cases latest? SiteStatus.systemName answers <;> rfl
  quotaPerUnit := by
    rw [SiteStatus.get?_afterAll, SiteStatus.latest?_change? fun _ => rfl, getD_map_some]
  inCurrency := by
    rw [SiteStatus.get?_afterAll, SiteStatus.latest?_change? fun _ => rfl, getD_map_some]
  footerHtml := by
    rw [SiteStatus.get?_afterAll, SiteStatus.latest?_change? fun _ => rfl]
    cases latest? SiteStatus.footerHtml answers <;> rfl
  others := by
    intro key outside
    simp only [List.mem_cons, List.not_mem_nil, or_false, not_or] at outside
    obtain ⟨hname, hfooter, hunit, hcurrency⟩ := outside
    have silent : ∀ status : SiteStatus, status.change? key = none := by
      simp [SiteStatus.change?, hname, hfooter, hunit, hcurrency]
    have never : latest? (SiteStatus.change? · key) answers = none := by
      simp [latest?, latestOf?, silent]
    rw [SiteStatus.get?_afterAll, never]
    rfl

theorem footer_eq (h : HoldsPublished start answers entries) :
    Footer.ofEntries entries =
      match latest? SiteStatus.footerHtml answers with
      | some html => if html = "" then .builtIn else .custom html
      | none => Footer.ofEntries start := by
  rw [Footer.ofEntries, h.footerHtml]
  cases latest? SiteStatus.footerHtml answers with
  | none => rfl
  | some html => by_cases empty : html = "" <;> simp [empty]

/-- The text in which a truth value is stored is read back. -/
theorem inCurrency_eq (h : HoldsPublished start answers entries) (format : QuotaFormat) :
    (format.withStored entries).inCurrency =
      (latest? SiteStatus.displayInCurrency answers).getD (format.withStored start).inCurrency := by
  simp only [QuotaFormat.withStored, QuotaFormat.withOverrides, h.inCurrency]
  cases latest? SiteStatus.displayInCurrency answers with
  | none => rfl
  | some shown => cases shown <;> rfl

end HoldsPublished

namespace LocalStore

variable {m : Type → Type} [Monad m]

/-- Syncs a store a number of times; gives the outcomes of the calls, and the store in the end. -/
def syncTimes [Url.DomainNames] (fx : Effects m) (client : Client) :
    LocalStore → Nat → m (List (Outcome SiteStatus) × LocalStore)
  | store, 0 => return ([], store)
  | store, times + 1 => do
      let (answer, store) ← store.sync fx client
      let (answers, store) ← syncTimes fx client store times
      return (answer :: answers, store)

variable {σ : Type} (fx : Effects (StateM σ)) (client : Client)

theorem snd_run_sync [Url.DomainNames] (store : LocalStore) (s : σ) :
    let synced := (store.sync fx client).run s
    synced.1.2 = ⟨store.path, (Visit.sync synced.1.1).after store.entries⟩ := by
  intro synced
  have both := PageOperation.fst_run_sync fx client store s
  have answer : synced.1.1 = _ := congrArg Prod.fst both
  have later : synced.1.2 = _ := congrArg Prod.snd both
  rw [answer, later]

theorem snd_run_syncTimes [Url.DomainNames] (store : LocalStore) (times : Nat) (s : σ) :
    let synced := (store.syncTimes fx client times).run s
    synced.1.1.length = times ∧ synced.1.2 = ⟨store.path, afterAll store.entries synced.1.1⟩ := by
  induction times generalizing store s with
  | zero => exact ⟨rfl, rfl⟩
  | succ times ih =>
      have first := snd_run_sync fx client store s
      simp only [syncTimes, run_bind_eq, run_pure_eq, List.length_cons]
      generalize (store.sync fx client).run s = synced at first
      obtain ⟨⟨answer, next⟩, later⟩ := synced
      obtain rfl : next = ⟨store.path, (Visit.sync answer).after store.entries⟩ := first
      obtain ⟨length, rest⟩ := ih _ later
      exact ⟨congrArg Nat.succ length, rest⟩

end LocalStore

/-- After any number of syncs, of which any may fail, the store holds of each setting what was published
last; the footer and the use of currency are shown accordingly.  An answer that comes twice in a row
leaves what it left the first time. -/
theorem published_after_syncs [Url.DomainNames] {σ : Type} (fx : Effects (StateM σ)) (client : Client)
    (store : LocalStore) (times : Nat) (s : σ) :
    let synced := (store.syncTimes fx client times).run s
    let answers := synced.1.1
    let entries := synced.1.2.entries
    answers.length = times ∧
    HoldsPublished store.entries answers entries ∧
    Footer.ofEntries entries =
      (match latest? SiteStatus.footerHtml answers with
      | some html => if html = "" then .builtIn else .custom html
      | none => Footer.ofEntries store.entries) ∧
    (∀ format : QuotaFormat, (format.withStored entries).inCurrency =
      (latest? SiteStatus.displayInCurrency answers).getD (format.withStored store.entries).inCurrency) ∧
    let once := (synced.1.2.sync fx client).run synced.2
    let twice := (once.1.2.sync fx client).run once.2
    once.1.1 = twice.1.1 → twice.1.2 = once.1.2 := by
  intro synced answers entries
  obtain ⟨length, reached⟩ := LocalStore.snd_run_syncTimes fx client store times s
  have holds : HoldsPublished store.entries answers entries := by
    simp only [entries, synced, reached]
    exact HoldsPublished.of_afterAll store.entries answers
  refine ⟨length, holds, holds.footer_eq, holds.inCurrency_eq, ?_⟩
  intro once twice same
  have first : once.1.2 = _ := LocalStore.snd_run_sync fx client synced.1.2 synced.2
  have again : twice.1.2 = _ := LocalStore.snd_run_sync fx client once.1.2 once.2
  rw [again, ← same, first, SiteStatus.after_sync_idem]

/-! ## A site that clears its footer -/

namespace Clearing

open UsageBoard.Backend (RecordsRequests Reply Request)
open scoped Url.Alphabets

def client : Client := ⟨"http://localhost", none, none, none⟩

def envelope (data : Json) : Json :=
  .object [("success", .bool true), ("message", .text ""), ("data", data)]

def reply (data : Json) : Reply := ⟨200, (envelope data).pretty.toUTF8⟩

/-- The replies to the first request, to the second one and to all later ones. -/
def replyAfter : (earlier : Nat) → Reply
  | 0 => reply (.object [("system_name", .text "Harbor"), ("footer_html", .text "<p>Harbor</p>"),
      ("display_in_currency", .bool false)])
  | 1 => ⟨500, .empty⟩
  | _ => reply (.object [("footer_html", .text "")])

def answerAfter : (earlier : Nat) → Outcome SiteStatus
  | 0 => .ok ⟨some "Harbor", some "<p>Harbor</p>", none, some false, none⟩
  | 1 => .error (.status 500)
  | _ => .ok ⟨none, some "", none, none, none⟩

/-- Means whose state is the requests that were sent. -/
def effects : Effects (StateM (List Request)) where
  readFile _ := pure (.error .notFound)
  writeFile _ _ := pure (.ok ())
  makeFolders _ := pure (.ok ())
  fileExists _ := pure false
  send request := fun sent => (some (replyAfter sent.length), request :: sent)
  now := pure 0
  log _ := pure ()

theorem recordsRequests : RecordsRequests effects id where
  looks := ⟨fun _ => rfl, fun first second => second.trans first, fun _ _ => rfl, fun _ _ => rfl,
    fun _ => rfl, fun _ _ => rfl⟩
  send _ _ := rfl

theorem document_reply {data : Json} (legible : data.Legible) :
    (reply data).document = ⟨(envelope data).node, true⟩ :=
  Backend.document_pretty 200 (by simpa [envelope, Json.Legible, Json.MembersLegible] using legible)

theorem outcome_replyAfter (earlier : Nat) :
    Endpoint.status.outcome (replyAfter earlier) = answerAfter earlier := by
  rcases earlier with _ | _ | earlier
  · rw [replyAfter, Endpoint.outcome, document_reply (by simp [Json.Legible, Json.MembersLegible])]
    rfl
  · rfl
  · rw [replyAfter, Endpoint.outcome, document_reply (by simp [Json.Legible, Json.MembersLegible])]
    · rfl
    · exact Nat.succ_ne_zero _
    · omega

theorem run_sync {store : LocalStore} (inMemory : store.path = none) (sent : List Request) :
    let synced := (store.sync effects client).run sent
    synced.1.1 = answerAfter sent.length ∧ synced.1.2.path = none ∧
      synced.2.length = sent.length + 1 := by
  intro synced
  obtain ⟨request, asked⟩ :=
    Backend.exists_request (client.request? Endpoint.status) (by decide +kernel)
  have answer : ((client.call effects Endpoint.status).run sent).1 = answerAfter sent.length :=
    (client.fst_run_call effects sent Endpoint.status asked fun _ => rfl).trans
      (outcome_replyAfter sent.length)
  have both : synced.1 = _ := PageOperation.fst_run_sync effects client store sent
  have moved : synced.2 = _ := recordsRequests.sync client (by simp [inMemory]) sent
  refine ⟨?_, ?_, ?_⟩
  · rw [both, answer]
  · rw [both]
    exact inMemory
  · rw [moved]
    simp [Client.asked, asked, Except.toOption]

theorem run_syncTimes {store : LocalStore} (inMemory : store.path = none) (sent : List Request)
    (times : Nat) :
    let synced := (store.syncTimes effects client times).run sent
    synced.1.1 = (List.range' sent.length times).map answerAfter ∧ synced.1.2.path = none ∧
      synced.2.length = sent.length + times := by
  induction times generalizing store sent with
  | zero => exact ⟨rfl, inMemory, rfl⟩
  | succ times ih =>
      obtain ⟨answer, path, length⟩ := run_sync inMemory sent
      obtain ⟨answers, kept, later⟩ := ih path ((store.sync effects client).run sent).2
      simp only [LocalStore.syncTimes, run_bind_eq, run_pure_eq, answer, answers, later, length]
      exact ⟨rfl, kept, by omega⟩

theorem answers_agree {store : LocalStore} (inMemory : store.path = none) {sent : List Request}
    (late : 2 ≤ sent.length) :
    let once := (store.sync effects client).run sent
    once.1.1 = ((once.1.2.sync effects client).run once.2).1.1 := by
  obtain ⟨first, kept, length⟩ := run_sync inMemory sent
  obtain ⟨second, -⟩ := run_sync kept ((store.sync effects client).run sent).2
  obtain ⟨more, hmore⟩ := Nat.exists_eq_add_of_le' late
  rw [hmore] at first length
  rw [length] at second
  exact first.trans second.symm

end Clearing

open Clearing in
open scoped Url.Alphabets in
/-- The second call fails, and the third answer, which comes again and again, takes back the footer of
the first one. -/
theorem published_after_syncs_of_cleared_footer :
    let synced := (LocalStore.inMemory.syncTimes effects client 3).run []
    let store := synced.1.2
    synced.1.1 = [answerAfter 0, .error (.status 500), answerAfter 2] ∧
    (store.get? StoreKey.systemName = some "Harbor" ∧ store.get? StoreKey.footerHtml = none) ∧
    Footer.ofEntries store.entries = .builtIn ∧
    (QuotaFormat.default.withStored store.entries).inCurrency = false ∧
    let once := (store.sync effects client).run synced.2
    let twice := (once.1.2.sync effects client).run once.2
    once.1.1 = twice.1.1 ∧ twice.1.2 = once.1.2 := by
  have inMemory : LocalStore.inMemory.path = none := rfl
  obtain ⟨answers, path, sent⟩ := run_syncTimes inMemory [] 3
  obtain ⟨-, holds, footer, currency, again⟩ :=
    published_after_syncs effects client LocalStore.inMemory 3 []
  have same := answers_agree path (by rw [sent]; decide)
  -- without names for what was reached, the kernel has nothing to compare by running it
  dsimp only at again same ⊢
  rw [answers] at holds footer currency
  exact ⟨answers, ⟨holds.systemName, holds.footerHtml⟩, footer, currency QuotaFormat.default, same,
    again same⟩

end UsageBoard
