import UsageBoard.Proofs.Document.Fields
import UsageBoard.Proofs.Json.Intact
import UsageBoard.Proofs.Store.Disk
import UsageBoard.Url.Alphabets
import UsageBoard.World

/-!
# Replies that say that the backend failed

An envelope is decoded together with its data, also when it says that the backend failed.  Main
statement: the failure is reported as such just if the envelope can be read with the data of the
endpoint; otherwise the reply counts as malformed (`failure_is_refusal_iff`).
-/

namespace UsageBoard.Backend

open UsageBoard.Document

namespace Envelope

variable {α : Type} (data : Decoder α)

def record : Record (Envelope α) :=
  Envelope.mk <$> Record.required "success" Decoder.bool
    <*> Record.defaulted "message" Decoder.string ""
    <*> Record.optional "data" data

/-- The depth that is left for the members of a reply. -/
def memberDepth : Nat := depthLimit - 1

def fieldNames : List String := ["success", "message", "data"]

/-- Members of a reply by which the backend says that it failed. -/
structure SaysFailed (members : List (Option String × Node)) (message : Option String) : Prop where
  success : members.lookup (some "success") = some (.bool false)
  message : members.lookup (some "message") = message.map Node.text

/-- Whether the members of a reply can be read: their keys are texts, no field is there twice, and
the data, if any, are those of the endpoint. -/
structure IsReadable (members : List (Option String × Node)) : Prop where
  named : ∀ member ∈ members, member.1 ≠ none
  once : ((members.filterMap Prod.fst).filter (· ∈ fieldNames)).Nodup
  data : ∀ node, members.lookup (some "data") = some node →
    node = .null ∨ ∃ value, data memberDepth node = .ok value

variable {data} {members : List (Option String × Node)} {message : Option String}

theorem fields_record : (record data).fields =
    [("success", fun depth node => (Decoder.bool depth node).map fun _ => ()),
      ("message", fun depth node => (Decoder.string depth node).map fun _ => ()),
      ("data", fun depth node => (Decoder.optional data depth node).map fun _ => ())] := rfl

theorem lookup_fields_record (name : String) :
    ((record data).fields.lookup name).isSome = decide (name ∈ fieldNames) := by
  simp only [fields_record, lookup_cons_eq_ite, fieldNames]
  by_cases hs : name = "success"
  · simp [hs]
  · by_cases hm : name = "message"
    · simp [hm]
    · by_cases hd : name = "data" <;> simp [hs, hm, hd]

theorem optional_ok_iff (node : Node) :
    (Decoder.optional data memberDepth node).map (fun _ => ()) = .ok () ↔
      node = .null ∨ ∃ value, data memberDepth node = .ok value := by
  by_cases hnull : node = .null
  · subst hnull
    exact iff_of_true rfl (.inl rfl)
  · rw [Decoder.optional.eq_2 data memberDepth node hnull]
    cases data memberDepth node <;> simp [hnull, Except.map]

theorem intact_of_mem {key : Option String} {value : Node} (whole : Node.membersIntact members)
    (there : (key, value) ∈ members) : value.intact := by
  induction members with
  | nil => cases there
  | cons member members ih =>
      obtain ⟨other, found⟩ := member
      rw [Node.membersIntact, Bool.and_eq_true] at whole
      rcases List.mem_cons.mp there with heq | hrest
      · obtain ⟨-, rfl⟩ := Prod.mk.inj heq
        exact whole.1
      · exact ih whole.2 hrest

theorem accepts_iff_isReadable (failed : SaysFailed members message)
    (whole : Node.membersIntact members) :
    (record data).Accepts .data memberDepth members ↔ IsReadable data members := by
  have hfields : (record data).fieldsIn members =
      (members.filterMap Prod.fst).filter (· ∈ fieldNames) := by
    simp only [Record.fieldsIn, lookup_fields_record]
  constructor
  · intro h
    refine ⟨h.named, hfields ▸ h.once, ?_⟩
    intro node there
    exact (optional_ok_iff node).mp (h.typed "data" _ node rfl there)
  · intro h
    refine ⟨h.named, hfields ▸ h.once, ?_, ?_⟩
    · intro name check value field there
      -- the types of the first two fields are settled by what the reply holds for them
      rw [fields_record] at field
      simp only [lookup_cons_eq_ite, beq_iff_eq] at field
      split at field
      · rename_i hname
        obtain rfl := Option.some.inj field
        obtain rfl : Node.bool false = value := Option.some.inj (failed.success.symm.trans (hname ▸ there))
        rfl
      · split at field
        · rename_i hname
          obtain rfl := Option.some.inj field
          obtain ⟨text, -, rfl⟩ := Option.map_eq_some_iff.mp (failed.message.symm.trans (hname ▸ there))
          rfl
        · split at field
          · rename_i hname
            obtain rfl := Option.some.inj field
            exact (optional_ok_iff value).mpr (h.data value (hname ▸ there))
          · cases field
    · exact fun name value there _ => ⟨rfl, intact_of_mem whole there⟩

theorem build_record (depth : Nat) (lookup : Lookup) :
    (record data).build depth lookup = (do
      let success ← (Record.required "success" Decoder.bool).build depth lookup
      let message ← (Record.defaulted "message" Decoder.string "").build depth lookup
      let found ← (Record.optional "data" data).build depth lookup
      return ⟨success, message, found⟩) := by
  simp only [record, Seq.seq, Record.seq, Functor.map, Record.pure, bind_assoc, pure_bind]
  rfl

theorem optional_data_of_accepts (h : (record data).Accepts .data memberDepth members) :
    ∃ found, (Record.optional "data" data).build memberDepth (Record.ofMembers members) = .ok found := by
  cases there : members.lookup (some "data") with
  | none => exact ⟨none, by simp [Record.optional, Record.fieldWith, Record.ofMembers, there]⟩
  | some node =>
      have typed := h.typed "data" _ node rfl there
      cases hnode : Decoder.optional data memberDepth node with
      | error fault => simp [hnode, Except.map] at typed
      | ok found =>
          exact ⟨found, by simp [Record.optional, Record.fieldWith, Record.ofMembers, there, hnode]⟩

variable (data) in
/-- The check of the members decides whether the envelope is decoded. -/
theorem decoder_table (failed : SaysFailed members message) :
    (∃ fault, decoder data depthLimit (.table members) = .error fault ∧
        ¬(record data).Accepts .data memberDepth members) ∨
      ∃ found, decoder data depthLimit (.table members) = .ok ⟨false, message.getD "", found⟩ ∧
        (record data).Accepts .data memberDepth members := by
  have hdecoder : decoder data depthLimit (.table members) = (do
      (record data).checkMembers .data memberDepth [] members
      (record data).build memberDepth (Record.ofMembers members)) := rfl
  rw [hdecoder]
  cases hcheck : (record data).checkMembers .data memberDepth [] members with
  | error fault =>
      refine .inl ⟨fault, rfl, ?_⟩
      rw [← Record.checkMembers_eq_ok_iff, hcheck]
      nofun
  | ok _ =>
      have accepts := Record.checkMembers_eq_ok_iff.mp hcheck
      obtain ⟨found, hfound⟩ := optional_data_of_accepts accepts
      have hsuccess : (Record.required "success" Decoder.bool).build memberDepth
          (Record.ofMembers members) = .ok false := by
        simp [Record.required, Record.fieldWith, Record.ofMembers, failed.success, Decoder.bool]
      have hmessage : (Record.defaulted "message" Decoder.string "").build memberDepth
          (Record.ofMembers members) = .ok (message.getD "") := by
        cases message <;>
          simp [Record.defaulted, Record.fieldWith, Record.ofMembers, failed.message, Decoder.string]
      refine .inr ⟨found, ?_, accepts⟩
      rw [build_record, hsuccess, hmessage, hfound]
      rfl

/-- What a failure is reported with. -/
def shownMessage (message : Option String) : String :=
  if message.getD "" = "" then defaultMessage else message.getD ""

theorem shownMessage_ne_empty (message : Option String) : shownMessage message ≠ "" := by
  unfold shownMessage
  split
  · decide
  · assumption

end Envelope

open Envelope (SaysFailed IsReadable shownMessage memberDepth)

variable {α : Type} {reply : Reply} {members : List (Option String × Node)}
  {message : Option String}

theorem Reply.document_intact (complete : reply.document.complete) : reply.document.root.intact := by
  unfold document at complete ⊢
  split
  · rename_i text htext
    rw [htext] at complete
    exact Json.intact_of_complete complete
  · rename_i htext
    rw [htext] at complete
    exact Json.intact_of_complete complete

/-- A reply that says that the backend failed is refused or malformed. -/
theorem Endpoint.outcome_of_failure (endpoint : Endpoint α) (accepted : isSuccess reply.status)
    (body : reply.document = ⟨.table members, true⟩) (failed : SaysFailed members message) :
    (IsReadable endpoint.decoder members ∧
        endpoint.outcome reply = .error (.refused (shownMessage message))) ∨
      ¬IsReadable endpoint.decoder members ∧
        ∃ fault, endpoint.outcome reply = .error (.malformed endpoint.path fault) := by
  have whole : Node.membersIntact members := by
    have h := Reply.document_intact (by rw [body])
    rwa [body] at h
  rw [← Envelope.accepts_iff_isReadable failed whole]
  unfold Endpoint.outcome
  rw [if_pos accepted, body]
  rcases Envelope.decoder_table endpoint.decoder failed with
    ⟨fault, hdecode, hrejects⟩ | ⟨found, hdecode, haccepts⟩
  · refine .inr ⟨hrejects, fault, ?_⟩
    simp [Reading.decode, hdecode]
  · refine .inl ⟨haccepts, ?_⟩
    simp [Reading.decode, hdecode, Envelope.outcome, shownMessage]

theorem CallError.message_of_malformed_ne_empty (path : String) (fault : DecodeError) :
    (CallError.malformed path fault).message ≠ "" := by
  have hmessage : (CallError.malformed path fault).message =
      "Invalid response format: " ++ path ++ ": " ++ fault.message Json.numberLayout := rfl
  rw [hmessage]
  generalize fault.message Json.numberLayout = text
  intro hempty
  have hchars := congrArg String.toList hempty
  simp at hchars

/-- A call gives what its endpoint makes of the reply. -/
theorem Client.fst_run_call [Url.DomainNames] {σ : Type} (client : Client) (fx : Effects (StateM σ)) (s : σ)
    (endpoint : Endpoint α) {request : Request} {reply : Reply}
    (asked : client.request? endpoint = .ok request)
    (replied : ∀ event, ((fx.send request).run ((fx.log event).run s).2).1 = some reply) :
    ((client.call fx endpoint).run s).1 = endpoint.outcome reply := by
  simp only [call, asked, run_bind_eq, replied]
  cases endpoint.outcome reply with
  | ok value => rfl
  | error fault => cases fault <;> rfl

theorem Client.run_call [Url.DomainNames] (client : Client) (world : World) (endpoint : Endpoint α)
    {request : Request} {reply : Reply} (asked : client.request? endpoint = .ok request)
    (replied : world.backend world.requests.length request = some reply) :
    ((client.call World.effects endpoint).run world).1 = endpoint.outcome reply :=
  client.fst_run_call World.effects world endpoint asked fun _ => replied

/-- A reply by which the backend says that it failed always gives an error with a message.  It is the
backend's own message just if the reply can be read with the data of the endpoint. -/
theorem Client.failure_is_refusal_iff [Url.DomainNames] (client : Client) (world : World)
    (endpoint : Endpoint α) (request : Request) (reply : Reply) (members : List (Option String × Node))
    (message : Option String)
    (asked : client.request? endpoint = .ok request)
    (replied : world.backend world.requests.length request = some reply)
    (accepted : isSuccess reply.status) (body : reply.document = ⟨.table members, true⟩)
    (failed : SaysFailed members message) :
    ∃ fault, ((client.call World.effects endpoint).run world).1 = .error fault ∧ fault.message ≠ "" ∧
      (fault.isApplication ↔ IsReadable endpoint.decoder members) ∧
      (IsReadable endpoint.decoder members → fault = .refused (shownMessage message)) := by
  rw [client.run_call world endpoint asked replied]
  rcases endpoint.outcome_of_failure accepted body failed with
    ⟨readable, houtcome⟩ | ⟨unreadable, fault, houtcome⟩
  · refine ⟨_, houtcome, Envelope.shownMessage_ne_empty message, ?_, fun _ => rfl⟩
    exact iff_of_true rfl readable
  · refine ⟨_, houtcome, ?_, iff_of_false Bool.false_ne_true unreadable, fun h => absurd h unreadable⟩
    exact CallError.message_of_malformed_ne_empty endpoint.path fault

theorem document_pretty (status : Nat) {value : Json} (legible : value.Legible) :
    Reply.document ⟨status, value.pretty.toUTF8⟩ = ⟨value.node, true⟩ := by
  simp only [Reply.document, Store.fromUTF8?_toUTF8, Json.read_pretty legible]

theorem exists_request (outcome : Except CallError Request) (made : outcome.toOption.isSome) :
    ∃ request, outcome = .ok request := by
  cases outcome with
  | error fault => cases made
  | ok request => exact ⟨request, rfl⟩

section

open scoped Url.Alphabets

/-- A failure without message and with null for data, which the notice reports in words of its own. -/
theorem Client.failure_is_refusal_iff_of_null :
    let client : Client := ⟨"http://localhost", none, none, none⟩
    let reply : Reply :=
      ⟨200, (Json.object [("success", .bool false), ("message", .text ""), ("data", .null)]).pretty.toUTF8⟩
    let world := World.initial .empty [] 0 fun _ _ => some reply
    ((client.call World.effects Endpoint.notice).run world).1 = .error (.refused "request failed") := by
  intro client reply world
  obtain ⟨request, asked⟩ := exists_request (client.request? Endpoint.notice) (by decide +kernel)
  have readable : IsReadable Endpoint.notice.decoder
      [(some "success", .bool false), (some "message", .text ""), (some "data", .null)] := by
    refine ⟨by simp, by decide, ?_⟩
    intro node there
    exact .inl (Option.some.inj there).symm
  obtain ⟨fault, hcall, -, -, hrefused⟩ :=
    client.failure_is_refusal_iff world Endpoint.notice request reply _ (some "") asked rfl rfl
      (document_pretty 200 (by simp [Json.Legible, Json.MembersLegible])) ⟨rfl, rfl⟩
  rw [hcall, hrefused readable]
  rfl

/-- A failure with an empty text where the endpoint has a list of records: the backend's message is
lost, and the reply counts as malformed. -/
theorem Client.failure_with_text_for_records :
    let client : Client := ⟨"http://localhost", none, none, none⟩
    let endpoint := Endpoint.usage .own ⟨1704000000, 1704086400, .day, none, none⟩
    let reply : Reply :=
      ⟨200, (Json.object [("success", .bool false), ("message", .text "time span cannot exceed one month"),
        ("data", .text "")]).pretty.toUTF8⟩
    let world := World.initial .empty [] 0 fun _ _ => some reply
    (∃ members, reply.document = ⟨.table members, true⟩ ∧
        SaysFailed members (some "time span cannot exceed one month")) ∧
      ∃ fault, ((client.call World.effects endpoint).run world).1 = .error fault ∧
        fault = .malformed "/api/data/self/" (.wrongType (.text "") "a sequence") ∧
        fault.isApplication = false := by
  intro client endpoint reply world
  have legible : (Json.object [("success", .bool false),
      ("message", .text "time span cannot exceed one month"), ("data", .text "")]).Legible := by
    simp [Json.Legible, Json.MembersLegible]
  have body := document_pretty 200 legible
  obtain ⟨request, asked⟩ := exists_request (client.request? endpoint) (by decide +kernel)
  refine ⟨⟨_, body, rfl, rfl⟩, _, ?_, rfl, rfl⟩
  rw [client.run_call world endpoint asked rfl, Endpoint.outcome, if_pos (by decide), body]
  rfl

end

end UsageBoard.Backend
