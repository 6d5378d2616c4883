import ServiceCatalog.CommandLine.Run
import ServiceCatalog.Proofs.App.World
import ServiceCatalog.Proofs.Decode.Order

/-!
Replay. A record is decoded from the text that shows it, in which the names stand in order, so that the
watchers make of it what they made of the commit.
-/
namespace ServiceCatalog

open Decode Json

section Records

theorem steady_token : Steady Token.ofJson := by
  intro j t h
  obtain ⟨s, hs, rfl⟩ := map_eq_ok.mp h
  exact map_eq_ok.mpr ⟨s, steady_string j s hs, rfl⟩

theorem Organization.steady (held : Bool) : Steady (ofJson held) := by
  have hname : (Fields.required "name" string).Steady := .required _ steady_string
  have hcode : (Fields.required "fiscal_code" string).Steady := .required _ steady_string
  have hr : fields.Steady := (hname.map Organization.mk).seq hcode
  exact hr.ofJson held _

theorem Metadata.steady (held : Bool) : Steady (ofJson held) := by
  have htopic : (Fields.optional "topic_id" u32).Steady := .optional _ (steady_natBelow _ _)
  have htext : ∀ name, (Fields.optional name string).Steady := fun name =>
    .optional name steady_string
  have hscope : (Fields.withDefault "scope" .local (Scope.ofJson held)).Steady :=
    .withDefault _ _ (Steady.variant held Scope.names)
  have hr : (fields held).Steady :=
    (((((htopic.map Metadata.mk).seq (htext _)).seq (htext _)).seq (htext _)).seq (htext _)).seq hscope
  exact hr.ofJson held _

theorem ServiceData.steady (held : Bool) : Steady (ofJson held) := by
  have htext : ∀ name, (Fields.required name string).Steady := fun name =>
    .required name steady_string
  have horganization : (Fields.required "organization" (Organization.ofJson held)).Steady :=
    .required _ (Organization.steady held)
  have hmetadata : (Fields.withDefault "metadata" {} (Metadata.ofJson held)).Steady :=
    .withDefault _ _ (Metadata.steady held)
  have hchannel : (Fields.withDefault "require_secure_channel" false Decode.bool).Steady :=
    .withDefault _ _ steady_bool
  have hrecipients :
      (Fields.withDefault "authorized_recipients" [] (Decode.list string)).Steady :=
    .withDefault _ _ steady_string.list
  have hamount : (Fields.withDefault "max_allowed_payment_amount" 0 u64).Steady :=
    .withDefault _ _ (steady_natBelow _ _)
  have hr : (fields held).Steady :=
    (((((((htext _).map ServiceData.mk).seq (htext _)).seq horganization).seq hmetadata).seq
      hchannel).seq hrecipients).seq hamount
  exact hr.ofJson held _

theorem Review.steady (held : Bool) : Steady (ofJson held) := by
  have happroved : approvedFields.Steady := .map _ (.optional _ steady_instant)
  have hrejected : rejectedFields.Steady := .map _ (.required _ steady_string)
  intro j r h
  obtain ⟨⟨outcome, rest⟩, htag, h⟩ := bind_eq_ok.mp h
  obtain ⟨rest', htag', hrest⟩ := tagged_sorted htag
  rw [ofJson, htag', ok_bind]
  cases outcome with
  | approved => exact happroved.record true _ hrest h
  | rejected => exact hrejected.record true _ hrest h

theorem Service.steady_fields (held : Bool) : (fields held).Steady := by
  have hid : (Fields.required "id" string).Steady := .required _ steady_string
  have hdata : (Fields.required "data" (ServiceData.ofJson held)).Steady :=
    .required _ (ServiceData.steady held)
  have hreview : (Fields.optional "review" (Review.ofJson held)).Steady :=
    .optional _ (Review.steady held)
  exact ((hid.map Service.mk).seq hdata).seq hreview

end Records

namespace Item

variable {S : Type} [Named S] {es others : List (String × Json)} {mark : Mark S}
  {found : Option (Mark S)}

theorem steady_markOfJson : Steady (markOfJson (S := S)) := by
  have hstate : (Fields.required "state" (Decode.variant false (stateNames (S := S)))).Steady :=
    .required _ (Steady.variant false stateNames)
  have hlast : (Fields.optional "lastTransition" string).Steady := .optional _ steady_string
  have hr : (markFields (S := S)).Steady := (hstate.map Mark.mk).seq hlast
  exact hr.ofJson false _

theorem splitMark_some_eq_ok : splitMark (some mark) es = .ok (found, others) ↔
    ((es.map Prod.fst).count "fsm" = 0 ∧ found = some mark) ∧ others = without "fsm" es := by
  induction es generalizing others with
  | nil =>
    constructor
    · intro h
      cases h
      exact ⟨⟨rfl, rfl⟩, rfl⟩
    · rintro ⟨⟨-, rfl⟩, rfl⟩
      rfl
  | cons e es ih =>
    obtain ⟨k, j⟩ := e
    rw [splitMark]
    by_cases hk : k = "fsm"
    · subst hk
      rw [if_pos rfl, List.map_cons, List.count_cons_self]
      constructor
      · intro h
        cases h
      · rintro ⟨⟨hc, -⟩, -⟩
        cases hc
    · rw [if_neg hk, without_cons_of_ne hk, List.map_cons, List.count_cons_of_ne hk]
      constructor
      · intro h
        obtain ⟨⟨m, rest⟩, hrest, h⟩ := bind_eq_ok.mp h
        cases h
        obtain ⟨hm, rfl⟩ := ih.mp hrest
        exact ⟨hm, rfl⟩
      · rintro ⟨hm, rfl⟩
        rw [ih.mpr ⟨hm, rfl⟩]
        rfl

theorem splitMark_none_eq_ok : splitMark none es = .ok (found, others) ↔
    Tagged markOfJson "fsm" es found ∧ others = without "fsm" es := by
  induction es generalizing others with
  | nil =>
    constructor
    · intro h
      cases h
      exact ⟨.absent rfl, rfl⟩
    · rintro ⟨h, rfl⟩
      cases h with
      | absent => rfl
      | present hc => cases hc
  | cons e es ih =>
    obtain ⟨k, j⟩ := e
    rw [splitMark]
    by_cases hk : k = "fsm"
    · subst hk
      rw [if_pos rfl, without_cons_self]
      constructor
      · intro h
        obtain ⟨m, hm, h⟩ := bind_eq_ok.mp h
        obtain ⟨⟨hc, rfl⟩, rfl⟩ := splitMark_some_eq_ok.mp h
        exact ⟨(Tagged.absent hc).cons_self hm, rfl⟩
      · rintro ⟨ht, rfl⟩
        obtain ⟨hnone, m, hm, rfl⟩ := ht.of_cons_self
        show (markOfJson j >>= fun m => splitMark (some m) es) = _
        rw [hm, ok_bind]
        cases hnone with
        | absent hc => exact splitMark_some_eq_ok.mpr ⟨⟨hc, rfl⟩, rfl⟩
    · rw [if_neg hk, without_cons_of_ne hk, Tagged.cons_of_ne hk]
      constructor
      · intro h
        obtain ⟨⟨m, rest⟩, hrest, h⟩ := bind_eq_ok.mp h
        cases h
        obtain ⟨ht, rfl⟩ := ih.mp hrest
        exact ⟨ht, rfl⟩
      · rintro ⟨ht, rfl⟩
        rw [ih.mpr ⟨ht, rfl⟩]
        rfl

/-- The mark and the service beside it are found wherever their entries stand. -/
theorem steady : Steady (ofJson (S := S)) := by
  intro j i h
  cases j with
  | null | bool | num | str | arr => cases h
  | obj es =>
    obtain ⟨⟨found, others⟩, hsplit, h⟩ := bind_eq_ok.mp h
    obtain ⟨ht, rfl⟩ := splitMark_none_eq_ok.mp hsplit
    cases found with
    | none => cases h
    | some mark =>
      obtain ⟨service, hservice, h⟩ := bind_eq_ok.mp h
      cases h
      have hr := rearranges_obj es
      have hsplit' := splitMark_none_eq_ok.mpr ⟨ht.rearranged steady_markOfJson hr, rfl⟩
      have hservice' := (Service.steady_fields true).fromEntries (hr.without "fsm") hservice
      rw [Json.sorted, ofJson, hsplit', ok_bind]
      show (fromEntries (Service.fields true) _ >>= fun service => _) = _
      rw [hservice']
      rfl

end Item

namespace Versioned

variable {S : Type} [Named S]

/-- A record is decoded whatever the order of names in its JSON. -/
theorem steady : Steady (ofJson (D := Item S)) := by
  have hid : (Fields.required "id" string).Steady := .required _ steady_string
  have hdocument : (Fields.required "document" (Document.ofJson (D := Item S))).Steady :=
    .required _ Item.steady
  have hversion : (Fields.required "version" Token.ofJson).Steady := .required _ steady_token
  have htime : (Fields.required "modified_at" Decode.instant).Steady := .required _ steady_instant
  have hr : (fields (D := Item S)).Steady :=
    (((hid.map Versioned.mk).seq hdocument).seq hversion).seq htime
  exact hr.ofJson false _

variable [LawfulNamed S] {r : Versioned (Item S)}

theorem ofJson_toJson (hr : r.document.service.Fits) (ht : r.modifiedAt.Valid) :
    ofJson r.toJson = .ok r := by
  let entries : List (String × Json) :=
    [("id", .str r.id), ("document", Document.toJson r.document),
      ("version", .str r.version.text), ("modified_at", .str r.modifiedAt.text)]
  have hid : Reads (.required "id" string) entries r.id :=
    .required (j := .str r.id) (by simp [entries, Fields.entry?]) rfl
  have hdocument : Reads (.required "document" Document.ofJson) entries r.document :=
    .required (by simp [entries, Fields.entry?]) (Item.readable hr).decoded
  have hversion : Reads (.required "version" Token.ofJson) entries r.version :=
    .required (j := .str r.version.text) (by simp [entries, Fields.entry?]) rfl
  have htime : Reads (.required "modified_at" Decode.instant) entries r.modifiedAt :=
    .required (by simp [entries, Fields.entry?]) (instant_text ht)
  have hreads : Reads fields entries r :=
    (((hid.map Versioned.mk).seq hdocument).seq hversion).seq htime
  exact hreads.fromEntries (by simp [entries])

theorem within_toJson (hr : r.document.service.Fits) : Within maxDepth r.toJson :=
  within_obj (n := maxDepth - 1) (by simp [within_str, (Item.readable hr).within])

end Versioned

namespace MachineName

def watchers : (m : MachineName) → List (Watcher m.State)
  | .lifecycle => [.editorial]
  | .publication => [.publicDetail, .archive]

/-- What the watchers of a machine make of a commit, one after the other. -/
def handled (m : MachineName) (r : Versioned (Item m.State)) : List (String × WorkItem) :=
  m.watchers.map fun w => (w.title, w.handle r)

end MachineName

/-- The text that shows a record. -/
def shownText {D : Type} [Document D] (r : Versioned D) : String :=
  (CommandLine.report (.ofRecord r)).1

section Replay

variable {m : MachineName} {r : Versioned (Item m.State)} {j : Json}

theorem replay_of_ofJson (h : Versioned.ofJson j = .ok r) : replay m j = m.handled r := by
  have hhandle : ∀ w : Watcher m.State, w.handleJson j = w.handle r := fun w => by
    rw [Watcher.handleJson, h]
  cases m with
  | lifecycle => simp [replay, MachineName.handled, MachineName.watchers, hhandle]
  | publication => simp [replay, MachineName.handled, MachineName.watchers, hhandle]

/-- Text and file hold the JSON of the record with its names in order, more than once. -/
theorem document?_shownText (hr : r.document.service.Fits) :
    document? (shownText r) = some r.toJson.sorted.sorted.sorted := by
  have hw : Within maxDepth r.toJson.sorted.sorted := (Versioned.within_toJson hr).sorted.sorted
  have hread : ofText? (r.toJson.sorted.sorted.toPrettyText ++ "\n") = some r.toJson.sorted.sorted :=
    ofText?_toPrettyText hw.exact hw.height (.cons (by decide)) (by decide)
  show (ofText? (r.toJson.sorted.sorted.toPrettyText ++ "\n")).map Json.sorted = _
  rw [hread]
  rfl

theorem showFrom_of_get {σ S : Type} [Named S] {c : Controller σ} {machine id : String}
    {store : Backend σ (Item S)} {q : Versioned (Item S)} {w v : σ}
    (h : Machine.get c.limits store id w = (.ok (some q), v)) :
    c.showFrom machine store id w = (.ofRecord q, v) := by
  rw [Controller.showFrom, state_bind, h]
  rfl

theorem lookUp_of_fetch {w : World} {id : String} (limits : Timeouts)
    (h : (w.shelf m).fetch w.files id = .ok (some r)) :
    (World.controller limits).lookUp m id w = (.ofRecord r, w) := by
  have hget : Machine.get limits (World.store m) id w = (.ok (some r), w) := by
    show (bounded "fetch" id limits.fetch (.answer ((w.shelf m).fetch w.files id)), w) = _
    rw [h]
    rfl
  cases m with
  | lifecycle => exact showFrom_of_get hget
  | publication => exact showFrom_of_get hget

/-- A record is replayed as it was dispatched: from its JSON, from the text that shows it, and from a
file with that text. -/
structure Replays (m : MachineName) (r : Versioned (Item m.State)) : Prop where
  json : replay m r.toJson = m.handled r
  ordered : replay m r.toJson.sorted = m.handled r
  shown : ∀ (limits : Timeouts) (w : World) (id : String),
    (w.shelf m).fetch w.files id = .ok (some r) →
    CommandLine.report ((World.controller limits).lookUp m id w).1 = (shownText r, none)
  text : ∃ j, document? (shownText r) = some j ∧ replay m j = m.handled r
  file : ∀ (s : CommandLine.Surroundings) (path : String),
    s.files.read (.ofText path) = .ok (.text (shownText r)) →
    CommandLine.replayFile s m path =
      { output := String.join ((m.handled r).map CommandLine.replayLine), files := s.files }

/-- Replay agrees with live dispatch. -/
theorem replays_of_fits (m : MachineName) (r : Versioned (Item m.State))
    (hr : r.document.service.Fits) (ht : r.modifiedAt.Valid) : Replays m r := by
  have hjson := Versioned.ofJson_toJson hr ht
  have hordered := Versioned.steady _ r hjson
  have hread := document?_shownText hr
  have hreplay : replay m r.toJson.sorted.sorted.sorted = m.handled r :=
    replay_of_ofJson (Versioned.steady _ r (Versioned.steady _ r hordered))
  refine ⟨replay_of_ofJson hjson, replay_of_ofJson hordered, fun limits w id h => ?_,
    ⟨_, hread, hreplay⟩, fun s path hfile => ?_⟩
  · rw [lookUp_of_fetch limits h]
    rfl
  · rw [CommandLine.replayFile, FileTree.readText?_of_read hfile]
    dsimp only
    rw [hread]
    dsimp only
    rw [hreplay]

/-- Committed in a leap second of the year 13378 after a review in one of 1969. -/
def oddRecord : Versioned (Item Publication.State) where
  id := "odd"
  document :=
    { service :=
        { id := "odd"
          data :=
            { name := "\"Quoted\"\n\\ and more\t"
              description := ""
              organization := ⟨"City", "00000000000"⟩
              metadata := { topicId := some 4294967295, scope := .national }
              authorizedRecipients := ["", "AAABBB"]
              maxAllowedPaymentAmount := 18446744073709551615 }
          review := some (.approved (some ⟨-1, 1999999999⟩)) }
      state := .published
      lastTransition := some "publish" }
  version := ⟨"v1"⟩
  modifiedAt := ⟨359999999999, 1500000000⟩

theorem replays_of_fits_oddRecord :
    (MachineName.publication.handled oddRecord).map (fun h => (h.1, h.2.kind)) =
      [("publication_detail", "request_detail_publication"),
        ("historicization", "request_historicization")] ∧
    oddRecord.document.service.Fits ∧ oddRecord.modifiedAt.Valid ∧
    Replays .publication oddRecord := by
  have hr : oddRecord.document.service.Fits :=
    { data := ⟨by simp [oddRecord], by simp [oddRecord]⟩
      review := by
        rintro r hr
        obtain rfl := Option.some.inj hr
        intro t ht
        obtain rfl := Option.some.inj ht
        decide }
  have ht : oddRecord.modifiedAt.Valid := by decide
  exact ⟨by decide +kernel, hr, ht, replays_of_fits .publication oddRecord hr ht⟩

end Replay
end ServiceCatalog
