import ServiceCatalog.Proofs.App.Queues
import ServiceCatalog.Proofs.App.Slots
import ServiceCatalog.Proofs.Machines.Refusals
import ServiceCatalog.Proofs.Service.Rules

/-!
What it takes to create a service. The five conditions are checked in one order, whatever the payload,
the id, the topics and the stored records are: a service that meets all is stored as a new draft, and
the first that is not met is what the caller is told.
-/
namespace ServiceCatalog

/-- One to 128 bytes of letters, digits, `-` and `_`. -/
structure IsServiceId (id : String) : Prop where
  size : 1 ≤ id.utf8ByteSize ∧ id.utf8ByteSize ≤ 128
  plain : ∀ c ∈ id.toList, ('A' ≤ c ∧ c ≤ 'Z') ∨ ('a' ≤ c ∧ c ≤ 'z') ∨ ('0' ≤ c ∧ c ≤ '9') ∨
    c = '-' ∨ c = '_'

theorem isIdChar_iff (c : Char) : isIdChar c = true ↔ ('A' ≤ c ∧ c ≤ 'Z') ∨ ('a' ≤ c ∧ c ≤ 'z') ∨
    ('0' ≤ c ∧ c ≤ '9') ∨ c = '-' ∨ c = '_' := by
  have hkinds : c.isAlphanum = (c.isUpper || c.isLower || c.isDigit) := rfl
  have hlower : c.isLower = true ↔ 'a' ≤ c ∧ c ≤ 'z' := Bool.and_eq_true_iff.trans
    (and_congr decide_eq_true_iff decide_eq_true_iff)
  simp only [isIdChar, hkinds, Bool.or_eq_true, isUpper_iff, hlower, isDigit_iff, beq_iff_eq, or_assoc]

theorem isValidId_iff (id : String) : isValidId id = true ↔ IsServiceId id := by
  simp only [isValidId, Bool.and_eq_true, List.all_eq_true, isIdChar_iff, decide_eq_true_eq,
    Bool.not_eq_true', String.isEmpty_eq_false_iff]
  constructor
  · rintro ⟨⟨hne, hsize⟩, hplain⟩
    refine ⟨⟨Nat.one_le_iff_ne_zero.mpr ?_, hsize⟩, hplain⟩
    rwa [Ne, String.utf8ByteSize_eq_zero_iff]
  · rintro ⟨⟨hpos, hsize⟩, hplain⟩
    refine ⟨⟨?_, hsize⟩, hplain⟩
    rintro rfl
    exact absurd hpos (by decide)

/-- A service that names a topic names one of the list. -/
def ServiceData.Listed (topics : List Topic) (d : ServiceData) : Prop :=
  ∀ t, d.metadata.topicId = some t → ∃ topic ∈ topics, topic.id = t

/-- The data that a payload stands for; `null` stands for an empty object. -/
def ServiceData.ofPayload : Json → Decoded ServiceData
  | .null => ofJson false (.obj [])
  | payload => ofJson false payload

theorem ServiceData.fits_of_ofPayload {payload : Json} {d : ServiceData}
    (h : ofPayload payload = .ok d) : d.Fits := by
  unfold ofPayload at h
  split at h <;> exact fits_of_ofJson h

namespace Creation

variable (topics : List Topic) (records : View (Item Lifecycle.State)) (id : String) (payload : Json)

/-- All that is asked of a new service. -/
structure Admissible (data : ServiceData) : Prop where
  decoded : ServiceData.ofPayload payload = .ok data
  listed : data.Listed topics
  named : IsServiceId id
  absent : records id = none
  valid : data.validate = .ok ()

/-- What the caller is told whose request was understood and is refused. -/
def rejection (message : String) : Response :=
  ⟨400, some (.obj [("error", .str "validation"), ("message", .str message),
    ("retryable", .bool false)])⟩

/-- The refusals, each for a condition that is not met while those before it are. -/
inductive Refused : Response → Prop
  | unreadable {e : DecodeError} (h : ServiceData.ofPayload payload = .error e) :
    Refused (.failure 400 "bad_request" s!"invalid payload for create: {e.message}")
  | noTopics {data : ServiceData} {t : Nat} (hd : ServiceData.ofPayload payload = .ok data)
    (ht : data.metadata.topicId = some t) (h : topics = []) :
    Refused (.failure 500 "internal" "failed to load reference data: no topics configured")
  | unknownTopic {data : ServiceData} {t : Nat} (hd : ServiceData.ofPayload payload = .ok data)
    (ht : data.metadata.topicId = some t) (hne : topics ≠ []) (h : ∀ topic ∈ topics, topic.id ≠ t) :
    Refused (rejection s!"invalid payload for create: unknown topic {t}")
  | badId {data : ServiceData} (hd : ServiceData.ofPayload payload = .ok data)
    (ht : data.Listed topics) (h : ¬ IsServiceId id) :
    Refused (rejection ("invalid payload for id: invalid document id " ++ Text.quoted id))
  | taken {data : ServiceData} {r : Versioned (Item Lifecycle.State)}
    (hd : ServiceData.ofPayload payload = .ok data) (ht : data.Listed topics) (hid : IsServiceId id)
    (h : records id = some r) :
    Refused (rejection ("illegal action in current state: create is not allowed from " ++
      name r.document.state ++ " in lifecycle"))
  | invalid {data : ServiceData} {v : Violation} (hd : ServiceData.ofPayload payload = .ok data)
    (ht : data.Listed topics) (hid : IsServiceId id) (hr : records id = none)
    (h : data.violation? = some v) :
    Refused (rejection ("invalid payload for create: " ++ v.message))

variable {topics records id payload}

theorem Refused.status_ne {response : Response} (h : Refused topics records id payload response) :
    response.status ≠ 200 := by
  cases h <;> simp [Response.failure, rejection]

theorem Admissible.unique {data other : ServiceData}
    (h : Admissible topics records id payload data) (h' : Admissible topics records id payload other) :
    other = data :=
  Except.ok.inj (h'.decoded.symm.trans h.decoded)

/-- No two conditions are the first that is not met. -/
theorem Refused.unique {response other : Response}
    (h : Refused topics records id payload response) (h' : Refused topics records id payload other) :
    other = response := by
  cases h <;> cases h' <;> grind [ServiceData.Listed]

/-- What is refused lacks something. -/
theorem Refused.not_admissible {response : Response}
    (h : Refused topics records id payload response) (data : ServiceData) :
    ¬ Admissible topics records id payload data := by
  intro ha
  cases h with
  | unreadable h => cases h.symm.trans ha.decoded
  | noTopics hd ht h =>
    obtain rfl := Except.ok.inj (hd.symm.trans ha.decoded)
    obtain ⟨topic, hmem, -⟩ := ha.listed _ ht
    simp [h] at hmem
  | unknownTopic hd ht hne h =>
    obtain rfl := Except.ok.inj (hd.symm.trans ha.decoded)
    obtain ⟨topic, hmem, htopic⟩ := ha.listed _ ht
    exact h topic hmem htopic
  | badId hd ht h => exact h ha.named
  | taken hd ht hid h => cases h.symm.trans ha.absent
  | invalid hd ht hid hr h =>
    obtain rfl := Except.ok.inj (hd.symm.trans ha.decoded)
    have hv := ha.valid
    simp [ServiceData.validate, h] at hv

end Creation

theorem Lifecycle.parse_create (payload : Json) : Lifecycle.machine.parse "create" payload =
    ((ServiceData.ofPayload payload).map .create).mapError (.invalidPayload "create") := by
  cases payload <;> rfl

theorem Lifecycle.resolve_create (id : String) (found : Option (Versioned (Item State)))
    (data : ServiceData) : machine.resolve id found (.create data) =
      match found with
      | some r => .error (.illegalTransition "lifecycle" (name r.document.state) "create")
      | none =>
        match data.violation? with
        | some v => .error (.invalidPayload "create" v.message)
        | none => .ok (⟨{ id, data }, .draft, some "create"⟩, none) := by
  cases found with
  | some r =>
    have hrow : machine.row id (some r) (machine.kindOf (.create data)) =
        .error (.illegalTransition "lifecycle" (name r.document.state) "create") := by
      unfold Machine.row
      cases hs : r.document.state <;> simp only [hs] <;> rfl
    unfold Machine.resolve
    dsimp only
    rw [hrow, error_bind]
  | none =>
    have hrow : machine.row id none (machine.kindOf (.create data)) =
        .ok ⟨none, .create, .draft, .create createService⟩ := rfl
    rw [Machine.resolve_of_row hrow]
    have hexec : createService id (.create data) =
        data.validate >>= fun _ => .ok { id, data } := rfl
    simp only [Transition.exec, hexec, ServiceData.validate]
    cases data.violation? <;> rfl

namespace Creation

variable {w : World} {records : View (Item Lifecycle.State)} {id : String} {payload : Json}
  {data : ServiceData} {limits : Timeouts}

/-- What is stored of a new service. -/
def draft (id : String) (data : ServiceData) : Item Lifecycle.State :=
  ⟨{ id, data }, .draft, some "create"⟩

/-- The refusal for the topic of a service. -/
def topicRefusal (topics : List Topic) (data : ServiceData) : Option Response :=
  match data.metadata.topicId with
  | none => none
  | some t => Controller.refusalOf .create t (Topic.load topics)

theorem refused_of_topicRefusal {topics : List Topic} {response : Response}
    (hd : ServiceData.ofPayload payload = .ok data) (h : topicRefusal topics data = some response) :
    Refused topics records id payload response := by
  unfold topicRefusal at h
  split at h
  · cases h
  · next t ht =>
    cases topics with
    | nil =>
      cases h
      exact .noTopics hd ht rfl
    | cons topic rest =>
      simp only [Topic.load, List.isEmpty_cons, Bool.false_eq_true, if_false, Controller.refusalOf,
        Option.ite_none_left_eq_some, Option.some.injEq] at h
      obtain ⟨hnone, rfl⟩ := h
      refine .unknownTopic hd ht (List.cons_ne_nil _ _) fun other hother heq => hnone ?_
      exact List.any_eq_true.mpr ⟨other, hother, by simpa using heq⟩

theorem listed_of_topicRefusal {topics : List Topic} (h : topicRefusal topics data = none) :
    data.Listed topics := by
  intro t ht
  rw [topicRefusal, ht] at h
  cases topics with
  | nil => cases h
  | cons topic rest =>
    simp only [Topic.load, List.isEmpty_cons, Bool.false_eq_true, if_false, Controller.refusalOf,
      ite_eq_left_iff, reduceCtorEq, imp_false, not_not] at h
    obtain ⟨other, hother, heq⟩ := List.any_eq_true.mp h
    exact ⟨other, hother, by simpa using heq⟩

theorem checkTopic_create (hw : w.Wired) (limits : Timeouts) (data : ServiceData) :
    ∃ cache, (World.controller limits).checkTopic (.create data) w =
      (topicRefusal w.topicList data, { w with topicCache := cache }) := by
  unfold Controller.checkTopic topicRefusal
  cases ht : Controller.topicOf (.create data) with
  | none =>
    have htopic : data.metadata.topicId = none := ht
    exact ⟨w.topicCache, by rw [htopic]; rfl⟩
  | some t =>
    have htopic : data.metadata.topicId = some t := ht
    obtain ⟨cache, htopics, -⟩ := hw.topics_eq
    refine ⟨cache, ?_⟩
    show (Controller.refusalOf .create t (World.topics w).1, (World.topics w).2) = _
    rw [htopics, htopic]

/-- The answer to a request and the state it leaves: the service is stored and the record is the answer,
or nothing is stored and the answer says why. -/
inductive Outcome (w : World) (records : View (Item Lifecycle.State)) (id : String) (payload : Json) :
    Response × World → Prop
  | stored {data : ServiceData} {r : Versioned (Item Lifecycle.State)} {w' : World}
    (h : Admissible w.topicList records id payload data) (hid : r.id = id)
    (hdoc : r.document = draft id data) (hc : World.Commits w w' .lifecycle r) :
    Outcome w records id payload (.ofRecord r, w')
  | refused {response : Response} (cache : Cache (List Topic))
    (h : Refused w.topicList records id payload response) :
    Outcome w records id payload (response, { w with topicCache := cache })

/-- Looking up the topics first makes no difference. -/
theorem Outcome.of_withCache {cache : Cache (List Topic)} {answer : Response × World}
    (h : Outcome { w with topicCache := cache } records id payload answer) :
    Outcome w records id payload answer := by
  cases h with
  | stored h hid hdoc hc =>
    exact .stored h hid hdoc (hc.of_unchanged (World.alike_withCache w cache).unchanged)
  | refused cache h => exact .refused cache h

theorem saves_draft (hw : w.Sound) (hrecords : w.lifecycle.Holds w.files records)
    (hfree : w.lifecycle.isLocked (w.lockFree .lifecycle) = false) (hid : isValidId id = true)
    (habsent : records id = none) (hfits : data.Fits) :
    ∃ r w', World.lifecycleStore.save id (draft id data) none w = (.answer (.ok r), w') ∧
      r.id = id ∧ r.document = draft id data ∧ World.Commits w w' .lifecycle r := by
  have hservice : (draft id data).service.Fits := ⟨hfits, by simp [draft]⟩
  let r : Versioned (Item Lifecycle.State) := ⟨id, draft id data, w.fresh, w.now⟩
  obtain ⟨files, shelf, hsave, -⟩ := Shelf.save_of_holds hrecords (w.lockFree .lifecycle) (r := r)
    (Item.readable hservice) hw.now none
  rw [hfree, View.save_of_eq hid (by simp [View.version?, r, habsent])] at hsave
  have hanswer : (World.lifecycleStore.save id (draft id data) none w).1 = .answer (.ok r) :=
    congrArg (fun after : Except StoreError _ × FileTree × _ => Reply.answer after.1) hsave
  have hstore : World.lifecycleStore.save id (draft id data) none w = (.answer (.ok r),
      (World.lifecycleStore.save id (draft id data) none w).2) := Prod.ext hanswer rfl
  exact ⟨r, _, hstore, rfl, rfl, (hw.commits_of_save (m := .lifecycle) hservice hstore).2⟩

theorem ofApplyError_taken (state : String) :
    Response.ofApplyError (.illegalTransition "lifecycle" state "create") =
      rejection ("illegal action in current state: create is not allowed from " ++ state ++
        " in lifecycle") := by
  have hfrom : "illegal action in current state: create is not allowed from " =
    "illegal action in current state: " ++ "create" ++ " is not allowed from " := by decide
  have hin : " in lifecycle" = " in " ++ "lifecycle" := by decide
  rw [hfrom, hin, ← String.append_assoc]
  rfl

/-- Once its topic is settled, a service is stored as a draft or refused. -/
theorem outcome_of_applyTo (hw : w.Sound) (hrecords : w.lifecycle.Holds w.files records)
    (hfree : w.lifecycle.isLocked (w.lockFree .lifecycle) = false)
    (hd : ServiceData.ofPayload payload = .ok data) (ht : data.Listed w.topicList) :
    Outcome w records id payload ((World.controller limits).applyTo Lifecycle.machine
      World.lifecycleStore id (.create data) w) := by
  have hread : World.lifecycleStore.fetch id w = (.answer (records.fetch id), w) := by
    rw [← Shelf.fetch_of_holds hrecords id]
    rfl
  have happly := Race.apply_eq Lifecycle.machine (World.controller limits).limits World.lifecycleStore
    id (.create data) w
  rw [hread, View.fetch] at happly
  cases hvalid : isValidId id with
  | false =>
    have hid : ¬ IsServiceId id := fun h => by simp [(isValidId_iff id).mpr h] at hvalid
    simp only [hvalid, Bool.false_eq_true, if_false, bounded, Except.mapError] at happly
    rw [Circumstances.applyTo_of_error happly]
    exact .refused w.topicCache (.badId hd ht hid)
  | true =>
    have hid := (isValidId_iff id).mp hvalid
    simp only [hvalid, if_true, bounded, Except.mapError, Lifecycle.resolve_create] at happly
    cases hfound : records id with
    | some r =>
      simp only [hfound] at happly
      rw [Circumstances.applyTo_of_error happly, ofApplyError_taken]
      exact .refused w.topicCache (.taken hd ht hid hfound)
    | none =>
      cases hv : data.violation? with
      | some v =>
        simp only [hfound, hv] at happly
        rw [Circumstances.applyTo_of_error happly]
        exact .refused w.topicCache (.invalid hd ht hid hfound hv)
      | none =>
        obtain ⟨r, w', hsave, hrid, hdoc, hc⟩ :=
          saves_draft hw hrecords hfree hvalid hfound (ServiceData.fits_of_ofPayload hd)
        have hvalidate : data.validate = .ok () := by rw [ServiceData.validate, hv]
        simp only [hfound, hv] at happly
        change _ = (bounded "save" id (World.controller limits).limits.save
          (World.lifecycleStore.save id (draft id data) none w).1,
          (World.lifecycleStore.save id (draft id data) none w).2) at happly
        rw [hsave] at happly
        have hanswer : (World.controller limits).applyTo Lifecycle.machine World.lifecycleStore id
            (.create data) w = (.ofRecord r, w') := by
          unfold Controller.applyTo
          rw [state_bind, happly]
          rfl
        rw [hanswer]
        exact .stored ⟨hd, ht, hid, hfound, hvalidate⟩ hrid hdoc hc

theorem outcome_of_dispatch (hw : w.Sound)
    (hloaded : ∀ kept ∈ w.topicCache.slot, Topic.load w.topicList = .ok kept.1)
    (hrecords : w.lifecycle.Holds w.files records)
    (hfree : w.lifecycle.isLocked (w.lockFree .lifecycle) = false) (limits : Timeouts) (id : String)
    (payload : Json) :
    Outcome w records id payload
      ((World.controller limits).dispatch .lifecycle "create" id payload w) := by
  unfold Controller.dispatch
  rw [Lifecycle.parse_create]
  cases hd : ServiceData.ofPayload payload with
  | error e => exact .refused w.topicCache (.unreadable hd)
  | ok data =>
    obtain ⟨cache, hcheck⟩ := checkTopic_create ⟨hw.beside, hloaded⟩ limits data
    show Outcome w records id payload
      (((World.controller limits).checkTopic (.create data) >>= _) w)
    rw [state_bind, hcheck]
    cases ht : topicRefusal w.topicList data with
    | some response => exact .refused cache (refused_of_topicRefusal hd ht)
    | none =>
      exact (outcome_of_applyTo (Circumstances.sound_withCache hw cache) hrecords hfree hd
        (listed_of_topicRefusal ht)).of_withCache

/-- A service is created exactly if it is admissible, and is stored as a draft of its data. Otherwise
nothing is stored, and the caller is told the first condition that is not met. -/
theorem creates_iff_admissible (hw : w.Sound)
    (hloaded : ∀ kept ∈ w.topicCache.slot, Topic.load w.topicList = .ok kept.1)
    (hrecords : w.lifecycle.Holds w.files records)
    (hfree : w.lifecycle.isLocked (w.lockFree .lifecycle) = false) (limits : Timeouts) (id : String)
    (payload : Json) :
    let answer := (World.controller limits).dispatch .lifecycle "create" id payload w
    (answer.1.status = 200 ↔ ∃ data, Admissible w.topicList records id payload data) ∧
    (answer.1.status ≠ 200 ↔ ∃ response, Refused w.topicList records id payload response) ∧
    (∀ data, Admissible w.topicList records id payload data →
      ∃ r : Versioned (Item Lifecycle.State), r.id = id ∧
        r.document = ⟨⟨id, data, none⟩, .draft, some "create"⟩ ∧
        answer.1 = .ofRecord r ∧ World.Commits w answer.2 .lifecycle r) ∧
    ∀ response, Refused w.topicList records id payload response →
      ∃ cache, answer = (response, { w with topicCache := cache }) := by
  intro answer
  have houtcome : Outcome w records id payload answer :=
    outcome_of_dispatch hw hloaded hrecords hfree limits id payload
  generalize answer = answer at houtcome
  cases houtcome with
  | @stored data r w' h hid hdoc hc =>
    have hnone : ¬∃ response, Refused w.topicList records id payload response := by
      rintro ⟨response, hresponse⟩
      exact hresponse.not_admissible data h
    refine ⟨iff_of_true rfl ⟨data, h⟩, iff_of_false (fun hne => hne rfl) hnone, ?_,
      fun response hresponse => absurd ⟨response, hresponse⟩ hnone⟩
    intro other hother
    obtain rfl := h.unique hother
    exact ⟨r, hid, hdoc, rfl, hc⟩
  | @refused response cache h =>
    have hnone : ¬∃ data, Admissible w.topicList records id payload data := by
      rintro ⟨data, hdata⟩
      exact h.not_admissible data hdata
    refine ⟨iff_of_false h.status_ne hnone, iff_of_true h.status_ne ⟨response, h⟩,
      fun data hdata => absurd ⟨data, hdata⟩ hnone, ?_⟩
    intro other hother
    obtain rfl := h.unique hother
    exact ⟨cache, rfl⟩

/-- A store in memory with one draft in it. -/
def stocked : World :=
  ((World.controller {}).dispatch .lifecycle "create" "library" Race.libraryData.toJson
    Circumstances.opened).2

def branchData : ServiceData :=
  { Race.libraryData with metadata := { Race.libraryData.metadata with topicId := some 1 } }

/-- A new service is stored; an id that is taken is told before a rule that is violated, and an unknown
topic before an id that is none. -/
theorem creates_iff_admissible_stocked :
    let answer (id : String) (data : ServiceData) :=
      (World.controller {}).dispatch .lifecycle "create" id data.toJson stocked
    let unnamed := { branchData with name := " " }
    let unlisted := { branchData with metadata := { topicId := some 9 } }
    (answer "hall" branchData).1.status = 200 ∧
    (∃ r : Versioned (Item Lifecycle.State), r.id = "hall" ∧
      r.document = ⟨⟨"hall", branchData, none⟩, .draft, some "create"⟩ ∧
      (answer "hall" branchData).1 = .ofRecord r ∧
      World.Commits stocked (answer "hall" branchData).2 .lifecycle r) ∧
    (∃ cache, answer "library" unnamed =
      (rejection "illegal action in current state: create is not allowed from draft in lifecycle",
        { stocked with topicCache := cache })) ∧
    ∃ cache, answer "no/id" unlisted =
      (rejection "invalid payload for create: unknown topic 9",
        { stocked with topicCache := cache }) := by
  intro answer unnamed unlisted
  have hw : stocked.Sound :=
    Circumstances.sound_of_dispatch (c := {}) Circumstances.sound_opened (fun _ hu => hu) {}
      .lifecycle "create" "library" Race.libraryData.toJson
  have hloaded : ∀ kept ∈ stocked.topicCache.slot, Topic.load stocked.topicList = .ok kept.1 := by
    have hslot : stocked.topicCache.slot = none := rfl
    simp [hslot]
  let library : Versioned (Item Lifecycle.State) :=
    ⟨"library", draft "library" Race.libraryData, ⟨"0"⟩, ⟨0, 0⟩⟩
  have hstore : stocked.lifecycle = .memory ⟨[library], {}⟩ := rfl
  have hrecords : stocked.lifecycle.Holds stocked.files (Memory.get? ⟨[library], {}⟩) := by
    rw [hstore]
    exact fun _ => rfl
  have hcreates := creates_iff_admissible hw hloaded hrecords rfl {}
  have hlisted : branchData.Listed stocked.topicList :=
    fun t ht => ⟨⟨1, "Environment"⟩, by decide, Option.some.inj ht⟩
  have hhall : Admissible stocked.topicList (Memory.get? ⟨[library], {}⟩) "hall" branchData.toJson
      branchData :=
    ⟨rfl, hlisted, (isValidId_iff _).mp (by decide), rfl, by decide⟩
  have hunnamed : ServiceData.ofPayload unnamed.toJson = .ok unnamed := rfl
  have hfound : Memory.get? ⟨[library], {}⟩ "library" = some library := rfl
  have htaken : Refused stocked.topicList (Memory.get? ⟨[library], {}⟩) "library" unnamed.toJson
      (rejection "illegal action in current state: create is not allowed from draft in lifecycle") :=
    .taken hunnamed hlisted ((isValidId_iff _).mp (by decide)) hfound
  have hnine : ServiceData.ofPayload unlisted.toJson = .ok unlisted := rfl
  have hunlisted : Refused stocked.topicList (Memory.get? ⟨[library], {}⟩) "no/id" unlisted.toJson
      (rejection "invalid payload for create: unknown topic 9") :=
    .unknownTopic hnine rfl (by decide) (by decide)
  exact ⟨(hcreates "hall" _).1.mpr ⟨_, hhall⟩, (hcreates "hall" _).2.2.1 _ hhall,
    (hcreates "library" _).2.2.2 _ htaken, (hcreates "no/id" _).2.2.2 _ hunlisted⟩

end Creation

end ServiceCatalog
