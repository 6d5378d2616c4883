import ServiceCatalog.Proofs.Machines.Editorial
import ServiceCatalog.Proofs.Machines.Releases
import ServiceCatalog.Proofs.Store.Slot

/-!
What a call is refused for. In every run an effect refuses only what is wrong with the caller's own
action: what is stored, and how the tables pair kinds with effects, gives no reason.
-/
namespace ServiceCatalog

/-- The first rule that the data of a service breaks. -/
def ServiceData.fault? (d : ServiceData) : Option Rejected :=
  d.violation?.map fun v => ⟨v.message⟩

theorem ServiceData.validate_eq (d : ServiceData) :
    d.validate = match d.fault? with
      | some rejected => .error rejected
      | none => .ok () := by
  unfold validate fault?
  cases d.violation? <;> rfl

/-- What is wrong with an editorial action on its own. -/
def Lifecycle.Action.fault? : Lifecycle.Action → Option Rejected
  | .create data | .edit data => data.fault?
  | .reject reason =>
    if Text.isBlank reason then some ⟨"a rejection needs a reason"⟩ else none
  | .submit | .approve _ | .delete => none

/-- What is wrong with a publication action on its own, for the id it is sent to. -/
def Publication.Action.fault? (id : String) : Publication.Action → Option Rejected
  | .release service =>
    if service.id ≠ id then
      some ⟨s!"released service {service.id} does not match publication {id}"⟩
    else service.data.fault?
  | .publish | .unpublish => none

section Reasons

/-- As much of a reason as tells the kinds of reasons apart. -/
def opening (reason : String) : List Char := reason.toList.take 9

theorem opening_append {a b : String} (h : 9 ≤ a.toList.length) : opening (a ++ b) = opening a := by
  rw [opening, String.toList_append, List.take_append_of_le_length h]
  rfl

/-- How the reasons begin that find fault with an action. -/
def openings : List (List Char) :=
  ["name must", "descripti", "organizat", "invalid o", "at least ", "invalid e", "invalid a",
    "max_allow", "a rejecti", "released "].map String.toList

theorem Violation.opening_mem (v : Violation) : opening v.message ∈ openings := by
  cases v with
  | organizationCode code =>
    have h : opening (message (.organizationCode code)) =
        opening "invalid organization fiscal code " := opening_append (by decide)
    rw [h]
    decide
  | email address =>
    have h : opening (message (.email address)) = opening "invalid email " :=
      opening_append (by decide)
    rw [h]
    decide
  | recipient code =>
    have h : opening (message (.recipient code)) = opening "invalid authorized recipient " :=
      opening_append (by decide)
    rw [h]
    decide
  | blankName | blankDescription | longDescription | blankOrganization | noContact
  | paymentAmount => decide +kernel

theorem ServiceData.opening_mem {d : ServiceData} {rejected : Rejected}
    (h : d.fault? = some rejected) : opening rejected.reason ∈ openings := by
  obtain ⟨v, -, rfl⟩ := Option.map_eq_some_iff.mp h
  exact v.opening_mem

theorem Lifecycle.Action.opening_mem {a : Lifecycle.Action} {rejected : Rejected}
    (h : a.fault? = some rejected) : opening rejected.reason ∈ openings := by
  cases a with
  | create data => exact ServiceData.opening_mem h
  | edit data => exact ServiceData.opening_mem h
  | reject reason =>
    simp only [fault?, Option.ite_none_right_eq_some, Option.some.injEq] at h
    obtain ⟨-, rfl⟩ := h
    decide
  | submit | approve date | delete => simp [fault?] at h

theorem Publication.Action.opening_mem {id : String} {a : Publication.Action} {rejected : Rejected}
    (h : a.fault? id = some rejected) : opening rejected.reason ∈ openings := by
  cases a with
  | release service =>
    simp only [fault?] at h
    split at h
    · obtain rfl := Option.some.inj h
      have hopening : opening s!"released service {service.id} does not match publication {id}" =
          opening "released service " := by
        simp only [toString, String.append_assoc]
        exact opening_append (by decide)
      rw [hopening]
      decide
    · exact ServiceData.opening_mem h
  | publish | unpublish => simp [fault?] at h

theorem ne_of_opening {reason text : String} (h : opening reason ∈ openings)
    (ht : opening text ∉ openings) : reason ≠ text := by
  rintro rfl
  exact ht h

theorem opening_unexpected (kind : String) :
    opening ("unexpected payload " ++ kind) ∉ openings := by
  rw [opening_append (a := "unexpected payload ") (by decide)]
  decide

theorem Lifecycle.opening_required (k : Lifecycle.Kind) :
    opening (name k ++ " requires an existing item") ∉ openings := by
  cases k <;> decide +kernel

theorem Publication.opening_required (k : Publication.Kind) :
    opening (name k ++ " requires an existing item") ∉ openings := by
  cases k <;> decide +kernel

end Reasons

variable {S K A : Type} [DecidableEq S] [DecidableEq K] [Named S] [Named K]

/-- Calls on a state are refused for what is wrong with their own action and for nothing else; and an
effect is never run on an action of another kind or without the item it needs. -/
structure RefusesFaults (m : Machine S K A) (fault : String → A → Option Rejected) (c : Race S A) :
    Prop where
  effect : ∀ id found action row, c.shelf.fetch c.files id = .ok found →
    m.row id found (m.kindOf action) = .ok row → ∀ rejected,
      row.exec id (found.map (·.document.service)) action = .error rejected ↔
        fault id action = some rejected
  applied : ∀ limits now fresh lockFree work id action kind reason,
    (m.apply limits ((Shelf.backend now fresh lockFree).interrupted work) id action
        (c.files, c.shelf)).1 = .error (.invalidPayload kind reason) ↔
      (isValidId id = false ∧ kind = "id" ∧ reason = "invalid document id " ++ Text.quoted id) ∨
      ∃ found row, c.shelf.fetch c.files id = .ok found ∧
        m.row id found (m.kindOf action) = .ok row ∧ kind = name (m.kindOf action) ∧
        fault id action = some ⟨reason⟩
  resolved : ∀ id found action row, c.shelf.fetch c.files id = .ok found →
    m.row id found (m.kindOf action) = .ok row → fault id action = none →
      ∃ service, m.resolve id found action =
        .ok (⟨service, row.target, some (name (m.kindOf action))⟩, found.map (·.version))
  reason : ∀ id action rejected, fault id action = some rejected → ∀ k : K,
    rejected.reason ≠ "unexpected payload " ++ identifier k ∧
      rejected.reason ≠ name k ++ " requires an existing item"

/-- Where they are legal, actions of these kinds are never refused. -/
def Accepts (m : Machine S K A) (kinds : List K) (c : Race S A) : Prop :=
  ∀ id found action row, m.kindOf action ∈ kinds → c.shelf.fetch c.files id = .ok found →
    m.row id found (m.kindOf action) = .ok row → ∃ service, m.resolve id found action =
      .ok (⟨service, row.target, some (name (m.kindOf action))⟩, found.map (·.version))

namespace Machine

variable {m : Machine S K A} {id : String} {found : Option (Versioned (Item S))} {action : A}

theorem resolve_of_row {row : Transition S K A Service}
    (h : m.row id found (m.kindOf action) = .ok row) :
    m.resolve id found action =
      match row.exec id (found.map (·.document.service)) action with
      | .error rejected => .error (.invalidPayload (name (m.kindOf action)) rejected.reason)
      | .ok service =>
        .ok (⟨service, row.target, some (name (m.kindOf action))⟩, found.map (·.version)) := by
  unfold resolve
  dsimp only
  rw [h, ok_bind]
  cases row.exec id (found.map (·.document.service)) action <;> rfl

theorem row_ne_invalidPayload {kind : K} (what reason : String) :
    m.row id found kind ≠ .error (.invalidPayload what reason) := by
  unfold row
  cases found with
  | none => cases m.table.lookup none kind <;> simp
  | some r => cases h : m.table.lookup (some r.document.state) kind <;> simp [h]

theorem resolve_eq_invalidPayload_iff {kind reason : String} :
    m.resolve id found action = .error (.invalidPayload kind reason) ↔
      ∃ row, m.row id found (m.kindOf action) = .ok row ∧ kind = name (m.kindOf action) ∧
        row.exec id (found.map (·.document.service)) action = .error ⟨reason⟩ := by
  cases hrow : m.row id found (m.kindOf action) with
  | error e =>
    have hresolve : m.resolve id found action = .error e := by
      unfold resolve
      dsimp only
      rw [hrow, error_bind]
    rw [hresolve]
    constructor
    · intro he
      obtain rfl := Except.error.inj he
      exact absurd hrow (row_ne_invalidPayload kind reason)
    · rintro ⟨row, hok, -⟩
      cases hok
  | ok row =>
    rw [resolve_of_row hrow]
    cases hexec : row.exec id (found.map (·.document.service)) action with
    | ok service => simp [hexec]
    | error rejected =>
      obtain ⟨text⟩ := rejected
      simp [hexec, eq_comm]

end Machine

section Store

variable {D : Type} [Document D]

theorem Directory.Slot.stored?_ne_invalidId (c : Directory.Slot) (i : String) :
    c.stored? (D := D) ≠ .error (.invalidId i) := by
  unfold stored? ioError
  repeat' split
  all_goals simp

theorem Directory.Slot.save_ne_invalidId (c : Directory.Slot) (lockFree : Bool) (r : Versioned D)
    (expected : Option Token) (i : String) :
    (c.save lockFree r expected).1 ≠ .error (.invalidId i) := by
  unfold save ioError
  cases hs : c.stored? (D := D) with
  | error e =>
    have he : e ≠ .invalidId i := fun h => c.stored?_ne_invalidId i (h ▸ hs)
    repeat' split
    all_goals simp_all
  | ok found =>
    repeat' split
    all_goals simp_all

/-- A store finds fault with an id only if it is none. -/
theorem Shelf.save_ne_invalidId {id : String} (hid : isValidId id = true) (files : FileTree)
    (s : Shelf D) (now : Instant) (fresh : Token) (lockFree : Bool) (document : D)
    (expected : Option Token) (i : String) :
    (s.save files now fresh lockFree id document expected).1 ≠ .error (.invalidId i) := by
  rcases hs : s.save files now fresh lockFree id document expected with ⟨answer, files', s'⟩
  have hanswer := congrArg Prod.fst (save_eq_slot hs)
  dsimp only at hanswer ⊢
  rw [← hanswer, slot.eq_def, if_pos hid]
  cases s with
  | memory m =>
    unfold Slot.save
    dsimp only
    split <;> simp
  | directory d => exact Directory.Slot.save_ne_invalidId _ lockFree _ expected i

end Store

section Reachable

variable {m : Machine S K A} {fault : String → A → Option Rejected} {c : Race S A}

/-- A save finds no fault with the action. -/
theorem save_ne_invalidPayload {D : Type} [Document D] {id : String} (hid : isValidId id = true)
    (limits : Timeouts) (now : Instant) (fresh : Token) (lockFree : Bool)
    (work : StateM (FileTree × Shelf D) Unit) (next : D) (expected : Option Token)
    (w : FileTree × Shelf D) (kind reason : String) :
    bounded "save" id limits.save
        (((Shelf.backend now fresh lockFree).interrupted work).save id next expected w).1 ≠
      .error (.invalidPayload kind reason) := by
  let w' := (work w).2
  have hsave : (((Shelf.backend now fresh lockFree).interrupted work).save id next expected w).1 =
      .answer (w'.2.save w'.1 now fresh lockFree id next expected).1 := rfl
  rw [hsave, bounded]
  cases hanswer : (w'.2.save w'.1 now fresh lockFree id next expected).1 with
  | ok r => simp [Except.mapError]
  | error e =>
    cases e with
    | invalidId i => exact absurd hanswer (Shelf.save_ne_invalidId hid _ _ _ _ _ _ _ i)
    | conflict | throttled | backend | io | serialization =>
      simp [Except.mapError, ApplyError.ofStore]

/-- What a call is told that was refused: its id is none, or the action was refused on what it read. -/
theorem Race.Sound.apply_eq_invalidPayload_iff (hc : Race.Sound m c) {limits : Timeouts}
    {now : Instant} {fresh : Token} {lockFree : Bool}
    {work : StateM (FileTree × Shelf (Item S)) Unit} {id : String} {action : A}
    {kind reason : String} :
    (m.apply limits ((Shelf.backend now fresh lockFree).interrupted work) id action
        (c.files, c.shelf)).1 = .error (.invalidPayload kind reason) ↔
      (isValidId id = false ∧ kind = "id" ∧ reason = "invalid document id " ++ Text.quoted id) ∨
      ∃ found, c.shelf.fetch c.files id = .ok found ∧
        m.resolve id found action = .error (.invalidPayload kind reason) := by
  have hread : ((Shelf.backend now fresh lockFree).interrupted work).fetch id (c.files, c.shelf) =
    (.answer (c.shelf.fetch c.files id), c.files, c.shelf) := rfl
  rw [Race.apply_eq, hread, Shelf.fetch_of_holds hc.holds, View.fetch]
  cases hid : isValidId id with
  | false => simp [bounded, Except.mapError, ApplyError.ofStore, eq_comm]
  | true =>
    have hbounded : bounded "fetch" id limits.fetch (.answer (.ok (c.history.last? id))) =
      .ok (c.history.last? id) := rfl
    simp only [if_true, hbounded, Bool.true_eq_false, false_and, false_or, Except.ok.injEq,
      exists_eq_left']
    cases hr : m.resolve id (c.history.last? id) action with
    | error e => simp
    | ok next =>
      obtain ⟨next, expected⟩ := next
      simpa using save_ne_invalidPayload hid limits now fresh lockFree work next expected _ kind reason

end Reachable

namespace RefusesFaults

variable {m : Machine S K A} {fault : String → A → Option Rejected} {c : Race S A}

/-- It is enough to know what the effects make of the last commits. -/
theorem of_effect (hc : Race.Sound m c)
    (heffect : ∀ id action row, m.row id (c.history.last? id) (m.kindOf action) = .ok row →
      ∀ rejected, row.exec id ((c.history.last? id).map (·.document.service)) action =
        .error rejected ↔ fault id action = some rejected)
    (hopening : ∀ id action rejected, fault id action = some rejected →
      opening rejected.reason ∈ openings)
    (hrequired : ∀ k : K, opening (name k ++ " requires an existing item") ∉ openings) :
    RefusesFaults m fault c := by
  have hfetch : ∀ id found, c.shelf.fetch c.files id = .ok found → c.history.last? id = found := by
    intro id found hf
    rw [Shelf.fetch_of_holds hc.holds, View.fetch] at hf
    split at hf
    · exact Except.ok.inj hf
    · cases hf
  have hexec : ∀ id found action row, c.shelf.fetch c.files id = .ok found →
      m.row id found (m.kindOf action) = .ok row → ∀ rejected,
        row.exec id (found.map (·.document.service)) action = .error rejected ↔
          fault id action = some rejected := by
    intro id found action row hf hrow
    obtain rfl := hfetch id found hf
    exact heffect id action row hrow
  refine ⟨hexec, ?_, ?_, ?_⟩
  · intro limits now fresh lockFree work id action kind reason
    rw [hc.apply_eq_invalidPayload_iff]
    refine or_congr_right (exists_congr fun found => ?_)
    rw [Machine.resolve_eq_invalidPayload_iff, ← exists_and_left]
    refine exists_congr fun row => and_congr_right fun hf => and_congr_right fun hrow =>
      and_congr_right fun _ => hexec id found action row hf hrow _
  · intro id found action row hf hrow hfault
    rw [Machine.resolve_of_row hrow]
    cases hrun : row.exec id (found.map (·.document.service)) action with
    | ok service => exact ⟨service, rfl⟩
    | error rejected => cases hfault.symm.trans ((hexec id found action row hf hrow rejected).mp hrun)
  · intro id action rejected hfault k
    have hreason := hopening id action rejected hfault
    exact ⟨ne_of_opening hreason (opening_unexpected _), ne_of_opening hreason (hrequired k)⟩

theorem accepts (h : RefusesFaults m fault c) {kinds : List K}
    (hfree : ∀ id action, m.kindOf action ∈ kinds → fault id action = none) : Accepts m kinds c :=
  fun id found action row hkind hf hrow =>
    h.resolved id found action row hf hrow (hfree id action hkind)

end RefusesFaults

/-- An effect that first tries the rules fails with the first that is broken. -/
theorem ServiceData.bind_eq_error_iff {d : ServiceData} {service : Service} {rejected : Rejected} :
    (d.validate >>= fun _ => Except.ok service) = .error rejected ↔ d.fault? = some rejected := by
  rw [validate_eq]
  cases d.fault? <;> simp

theorem ServiceData.fault?_of_validate {d : ServiceData} (h : d.validate = .ok ()) :
    d.fault? = none := by
  rw [validate_eq] at h
  cases hf : d.fault? with
  | none => rfl
  | some rejected =>
    rw [hf] at h
    cases h

namespace Lifecycle

variable {id : String} {found : Option (Versioned (Item State))} {action : Action}
  {row : Transition State Kind Action Service} {rejected : Rejected}

/-- Where the stored data is valid, an effect fails for the fault of its action. -/
theorem exec_eq_error_iff (hfound : ∀ r ∈ found, r.document.service.data.validate = .ok ())
    (hrow : machine.row id found (machine.kindOf action) = .ok row) :
    row.exec id (found.map (·.document.service)) action = .error rejected ↔
      action.fault? = some rejected := by
  obtain ⟨hmem, hsource, hkind⟩ := Machine.row_eq_ok hrow
  rcases mem_rows hmem with rfl | ⟨s, hs, rfl⟩ | rfl | rfl | rfl | ⟨s, hs, rfl⟩
  · obtain ⟨data, rfl⟩ : ∃ data, action = .create data := by
      cases action <;> first | exact ⟨_, rfl⟩ | cases hkind
    exact ServiceData.bind_eq_error_iff
  · obtain ⟨data, rfl⟩ : ∃ data, action = .edit data := by
      cases action <;> first | exact ⟨_, rfl⟩ | cases hkind
    obtain ⟨r, rfl, -⟩ := Option.map_eq_some_iff.mp hsource.symm
    exact ServiceData.bind_eq_error_iff
  · obtain rfl : action = .submit := by cases action <;> first | rfl | cases hkind
    obtain ⟨r, rfl, -⟩ := Option.map_eq_some_iff.mp hsource.symm
    refine ServiceData.bind_eq_error_iff.trans ?_
    rw [ServiceData.fault?_of_validate (hfound r rfl), Action.fault?]
  · obtain ⟨date, rfl⟩ : ∃ date, action = .approve date := by
      cases action <;> first | exact ⟨_, rfl⟩ | cases hkind
    obtain ⟨r, rfl, -⟩ := Option.map_eq_some_iff.mp hsource.symm
    simp [Transition.exec, approveService, Action.fault?]
  · obtain ⟨reason, rfl⟩ : ∃ reason, action = .reject reason := by
      cases action <;> first | exact ⟨_, rfl⟩ | cases hkind
    obtain ⟨r, rfl, -⟩ := Option.map_eq_some_iff.mp hsource.symm
    cases hb : Text.isBlank reason <;> simp [Transition.exec, rejectService, Action.fault?, hb]
  · obtain rfl : action = .delete := by cases action <;> first | rfl | cases hkind
    obtain ⟨r, rfl, -⟩ := Option.map_eq_some_iff.mp hsource.symm
    simp [Transition.exec, deleteService, Action.fault?]

theorem valid_of_last? {c : Race State Action} (hc : Race.Reachable machine c)
    {r : Versioned (Item State)} (hr : c.history.last? id = some r) :
    r.document.service.data.validate = .ok () := by
  obtain ⟨x, hx, rfl⟩ := History.exists_of_last? hr
  exact (editorial_of_mem_commits hc hx).2.valid

end Lifecycle

namespace Publication

variable {id : String} {found : Option (Versioned (Item State))} {action : Action}
  {row : Transition State Kind Action Service} {rejected : Rejected}

theorem released_eq_error_iff {service : Service} :
    released id (.release service) = .error rejected ↔
      Action.fault? id (.release service) = some rejected := by
  by_cases h : service.id = id
  · simpa [released, Action.fault?, h] using ServiceData.bind_eq_error_iff
  · simp [released, Action.fault?, h]

/-- Where records stand under their own ids, an effect fails for the fault of its action. -/
theorem exec_eq_error_iff (hfound : ∀ r ∈ found, r.document.service.id = id)
    (hrow : machine.row id found (machine.kindOf action) = .ok row) :
    row.exec id (found.map (·.document.service)) action = .error rejected ↔
      action.fault? id = some rejected := by
  obtain ⟨hmem, hsource, hkind⟩ := Machine.row_eq_ok hrow
  rcases mem_rows hmem with rfl | ⟨s, rfl⟩ | rfl | rfl
  · obtain ⟨service, rfl⟩ : ∃ service, action = .release service := by
      cases action <;> first | exact ⟨_, rfl⟩ | cases hkind
    exact released_eq_error_iff
  · obtain ⟨service, rfl⟩ : ∃ service, action = .release service := by
      cases action <;> first | exact ⟨_, rfl⟩ | cases hkind
    obtain ⟨r, rfl, -⟩ := Option.map_eq_some_iff.mp hsource.symm
    obtain rfl := hfound r rfl
    exact released_eq_error_iff
  · obtain rfl : action = .publish := by cases action <;> first | rfl | cases hkind
    obtain ⟨r, rfl, -⟩ := Option.map_eq_some_iff.mp hsource.symm
    simp [Transition.exec, keep, Action.fault?]
  · obtain rfl : action = .unpublish := by cases action <;> first | rfl | cases hkind
    obtain ⟨r, rfl, -⟩ := Option.map_eq_some_iff.mp hsource.symm
    simp [Transition.exec, keep, Action.fault?]

theorem id_of_last? {c : Race State Action} (hc : Race.Reachable machine c)
    {r : Versioned (Item State)} (hr : c.history.last? id = some r) : r.document.service.id = id := by
  obtain ⟨x, hx, rfl⟩ := Option.map_eq_some_iff.mp hr
  exact ((History.isChain_commits hc.sound.history id).last
    (fun _ _ _ _ hfollows => integrity_of_moves (moves_of_follows hfollows)) x hx).2.id

end Publication

/-- In every run of either machine calls are refused for the faults of their own actions only; five
kinds of actions have none. -/
theorem refuses_faults :
    (∀ c, Race.Reachable Lifecycle.machine c →
      RefusesFaults Lifecycle.machine (fun _ => Lifecycle.Action.fault?) c ∧
        Accepts Lifecycle.machine [.submit, .approve, .delete] c) ∧
    ∀ c, Race.Reachable Publication.machine c →
      RefusesFaults Publication.machine Publication.Action.fault? c ∧
        Accepts Publication.machine [.publish, .unpublish] c := by
  constructor
  · intro c hc
    have h : RefusesFaults Lifecycle.machine (fun _ => Lifecycle.Action.fault?) c :=
      .of_effect hc.sound
        (fun id action row hrow rejected =>
          Lifecycle.exec_eq_error_iff (fun r => Lifecycle.valid_of_last? hc) hrow)
        (fun _ _ _ => Lifecycle.Action.opening_mem) Lifecycle.opening_required
    refine ⟨h, h.accepts fun id action hkind => ?_⟩
    cases action with
    | submit | approve date | delete => rfl
    | create data | edit data | reject reason =>
      simp [Lifecycle.machine, Lifecycle.Action.kind] at hkind
  · intro c hc
    have h : RefusesFaults Publication.machine Publication.Action.fault? c :=
      .of_effect hc.sound
        (fun id action row hrow rejected =>
          Publication.exec_eq_error_iff (fun r => Publication.id_of_last? hc) hrow)
        (fun _ _ _ => Publication.Action.opening_mem) Publication.opening_required
    refine ⟨h, h.accepts fun id action hkind => ?_⟩
    cases action with
    | publish | unpublish => rfl
    | release service => simp [Publication.machine, Publication.Action.kind] at hkind

/-- An approved service is not renamed to a blank, and a live one not released under another id. -/
theorem refuses_faults_runs :
    RefusesFaults Lifecycle.machine (fun _ => Lifecycle.Action.fault?) Lifecycle.approvedRun ∧
    (Lifecycle.machine.apply {} ((Shelf.backend ⟨3, 0⟩ ⟨"next"⟩ true).interrupted (pure ())) "library"
      (.edit { Race.libraryData with name := " " })
      (Lifecycle.approvedRun.files, Lifecycle.approvedRun.shelf)).1 =
        .error (.invalidPayload "edit" "name must not be empty") ∧
    RefusesFaults Publication.machine Publication.Action.fault? Publication.liveRun ∧
    (Publication.machine.apply {} ((Shelf.backend ⟨3, 0⟩ ⟨"next"⟩ true).interrupted (pure ()))
      "library" (.release { id := "archive", data := Race.libraryData })
      (Publication.liveRun.files, Publication.liveRun.shelf)).1 = .error (.invalidPayload "release"
        "released service archive does not match publication library") := by
  have happroved := (refuses_faults.1 _ Lifecycle.reachable_approvedRun).1
  have hlive := (refuses_faults.2 _ Publication.reachable_liveRun).1
  refine ⟨happroved, (happroved.applied ..).mpr (.inr ⟨_, _, rfl, rfl, rfl, rfl⟩), hlive,
    (hlive.applied ..).mpr (.inr ⟨_, _, rfl, rfl, rfl, rfl⟩)⟩

end ServiceCatalog
