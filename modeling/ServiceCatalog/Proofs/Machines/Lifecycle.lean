import ServiceCatalog.Machines.Lifecycle
import ServiceCatalog.Proofs.Service.Fits
import ServiceCatalog.Proofs.Workflow.Race

/-! What an editorial action makes of an item, one case for each kind. -/
namespace ServiceCatalog.Lifecycle

instance : LawfulNamed State where
  mem_all s := by cases s <;> decide
  name_injective := by
    intro s t h
    cases s <;> cases t <;> first | rfl | exact absurd h (by decide)

theorem createService_eq_ok {id : String} {a : Action} {s : Service} :
    createService id a = .ok s ↔
      ∃ data, a = .create data ∧ data.validate = .ok () ∧ s = { id, data } := by
  cases a with
  | create data =>
    cases hv : data.validate with
    | error e => simp [createService, hv]
    | ok u => simp [createService, hv, eq_comm]
  | edit data => simp [createService, mismatched]
  | submit => simp [createService, mismatched]
  | approve date => simp [createService, mismatched]
  | reject reason => simp [createService, mismatched]
  | delete => simp [createService, mismatched]

theorem editService_eq_ok {current : Service} {a : Action} {s : Service} :
    editService current a = .ok s ↔
      ∃ data, a = .edit data ∧ data.validate = .ok () ∧ s = { id := current.id, data } := by
  cases a with
  | edit data =>
    cases hv : data.validate with
    | error e => simp [editService, hv]
    | ok u => simp [editService, hv, eq_comm]
  | create data => simp [editService, mismatched]
  | submit => simp [editService, mismatched]
  | approve date => simp [editService, mismatched]
  | reject reason => simp [editService, mismatched]
  | delete => simp [editService, mismatched]

theorem submitService_eq_ok {current : Service} {a : Action} {s : Service} :
    submitService current a = .ok s ↔
      current.data.validate = .ok () ∧ s = { current with review := none } := by
  cases hv : current.data.validate with
  | error e => simp [submitService, hv]
  | ok u => simp [submitService, hv, eq_comm]

theorem approveService_eq_ok {current : Service} {a : Action} {s : Service} :
    approveService current a = .ok s ↔
      ∃ date, a = .approve date ∧ s = { current with review := some (.approved date) } := by
  cases a <;> simp [approveService, mismatched, eq_comm]

theorem rejectService_eq_ok {current : Service} {a : Action} {s : Service} :
    rejectService current a = .ok s ↔ ∃ reason, a = .reject reason ∧
      Text.isBlank reason = false ∧ s = { current with review := some (.rejected reason) } := by
  cases a with
  | reject reason =>
    cases hb : Text.isBlank reason with
    | true => simp [rejectService, hb]
    | false =>
      have heffect : rejectService current (.reject reason) =
          .ok { current with review := some (.rejected reason) } := by
        simp [rejectService, hb]
      rw [heffect]
      constructor
      · intro h
        exact ⟨reason, rfl, hb, (Except.ok.inj h).symm⟩
      · rintro ⟨_, ⟨⟩, -, rfl⟩
        rfl
  | create data => simp [rejectService, mismatched]
  | edit data => simp [rejectService, mismatched]
  | submit => simp [rejectService, mismatched]
  | approve date => simp [rejectService, mismatched]
  | delete => simp [rejectService, mismatched]

/-- The item that an action leads to. -/
inductive Moves (id : String) : Option (Item State) → Action → Item State → Prop
  | create {data : ServiceData} (hv : data.validate = .ok ()) :
    Moves id none (.create data) ⟨{ id, data }, .draft, some "create"⟩
  | edit {p : Item State} {data : ServiceData} (hs : p.state ∈ settled)
    (hv : data.validate = .ok ()) :
    Moves id (some p) (.edit data) ⟨{ id := p.service.id, data }, .draft, some "edit"⟩
  | submit {p : Item State} (hs : p.state = .draft) (hv : p.service.data.validate = .ok ()) :
    Moves id (some p) .submit ⟨{ p.service with review := none }, .submitted, some "submit"⟩
  | approve {p : Item State} {date : Option Instant} (hs : p.state = .submitted) :
    Moves id (some p) (.approve date)
      ⟨{ p.service with review := some (.approved date) }, .approved, some "approve"⟩
  | reject {p : Item State} {reason : String} (hs : p.state = .submitted)
    (hb : Text.isBlank reason = false) :
    Moves id (some p) (.reject reason)
      ⟨{ p.service with review := some (.rejected reason) }, .rejected, some "reject"⟩
  | delete {p : Item State} (hs : p.state ∈ settled) :
    Moves id (some p) .delete ⟨p.service, .deleted, some "delete"⟩

/-- The rows of the table, one case for each kind. -/
theorem mem_rows {row : Transition State Kind Action Service} (h : row ∈ machine.table.rows) :
    row = ⟨none, .create, .draft, .create createService⟩ ∨
      (∃ s ∈ settled, row = ⟨some s, .edit, .draft, .update editService⟩) ∨
      row = ⟨some .draft, .submit, .submitted, .update submitService⟩ ∨
      row = ⟨some .submitted, .approve, .approved, .update approveService⟩ ∨
      row = ⟨some .submitted, .reject, .rejected, .update rejectService⟩ ∨
      ∃ s ∈ settled, row = ⟨some s, .delete, .deleted, .update deleteService⟩ := by
  simpa [machine, table, Table.expand, declarations, Declaration.rows, eq_comm] using h

theorem moves_of_follows {id : String} {prev : Option (Item State)} {a : Action}
    {item : Item State} (h : machine.Follows id prev a item) : Moves id prev a item := by
  obtain ⟨row, hrow, hsource, hkind, hexec, hstate, hlast⟩ := h
  obtain ⟨service, state, last⟩ := item
  rcases mem_rows hrow with rfl | ⟨s, hs, rfl⟩ | rfl | rfl | rfl | ⟨s, hs, rfl⟩
  · obtain rfl : prev = none := by simpa using hsource.symm
    obtain ⟨data, rfl, hv, hservice⟩ := createService_eq_ok.mp hexec
    subst hservice hstate hlast
    exact .create hv
  · obtain ⟨p, rfl, rfl⟩ := Machine.exists_of_source hsource
    obtain ⟨data, rfl, hv, hservice⟩ := editService_eq_ok.mp hexec
    subst hservice hstate hlast
    exact .edit hs hv
  · obtain ⟨p, rfl, hp⟩ := Machine.exists_of_source hsource
    obtain rfl : a = .submit := by cases a <;> first | rfl | cases hkind
    obtain ⟨hv, hservice⟩ := (submitService_eq_ok (a := .submit)).mp hexec
    subst hservice hstate hlast
    exact .submit hp hv
  · obtain ⟨p, rfl, hp⟩ := Machine.exists_of_source hsource
    obtain ⟨date, rfl, hservice⟩ := approveService_eq_ok.mp hexec
    subst hservice hstate hlast
    exact .approve hp
  · obtain ⟨p, rfl, hp⟩ := Machine.exists_of_source hsource
    obtain ⟨reason, rfl, hb, hservice⟩ := rejectService_eq_ok.mp hexec
    subst hservice hstate hlast
    exact .reject hp hb
  · obtain ⟨p, rfl, rfl⟩ := Machine.exists_of_source hsource
    obtain rfl : a = .delete := by cases a <;> first | rfl | cases hkind
    have hservice : p.service = service := Except.ok.inj hexec
    subst hservice hstate hlast
    exact .delete hs

/-- The numbers of the payload fit their words, and its times are times. -/
def Action.Fits : Action → Prop
  | .create data => data.Fits
  | .edit data => data.Fits
  | .approve date => ∀ t ∈ date, t.Valid
  | .submit => True
  | .reject _ => True
  | .delete => True

theorem admits_of_fits {a : Action} (h : a.Fits) : machine.Admits a := by
  intro id prev item hfollows hprev
  cases moves_of_follows hfollows with
  | create hv => exact ⟨h, by simp⟩
  | edit hs hv => exact ⟨h, by simp⟩
  | submit hs hv => exact ⟨(hprev _ rfl).data, by simp⟩
  | approve hs => exact ⟨(hprev _ rfl).data, by simpa [Review.Fits, Action.Fits] using h⟩
  | reject hs hb => exact ⟨(hprev _ rfl).data, by simp [Review.Fits]⟩
  | delete hs =>
    have hp := hprev _ rfl
    exact hp

theorem fits_of_withPayload {k : Kind} {j : Json} {a : Action}
    (h : withPayload k j = .ok a) : a.Fits := by
  have happrove : Decode.Ensures approveFields Action.Fits :=
    .map (.optional Decode.valid_of_instant) fun _ hdate => hdate
  have hreject : Decode.Ensures rejectFields Action.Fits := .map (.anything _) fun _ _ => trivial
  cases k with
  | create =>
    obtain ⟨data, hdata, rfl⟩ := map_eq_ok.mp h
    exact ServiceData.fits_of_ofJson hdata
  | edit =>
    obtain ⟨data, hdata, rfl⟩ := map_eq_ok.mp h
    exact ServiceData.fits_of_ofJson hdata
  | submit =>
    cases h
    trivial
  | approve => exact happrove.record h
  | reject => exact hreject.record h
  | delete =>
    cases h
    trivial

theorem admits_of_parse {action : String} {j : Json} {a : Action}
    (h : machine.parse action j = .ok a) : machine.Admits a := by
  obtain ⟨k, hk⟩ := Machine.withPayload_of_parse h
  exact admits_of_fits (fits_of_withPayload hk)

end ServiceCatalog.Lifecycle
