import ServiceCatalog.Machines.Publication
import ServiceCatalog.Proofs.Service.Fits
import ServiceCatalog.Proofs.Workflow.Race

/-! What a publication action makes of an item, one case for each kind and for the first release. -/
namespace ServiceCatalog.Publication

instance : LawfulNamed State where
  mem_all s := by cases s <;> decide
  name_injective := by
    intro s t h
    cases s <;> cases t <;> first | rfl | exact absurd h (by decide)

theorem released_eq_ok {id : String} {a : Action} {s : Service} (h : released id a = .ok s) :
    ∃ service, a = .release service ∧ service.id = id ∧ service.data.validate = .ok () ∧
      s = { service with review := none } := by
  cases a with
  | publish => simp [released] at h
  | unpublish => simp [released] at h
  | release service =>
    unfold released at h
    dsimp only at h
    split at h
    · cases h
    · next hid =>
      cases hv : service.data.validate with
      | error e => simp [hv] at h
      | ok u =>
        rw [hv] at h
        exact ⟨service, rfl, not_not.mp hid, hv, (Except.ok.inj h).symm⟩

/-- The item that an action leads to. -/
inductive Moves (id : String) : Option (Item State) → Action → Item State → Prop
  | create {service : Service} (hid : service.id = id) (hv : service.data.validate = .ok ()) :
    Moves id none (.release service)
      ⟨{ service with review := none }, .unpublished, some "release"⟩
  | release {p : Item State} {service : Service} (hid : service.id = p.service.id)
    (hv : service.data.validate = .ok ()) :
    Moves id (some p) (.release service)
      ⟨{ service with review := none }, p.state, some "release"⟩
  | publish {p : Item State} (hs : p.state = .unpublished) :
    Moves id (some p) .publish ⟨p.service, .published, some "publish"⟩
  | unpublish {p : Item State} (hs : p.state = .published) :
    Moves id (some p) .unpublish ⟨p.service, .unpublished, some "unpublish"⟩

/-- The rows of the table; a release keeps the state. -/
theorem mem_rows {row : Transition State Kind Action Service} (h : row ∈ machine.table.rows) :
    row = ⟨none, .release, .unpublished, .create released⟩ ∨
      (∃ s, row = ⟨some s, .release, s, .update releasedAgain⟩) ∨
      row = ⟨some .unpublished, .publish, .published, .update keep⟩ ∨
      row = ⟨some .published, .unpublish, .unpublished, .update keep⟩ := by
  simp only [machine, table, Table.expand, declarations, Declaration.rows, List.flatMap_cons,
    List.flatMap_nil, List.map_cons, List.map_nil, List.append_nil, List.mem_append,
    List.mem_singleton] at h
  rcases h with rfl | rfl | rfl | rfl | rfl
  · exact .inl rfl
  · exact .inr (.inl ⟨_, rfl⟩)
  · exact .inr (.inl ⟨_, rfl⟩)
  · exact .inr (.inr (.inl rfl))
  · exact .inr (.inr (.inr rfl))

theorem moves_of_follows {id : String} {prev : Option (Item State)} {a : Action}
    {item : Item State} (h : machine.Follows id prev a item) : Moves id prev a item := by
  obtain ⟨row, hrow, hsource, hkind, hexec, hstate, hlast⟩ := h
  obtain ⟨service, state, last⟩ := item
  rcases mem_rows hrow with rfl | ⟨s, rfl⟩ | rfl | rfl
  · obtain rfl : prev = none := by simpa using hsource.symm
    obtain ⟨given, rfl, hid, hv, hservice⟩ := released_eq_ok hexec
    subst hservice hstate hlast
    exact .create hid hv
  · obtain ⟨p, rfl, rfl⟩ := Machine.exists_of_source hsource
    obtain ⟨given, rfl, hid, hv, hservice⟩ := released_eq_ok hexec
    subst hservice hstate hlast
    exact .release hid hv
  · obtain ⟨p, rfl, hp⟩ := Machine.exists_of_source hsource
    obtain rfl : a = .publish := by cases a <;> first | rfl | cases hkind
    have hservice : p.service = service := Except.ok.inj hexec
    subst hservice hstate hlast
    exact .publish hp
  · obtain ⟨p, rfl, hp⟩ := Machine.exists_of_source hsource
    obtain rfl : a = .unpublish := by cases a <;> first | rfl | cases hkind
    have hservice : p.service = service := Except.ok.inj hexec
    subst hservice hstate hlast
    exact .unpublish hp

/-- The numbers of a released service fit their words. -/
def Action.Fits : Action → Prop
  | .release service => service.data.Fits
  | .publish => True
  | .unpublish => True

theorem admits_of_fits {a : Action} (h : a.Fits) : machine.Admits a := by
  intro id prev item hfollows hprev
  cases moves_of_follows hfollows with
  | create hid hv => exact ⟨h, by simp⟩
  | release hid hv => exact ⟨h, by simp⟩
  | publish hs =>
    have hp := hprev _ rfl
    exact hp
  | unpublish hs =>
    have hp := hprev _ rfl
    exact hp

theorem fits_of_withPayload {k : Kind} {j : Json} {a : Action}
    (h : withPayload k j = .ok a) : a.Fits := by
  cases k with
  | release =>
    obtain ⟨service, hservice, rfl⟩ := map_eq_ok.mp h
    exact ((Service.ensures_fields false).record hservice).data
  | publish =>
    cases h
    trivial
  | unpublish =>
    cases h
    trivial

theorem admits_of_parse {action : String} {j : Json} {a : Action}
    (h : machine.parse action j = .ok a) : machine.Admits a := by
  obtain ⟨k, hk⟩ := Machine.withPayload_of_parse h
  exact admits_of_fits (fits_of_withPayload hk)

end ServiceCatalog.Publication
