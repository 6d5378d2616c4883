import ServiceCatalog.Proofs.Machines.Lifecycle
import ServiceCatalog.Proofs.Machines.Publication

/-!
What concurrent calls can rely on: the commits on an id form one chain of transitions, and a call is
told of a conflict exactly when another one was faster.
-/
namespace ServiceCatalog.Race

variable {S K A : Type} [DecidableEq S] [DecidableEq K] [Named S] [Named K]
  {m : Machine S K A} {c : Race S A}

/-- No commit is computed from an older read than the commit before it, and the store holds the
last one. -/
theorem commits_isChain [LawfulNamed S] (h : Reachable m c) (id : String) :
    IsChain m id none (c.history.commits id) ∧
      c.shelf.fetch c.files id =
        if isValidId id then .ok ((c.history.commits id).getLast?.map (·.record))
        else .error (.invalidId id) :=
  ⟨History.isChain_commits h.sound.history id, Shelf.fetch_of_holds h.sound.holds id⟩

/-- Data that passes every rule. -/
def libraryData : ServiceData where
  name := "Library"
  description := "Loans and reservations"
  organization := ⟨"City", "00000000000"⟩
  metadata := { email := some "library@city" }

/-- Two calls create one item in a directory, both after reading that there is none. -/
def firstSaved : Race Lifecycle.State Lifecycle.Action :=
  let events : List (Event Lifecycle.Action) :=
    [.fetch 0 "library" (.create libraryData), .fetch 1 "library" (.create libraryData),
      .save 0 ⟨0, 0⟩ ⟨"first"⟩ true]
  events.foldl (step Lifecycle.machine)
    { files := ⟨[(["records"], .directory)]⟩, shelf := .directory ⟨"records", {}⟩ }

theorem admits_libraryData : Lifecycle.machine.Admits (.create libraryData) :=
  Lifecycle.admits_of_fits ⟨by simp [libraryData], by decide⟩

theorem reachable_firstSaved : Reachable Lifecycle.machine firstSaved := by
  have h₁ := (Reachable.start (m := Lifecycle.machine) Shelf.empty_records).step
    (e := .fetch 0 "library" (.create libraryData)) ⟨rfl, admits_libraryData⟩
  have h₂ := h₁.step (e := .fetch 1 "library" (.create libraryData)) ⟨rfl, admits_libraryData⟩
  exact h₂.step (e := .save 0 ⟨0, 0⟩ ⟨"first"⟩ true) ⟨by decide, by decide⟩

theorem commits_isChain_firstSaved :
    IsChain Lifecycle.machine "library" none (firstSaved.history.commits "library") ∧
      firstSaved.shelf.fetch firstSaved.files "library" =
        .ok (some ⟨"library", ⟨{ id := "library", data := libraryData }, .draft, some "create"⟩,
          ⟨"first"⟩, ⟨0, 0⟩⟩) := by
  have h := commits_isChain reachable_firstSaved "library"
  exact ⟨h.1, h.2.trans rfl⟩

def IsConflict (result : Except ApplyError (Versioned (Item S))) : Prop :=
  ∃ id expected actual, result = .error (.conflict id expected actual)

/-- What a call that has read `found` is told after its save. -/
structure Outcome (c : Race S A) (call : Nat) (id : String) (found : Option (Versioned (Item S)))
    (result : Except ApplyError (Versioned (Item S))) : Prop where
  /-- It is a conflict if and only if another call has committed since the read. -/
  conflict_iff : ∃ pre mid, c.history = pre ++ .read call id found :: mid ∧
    (∀ e ∈ pre ++ mid, e.call ≠ call) ∧ found = History.last? pre id ∧
      (IsConflict result ↔ ∃ x ∈ History.commits id mid, x.call ≠ call)
  /-- A conflict names the token that was read and the one that is stored. -/
  tokens : ∀ i expected actual, result = .error (.conflict i expected actual) →
    i = id ∧ expected = found.map (·.version) ∧
      ∃ current, c.shelf.fetch c.files id = .ok current ∧ actual = current.map (·.version)
  commit_or_conflict : (∃ r, result = .ok r) ∨ IsConflict result
  /-- It is a commit if and only if no call has saved before after a read of the same version. -/
  commit_iff_first : (∃ r, result = .ok r) ↔ ∀ call' action' found' result',
    .saved call' id action' found' false result' ∈ c.history →
      found'.map (·.version) ≠ found.map (·.version)

theorem step_save (m : Machine S K A) {call : Nat} {id : String} {action : A}
    {found : Option (Versioned (Item S))} {next : Item S} {expected : Option Token}
    (hc : c.stage call = .pending id action found next expected) (now : Instant) (fresh : Token)
    (lockFree : Bool) :
    ∃ result, (c.step m (.save call now fresh lockFree)).stage call = .done result ∧
      (c.step m (.save call now fresh lockFree)).history =
        c.history ++ [.saved call id action found (c.shelf.isLocked lockFree) result] := by
  refine ⟨(c.shelf.save c.files now fresh lockFree id next expected).1.mapError .ofStore, ?_, ?_⟩
  · simp only [step, hc, Function.update_self]
  · simp only [step, hc]

/-- A call that reaches its save with the lock free. -/
theorem save_outcome [LawfulNamed S] (h : Reachable m c) {call : Nat} {id : String} {action : A}
    {found : Option (Versioned (Item S))} {next : Item S} {expected : Option Token} {now : Instant}
    {fresh : Token} {lockFree : Bool} (hc : c.stage call = .pending id action found next expected)
    (ha : c.Allowed m (.save call now fresh lockFree)) (hl : c.shelf.isLocked lockFree = false) :
    ∃ result, (c.step m (.save call now fresh lockFree)).stage call = .done result ∧
      Outcome c call id found result := by
  obtain ⟨result, hstage, hhistory⟩ := step_save m hc now fresh lockFree
  have hs : History.Sound m (c.history ++ [.saved call id action found false result]) := by
    rw [← hl, ← hhistory]
    exact (h.step ha).sound.history
  obtain ⟨pre, mid, hsplit, hcalls, hid, hfound⟩ := History.read_of_saved hs
  have hfetch := Shelf.fetch_of_holds h.sound.holds id
  rw [View.fetch, if_pos hid] at hfetch
  have hiff := History.version?_eq_found_iff (hsplit ▸ History.sound_of_append hs)
  rw [← hsplit] at hiff
  have hothers : ∀ x ∈ History.commits id mid, x.call ≠ call := by
    intro x hx
    obtain ⟨e, he, hec⟩ := List.mem_filterMap.mp hx
    obtain ⟨locked, rfl⟩ := Entry.eq_saved_of_commit? hec
    exact hcalls _ (List.mem_append_right pre he)
  have hfirst := History.commits_iff_first hs
  refine ⟨result, hstage, ?_⟩
  by_cases hv : View.version? (History.last? c.history) id = found.map (·.version)
  · obtain ⟨r, rfl, -⟩ := History.commits_of_saved hs hv
    refine ⟨⟨pre, mid, hsplit, hcalls, hfound, ?_⟩, by simp, .inl ⟨r, rfl⟩, hfirst⟩
    rw [hiff.mp hv]
    simp [IsConflict]
  · obtain rfl := History.conflict_of_saved hs hv
    have hne : History.commits id mid ≠ [] := mt hiff.mpr hv
    obtain ⟨x, xs, hx⟩ := List.exists_cons_of_ne_nil hne
    have hmem : x ∈ History.commits id mid := by simp [hx]
    refine ⟨⟨pre, mid, hsplit, hcalls, hfound, ?_⟩, ?_, .inr ⟨_, _, _, rfl⟩, hfirst⟩
    · exact ⟨fun _ => ⟨x, hmem, hothers x hmem⟩, fun _ => ⟨_, _, _, rfl⟩⟩
    · intro i expected actual he
      cases he
      exact ⟨rfl, rfl, _, hfetch, rfl⟩

theorem save_outcome_firstSaved :
    ∃ result, (firstSaved.step Lifecycle.machine (.save 1 ⟨1, 0⟩ ⟨"second"⟩ true)).stage 1 =
        .done result ∧ Outcome firstSaved 1 "library" none result ∧ IsConflict result := by
  have ha : firstSaved.Allowed Lifecycle.machine (.save 1 ⟨1, 0⟩ ⟨"second"⟩ true) :=
    ⟨by decide, by decide⟩
  obtain ⟨result, hstage, ho⟩ := save_outcome reachable_firstSaved rfl ha rfl
  obtain ⟨r, hmem⟩ : ∃ r, .saved 0 "library" (.create libraryData) none false (.ok r) ∈
      firstSaved.history := ⟨_, .tail _ (.tail _ (.head _))⟩
  refine ⟨result, hstage, ho, ho.commit_or_conflict.resolve_left fun hok => ?_⟩
  exact ho.commit_iff_first.mp hok _ _ _ _ hmem rfl

end ServiceCatalog.Race
