import ServiceCatalog.Proofs.Store.Shelf
import ServiceCatalog.Proofs.Workflow.Commits
import ServiceCatalog.Store.Fault

/-!
Concurrent calls on one store. Each call first reads and later saves; steps of all calls interleave
in any order. In every reachable state the history is sound and the store holds its last commits.
-/
namespace ServiceCatalog

variable {S K A : Type}

/-- How far a call is. -/
inductive Stage (S A : Type) where
  | idle
  /-- It has read and will save. -/
  | pending (id : String) (action : A) (found : Option (Versioned (Item S))) (next : Item S)
    (expected : Option Token)
  | done (result : Except ApplyError (Versioned (Item S)))

structure Race (S A : Type) where
  files : FileTree
  shelf : Shelf (Item S)
  stage : Nat → Stage S A := fun _ => .idle
  history : History S A := []

inductive Event (A : Type) where
  | fetch (call : Nat) (id : String) (action : A)
  | save (call : Nat) (now : Instant) (fresh : Token) (lockFree : Bool)

variable [DecidableEq S] [DecidableEq K] [Named S] [Named K]

namespace Machine

/-- The action's numbers fit their words: what it makes of a service that fits does, too. -/
def Admits (m : Machine S K A) (action : A) : Prop :=
  ∀ id prev item, m.Follows id prev action item → (∀ p ∈ prev, p.service.Fits) → item.service.Fits

omit [DecidableEq S] [DecidableEq K] [Named S] in
theorem withPayload_of_parse {m : Machine S K A} {action : String} {j : Json} {a : A}
    (h : m.parse action j = .ok a) : ∃ k, m.withPayload k (payload j) = .ok a := by
  unfold parse at h
  split at h
  · cases h
  · next k hk =>
    refine ⟨k, ?_⟩
    cases hp : m.withPayload k (payload j) with
    | error e => simp [hp, Except.mapError] at h
    | ok b =>
      rw [hp] at h
      cases h
      rfl

/-- Where a call is after its read. -/
def afterRead (m : Machine S K A) (id : String) (action : A) :
    Except StoreError (Option (Versioned (Item S))) → Stage S A
  | .error e => .done (.error (.ofStore e))
  | .ok found =>
    match m.resolve id found action with
    | .error e => .done (.error e)
    | .ok (next, expected) => .pending id action found next expected

theorem afterRead_ne_idle (m : Machine S K A) (id : String) (action : A)
    (answer : Except StoreError (Option (Versioned (Item S)))) :
    m.afterRead id action answer ≠ .idle := by
  unfold afterRead
  split
  · simp
  · split <;> simp

theorem afterRead_eq_pending {m : Machine S K A} {id i : String} {action a : A}
    {answer : Except StoreError (Option (Versioned (Item S)))}
    {found : Option (Versioned (Item S))} {next : Item S} {expected : Option Token}
    (h : m.afterRead id action answer = .pending i a found next expected) :
    i = id ∧ a = action ∧ answer = .ok found ∧ m.resolve id found action = .ok (next, expected) := by
  unfold afterRead at h
  split at h
  · cases h
  · split at h
    · cases h
    · next hr =>
      cases h
      exact ⟨rfl, rfl, rfl, hr⟩

end Machine

/-- A read is an entry if the store gave an answer. -/
def Entry.ofRead (call : Nat) (id : String) :
    Except StoreError (Option (Versioned (Item S))) → History S A
  | .ok found => [.read call id found]
  | .error _ => []

namespace Race

def step (m : Machine S K A) (c : Race S A) : Event A → Race S A
  | .fetch call id action =>
    let answer := c.shelf.fetch c.files id
    { c with
      stage := Function.update c.stage call (m.afterRead id action answer),
      history := c.history ++ Entry.ofRead call id answer }
  | .save call now fresh lockFree =>
    match c.stage call with
    | .pending id action found next expected =>
      let (answer, files, shelf) := c.shelf.save c.files now fresh lockFree id next expected
      let result := answer.mapError ApplyError.ofStore
      { files, shelf,
        stage := Function.update c.stage call (.done result),
        history :=
          c.history ++ [.saved call id action found (c.shelf.isLocked lockFree) result] }
    | _ => c

/-- A call number is used once, and no commit before had the fresh token. -/
def Allowed (m : Machine S K A) (c : Race S A) : Event A → Prop
  | .fetch call _ action => c.stage call = .idle ∧ m.Admits action
  | .save _ now fresh _ => now.Valid ∧ fresh ∉ c.history.tokens

inductive Reachable (m : Machine S K A) : Race S A → Prop
  | start {files : FileTree} {shelf : Shelf (Item S)} (h : shelf.Empty files) :
    Reachable m { files, shelf }
  | step {c : Race S A} {e : Event A} (h : Reachable m c) (ha : c.Allowed m e) :
    Reachable m (c.step m e)

end Race

/-- The store as a call sees it. -/
def Shelf.backend {D : Type} [Document D] (now : Instant) (fresh : Token) (lockFree : Bool) :
    Backend (FileTree × Shelf D) D where
  fetch id := fun w => (.answer (w.2.fetch w.1 id), w)
  save id document expected := fun w =>
    let (r, w) := w.2.save w.1 now fresh lockFree id document expected
    (.answer r, w)

namespace Race

section Apply

variable {m : Machine S K A} {c d : Race S A} {call : Nat} {id : String} {action : A}
  {now : Instant} {fresh : Token} {lockFree : Bool} {limits : Timeouts}
  {work : StateM (FileTree × Shelf (Item S)) Unit}

theorem stage_fetch : (c.step m (.fetch call id action)).stage call =
    m.afterRead id action (c.shelf.fetch c.files id) :=
  Function.update_self ..

theorem apply_eq {σ : Type} (m : Machine S K A) (limits : Timeouts) (store : Backend σ (Item S))
    (id : String) (action : A) (s : σ) :
    m.apply limits store id action s =
      match bounded "fetch" id limits.fetch (store.fetch id s).1 with
      | .error e => (.error e, (store.fetch id s).2)
      | .ok current =>
        match m.resolve id current action with
        | .error e => (.error e, (store.fetch id s).2)
        | .ok (next, expected) =>
          (bounded "save" id limits.save (store.save id next expected (store.fetch id s).2).1,
            (store.save id next expected (store.fetch id s).2).2) := by
  unfold Machine.apply Machine.get
  rw [state_bind, state_bind, state_pure]
  dsimp only
  cases bounded "fetch" id limits.fetch (store.fetch id s).1 with
  | error e => rfl
  | ok current =>
    dsimp only
    cases m.resolve id current action with
    | error e => rfl
    | ok p => rfl

/-- A call that is done after its read is an action applied without a save. -/
theorem apply_of_done {result : Except ApplyError (Versioned (Item S))}
    (h : (c.step m (.fetch call id action)).stage call = .done result) :
    m.apply limits ((Shelf.backend now fresh lockFree).interrupted work) id action
      (c.files, c.shelf) = (result, c.files, c.shelf) := by
  rw [stage_fetch] at h
  have hfetch : ((Shelf.backend now fresh lockFree).interrupted work).fetch id
      (c.files, c.shelf) = (.answer (c.shelf.fetch c.files id), c.files, c.shelf) := rfl
  rw [apply_eq, hfetch]
  unfold Machine.afterRead at h
  cases hf : c.shelf.fetch c.files id with
  | error e =>
    rw [hf] at h
    cases h
    rfl
  | ok found =>
    rw [hf] at h
    cases hr : m.resolve id found action with
    | error e =>
      simp only [hr, Stage.done.injEq] at h
      subst h
      simp [bounded, Except.mapError, hr]
    | ok p => simp [hr] at h

/-- Other work between the two steps of a call is other work before the save of an action. -/
theorem apply_of_pending {found : Option (Versioned (Item S))} {next : Item S}
    {expected : Option Token}
    (h : (c.step m (.fetch call id action)).stage call = .pending id action found next expected)
    (hd : d.stage call = .pending id action found next expected)
    (hw : work (c.files, c.shelf) = ((), d.files, d.shelf)) :
    ∃ result, (d.step m (.save call now fresh lockFree)).stage call = .done result ∧
      m.apply limits ((Shelf.backend now fresh lockFree).interrupted work) id action
        (c.files, c.shelf) =
          (result, (d.step m (.save call now fresh lockFree)).files,
            (d.step m (.save call now fresh lockFree)).shelf) := by
  rw [stage_fetch] at h
  obtain ⟨-, -, hf, hr⟩ := Machine.afterRead_eq_pending h
  have hfetch : ((Shelf.backend now fresh lockFree).interrupted work).fetch id
      (c.files, c.shelf) = (.answer (c.shelf.fetch c.files id), c.files, c.shelf) := rfl
  have hsave : ((Shelf.backend now fresh lockFree).interrupted work).save id next expected
      (c.files, c.shelf) = (.answer (d.shelf.save d.files now fresh lockFree id next expected).1,
        (d.shelf.save d.files now fresh lockFree id next expected).2) := by
    dsimp only [Backend.interrupted]
    rw [state_bind, hw]
    rfl
  refine ⟨(d.shelf.save d.files now fresh lockFree id next expected).1.mapError .ofStore,
    by simp only [step, hd, Function.update_self], ?_⟩
  rw [apply_eq, hfetch, hf]
  simp [bounded, Except.mapError, hr, hsave, step, hd]

end Apply

/-- What is true of every reachable state. -/
structure Sound (m : Machine S K A) (c : Race S A) : Prop where
  history : c.history.Sound m
  holds : c.shelf.Holds c.files c.history.last?
  fits : ∀ id, ∀ x ∈ c.history.commits id, x.record.document.service.Fits
  /-- A call that has not begun has no entries. -/
  idle : ∀ call, c.stage call = .idle → ∀ e ∈ c.history, e.call ≠ call
  pending : ∀ call id action found next expected,
    c.stage call = .pending id action found next expected →
      m.resolve id found action = .ok (next, expected) ∧ next.service.Fits ∧
        ∃ pre mid, c.history = pre ++ .read call id found :: mid ∧ ∀ e ∈ mid, e.call ≠ call

section Sound

variable {m : Machine S K A} {c : Race S A}

theorem sound_start {files : FileTree} {shelf : Shelf (Item S)} (h : shelf.Empty files) :
    Sound m ({ files, shelf } : Race S A) where
  history := History.sound_nil m
  holds := Shelf.holds_of_empty h
  fits := by simp [History.commits]
  idle := by simp
  pending := by simp

/-- One call moves on: of the others the same is known as before. -/
theorem Sound.move (hs : Sound m c) {call : Nat} {stage : Stage S A} {files : FileTree}
    {shelf : Shelf (Item S)} {added : History S A} (hcall : ∀ e ∈ added, e.call = call)
    (hhistory : History.Sound m (c.history ++ added))
    (hholds : shelf.Holds files (History.last? (c.history ++ added)))
    (hfits : ∀ id, ∀ x ∈ added.commits id, x.record.document.service.Fits)
    (hidle : stage ≠ .idle)
    (hpending : ∀ id action found next expected, stage = .pending id action found next expected →
      m.resolve id found action = .ok (next, expected) ∧ next.service.Fits ∧
        added = [.read call id found]) :
    Sound m ⟨files, shelf, Function.update c.stage call stage, c.history ++ added⟩ where
  history := hhistory
  holds := hholds
  fits id x hx := by
    rw [History.commits_append, List.mem_append] at hx
    rcases hx with hx | hx
    · exact hs.fits id x hx
    · exact hfits id x hx
  idle other ho e he := by
    have hne : other ≠ call := by
      rintro rfl
      exact hidle (by simpa using ho)
    rcases List.mem_append.mp he with he | he
    · exact hs.idle other (by simpa [hne] using ho) e he
    · rw [hcall e he]
      exact hne.symm
  pending other id action found next expected ho := by
    by_cases hne : other = call
    · subst hne
      obtain ⟨hresolve, hnext, rfl⟩ := hpending id action found next expected (by simpa using ho)
      exact ⟨hresolve, hnext, c.history, [], rfl, by simp⟩
    · obtain ⟨hresolve, hnext, pre, mid, hsplit, hmid⟩ :=
        hs.pending other id action found next expected (by simpa [hne] using ho)
      refine ⟨hresolve, hnext, pre, mid ++ added, by simp [hsplit], ?_⟩
      intro e he
      rcases List.mem_append.mp he with he | he
      · exact hmid e he
      · rw [hcall e he]
        exact Ne.symm hne

/-- What was resolved from a commit that fits does fit. -/
theorem Sound.fits_next (hs : Sound m c) {id : String} {action : A} {next : Item S}
    {expected : Option Token} (ha : m.Admits action)
    (h : m.resolve id (c.history.last? id) action = .ok (next, expected)) : next.service.Fits := by
  refine ha id _ next (Machine.resolve_eq_ok h).1 ?_
  intro p hp
  obtain ⟨r, hr, rfl⟩ := Option.map_eq_some_iff.mp hp
  obtain ⟨x, hx, rfl⟩ := History.exists_of_last? hr
  exact hs.fits id x hx

theorem Sound.fetch (hs : Sound m c) {call : Nat} {id : String} {action : A}
    (hidle : c.stage call = .idle) (ha : m.Admits action) :
    Sound m (c.step m (.fetch call id action)) := by
  have hanswer := Shelf.fetch_of_holds hs.holds id
  unfold View.fetch at hanswer
  unfold step
  dsimp only
  rw [hanswer]
  cases hid : isValidId id with
  | false =>
    refine hs.move (by simp [Entry.ofRead]) ?_ ?_ ?_ (m.afterRead_ne_idle id action _) ?_
    · simpa [Entry.ofRead] using hs.history
    · simpa [Entry.ofRead] using hs.holds
    · simp [Entry.ofRead, History.commits]
    · simp [Machine.afterRead]
  | true =>
    have hread : Entry.Accounted m c.history (.read call id (c.history.last? id)) :=
      ⟨hid, rfl, hs.idle call hidle⟩
    rw [if_pos rfl]
    refine hs.move (by simp [Entry.ofRead, Entry.call]) ?_ ?_ ?_ (m.afterRead_ne_idle id action _) ?_
    · exact History.sound_concat.mpr ⟨hs.history, hread⟩
    · rw [Entry.ofRead, History.last?_read]
      exact hs.holds
    · simp [Entry.ofRead, History.commits, Entry.commit?]
    · intro i a found next expected hstage
      obtain ⟨rfl, rfl, hfound, hr⟩ := Machine.afterRead_eq_pending hstage
      obtain rfl := Except.ok.inj hfound
      exact ⟨hr, hs.fits_next ha hr, rfl⟩

theorem Sound.valid_of_pending (hs : Sound m c) {call : Nat} {id : String} {action : A}
    {found : Option (Versioned (Item S))} {next : Item S} {expected : Option Token}
    (hc : c.stage call = .pending id action found next expected) : isValidId id = true := by
  obtain ⟨-, -, pre, mid, hsplit, -⟩ := hs.pending call id action found next expected hc
  exact (hs.history pre (.read call id found) mid hsplit).1

variable [LawfulNamed S]

/-- A save that goes through is the last commit from now on. -/
theorem Sound.save (hs : Sound m c) {call : Nat} {now : Instant} {fresh : Token} {lockFree : Bool}
    (hnow : now.Valid) (hfresh : fresh ∉ c.history.tokens) :
    Sound m (c.step m (.save call now fresh lockFree)) := by
  cases hc : c.stage call with
  | idle => simpa [step, hc] using hs
  | done result => simpa [step, hc] using hs
  | pending id action found next expected =>
    obtain ⟨hresolve, hnext, hread⟩ := hs.pending call id action found next expected hc
    obtain rfl := (Machine.resolve_eq_ok hresolve).2
    have hid := hs.valid_of_pending hc
    obtain ⟨files, shelf, hsave, hholds, -⟩ := Shelf.save_of_holds hs.holds lockFree
      (r := ⟨id, next, fresh, now⟩) (Item.readable hnext) hnow (found.map (·.version))
    have hanswer : Entry.Accounted m c.history (.saved call id action found (c.shelf.isLocked lockFree)
        (c.history.last?.answer (c.shelf.isLocked lockFree) ⟨id, next, fresh, now⟩ found)) :=
      ⟨hread, next, fresh, now, hresolve, hfresh, rfl⟩
    unfold step
    simp only [hc, hsave]
    refine hs.move (by simp [Entry.call]) ?_ ?_ ?_ (by simp) (by simp)
    · exact History.sound_concat.mpr ⟨hs.history, hanswer⟩
    · have hlast := History.last?_saved c.history call action found (c.shelf.isLocked lockFree)
        ⟨id, next, fresh, now⟩
      unfold View.answer at hlast
      rw [hlast]
      exact hholds
    · intro i x hx
      simp only [History.commits, List.mem_filterMap, List.mem_singleton] at hx
      obtain ⟨e, rfl, he⟩ := hx
      obtain ⟨locked, heq⟩ := Entry.eq_saved_of_commit? he
      simp only [Entry.saved.injEq] at heq
      obtain ⟨-, -, -, -, -, hok⟩ := heq
      rw [(View.answer_eq_ok hok).1]
      exact hnext

theorem Sound.step (hs : Sound m c) {e : Event A} (ha : c.Allowed m e) : Sound m (c.step m e) := by
  cases e with
  | fetch call id action => exact hs.fetch ha.1 ha.2
  | save call now fresh lockFree => exact hs.save ha.1 ha.2

theorem Reachable.sound (h : Reachable m c) : Sound m c := by
  induction h with
  | start he => exact sound_start he
  | step _ ha ih => exact ih.step ha

end Sound

end Race

end ServiceCatalog
