import Mathlib.Data.List.Induction
import ServiceCatalog.Proofs.Store.View
import ServiceCatalog.Proofs.Workflow.Table

/-!
Histories of the reads and saves of concurrent calls on one store. A history is sound when every
entry is accounted for by those before it.
-/
namespace ServiceCatalog

/-- What a call did to the store. -/
inductive Entry (S A : Type) where
  | read (call : Nat) (id : String) (found : Option (Versioned (Item S)))
  | saved (call : Nat) (id : String) (action : A) (found : Option (Versioned (Item S)))
    (locked : Bool) (result : Except ApplyError (Versioned (Item S)))

structure Commit (S A : Type) where
  call : Nat
  action : A
  /-- What the call had read. -/
  found : Option (Versioned (Item S))
  record : Versioned (Item S)

/-- Oldest entries first. -/
abbrev History (S A : Type) := List (Entry S A)

variable {S K A : Type}

namespace Entry

def call : Entry S A → Nat
  | .read call _ _ => call
  | .saved call _ _ _ _ _ => call

def commit? (id : String) : Entry S A → Option (Commit S A)
  | .saved call i action found _ (.ok r) => if i = id then some ⟨call, action, found, r⟩ else none
  | _ => none

def token? : Entry S A → Option Token
  | .saved _ _ _ _ _ (.ok r) => some r.version
  | _ => none

theorem eq_saved_of_commit? {id : String} {e : Entry S A} {c : Commit S A}
    (h : e.commit? id = some c) :
    ∃ locked, e = .saved c.call id c.action c.found locked (.ok c.record) := by
  unfold commit? at h
  split at h
  · split at h
    · next hi =>
      subst hi
      obtain rfl := Option.some.inj h
      exact ⟨_, rfl⟩
    · cases h
  · cases h

end Entry

namespace History

def commits (id : String) (h : History S A) : List (Commit S A) := h.filterMap (Entry.commit? id)

/-- The record of the last commit on each id. -/
def last? (h : History S A) : View (Item S) := fun id => ((commits id h).getLast?).map (·.record)

def tokens (h : History S A) : List Token := h.filterMap Entry.token?

theorem commits_append (id : String) (g h : History S A) :
    commits id (g ++ h) = commits id g ++ commits id h :=
  List.filterMap_append

theorem commits_read (id : String) (call : Nat) (i : String) (found : Option (Versioned (Item S)))
    (h : History S A) : commits id (.read call i found :: h) = commits id h :=
  rfl

theorem tokens_append (g h : History S A) : tokens (g ++ h) = tokens g ++ tokens h :=
  List.filterMap_append

theorem last?_append (g h : History S A) (id : String) :
    last? (g ++ h) id = (last? h id).or (last? g id) := by
  unfold last?
  rw [commits_append, List.getLast?_append]
  cases (commits id h).getLast? <;> rfl

theorem last?_eq_none_iff {h : History S A} {id : String} :
    last? h id = none ↔ commits id h = [] := by
  rw [last?, Option.map_eq_none_iff, List.getLast?_eq_none_iff]

theorem exists_of_last? {h : History S A} {id : String} {r : Versioned (Item S)}
    (hr : last? h id = some r) : ∃ c ∈ commits id h, c.record = r := by
  obtain ⟨c, hc, rfl⟩ := Option.map_eq_some_iff.mp hr
  exact ⟨c, List.mem_of_getLast? hc, rfl⟩

theorem version_mem_tokens {h : History S A} {id : String} {c : Commit S A}
    (hc : c ∈ commits id h) : c.record.version ∈ tokens h := by
  obtain ⟨e, he, hec⟩ := List.mem_filterMap.mp hc
  obtain ⟨locked, rfl⟩ := Entry.eq_saved_of_commit? hec
  exact List.mem_filterMap.mpr ⟨_, he, rfl⟩

end History

/-- The answer that a save of `r` gets from a store in which `found` was read before. -/
def View.answer (v : View (Item S)) (locked : Bool) (r : Versioned (Item S))
    (found : Option (Versioned (Item S))) : Except ApplyError (Versioned (Item S)) :=
  (v.save locked r (found.map (·.version))).1.mapError .ofStore

namespace View

variable {v : View (Item S)} {locked : Bool} {r q : Versioned (Item S)}
  {found : Option (Versioned (Item S))}

theorem answer_of_eq (h : isValidId r.id = true) (he : v.version? r.id = found.map (·.version)) :
    v.answer false r found = .ok r := by
  rw [answer, save_of_eq h he]
  rfl

theorem answer_of_ne (h : isValidId r.id = true) (he : v.version? r.id ≠ found.map (·.version)) :
    v.answer false r found =
      .error (.conflict r.id (found.map (·.version)) (v.version? r.id)) := by
  rw [answer, save_of_ne h he]
  rfl

theorem answer_eq_ok (h : v.answer locked r found = .ok q) :
    q = r ∧ locked = false ∧ v.version? r.id = found.map (·.version) := by
  unfold answer at h
  cases hid : isValidId r.id with
  | false =>
    rw [save_of_invalid hid] at h
    cases h
  | true =>
    cases locked with
    | true =>
      rw [save_of_locked hid] at h
      cases h
    | false =>
      by_cases he : v.version? r.id = found.map (·.version)
      · rw [save_of_eq hid he] at h
        cases h
        exact ⟨rfl, rfl, he⟩
      · rw [save_of_ne hid he] at h
        cases h

end View

namespace History

theorem last?_read (h : History S A) (call : Nat) (id : String)
    (found : Option (Versioned (Item S))) : last? (h ++ [.read call id found]) = last? h := by
  funext i
  rw [last?_append]
  rfl

theorem last?_failed (h : History S A) (call : Nat) (id : String) (action : A)
    (found : Option (Versioned (Item S))) (locked : Bool) (e : ApplyError) :
    last? (h ++ [.saved call id action found locked (.error e)]) = last? h := by
  funext i
  rw [last?_append]
  rfl

theorem last?_committed (h : History S A) (call : Nat) (action : A)
    (found : Option (Versioned (Item S))) (locked : Bool) (r : Versioned (Item S)) :
    last? (h ++ [.saved call r.id action found locked (.ok r)]) =
      Function.update (last? h) r.id (some r) := by
  funext i
  rw [last?_append]
  by_cases hi : i = r.id
  · subst hi
    simp [last?, commits, Entry.commit?]
  · simp [last?, commits, Entry.commit?, hi, Ne.symm hi]

/-- The store after a save holds the last commits of the history after it. -/
theorem last?_saved (h : History S A) (call : Nat) (action : A)
    (found : Option (Versioned (Item S))) (locked : Bool) (r : Versioned (Item S)) :
    last? (h ++ [.saved call r.id action found locked ((last? h).answer locked r found)]) =
      ((last? h).save locked r (found.map (·.version))).2 := by
  unfold View.answer
  cases hid : isValidId r.id with
  | false =>
    rw [View.save_of_invalid hid]
    exact last?_failed ..
  | true =>
    cases locked with
    | true =>
      rw [View.save_of_locked hid]
      exact last?_failed ..
    | false =>
      by_cases he : (last? h).version? r.id = found.map (·.version)
      · rw [View.save_of_eq hid he]
        exact last?_committed ..
      · rw [View.save_of_ne hid he]
        exact last?_failed ..

end History

namespace Machine

/-- The item comes from the one before it by the action and a row of the table. -/
def Follows [Named K] (m : Machine S K A) (id : String) (prev : Option (Item S)) (action : A)
    (item : Item S) : Prop :=
  ∃ row ∈ m.table.rows, row.source = prev.map (·.state) ∧ row.kind = m.kindOf action ∧
    row.exec id (prev.map (·.service)) action = .ok item.service ∧ item.state = row.target ∧
    item.lastTransition = some (name row.kind)

theorem exists_of_source {prev : Option (Item S)} {s : S} (h : some s = prev.map (·.state)) :
    ∃ p, prev = some p ∧ p.state = s := by
  obtain ⟨p, hp, he⟩ := Option.map_eq_some_iff.mp h.symm
  exact ⟨p, hp, he⟩

variable [DecidableEq S] [DecidableEq K] [Named S] [Named K]

theorem row_eq_ok {m : Machine S K A} {id : String} {current : Option (Versioned (Item S))}
    {kind : K} {row : Transition S K A Service} (h : m.row id current kind = .ok row) :
    row ∈ m.table.rows ∧ row.source = current.map (·.document.state) ∧ row.kind = kind := by
  unfold Machine.row at h
  cases current with
  | none =>
    dsimp only at h
    split at h
    · next t ht =>
      cases h
      exact Table.lookup_eq_some ht
    · cases h
  | some r =>
    dsimp only at h
    split at h
    · next t ht =>
      cases h
      exact Table.lookup_eq_some ht
    · cases h

/-- What was resolved follows what was read, and expects its token. -/
theorem resolve_eq_ok {m : Machine S K A} {id : String} {current : Option (Versioned (Item S))}
    {action : A} {next : Item S} {expected : Option Token}
    (h : m.resolve id current action = .ok (next, expected)) :
    m.Follows id (current.map (·.document)) action next ∧
      expected = current.map (·.version) := by
  unfold resolve at h
  dsimp only at h
  cases hrow : m.row id current (m.kindOf action) with
  | error e =>
    rw [hrow] at h
    cases h
  | ok row =>
    obtain ⟨hmem, hsource, hkind⟩ := row_eq_ok hrow
    rw [hrow, ok_bind] at h
    split at h
    · cases h
    · next service hexec =>
      cases h
      refine ⟨⟨row, hmem, ?_, hkind, ?_, rfl, by rw [hkind]⟩, rfl⟩
      · rw [hsource, Option.map_map]
        rfl
      · rw [Option.map_map]
        exact hexec

end Machine

section Chain

variable [Named K] {m : Machine S K A} {id : String}

/-- Each commit was computed from the record of the one before it. -/
def IsChain (m : Machine S K A) (id : String) :
    Option (Versioned (Item S)) → List (Commit S A) → Prop
  | _, [] => True
  | prev, c :: rest =>
    c.found = prev ∧ c.record.id = id ∧
      m.Follows id (prev.map (·.document)) c.action c.record.document ∧
      IsChain m id (some c.record) rest

theorem isChain_append {prev : Option (Versioned (Item S))} {cs ds : List (Commit S A)} :
    IsChain m id prev (cs ++ ds) ↔ IsChain m id prev cs ∧
      IsChain m id (((cs.getLast?).map (·.record)).or prev) ds := by
  induction cs generalizing prev with
  | nil => simp [IsChain]
  | cons c cs ih =>
    rw [List.cons_append, IsChain, IsChain, ih, List.getLast?_cons]
    cases cs.getLast? <;> simp [and_assoc]

/-- What every action keeps is true of every commit. -/
theorem IsChain.forall_mem {P : Item S → Prop}
    (hstep : ∀ prev action item, m.Follows id prev action item → (∀ p ∈ prev, P p) → P item)
    {prev : Option (Versioned (Item S))} {cs : List (Commit S A)} (h : IsChain m id prev cs)
    (hprev : ∀ r ∈ prev, P r.document) : ∀ c ∈ cs, c.record.id = id ∧ P c.record.document := by
  induction cs generalizing prev with
  | nil => simp
  | cons c cs ih =>
    obtain ⟨-, hid, hfollows, hrest⟩ := h
    have hc : P c.record.document := by
      refine hstep _ _ _ hfollows ?_
      intro p hp
      obtain ⟨r, hr, rfl⟩ := Option.map_eq_some_iff.mp hp
      exact hprev r hr
    rw [List.forall_mem_cons]
    refine ⟨⟨hid, hc⟩, ih hrest ?_⟩
    intro r hr
    obtain rfl := Option.some.inj hr
    exact hc

/-- What every action makes of the actions before it is true of the last commit. -/
theorem IsChain.last {P : List A → Item S → Prop}
    (hstep : ∀ actions prev action item, m.Follows id prev action item →
      (prev = none → actions = []) → (∀ p ∈ prev, P actions p) → P (actions ++ [action]) item)
    {cs : List (Commit S A)} (h : IsChain m id none cs) :
    ∀ c ∈ cs.getLast?, c.record.id = id ∧ P (cs.map (·.action)) c.record.document := by
  induction cs using List.reverseRecOn with
  | nil => simp
  | append_singleton cs c ih =>
    rw [isChain_append, Option.or_none] at h
    obtain ⟨hchain, -, hid, hfollows, -⟩ := h
    intro d hd
    obtain rfl : c = d := by simpa using hd
    rw [List.map_append]
    refine ⟨hid, hstep _ _ _ _ hfollows ?_ ?_⟩
    · intro hnone
      simpa using hnone
    · intro p hp
      obtain ⟨r, hr, rfl⟩ := Option.map_eq_some_iff.mp hp
      obtain ⟨q, hq, rfl⟩ := Option.map_eq_some_iff.mp hr
      exact (ih hchain q hq).2

end Chain

section Sound

variable [DecidableEq S] [DecidableEq K] [Named S] [Named K]

/-- A read finds the last commit. A save is the second step of its call and answers as a store does
that holds the last commit of each id; its token is new. -/
def Entry.Accounted (m : Machine S K A) (before : History S A) : Entry S A → Prop
  | .read call id found =>
    isValidId id = true ∧ found = before.last? id ∧ ∀ e ∈ before, e.call ≠ call
  | .saved call id action found locked result =>
    (∃ pre mid, before = pre ++ .read call id found :: mid ∧ ∀ e ∈ mid, e.call ≠ call) ∧
      ∃ next fresh now, m.resolve id found action = .ok (next, found.map (·.version)) ∧
        fresh ∉ before.tokens ∧
        result = before.last?.answer locked ⟨id, next, fresh, now⟩ found

namespace History

variable {m : Machine S K A} {g h : History S A} {e : Entry S A}

def Sound (m : Machine S K A) (h : History S A) : Prop :=
  ∀ before e after, h = before ++ e :: after → e.Accounted m before

theorem sound_nil (m : Machine S K A) : Sound m ([] : History S A) := by
  intro before e after hsplit
  simp at hsplit

theorem sound_of_append (hs : Sound m (g ++ h)) : Sound m g := by
  intro before e after hsplit
  refine hs before e (after ++ h) ?_
  rw [hsplit, List.append_assoc, List.cons_append]

theorem sound_concat : Sound m (h ++ [e]) ↔ Sound m h ∧ e.Accounted m h := by
  constructor
  · intro hs
    exact ⟨sound_of_append hs, hs h e [] rfl⟩
  · rintro ⟨hs, he⟩ before x after hsplit
    rcases List.eq_nil_or_concat after with rfl | ⟨rest, last, rfl⟩
    · obtain ⟨rfl, hx⟩ := List.append_inj' hsplit rfl
      obtain rfl := List.singleton_inj.mp hx
      exact he
    · rw [List.concat_eq_append, ← List.cons_append, ← List.append_assoc] at hsplit
      obtain ⟨rfl, -⟩ := List.append_inj' hsplit rfl
      exact hs before x rest rfl

end History

end Sound

end ServiceCatalog
