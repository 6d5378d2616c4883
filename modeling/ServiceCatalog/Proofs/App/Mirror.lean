import ServiceCatalog.Proofs.App.Queues
import ServiceCatalog.Proofs.Store.Session

/-!
Two runs of the same requests, on stores that answer alike but for the names of their tokens. Each
response is the same but for these names, whatever else the states of the two runs hold.
-/
namespace ServiceCatalog

variable {σ τ S K A D α : Type} {ρ : Token → Token}

@[simp] theorem Versioned.rename_same (r : Versioned D) : r.rename (fun t => t) = r := rfl

@[simp] theorem StoreError.rename_same (e : StoreError) : e.rename (fun t => t) = e := by
  cases e <;> simp [rename]

namespace ApplyError

/-- Only a conflict names tokens. -/
def rename (ρ : Token → Token) : ApplyError → ApplyError
  | .conflict id expected actual => .conflict id (expected.map ρ) (actual.map ρ)
  | e => e

@[simp] theorem rename_same (e : ApplyError) : e.rename (fun t => t) = e := by
  cases e <;> simp [rename]

theorem ofStore_rename (e : StoreError) : ofStore (e.rename ρ) = (ofStore e).rename ρ := by
  cases e <;> rfl

end ApplyError

def Reply.rename (ρ : Token → Token) (f : α → α) : Reply α → Reply α
  | .answer r => .answer (renameAnswer ρ f r)
  | .stalled => .stalled

@[simp] theorem Reply.rename_same (reply : Reply α) :
    reply.rename (fun t => t) (fun a => a) = reply := by
  cases reply with
  | stalled => rfl
  | answer r => cases r <;> simp [rename, renameAnswer]

/-- What an action comes to with other tokens. -/
def renameResult (ρ : Token → Token) (f : α → α) : Except ApplyError α → Except ApplyError α
  | .ok a => .ok (f a)
  | .error e => .error (e.rename ρ)

theorem bounded_rename (operation id : String) (limit : Nat) (f : α → α) (reply : Reply α) :
    bounded operation id limit (reply.rename ρ f) =
      renameResult ρ f (bounded operation id limit reply) := by
  cases reply with
  | stalled => rfl
  | answer r =>
    cases r with
    | ok a => rfl
    | error e => exact congrArg Except.error (ApplyError.ofStore_rename e)

/-- Responses that are the same but for the names of tokens. -/
inductive Response.Renamed (ρ : Token → Token) : Response → Response → Prop
  | same (response : Response) : Renamed ρ response response
  | record {D : Type} [Document D] (r : Versioned D) : Renamed ρ (.ofRecord r) (.ofRecord (r.rename ρ))
  | refusal (e : ApplyError) : Renamed ρ (.ofApplyError e) (.ofApplyError (e.rename ρ))

theorem Response.Renamed.status_eq {r r' : Response} (h : Renamed ρ r r') : r'.status = r.status := by
  cases h with
  | same => rfl
  | record r => rfl
  | refusal e => cases e <;> rfl

theorem Response.Renamed.eq {r r' : Response} (h : Renamed (fun t => t) r r') : r' = r := by
  cases h with
  | same => rfl
  | record r => rw [Versioned.rename_same]
  | refusal e => rw [ApplyError.rename_same]

namespace Machine

variable [DecidableEq S] [DecidableEq K] [Named S] [Named K]

/-- The action leads from items of a kind to items of that kind. -/
def Keeps (m : Machine S K A) (P : Item S → Prop) (action : A) : Prop :=
  ∀ id prev next, m.Follows id prev action next → (∀ p ∈ prev, P p) → P next

omit [DecidableEq S] [DecidableEq K] [Named S] in
theorem keeps_true (m : Machine S K A) (action : A) : m.Keeps (fun _ => True) action :=
  fun _ _ _ _ _ => trivial

theorem row_rename (m : Machine S K A) (id : String) (found : Option (Versioned (Item S))) (kind : K) :
    m.row id (found.map (·.rename ρ)) kind =
      renameResult ρ (fun t => t) (m.row id found kind) := by
  cases found with
  | none =>
    unfold row
    dsimp only [Option.map_none]
    split <;> rfl
  | some r =>
    unfold row
    dsimp only [Option.map_some, Versioned.rename]
    split <;> rfl

/-- The token that was read matters to the save only. -/
theorem resolve_rename (m : Machine S K A) (id : String) (found : Option (Versioned (Item S)))
    (action : A) : m.resolve id (found.map (·.rename ρ)) action =
      renameResult ρ (fun p => (p.1, p.2.map ρ)) (m.resolve id found action) := by
  have hservice : (found.map (·.rename ρ)).map (·.document.service) =
      found.map (·.document.service) := by cases found <;> rfl
  have hversion : (found.map (·.rename ρ)).map (·.version) = (found.map (·.version)).map ρ := by
    cases found <;> rfl
  unfold resolve
  dsimp only
  rw [row_rename, hservice, hversion]
  cases m.row id found (m.kindOf action) with
  | error e => rfl
  | ok t =>
    rw [ok_bind]
    cases ht : t.exec id (found.map (·.document.service)) action with
    | error rejected =>
      simp only [renameResult, ok_bind, ht]
      rfl
    | ok service =>
      simp only [renameResult, ok_bind, ht]
      rfl

end Machine

/-- In related states two stores answer alike for one id, and their states stay related. What is read
from the first of them has the property `P`, and what is saved in it must have it. -/
structure Backend.Mirrors (ρ : Token → Token) (R : σ → τ → Prop) (P : D → Prop) (id : String)
    (b : Backend σ D) (c : Backend τ D) : Prop where
  fetch : ∀ s t, R s t →
    (c.fetch id t).1 = (b.fetch id s).1.rename ρ (·.map (·.rename ρ)) ∧
      R (b.fetch id s).2 (c.fetch id t).2
  found : ∀ s t, R s t → ∀ r, (b.fetch id s).1 = .answer (.ok (some r)) → P r.document
  save : ∀ s t, R s t → ∀ document expected, P document →
    (c.save id document (expected.map ρ) t).1 = (b.save id document expected s).1.rename ρ
        (·.rename ρ) ∧
      R (b.save id document expected s).2 (c.save id document (expected.map ρ) t).2

namespace Backend

variable {R : σ → τ → Prop} {P : D → Prop} {id : String} {b : Backend σ D} {c : Backend τ D}

/-- The same answers, token for token. -/
theorem mirrors_of_same
    (hfetch : ∀ s t, R s t → (c.fetch id t).1 = (b.fetch id s).1 ∧
      R (b.fetch id s).2 (c.fetch id t).2)
    (hsave : ∀ s t, R s t → ∀ document expected,
      (c.save id document expected t).1 = (b.save id document expected s).1 ∧
        R (b.save id document expected s).2 (c.save id document expected t).2) :
    Mirrors (fun t => t) R (fun _ => True) id b c where
  fetch s t h := by
    have hrename : (fun o : Option (Versioned D) => o.map (·.rename fun t => t)) = fun o => o := by
      funext o
      cases o <;> rfl
    rw [hrename, Reply.rename_same]
    exact hfetch s t h
  found _ _ _ _ _ := trivial
  save s t h document expected _ := by
    have hrename : (fun r : Versioned D => r.rename fun t => t) = fun r => r := rfl
    rw [hrename, Reply.rename_same, Option.map_id']
    exact hsave s t h document expected

variable (h : Mirrors ρ R P id b c)
include h

/-- Work on both sides that keeps the states related. -/
theorem Mirrors.interrupted {work : StateM σ Unit} {work' : StateM τ Unit}
    (hwork : ∀ s t, R s t → R (work s).2 (work' t).2) :
    Mirrors ρ R P id (b.interrupted work) (c.interrupted work') where
  fetch := h.fetch
  found := h.found
  save s t hr := h.save _ _ (hwork s t hr)

end Backend

/-- The same faults on both sides. -/
theorem Backend.Mirrors.faulty {R : σ → τ → Prop} {id : String} {b : Backend σ D} {c : Backend τ D}
    (h : Mirrors (fun t => t) R (fun _ => True) id b c) (f : Faults) :
    Mirrors (fun t => t) R (fun _ => True) id (b.faulty (fun _ => f) fun _ s => s)
      (c.faulty (fun _ => f) fun _ t => t) where
  fetch s t hr := by
    unfold Backend.faulty
    dsimp only
    split
    · exact h.fetch s t hr
    · exact h.fetch s t hr
    · exact ⟨by simp [Reply.rename, renameAnswer], hr⟩
    · exact ⟨rfl, hr⟩
  found _ _ _ _ _ := trivial
  save s t hr document expected hd := by
    unfold Backend.faulty
    dsimp only
    split
    · exact h.save s t hr document expected hd
    · exact ⟨by simp [Reply.rename, renameAnswer], hr⟩
    · exact ⟨rfl, hr⟩
    · exact ⟨rfl, (h.save s t hr document expected hd).2⟩

section Apply

variable [DecidableEq S] [DecidableEq K] [Named S] [Named K] {R : σ → τ → Prop} {P : Item S → Prop}
  {id : String} {b : Backend σ (Item S)} {c : Backend τ (Item S)} {s : σ} {t : τ}

omit [DecidableEq S] [Named S] in
theorem Backend.Mirrors.get (h : b.Mirrors ρ R P id c) (hr : R s t) (limits : Timeouts) :
    (Machine.get limits c id t).1 =
        renameResult ρ (·.map (·.rename ρ)) (Machine.get limits b id s).1 ∧
      R (Machine.get limits b id s).2 (Machine.get limits c id t).2 := by
  obtain ⟨hreply, hafter⟩ := h.fetch s t hr
  refine ⟨?_, hafter⟩
  show bounded "fetch" id limits.fetch (c.fetch id t).1 = _
  rw [hreply, bounded_rename]
  rfl

/-- An action on both sides. -/
theorem Backend.Mirrors.apply (h : b.Mirrors ρ R P id c) (hr : R s t) {m : Machine S K A} {action : A}
    (hp : m.Keeps P action) (limits : Timeouts) :
    (m.apply limits c id action t).1 =
        renameResult ρ (·.rename ρ) (m.apply limits b id action s).1 ∧
      R (m.apply limits b id action s).2 (m.apply limits c id action t).2 := by
  obtain ⟨hreply, hafter⟩ := h.fetch s t hr
  rw [Race.apply_eq, Race.apply_eq, hreply, bounded_rename]
  cases hread : bounded "fetch" id limits.fetch (b.fetch id s).1 with
  | error e => exact ⟨rfl, hafter⟩
  | ok found =>
    simp only [renameResult, Machine.resolve_rename]
    cases hresolve : m.resolve id found action with
    | error e => exact ⟨rfl, hafter⟩
    | ok p =>
      obtain ⟨next, expected⟩ := p
      have hnext : P next := by
        refine hp id _ next (Machine.resolve_eq_ok hresolve).1 fun p hp => ?_
        obtain ⟨r, rfl, rfl⟩ := Option.map_eq_some_iff.mp hp
        exact h.found s t hr r (Machine.bounded_eq_ok.mp hread)
      obtain ⟨hanswer, hsaved⟩ := h.save _ _ hafter next expected hnext
      refine ⟨?_, hsaved⟩
      dsimp only
      rw [hanswer, bounded_rename]
      rfl

end Apply

/-- What two runs come to: responses that are the same but for the names of tokens, and related
states. -/
def Matched (ρ : Token → Token) (R : σ → τ → Prop) (x : Response × σ) (y : Response × τ) : Prop :=
  Response.Renamed ρ x.1 y.1 ∧ R x.2 y.2

namespace Controller

def store (v : Controller σ) : (m : MachineName) → Backend σ (Item m.State)
  | .lifecycle => v.lifecycle
  | .publication => v.publication

/-- Two controllers whose stores answer alike for the ids in `I` and whose topics are the same. -/
structure Mirrors (ρ : Token → Token) (R : σ → τ → Prop) (P : (m : MachineName) → Item m.State → Prop)
    (I : MachineName → String → Prop) (v : Controller σ) (u : Controller τ) : Prop where
  store : ∀ m id, I m id → (v.store m).Mirrors ρ R (P m) id (u.store m)
  topics : ∀ s t, R s t →
    (u.topics t).1 = (v.topics s).1 ∧ R (v.topics s).2 (u.topics t).2
  limits : u.limits = v.limits
  lifecycle : ∀ a, Lifecycle.machine.Admits a → Lifecycle.machine.Keeps (P .lifecycle) a
  publication : ∀ a, Publication.machine.Admits a → Publication.machine.Keeps (P .publication) a

variable {R : σ → τ → Prop} {P : (m : MachineName) → Item m.State → Prop}
  {I : MachineName → String → Prop} {v : Controller σ} {u : Controller τ} {s : σ} {t : τ}
  {m : MachineName} {id : String}

section Store

variable {b : Backend σ (Item S)} {c : Backend τ (Item S)} {Q : Item S → Prop}
  [DecidableEq S] [DecidableEq K] [Named S] [Named K]

theorem matched_applyTo (hlimits : u.limits = v.limits) (h : b.Mirrors ρ R Q id c) (hr : R s t)
    {machine : Machine S K A} {a : A} (hq : machine.Keeps Q a) :
    Matched ρ R (v.applyTo machine b id a s) (u.applyTo machine c id a t) := by
  obtain ⟨hresult, hafter⟩ := h.apply hr hq v.limits
  unfold applyTo
  rw [state_bind, state_bind, hlimits, hresult]
  rcases hs : machine.apply v.limits b id a s with ⟨e | r, s'⟩ <;> rw [hs] at hafter
  · exact ⟨.refusal e, hafter⟩
  · refine ⟨?_, hafter⟩
    simp only [renameResult]
    split
    · exact .record r
    · exact .same _

omit [DecidableEq S] in
theorem matched_showFrom (hlimits : u.limits = v.limits) (h : b.Mirrors ρ R Q id c) (hr : R s t)
    (machine : String) : Matched ρ R (v.showFrom machine b id s) (u.showFrom machine c id t) := by
  obtain ⟨hresult, hafter⟩ := h.get hr v.limits
  unfold showFrom
  rw [state_bind, state_bind, hlimits, hresult]
  rcases hs : Machine.get v.limits b id s with ⟨e | found, s'⟩ <;> rw [hs] at hafter
  · exact ⟨.refusal e, hafter⟩
  · cases found with
    | none => exact ⟨.same _, hafter⟩
    | some r => exact ⟨.record r, hafter⟩

end Store

variable (h : Mirrors ρ R P I v u)
include h

theorem Mirrors.checkTopic (hr : R s t) (a : Lifecycle.Action) :
    (u.checkTopic a t).1 = (v.checkTopic a s).1 ∧
      R (v.checkTopic a s).2 (u.checkTopic a t).2 := by
  unfold Controller.checkTopic
  cases topicOf a with
  | none => exact ⟨rfl, hr⟩
  | some topic =>
    obtain ⟨hloaded, hafter⟩ := h.topics s t hr
    dsimp only
    rw [state_bind, state_bind, hloaded]
    exact ⟨rfl, hafter⟩

theorem Mirrors.dispatch (hi : I m id) (hr : R s t) (action : String) (payload : Json) :
    Matched ρ R (v.dispatch m action id payload s) (u.dispatch m action id payload t) := by
  unfold Controller.dispatch
  cases m with
  | lifecycle =>
    cases hp : Lifecycle.machine.parse action payload with
    | error e => exact ⟨.same _, hr⟩
    | ok a =>
      obtain ⟨hrefusal, hafter⟩ := h.checkTopic hr a
      dsimp only
      rw [state_bind, state_bind, hrefusal]
      cases (v.checkTopic a s).1 with
      | some refusal => exact ⟨.same _, hafter⟩
      | none =>
        exact matched_applyTo h.limits (h.store .lifecycle id hi) hafter
          (h.lifecycle a (Lifecycle.admits_of_parse hp))
  | publication =>
    cases hp : Publication.machine.parse action payload with
    | error e => exact ⟨.same _, hr⟩
    | ok a =>
      exact matched_applyTo h.limits (h.store .publication id hi) hr
        (h.publication a (Publication.admits_of_parse hp))

theorem Mirrors.lookUp (hi : I m id) (hr : R s t) :
    Matched ρ R (v.lookUp m id s) (u.lookUp m id t) := by
  cases m with
  | lifecycle => exact matched_showFrom h.limits (h.store .lifecycle id hi) hr _
  | publication => exact matched_showFrom h.limits (h.store .publication id hi) hr _

theorem Mirrors.listTopics (hr : R s t) : Matched ρ R (v.listTopics s) (u.listTopics t) := by
  obtain ⟨hloaded, hafter⟩ := h.topics s t hr
  unfold Controller.listTopics
  rw [state_bind, state_bind, hloaded]
  cases (v.topics s).1 <;> exact ⟨.same _, hafter⟩

end Controller

/-- The request is about no service, or about one in `I`. -/
def Ask.Within (I : MachineName → String → Prop) : Ask → Prop
  | .act m _ id _ => I m id
  | .lookUp m id => I m id
  | .listTopics => True

/-- Any request on both sides. -/
theorem Controller.Mirrors.send {R : σ → τ → Prop} {P : (m : MachineName) → Item m.State → Prop}
    {I : MachineName → String → Prop} {v : Controller σ} {u : Controller τ} {s : σ} {t : τ}
    (h : v.Mirrors ρ R P I u) {q : Ask} (hq : q.Within I) (hr : R s t) :
    Matched ρ R (q.send v s) (q.send u t) := by
  cases q with
  | act m action id payload => exact h.dispatch hq hr action payload
  | lookUp m id => exact h.lookUp hq hr
  | listTopics => exact h.listTopics hr

end ServiceCatalog
