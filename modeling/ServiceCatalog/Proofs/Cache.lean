import ServiceCatalog.Cache
import ServiceCatalog.Proofs.Except

/-!
A cache over time. What a look-up answers, and whether it loads, is read off the loads and the
invalidations before it, whatever the clock shows and whatever the source answers.
-/
namespace ServiceCatalog.Cache

variable {V : Type}

inductive Event (V : Type) where
  | loaded (askedAt : Instant) (outcome : Except LoadError V)
  | invalidated

/-- A load that succeeded; its number is how many events came before it. -/
structure Load (V : Type) where
  value : V
  askedAt : Instant
  number : Nat

/-- The last load that succeeded, unless an invalidation came after it. The newest event is first. -/
def standing? : List (Event V) → Option (Load V)
  | [] => none
  | .loaded askedAt (.ok value) :: past => some ⟨value, askedAt, past.length⟩
  | .loaded _ (.error _) :: past => standing? past
  | .invalidated :: _ => none

theorem number_lt_of_standing? {past : List (Event V)} {load : Load V}
    (h : standing? past = some load) : load.number < past.length := by
  fun_induction standing? past with
  | case1 => cases h
  | case2 askedAt value past =>
    cases h
    exact Nat.lt_succ_self _
  | case3 askedAt e past ih => exact Nat.lt_succ_of_lt (ih h)
  | case4 => cases h

/-- Later on the same load stands, or one that was made after it. -/
theorem standing?_append {news past : List (Event V)} {load load' : Load V}
    (h : standing? past = some load) (h' : standing? (news ++ past) = some load') :
    load' = load ∨ load.number < load'.number := by
  have hnumber := number_lt_of_standing? h
  induction news with
  | nil =>
    left
    simpa [h] using h'.symm
  | cons event news ih =>
    match event with
    | .loaded askedAt (.ok value) =>
      right
      cases h'
      show load.number < (news ++ past).length
      rw [List.length_append]
      omega
    | .loaded askedAt (.error e) => exact ih h'
    | .invalidated => cases h'

def Event.Failure : Event V → Prop
  | .loaded _ (.error _) => True
  | .loaded _ (.ok _) | .invalidated => False

theorem standing?_append_of_failures {news past : List (Event V)}
    (h : ∀ event ∈ news, event.Failure) : standing? (news ++ past) = standing? past := by
  induction news with
  | nil => rfl
  | cons event news ih =>
    have hevent := h event (List.mem_cons_self ..)
    have hrest := ih fun e he => h e (List.mem_cons_of_mem _ he)
    match event with
    | .loaded askedAt (.error e) => exact hrest
    | .loaded askedAt (.ok value) | .invalidated => exact hevent.elim

/-- A source that may answer anything in view of what happened; the load becomes part of that. -/
def source (answer : List (Event V) → Except LoadError V) (now : Instant) :
    StateM (List (Event V)) (Except LoadError V) :=
  fun past => (answer past, .loaded now (answer past) :: past)

inductive Call where
  | get
  | invalidate
  | setClock (now : Instant)

/-- A cache in use, the clock it reads and all that happened, newest first. -/
structure Run (V : Type) where
  cache : Cache V
  now : Instant
  past : List (Event V) := []

namespace Run

variable {answer : List (Event V) → Except LoadError V} {ttl : Span} {r r' : Run V}
  {outcome : Except LoadError V}

def get (answer : List (Event V) → Except LoadError V) (r : Run V) : Except LoadError V × Run V :=
  let ((outcome, cache), past) := r.cache.get r.now (source answer r.now) r.past
  (outcome, { r with cache, past })

def step (answer : List (Event V) → Except LoadError V) (r : Run V) : Call → Run V
  | .get => (r.get answer).2
  | .invalidate => { r with cache := r.cache.invalidate, past := .invalidated :: r.past }
  | .setClock now => { r with now }

def after (answer : List (Event V) → Except LoadError V) : List Call → Run V → Run V
  | [], r => r
  | call :: calls, r => after answer calls (r.step answer call)

/-- The slot holds the load that stands. -/
structure Faithful (ttl : Span) (r : Run V) : Prop where
  ttl : r.cache.ttl = ttl
  slot : r.cache.slot = (standing? r.past).map fun load => (load.value, load.askedAt)

theorem faithful_new (ttl : Span) (now : Instant) :
    Faithful ttl (⟨{ ttl }, now, []⟩ : Run V) := ⟨rfl, rfl⟩

/-- A load stands that is younger than its time to live. -/
def Young (ttl : Span) (r : Run V) : Prop :=
  ∃ load, standing? r.past = some load ∧ r.now.since load.askedAt < ttl

/-- How a look-up can go. -/
inductive Looks (answer : List (Event V) → Except LoadError V) (ttl : Span) (r : Run V) :
    Except LoadError V → Run V → Prop
  | kept (load : Load V) (hload : standing? r.past = some load)
      (hage : r.now.since load.askedAt < ttl) : Looks answer ttl r (.ok load.value) r
  | loaded (hold : ¬ r.Young ttl) (v : V) (hv : answer r.past = .ok v) :
      Looks answer ttl r (.ok v) { r with
        cache := { r.cache with slot := some (v, r.now) }, past := .loaded r.now (.ok v) :: r.past }
  | stale (hold : ¬ r.Young ttl) (e : LoadError) (he : answer r.past = .error e) (load : Load V)
      (hload : standing? r.past = some load) :
      Looks answer ttl r (.ok load.value) { r with past := .loaded r.now (.error e) :: r.past }
  | failed (hold : ¬ r.Young ttl) (e : LoadError) (he : answer r.past = .error e)
      (hload : standing? r.past = none) :
      Looks answer ttl r (.error e) { r with past := .loaded r.now (.error e) :: r.past }

theorem Faithful.fresh?_eq_none (h : r.Faithful ttl) (hold : ¬ r.Young ttl) :
    r.cache.fresh? r.now = none := by
  unfold fresh?
  rw [h.slot, h.ttl]
  cases hload : standing? r.past with
  | none => rfl
  | some load => exact if_neg fun hage => hold ⟨load, hload, hage⟩

theorem Faithful.looks (h : r.Faithful ttl) :
    Looks answer ttl r (r.get answer).1 (r.get answer).2 := by
  by_cases hyoung : r.Young ttl
  · obtain ⟨load, hload, hage⟩ := hyoung
    have hfresh : r.cache.fresh? r.now = some load.value := by
      simp [fresh?, h.slot, h.ttl, hload, hage]
    have hget : r.get answer = (.ok load.value, r) := by
      simp [get, Cache.get, hfresh, state_pure]
    rw [hget]
    exact .kept load hload hage
  · have hget : r.get answer = ((r.cache.settle r.now (answer r.past)).1, { r with
        cache := (r.cache.settle r.now (answer r.past)).2
        past := .loaded r.now (answer r.past) :: r.past }) := by
      simp [get, Cache.get, h.fresh?_eq_none hyoung, state_bind, state_pure, source]
    rw [hget]
    cases hanswer : answer r.past with
    | ok v => exact .loaded hyoung v hanswer
    | error e =>
      cases hload : standing? r.past with
      | none =>
        simp only [settle, h.slot, hload, Option.map_none]
        exact .failed hyoung e hanswer hload
      | some load =>
        simp only [settle, h.slot, hload, Option.map_some]
        exact .stale hyoung e hanswer load hload

theorem Looks.faithful (hl : Looks answer ttl r outcome r') (h : r.Faithful ttl) :
    r'.Faithful ttl := by
  cases hl with
  | kept => exact h
  | loaded => exact ⟨h.ttl, rfl⟩
  | stale => exact ⟨h.ttl, h.slot⟩
  | failed => exact ⟨h.ttl, h.slot⟩

theorem Faithful.step (h : r.Faithful ttl) (call : Call) : (r.step answer call).Faithful ttl := by
  cases call with
  | get => exact h.looks.faithful h
  | invalidate => exact ⟨h.ttl, rfl⟩
  | setClock now => exact ⟨h.ttl, h.slot⟩

theorem Faithful.after (h : r.Faithful ttl) (calls : List Call) :
    (r.after answer calls).Faithful ttl := by
  induction calls generalizing r with
  | nil => exact h
  | cons call calls ih => exact ih (h.step call)

theorem Looks.past (hl : Looks answer ttl r outcome r') : ∃ news, r'.past = news ++ r.past := by
  cases hl with
  | kept => exact ⟨[], rfl⟩
  | loaded _ v => exact ⟨[.loaded r.now (.ok v)], rfl⟩
  | stale _ e | failed _ e => exact ⟨[.loaded r.now (.error e)], rfl⟩

theorem Faithful.past_step (h : r.Faithful ttl) (call : Call) :
    ∃ news, (r.step answer call).past = news ++ r.past := by
  cases call with
  | get => exact h.looks.past
  | invalidate => exact ⟨[.invalidated], rfl⟩
  | setClock now => exact ⟨[], rfl⟩

theorem Faithful.past_after (h : r.Faithful ttl) (calls : List Call) :
    ∃ news, (r.after answer calls).past = news ++ r.past := by
  induction calls generalizing r with
  | nil => exact ⟨[], rfl⟩
  | cons call calls ih =>
    obtain ⟨first, hfirst⟩ : ∃ news, (r.step answer call).past = news ++ r.past := h.past_step call
    obtain ⟨rest, hrest⟩ := ih (h.step call)
    exact ⟨rest ++ first, by rw [Run.after, hrest, hfirst, List.append_assoc]⟩

/-- What a look-up owes to what happened before it. -/
structure Owed (answer : List (Event V) → Except LoadError V) (ttl : Span) (r : Run V)
    (outcome : Except LoadError V) (r' : Run V) : Prop where
  value : ∀ v, outcome = .ok v → ∃ load, standing? r'.past = some load ∧ load.value = v
  error : ∀ e, outcome = .error e ↔
    r'.past = .loaded r.now (.error e) :: r.past ∧ standing? r.past = none
  spared : r.Young ttl → r'.past = r.past
  loads : ¬ r.Young ttl → r'.past = .loaded r.now (answer r.past) :: r.past

theorem Looks.owed (hl : Looks answer ttl r outcome r') : Owed answer ttl r outcome r' := by
  cases hl with
  | kept load hload hage =>
    exact ⟨fun v hv => ⟨load, hload, by simpa using hv⟩, by simp [hload], fun _ => rfl,
      fun hold => absurd ⟨load, hload, hage⟩ hold⟩
  | loaded hold v hv =>
    refine ⟨fun w hw => ⟨_, rfl, by simpa using hw⟩, by simp, fun h => absurd h hold, fun _ => ?_⟩
    rw [hv]
  | stale hold e he load hload =>
    refine ⟨fun v hv => ⟨load, hload, by simpa using hv⟩, by simp [hload], fun h => absurd h hold,
      fun _ => ?_⟩
    rw [he]
  | failed hold e he hload =>
    refine ⟨by simp, by simp [hload], fun h => absurd h hold, fun _ => ?_⟩
    rw [he]

theorem Looks.eq_stale (hl : Looks answer ttl r outcome r') (hold : ¬ r.Young ttl) {e : LoadError}
    (he : answer r.past = .error e) {load : Load V} (hload : standing? r.past = some load) :
    outcome = .ok load.value := by
  cases hl with
  | kept other hother hage => exact absurd ⟨other, hother, hage⟩ hold
  | loaded _ v hv => cases hv.symm.trans he
  | stale _ _ _ other hother =>
    cases hload.symm.trans hother
    rfl
  | failed _ _ _ hnone => cases hload.symm.trans hnone

/-- Of any two look-ups of a run, each answers from the loads that are not undone, and the second never
goes back to a load before the first one's. A load that failed for the first one gives the kept value
no longer life: past its time, with only failures meanwhile, the second one loads again. -/
theorem get_reads_past (answer : List (Event V) → Except LoadError V) (ttl : Span) (start : Instant)
    (before between : List Call) :
    let r := Run.after answer before ⟨{ ttl }, start, []⟩
    let first := r.get answer
    let s := first.2.after answer between
    let second := s.get answer
    Owed answer ttl r first.1 first.2 ∧ Owed answer ttl s second.1 second.2 ∧
    (∀ v w, first.1 = .ok v → second.1 = .ok w →
      ∃ load load', standing? first.2.past = some load ∧ load.value = v ∧
        standing? second.2.past = some load' ∧ load'.value = w ∧
        (load' = load ∨ load.number < load'.number)) ∧
    (∀ e load news, first.2.past = .loaded r.now (.error e) :: r.past →
      standing? r.past = some load → s.past = news ++ first.2.past → (∀ event ∈ news, event.Failure) →
      ¬ s.now.since load.askedAt < ttl →
        second.2.past = .loaded s.now (answer s.past) :: s.past ∧
        ∀ e', answer s.past = .error e' → second.1 = .ok load.value) := by
  intro r first s second
  have hr : r.Faithful ttl := (faithful_new ttl start).after before
  have hfirst : first.2.Faithful ttl := hr.step .get
  have hs : s.Faithful ttl := hfirst.after between
  have howed : Owed answer ttl r first.1 first.2 := hr.looks.owed
  have howed' : Owed answer ttl s second.1 second.2 := hs.looks.owed
  refine ⟨howed, howed', ?_, ?_⟩
  · intro v w hv hw
    obtain ⟨load, hload, hvalue⟩ := howed.value v hv
    obtain ⟨load', hload', hvalue'⟩ := howed'.value w hw
    obtain ⟨late, hlate⟩ : ∃ news, second.2.past = news ++ s.past := hs.looks.past
    obtain ⟨mid, hmid⟩ : ∃ news, s.past = news ++ first.2.past := hfirst.past_after between
    have hpast : second.2.past = (late ++ mid) ++ first.2.past := by
      rw [hlate, hmid, List.append_assoc]
    exact ⟨load, load', hload, hvalue, hload', hvalue', standing?_append hload (hpast ▸ hload')⟩
  · intro e load news hfailed hload hnews hfailures hage
    have hstands : standing? s.past = some load := by
      rw [hnews, standing?_append_of_failures hfailures, hfailed]
      exact hload
    have hold : ¬ s.Young ttl := by
      rintro ⟨other, hother, hyoung⟩
      cases hstands.symm.trans hother
      exact hage hyoung
    exact ⟨howed'.loads hold, fun e' he' => hs.looks.eq_stale hold he' hstands⟩

/-- Two reloads fail; the value of the first load is answered, and loads go on. -/
example :
    let answer := fun past : List (Event Nat) =>
      if past.length = 0 then .ok 7 else .error ⟨"source down"⟩
    let r := Run.after answer [.get, .setClock ⟨60, 0⟩, .get, .setClock ⟨61, 0⟩]
      ⟨{ ttl := .ofSeconds 60 }, ⟨0, 0⟩, []⟩
    (r.get answer).1 = .ok 7 ∧ (r.get answer).2.past.length = 3 := ⟨rfl, rfl⟩

end Run
end ServiceCatalog.Cache
