import ServiceCatalog.Proofs.Store.Feed
import ServiceCatalog.Proofs.Store.Shelf

/-!
Sessions with one store: reads, saves and subscriptions while the clock moves and the store is opened
again. Two stores of either kind answer alike, but for the names of their tokens.
-/
namespace ServiceCatalog

variable {D : Type} {ρ : Token → Token}

def Versioned.rename (ρ : Token → Token) (r : Versioned D) : Versioned D :=
  { r with version := ρ r.version }

def StoreError.rename (ρ : Token → Token) : StoreError → StoreError
  | .conflict id expected actual => .conflict id (expected.map ρ) (actual.map ρ)
  | e => e

/-- The answer of a store with other tokens. -/
def renameAnswer (ρ : Token → Token) {α : Type} (rename : α → α) :
    Except StoreError α → Except StoreError α
  | .ok a => .ok (rename a)
  | .error e => .error (e.rename ρ)

namespace View

def rename (ρ : Token → Token) (v : View D) : View D := fun id => (v id).map (·.rename ρ)

theorem fetch_rename (ρ : Token → Token) (v : View D) (id : String) :
    (v.rename ρ).fetch id = renameAnswer ρ (·.map (·.rename ρ)) (v.fetch id) := by
  unfold fetch
  cases isValidId id <;> rfl

theorem version?_rename (ρ : Token → Token) (v : View D) (id : String) :
    (v.rename ρ).version? id = (v.version? id).map ρ := by
  unfold version? rename
  rw [Option.map_map, Option.map_map]
  rfl

theorem rename_update (ρ : Token → Token) (v : View D) (r : Versioned D) :
    rename ρ (Function.update v r.id (some r)) =
      Function.update (v.rename ρ) r.id (some (r.rename ρ)) := by
  funext id
  by_cases h : id = r.id
  · subst h
    simp [rename]
  · simp [rename, h]

/-- A save compares tokens only for equality. -/
theorem save_rename (hρ : Function.Injective ρ) (v : View D) (locked : Bool) (r : Versioned D)
    (expected : Option Token) :
    (v.rename ρ).save locked (r.rename ρ) (expected.map ρ) =
      (renameAnswer ρ (·.rename ρ) (v.save locked r expected).1,
        rename ρ (v.save locked r expected).2) := by
  have hid : (r.rename ρ).id = r.id := rfl
  cases h : isValidId r.id with
  | false =>
    rw [save_of_invalid h, save_of_invalid (hid ▸ h)]
    rfl
  | true =>
    cases locked with
    | true =>
      rw [save_of_locked h, save_of_locked (hid ▸ h)]
      rfl
    | false =>
      have hiff : (v.rename ρ).version? r.id = expected.map ρ ↔ v.version? r.id = expected := by
        rw [version?_rename]
        exact (Option.map_injective hρ).eq_iff
      by_cases he : v.version? r.id = expected
      · rw [save_of_eq h he, save_of_eq (r := r.rename ρ) h (hiff.mpr he), rename_update]
        rfl
      · rw [save_of_ne h he, save_of_ne (r := r.rename ρ) h (mt hiff.mp he), hid, version?_rename]
        rfl

end View

namespace Feed

variable {f g : Feed D} {i j : Nat}

/-- The subscribers of one feed from number `i` on have queued what those of the other from number
`j` on have. -/
structure Agrees (ρ : Token → Token) (f : Feed D) (i : Nat) (g : Feed D) (j : Nat) : Prop where
  left : f.Sound
  right : g.Sound
  count : ∃ k, f.next = i + k ∧ g.next = j + k
  live : ∀ n, g.isLive (j + n) = f.isLive (i + n)
  queue : ∀ n, g.queue (j + n) = (f.queue (i + n)).map (·.rename ρ)

/-- There is no subscriber yet. -/
theorem agrees_next (hf : f.Sound) (hg : g.Sound) : Agrees ρ f f.next g g.next := by
  have hnone : ∀ {h : Feed D}, h.Sound → ∀ n, h.isLive (h.next + n) = false := by
    intro h hs n
    by_contra hl
    have := hs.below _ (Bool.not_eq_false _ ▸ hl)
    omega
  refine ⟨hf, hg, ⟨0, rfl, rfl⟩, fun n => by rw [hnone hf, hnone hg], fun n => ?_⟩
  rw [queue_of_not_live (hnone hf n), queue_of_not_live (hnone hg n), List.map_nil]

theorem Agrees.publish (h : Agrees ρ f i g j) (r : Versioned D) :
    Agrees ρ (f.publish r) i (g.publish (r.rename ρ)) j where
  left := h.left.publish r
  right := h.right.publish _
  count := h.count
  live n := by simpa using h.live n
  queue n := by
    cases hn : f.isLive (i + n) with
    | true =>
      have hg : g.isLive (j + n) = true := (h.live n).trans hn
      rw [queue_publish h.left hn, queue_publish h.right hg, h.queue, List.map_append]
      rfl
    | false =>
      have hg : g.isLive (j + n) = false := (h.live n).trans hn
      rw [queue_of_not_live (f := g.publish _) (by simpa using hg),
        queue_of_not_live (f := f.publish r) (by simpa using hn), List.map_nil]

theorem Agrees.subscribe (h : Agrees ρ f i g j) :
    Agrees ρ f.subscribe.2 i g.subscribe.2 j where
  left := h.left.subscribe
  right := h.right.subscribe
  count := by
    obtain ⟨k, hf, hg⟩ := h.count
    refine ⟨k + 1, ?_, ?_⟩
    · show f.next + 1 = _
      omega
    · show g.next + 1 = _
      omega
  live n := by
    obtain ⟨k, hf, hg⟩ := h.count
    rw [isLive_subscribe, isLive_subscribe, h.live, hf, hg, Bool.eq_iff_iff]
    simp
  queue n := by rw [queue_subscribe, queue_subscribe, h.queue]

theorem Agrees.leave (h : Agrees ρ f i g j) (k : Nat) :
    Agrees ρ (f.leave (i + k)) i (g.leave (j + k)) j where
  left := h.left.leave _
  right := h.right.leave _
  count := h.count
  live n := by
    rw [isLive_leave, isLive_leave, h.live, Bool.eq_iff_iff]
    simp
  queue n := by
    by_cases hn : n = k
    · subst hn
      rw [queue_of_not_live (by simp [isLive_leave]), queue_of_not_live (by simp [isLive_leave]),
        List.map_nil]
    · rw [queue_leave_of_ne (by simpa using hn), queue_leave_of_ne (by simpa using hn), h.queue]

theorem Agrees.withQueue (h : Agrees ρ f i g j) {k : Nat} (hk : f.isLive (i + k) = true)
    (q : List (Versioned D)) :
    Agrees ρ (f.withQueue (i + k) q) i (g.withQueue (j + k) (q.map (·.rename ρ))) j where
  left := h.left.withQueue _ _
  right := h.right.withQueue _ _
  count := h.count
  live n := by simpa using h.live n
  queue n := by
    by_cases hn : n = k
    · subst hn
      rw [queue_withQueue hk, queue_withQueue ((h.live n).trans hk)]
    · rw [queue_withQueue_of_ne (by simpa using hn), queue_withQueue_of_ne (by simpa using hn),
        h.queue]

theorem Agrees.receive (h : Agrees ρ f i g j) (k : Nat) :
    (g.receive (j + k)).1 = (f.receive (i + k)).1.map (·.rename ρ) ∧
      Agrees ρ (f.receive (i + k)).2 i (g.receive (j + k)).2 j := by
  have hqueue := h.queue k
  cases hq : f.queue (i + k) with
  | nil =>
    rw [hq, List.map_nil] at hqueue
    rw [receive_of_nil hq, receive_of_nil hqueue]
    exact ⟨rfl, h⟩
  | cons r rest =>
    rw [hq, List.map_cons] at hqueue
    have hlive : f.isLive (i + k) = true := by
      by_contra hn
      rw [queue_of_not_live (by simpa using hn)] at hq
      cases hq
    rw [receive_of_cons hq, receive_of_cons hqueue]
    exact ⟨rfl, h.withQueue hlive rest⟩

/-- Both feeds hear of a commit, and neither of a failure. -/
theorem Agrees.after (h : Agrees ρ f i g j) (answer : Except StoreError (Versioned D)) :
    Agrees ρ (f.after answer) i (g.after (renameAnswer ρ (·.rename ρ) answer)) j := by
  cases answer with
  | ok r => exact h.publish r
  | error e => exact h

end Feed

structure Session (D : Type) where
  files : FileTree
  shelf : Shelf D
  now : Instant
  /-- The tokens that commits are given, in order, and how many have been given. -/
  mint : Nat → Token
  issued : Nat := 0
  /-- The number of the first subscriber since the store was opened. -/
  opened : Nat := 0

namespace Session

/-- Subscribers are numbered from the last opening of the store. -/
inductive Call (D : Type) where
  | fetch (id : String)
  | save (id : String) (document : D) (expected : Option Token)
  | subscribe
  | leave (subscriber : Nat)
  | receive (subscriber : Nat)
  | setClock (now : Instant)
  | reopen

inductive Answer (D : Type) where
  | fetched (found : Except StoreError (Option (Versioned D)))
  | saved (result : Except StoreError (Versioned D))
  | received (event : Option (Versioned D))
  | reopened (result : Except FileError Unit)
  | done

def Call.rename (ρ : Token → Token) : Call D → Call D
  | .save id document expected => .save id document (expected.map ρ)
  | c => c

def Answer.rename (ρ : Token → Token) : Answer D → Answer D
  | .fetched found => .fetched (renameAnswer ρ (·.map (·.rename ρ)) found)
  | .saved result => .saved (renameAnswer ρ (·.rename ρ) result)
  | .received event => .received (event.map (·.rename ρ))
  | .reopened result => .reopened result
  | .done => .done

def withFeed (s : Session D) (f : Feed D) : Session D := { s with shelf := s.shelf.withFeed f }

/-- A store in memory is never closed; one in a directory starts with a feed of its own. -/
def reopen (s : Session D) : Except FileError Unit × Session D :=
  match s.shelf with
  | .memory m => (.ok (), { s with opened := m.feed.next })
  | .directory d =>
    match Directory.create s.files d.path with
    | .ok (d, files) => (.ok (), { s with files, shelf := .directory d, opened := d.feed.next })
    | .error e => (.error e, s)

variable [Document D]

def step (s : Session D) : Call D → Answer D × Session D
  | .fetch id => (.fetched (s.shelf.fetch s.files id), s)
  | .save id document expected =>
    let (r, files, shelf) :=
      s.shelf.save s.files s.now (s.mint s.issued) true id document expected
    (.saved r, { s with files, shelf, issued := if r.isOk then s.issued + 1 else s.issued })
  | .subscribe => (.done, s.withFeed s.shelf.feed.subscribe.2)
  | .leave n => (.done, s.withFeed (s.shelf.feed.leave (s.opened + n)))
  | .receive n =>
    let (event, f) := s.shelf.feed.receive (s.opened + n)
    (.received event, s.withFeed f)
  | .setClock now => (.done, { s with now })
  | .reopen =>
    let (r, s) := s.reopen
    (.reopened r, s)

def answers : Session D → List (Call D) → List (Answer D)
  | _, [] => []
  | s, c :: rest => (s.step c).1 :: answers (s.step c).2 rest

/-- The document can be read back, and the clock shows a time. -/
def Call.Readable : Call D → Prop
  | .save _ document _ => Document.Readable document
  | .setClock now => now.Valid
  | _ => True

/-- Two sessions that have come equally far. -/
structure Agrees (ρ : Token → Token) (s t : Session D) : Prop where
  holds : ∃ v, s.shelf.Holds s.files v ∧ t.shelf.Holds t.files (v.rename ρ)
  feed : Feed.Agrees ρ s.shelf.feed s.opened t.shelf.feed t.opened
  now : t.now = s.now
  valid : s.now.Valid
  mint : ∀ n, t.mint n = ρ (s.mint n)
  issued : t.issued = s.issued

variable {s t : Session D}

theorem Agrees.withFeed (h : Agrees ρ s t) {f g : Feed D}
    (hf : Feed.Agrees ρ f s.opened g t.opened) : Agrees ρ (s.withFeed f) (t.withFeed g) where
  holds := by
    obtain ⟨v, hs, ht⟩ := h.holds
    exact ⟨v, hs.withFeed f, ht.withFeed g⟩
  feed := by simpa [Session.withFeed] using hf
  now := h.now
  valid := h.valid
  mint := h.mint
  issued := h.issued

theorem step_save {v : View D} (h : s.shelf.Holds s.files v) (hnow : s.now.Valid) (id : String)
    {document : D} (hd : Document.Readable document) (expected : Option Token) :
    ∃ files shelf, s.step (.save id document expected) =
        (.saved (v.save false ⟨id, document, s.mint s.issued, s.now⟩ expected).1,
          { s with
            files, shelf,
            issued := if (v.save false ⟨id, document, s.mint s.issued, s.now⟩ expected).1.isOk
              then s.issued + 1 else s.issued }) ∧
      shelf.Holds files (v.save false ⟨id, document, s.mint s.issued, s.now⟩ expected).2 ∧
      shelf.feed =
        s.shelf.feed.after (v.save false ⟨id, document, s.mint s.issued, s.now⟩ expected).1 := by
  obtain ⟨files, shelf, hsave, hholds, hfeed⟩ := Shelf.save_of_holds h true
    (r := ⟨id, document, s.mint s.issued, s.now⟩) hd hnow expected
  rw [Shelf.isLocked_true] at hsave hholds hfeed
  exact ⟨files, shelf, by simp only [step, hsave], hholds, hfeed⟩

theorem Agrees.save (hρ : Function.Injective ρ) (h : Agrees ρ s t) (id : String) {document : D}
    (hd : Document.Readable document) (expected : Option Token) :
    (t.step (.save id document (expected.map ρ))).1 =
        (s.step (.save id document expected)).1.rename ρ ∧
      Agrees ρ (s.step (.save id document expected)).2
        (t.step (.save id document (expected.map ρ))).2 := by
  obtain ⟨v, hs, ht⟩ := h.holds
  obtain ⟨files, shelf, hstep, hholds, hfeed⟩ := step_save hs h.valid id hd expected
  obtain ⟨files', shelf', hstep', hholds', hfeed'⟩ :=
    step_save ht (h.now ▸ h.valid) id hd (expected.map ρ)
  have hr : (⟨id, document, t.mint t.issued, t.now⟩ : Versioned D) =
      Versioned.rename ρ ⟨id, document, s.mint s.issued, s.now⟩ := by
    rw [h.issued, h.mint, h.now]
    rfl
  rw [hr, View.save_rename hρ] at hstep' hholds' hfeed'
  have hok : ∀ answer : Except StoreError (Versioned D),
      (renameAnswer ρ (·.rename ρ) answer).isOk = answer.isOk := by
    intro answer
    cases answer <;> rfl
  rw [hstep, hstep']
  refine ⟨rfl, ⟨_, hholds, hholds'⟩, ?_, h.now, h.valid, h.mint, by simp [hok, h.issued]⟩
  rw [hfeed, hfeed']
  exact h.feed.after _

theorem reopen_of_holds {v : View D} (h : s.shelf.Holds s.files v) (hf : s.shelf.feed.Sound) :
    ∃ files shelf, s.reopen = (.ok (), { s with files, shelf, opened := shelf.feed.next }) ∧
      shelf.Holds files v ∧ shelf.feed.Sound := by
  unfold Session.reopen
  cases hs : s.shelf with
  | memory m =>
    rw [hs] at h hf
    exact ⟨s.files, .memory m, by simp [← hs, Shelf.feed], h, hf⟩
  | directory d =>
    rw [hs] at h
    obtain ⟨home, hkeeps⟩ := h
    refine ⟨s.files, .directory ⟨d.path, {}⟩, ?_, ⟨home, hkeeps.withFeed {}⟩, Feed.sound_empty⟩
    simp only [hkeeps.create]
    rfl

theorem Agrees.reopen (h : Agrees ρ s t) :
    t.reopen.1 = s.reopen.1 ∧ Agrees ρ s.reopen.2 t.reopen.2 := by
  obtain ⟨v, hs, ht⟩ := h.holds
  obtain ⟨files, shelf, hreopen, hholds, hsound⟩ := reopen_of_holds hs h.feed.left
  obtain ⟨files', shelf', hreopen', hholds', hsound'⟩ := reopen_of_holds ht h.feed.right
  rw [hreopen, hreopen']
  exact ⟨rfl, ⟨v, hholds, hholds'⟩, Feed.agrees_next hsound hsound', h.now, h.valid, h.mint, h.issued⟩

/-- Stores that agree answer every call alike and still agree after it. -/
theorem Agrees.step (hρ : Function.Injective ρ) (h : Agrees ρ s t) {c : Call D} (hc : c.Readable) :
    (t.step (c.rename ρ)).1 = (s.step c).1.rename ρ ∧
      Agrees ρ (s.step c).2 (t.step (c.rename ρ)).2 := by
  cases c with
  | fetch id =>
    obtain ⟨v, hs, ht⟩ := h.holds
    refine ⟨?_, h⟩
    show Answer.fetched (t.shelf.fetch t.files id) = .fetched _
    rw [Shelf.fetch_of_holds hs, Shelf.fetch_of_holds ht, View.fetch_rename]
  | save id document expected => exact h.save hρ id hc expected
  | subscribe => exact ⟨rfl, h.withFeed h.feed.subscribe⟩
  | leave n => exact ⟨rfl, h.withFeed (h.feed.leave n)⟩
  | receive n =>
    obtain ⟨hevent, hfeed⟩ := h.feed.receive n
    exact ⟨congrArg Answer.received hevent, h.withFeed hfeed⟩
  | setClock now => exact ⟨rfl, h.holds, h.feed, rfl, hc, h.mint, h.issued⟩
  | reopen =>
    obtain ⟨hanswer, hagrees⟩ := h.reopen
    exact ⟨congrArg Answer.reopened hanswer, hagrees⟩

theorem Agrees.answers (hρ : Function.Injective ρ) (h : Agrees ρ s t) {calls : List (Call D)}
    (hc : ∀ c ∈ calls, c.Readable) :
    t.answers (calls.map (·.rename ρ)) = (s.answers calls).map (·.rename ρ) := by
  induction calls generalizing s t with
  | nil => rfl
  | cons c rest ih =>
    rw [List.forall_mem_cons] at hc
    obtain ⟨hanswer, hnext⟩ := h.step hρ hc.1
    rw [List.map_cons, Session.answers, Session.answers, List.map_cons, hanswer, ih hnext hc.2]

end Session
end ServiceCatalog
