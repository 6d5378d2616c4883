import ServiceCatalog.Proofs.App.Consumers
import ServiceCatalog.Proofs.Store.Matching

/-!
The application in memory and the application on disk, side by side. They answer every request alike,
but for the names of tokens, and make the same commits; on disk no file is written that is none of the
stores'.
-/
namespace ServiceCatalog

namespace World

variable {w w' : World} {m : MachineName} {id : String} {p : Place}

/-- The stores do not write to this place. -/
def Spares (w : World) (p : Place) : Prop :=
  ∀ m d, w.shelf m = .directory d →
    ∃ home, Directory.Reaches w.files d home ∧
      ∀ id, isValidId id = true → p ∉ Directory.written home id

theorem Spares.congr (h : w.Spares p) {places : Set Place}
    (hpath : ∀ m, (w'.shelf m).path? = (w.shelf m).path?)
    (hfiles : w.files.ChangesFiles places w'.files) : w'.Spares p := by
  intro m d' hd'
  obtain ⟨d, hd, hreach⟩ := exists_directory_of_path (hpath m) hfiles hd'
  obtain ⟨home, hreaches, hne⟩ := h m d hd
  exact ⟨home, hreach home hreaches, hne⟩

/-- A log that the stores do not write to. -/
theorem Spares.logAside (h : w.Spares p)
    (hp : ∀ path, w.sink = .log path → w.files.resolve (.ofText path) = .ok p) : w.LogAside := by
  intro path hs m d hd
  obtain ⟨home, hreaches, hne⟩ := h m d hd
  refine ⟨home, hreaches, fun id hid hr => hne id hid ?_⟩
  rw [hp path hs] at hr
  cases hr
  simp [Directory.written]

/-- A save does not write to a place that is spared. -/
theorem Spares.changes (h : w.Spares p) {item : Item m.State} {expected : Option Token}
    {answer : Except StoreError (Versioned (Item m.State))} {files : FileTree}
    {s : Shelf (Item m.State)}
    (hs : (w.shelf m).save w.files w.now w.fresh (w.lockFree m) id item expected =
      (answer, files, s)) : w.files.ChangesFiles {p}ᶜ files := by
  cases hd : w.shelf m with
  | memory store =>
    rw [hd] at hs
    unfold Shelf.save at hs
    dsimp only at hs
    split at hs <;> cases hs <;> exact .refl _ _
  | directory d =>
    rw [hd] at hs
    obtain ⟨d', hsave, rfl⟩ := Shelf.exists_of_save_directory hs
    cases hid : isValidId id with
    | false =>
      unfold Directory.save at hsave
      rw [validateId_of_invalid hid] at hsave
      cases hsave
      exact .refl _ _
    | true =>
      obtain ⟨-, rfl | ⟨home, hreaches, hc⟩⟩ := Directory.changes_of_save hsave
      · exact .refl _ _
      · obtain ⟨home', hreaches', hne⟩ := h m d hd
        obtain rfl : home = home' := Except.ok.inj (hreaches.walk.symm.trans hreaches'.walk)
        refine hc.mono fun q hq => ?_
        rintro rfl
        exact hne id hid hq

section Save

variable {item : Item m.State} {expected : Option Token}
  {answer : Except StoreError (Versioned (Item m.State))}

theorem exists_of_save (hs : (store m).save id item expected w = (.answer answer, w')) :
    ∃ files s, (w.shelf m).save w.files w.now w.fresh (w.lockFree m) id item expected =
      (answer, files, s) ∧ w' = w.saved m (answer, files, s) := by
  rcases hsave : (w.shelf m).save w.files w.now w.fresh (w.lockFree m) id item expected with
    ⟨answer', files, s⟩
  simp only [store, hsave] at hs
  cases hs
  exact ⟨files, s, rfl, rfl⟩

theorem issued_of_save (hs : (store m).save id item expected w = (.answer answer, w')) :
    w'.issued = w.issuedAfter answer := by
  obtain ⟨files, s, -, rfl⟩ := exists_of_save hs
  cases m <;> rfl

theorem Spares.save (h : w.Spares p)
    (hs : (store m).save id item expected w = (.answer answer, w')) :
    w.files.ChangesFiles {p}ᶜ w'.files := by
  obtain ⟨files, s, hsave, rfl⟩ := exists_of_save hs
  rw [files_saved]
  exact h.changes hsave

end Save

/-- Two states in which every request is answered alike, but for the names of tokens. The first one has
made `n` commits before the second one was in the state `start`. -/
structure Parallel (ρ : Token → Token) (p : Place) (start : World) (n : Nat) (a w : World) : Prop where
  sound : a.Sound
  left : a.Wired
  right : w.Wired
  slot : ∀ m id, (a.slot m id).Matches ρ id (w.slot m id)
  list : a.topicList = start.topicList ∧ w.topicList = start.topicList
  now : w.now = a.now
  mint : ∃ token, (a.mint = fun _ => token) ∧ w.mint = fun _ => ρ token
  lockFree : ∀ m, w.lockFree m = true
  issued : a.issued = n + w.issued
  spares : w.Spares p
  path : ∀ m, (w.shelf m).path? = (start.shelf m).path?
  frame : start.files.ChangesFiles {p}ᶜ w.files

namespace Parallel

variable {ρ : Token → Token} {n : Nat} {start a a' : World}

theorem fresh (h : Parallel ρ p start n a w) : w.fresh = ρ a.fresh := by
  obtain ⟨token, ha, hw⟩ := h.mint
  rw [World.fresh, World.fresh, ha, hw]

theorem fetch (h : Parallel ρ p start n a w) (m : MachineName) (id : String) :
    (w.shelf m).fetch w.files id =
      renameAnswer ρ (·.map (·.rename ρ)) ((a.shelf m).fetch a.files id) := by
  rw [Shelf.fetch_eq_slot, Shelf.fetch_eq_slot]
  exact (h.slot m id).fetch

/-- The clock, the locks and the topics cache of both sides may change. -/
theorem withCache (h : Parallel ρ p start n a w) {cache cache' : Cache (List Topic)}
    (hcache : ∀ kept ∈ cache.slot, Topic.load a.topicList = .ok kept.1)
    (hcache' : ∀ kept ∈ cache'.slot, Topic.load w.topicList = .ok kept.1) :
    Parallel ρ p start n { a with topicCache := cache } { w with topicCache := cache' } where
  sound := Circumstances.sound_withCache h.sound cache
  left := ⟨fun m n hn => by cases m <;> cases n <;> exact h.left.beside _ _ hn, hcache⟩
  right := ⟨fun m n hn => by cases m <;> cases n <;> exact h.right.beside _ _ hn, hcache'⟩
  slot m id := by cases m <;> exact h.slot _ id
  list := h.list
  now := h.now
  mint := h.mint
  lockFree := h.lockFree
  issued := h.issued
  spares := h.spares.congr (fun m => by cases m <;> rfl) (.refl ∅ w.files)
  path m := by cases m <;> exact h.path _
  frame := h.frame

theorem topics (h : Parallel ρ p start n a w) : (World.topics w).1 = (World.topics a).1 ∧
    Parallel ρ p start n (World.topics a).2 (World.topics w).2 := by
  obtain ⟨cache, htopics, hcache⟩ := h.left.topics_eq
  obtain ⟨cache', htopics', hcache'⟩ := h.right.topics_eq
  refine ⟨by rw [htopics, htopics', h.list.1, h.list.2], ?_⟩
  rw [htopics, htopics']
  exact h.withCache hcache hcache'

theorem issuedAfter_rename {α : Type} {f : α → α} (answer : Except StoreError α)
    (h : a.issued = n + w.issued) :
    a.issuedAfter answer = n + w.issuedAfter (renameAnswer ρ f answer) := by
  cases answer with
  | error e => exact h
  | ok r =>
    show a.issued + 1 = n + (w.issued + 1)
    omega

/-- The same save on both sides. -/
theorem save (hρ : Function.Injective ρ) (h : Parallel ρ p start n a w) {item : Item m.State}
    (hi : item.service.Fits) (expected : Option Token) :
    ((store m).save id item (expected.map ρ) w).1 =
        ((store m).save id item expected a).1.rename ρ (·.rename ρ) ∧
      Parallel ρ p start n ((store m).save id item expected a).2
        ((store m).save id item (expected.map ρ) w).2 := by
  have hsound : ((store m).save id item expected a).2.Sound := h.sound.save hi
  obtain ⟨answer, a', ha, hsa⟩ := h.left.saved m id item expected
  obtain ⟨answer', w', hw, hsw⟩ := h.right.saved m id item (expected.map ρ)
  obtain ⟨hanswer, hafter⟩ := (h.slot m id).save hρ (r := ⟨id, item, a.fresh, a.now⟩)
    ⟨Item.readable hi, h.sound.now⟩ (a.lockFree m) expected
  have hrecord : (⟨id, item, w.fresh, w.now⟩ : Versioned (Item m.State)) =
      Versioned.rename ρ ⟨id, item, a.fresh, a.now⟩ := by
    rw [h.fresh, h.now]
    rfl
  have hslot := hsw.slot
  rw [h.lockFree, hrecord] at hslot
  rw [hslot, hsa.slot] at hanswer hafter
  dsimp only at hanswer hafter
  have hframe := h.spares.save hw
  rw [ha, hw]
  rw [ha] at hsound
  refine ⟨congrArg Reply.answer hanswer, hsound, hsa.wired h.left, hsw.wired h.right, ?_, ?_, ?_, ?_,
    ?_, ?_, ?_, fun n => (hsw.path n).trans (h.path n), h.frame.trans hframe⟩
  · intro k i
    exact hsa.slots (R := fun _ id => Shelf.Slot.Matches ρ id) hsw hafter (h.slot k i)
  · rw [hsw.topics.1, hsa.topics.1]
    exact h.list
  · rw [hsw.clock.1, hsa.clock.1, h.now]
  · rw [hsw.clock.2.1, hsa.clock.2.1]
    exact h.mint
  · rw [hsw.clock.2.2]
    exact h.lockFree
  · rw [issued_of_save ha, issued_of_save hw, hanswer]
    exact issuedAfter_rename answer h.issued
  · exact h.spares.congr hsw.path hframe

theorem mirrors_store (hρ : Function.Injective ρ) (m : MachineName) (id : String) :
    (store m).Mirrors ρ (Parallel ρ p start n) (fun item => item.service.Fits) id (store m) where
  fetch _ _ h := ⟨congrArg Reply.answer (h.fetch m id), h⟩
  found _ _ h _ hr := (h.sound.fits m).fetch (Reply.answer.inj hr)
  save _ _ h _ expected hi := h.save hρ hi expected

theorem mirrors_controller (hρ : Function.Injective ρ) (limits : Timeouts) :
    (World.controller limits).Mirrors ρ (Parallel ρ p start n) (fun _ item => item.service.Fits)
      (fun _ _ => True) (World.controller limits) where
  store m id _ := by cases m <;> exact mirrors_store hρ _ id
  topics _ _ h := h.topics
  limits := rfl
  lifecycle _ ha := ha
  publication _ ha := ha

/-- Any request on both sides. -/
theorem send (hρ : Function.Injective ρ) (h : Parallel ρ p start n a w) (q : Ask)
    (limits : Timeouts) : Matched ρ (Parallel ρ p start n) (q.send (World.controller limits) a)
      (q.send (World.controller limits) w) := by
  have hwithin : q.Within fun _ _ => True := by cases q <;> trivial
  exact (mirrors_controller hρ limits).send hwithin h

/-- What was committed on the one side was committed on the other. -/
theorem committed (h : Parallel ρ p start n a w) (h' : Parallel ρ p start n a' w')
    (m : MachineName) (id : String) :
    World.committed w w' m id = (World.committed a a' m id).map (·.rename ρ) := by
  have hissued : w'.issued = w.issued ↔ a'.issued = a.issued := by
    rw [h.issued, h'.issued]
    omega
  unfold World.committed
  rw [h'.fetch]
  by_cases hi : a'.issued = a.issued
  · rw [if_pos hi, if_pos (hissued.mpr hi)]
    rfl
  · rw [if_neg hi, if_neg (mt hissued.mp hi)]
    rcases (a'.shelf m).fetch a'.files id with e | found | r <;> rfl

/-- A request that comes to both sides without a fault. -/
theorem handle (hρ : Function.Injective ρ) (h : Parallel ρ p start n a w) {q : Request}
    (hfaults : q.faults = fun _ => {}) (ha : q.arrive a = a) (hw : q.arrive w = w)
    (limits : Timeouts) : Matched ρ (Parallel ρ p start n) (q.handle limits a) (q.handle limits w) ∧
      ∀ m, q.commits limits w m = (q.commits limits a m).map (·.rename ρ) := by
  have hsend : ∀ v, q.arrive v = v → q.handle limits v = q.ask.send (World.controller limits) v := by
    intro v hv
    rw [Request.handle, hv, hfaults]
    rfl
  have hmatched := h.send hρ q.ask limits
  rw [← hsend a ha, ← hsend w hw] at hmatched
  refine ⟨hmatched, fun m => ?_⟩
  unfold Request.commits
  cases q.ask with
  | act k action id payload =>
    dsimp only
    split
    · exact h.committed hmatched.2 m id
    · rfl
  | lookUp k id => rfl
  | listTopics => rfl

end Parallel
end World
end ServiceCatalog
