import ServiceCatalog.Proofs.App.Mirror
import ServiceCatalog.Proofs.Store.Slot

/-!
What the application is to some of its ids. Two states that are the same to an id answer every request
about it alike and stay the same to it; requests about other ids change nothing for it.
-/
namespace ServiceCatalog

/-- A cache whose value is what a load gives answers as the load does. -/
theorem Cache.get_of_loaded {V σ : Type} {c : Cache V} {load : Except LoadError V}
    (hc : ∀ kept ∈ c.slot, load = .ok kept.1) (now : Instant) (s : σ) :
    ∃ c', c.get now (pure load) s = ((load, c'), s) ∧ ∀ kept ∈ c'.slot, load = .ok kept.1 := by
  unfold get
  cases hfresh : c.fresh? now with
  | some value =>
    have hload : load = .ok value := by
      unfold fresh? at hfresh
      split at hfresh
      · next hslot =>
        split at hfresh
        · cases hfresh
          exact hc _ hslot
        · cases hfresh
      · cases hfresh
    exact ⟨c, by rw [hload]; rfl, hc⟩
  | none =>
    cases load with
    | ok value => exact ⟨{ c with slot := some (value, now) }, rfl, by simp⟩
    | error e =>
      cases hslot : c.slot with
      | none => exact ⟨c, by simp [state_bind, state_pure, settle, hslot], by simp [hslot]⟩
      | some kept => cases hc kept hslot

namespace World

variable {w w' v : World} {m n : MachineName} {id i : String} {I : MachineName → String → Prop}

/-- What the store of a machine is to one id. -/
def slot (w : World) (m : MachineName) (id : String) : Shelf.Slot (Item m.State) :=
  (w.shelf m).slot w.files id

/-- The stores share no file, and the topics that are kept are those of the settings. -/
structure Wired (w : World) : Prop where
  beside : ∀ m n, n ≠ m → (w.shelf m).Beside (w.shelf n)
  loaded : ∀ kept ∈ w.topicCache.slot, Topic.load w.topicList = .ok kept.1

theorem wired_of_openAll {settings : Settings} {now : Instant} {mint : Nat → Token}
    {sink : SinkState} {files files' : FileTree} (hnow : now.Valid)
    (h : openAll settings now mint sink files = (.ok w, files')) : w.Wired := by
  refine ⟨(sound_of_openAll h hnow).beside, ?_⟩
  unfold openAll at h
  split at h
  · cases h
  · split at h
    · cases h
    · split at h
      · cases h
      · cases h
        simp

theorem Wired.topics_eq (hw : w.Wired) :
    ∃ cache, topics w = (Topic.load w.topicList, { w with topicCache := cache }) ∧
      ∀ kept ∈ cache.slot, Topic.load w.topicList = .ok kept.1 := by
  obtain ⟨cache, hget, hcache⟩ := Cache.get_of_loaded hw.loaded w.now w
  exact ⟨cache, by rw [topics, hget], hcache⟩

/-- What a save leads to: an answer from the slot of its id, which it changes, and no other. -/
structure Saved (w : World) (m : MachineName) (id : String) (item : Item m.State)
    (expected : Option Token) (answer : Except StoreError (Versioned (Item m.State))) (w' : World) :
    Prop where
  slot : (w.slot m id).save (w.lockFree m) ⟨id, item, w.fresh, w.now⟩ expected =
    (answer, w'.slot m id)
  others : ∀ n i, (n = m → i ≠ id) → w'.slot n i = w.slot n i
  path : ∀ n, (w'.shelf n).path? = (w.shelf n).path?
  clock : w'.now = w.now ∧ w'.mint = w.mint ∧ w'.lockFree = w.lockFree
  topics : w'.topicList = w.topicList ∧ w'.topicCache = w.topicCache
  files : ∃ places, w.files.ChangesFiles places w'.files
  sink : w'.sink = w.sink

theorem Wired.saved (hw : w.Wired) (m : MachineName) (id : String) (item : Item m.State)
    (expected : Option Token) : ∃ answer w', (store m).save id item expected w = (.answer answer, w') ∧
      w.Saved m id item expected answer w' := by
  rcases hs : (w.shelf m).save w.files w.now w.fresh (w.lockFree m) id item expected with
    ⟨answer, files, s⟩
  refine ⟨answer, w.saved m (answer, files, s), by simp only [store, hs], ?_, ?_, ?_, ?_, ?_, ?_, ?_⟩
  · unfold World.slot
    rw [shelf_saved, files_saved]
    exact Shelf.save_eq_slot hs
  · intro n i hi
    unfold World.slot
    rw [files_saved]
    by_cases hn : n = m
    · subst hn
      rw [shelf_saved]
      exact Shelf.slot_save_of_ne hs (hi rfl)
    · rw [shelf_saved_of_ne _ _ _ _ _ hn]
      exact Shelf.slot_beside (hw.beside m n hn) hs i
  · intro n
    by_cases hn : n = m
    · subst hn
      rw [shelf_saved, Shelf.path?_save hs]
    · rw [shelf_saved_of_ne _ _ _ _ _ hn]
  · cases m <;> exact ⟨rfl, rfl, rfl⟩
  · cases m <;> exact ⟨rfl, rfl⟩
  · rw [files_saved]
    exact Shelf.changes_of_save hs
  · cases m <;> rfl

theorem Saved.wired {item : Item m.State} {expected : Option Token}
    {answer : Except StoreError (Versioned (Item m.State))} (hw : w.Wired)
    (h : w.Saved m id item expected answer w') : w'.Wired where
  beside k l hl := (hw.beside k l hl).congr (h.path k) (h.path l)
  loaded := by
    rw [h.topics.1, h.topics.2]
    exact hw.loaded

/-- After a save of one id on both sides, what relates the slots of this id then and related all slots
before relates them all. -/
theorem Saved.slots {R : (n : MachineName) → String → Shelf.Slot (Item n.State) →
      Shelf.Slot (Item n.State) → Prop} {v' : World} {x y : Item m.State} {e e' : Option Token}
    {a b : Except StoreError (Versioned (Item m.State))} (hw : w.Saved m id x e a w')
    (hv : v.Saved m id y e' b v') (hafter : R m id (w'.slot m id) (v'.slot m id))
    (h : R n i (w.slot n i) (v.slot n i)) : R n i (w'.slot n i) (v'.slot n i) := by
  by_cases hn : n = m ∧ i = id
  · obtain ⟨rfl, rfl⟩ := hn
    exact hafter
  · rw [hw.others n i fun hm hi => hn ⟨hm, hi⟩, hv.others n i fun hm hi => hn ⟨hm, hi⟩]
    exact h

/-- To the ids in `I` and to the topics the two states are the same. -/
structure Agree (I : MachineName → String → Prop) (w v : World) : Prop where
  left : w.Wired
  right : v.Wired
  slot : ∀ m id, I m id → v.slot m id = w.slot m id
  list : v.topicList = w.topicList

theorem Agree.refl (hw : w.Wired) : Agree I w w := ⟨hw, hw, fun _ _ _ => rfl, rfl⟩

theorem Alike.slot (h : w.Alike w') (m : MachineName) (id : String) : w'.slot m id = w.slot m id := by
  unfold World.slot
  rw [h.shelf, h.files]

/-- In both states it is the same time, the same locks are held, and a commit is given the same token. -/
structure SameMoment (w v : World) : Prop where
  now : v.now = w.now
  lockFree : v.lockFree = w.lockFree
  mint : ∃ token, (w.mint = fun _ => token) ∧ v.mint = fun _ => token

theorem SameMoment.fresh (h : w.SameMoment v) : v.fresh = w.fresh := by
  obtain ⟨token, hw, hv⟩ := h.mint
  rw [World.fresh, World.fresh, hw, hv]

theorem Agree.fetch (h : Agree I w v) (hi : I m id) :
    (v.shelf m).fetch v.files id = (w.shelf m).fetch w.files id := by
  rw [Shelf.fetch_eq_slot, Shelf.fetch_eq_slot]
  exact congrArg _ (h.slot m id hi)

/-- The same save of an id in `I` on both sides. -/
theorem Agree.save (h : Agree I w v) (hm : w.SameMoment v) (hi : I m id) (item : Item m.State)
    (expected : Option Token) :
    ((store m).save id item expected v).1 = ((store m).save id item expected w).1 ∧
      Agree I ((store m).save id item expected w).2 ((store m).save id item expected v).2 ∧
      SameMoment ((store m).save id item expected w).2 ((store m).save id item expected v).2 := by
  obtain ⟨answer, w', hw, hsw⟩ := h.left.saved m id item expected
  obtain ⟨answer', v', hv, hsv⟩ := h.right.saved m id item expected
  have hslot := hsv.slot
  rw [h.slot m id hi, hm.lockFree, hm.fresh, hm.now, hsw.slot] at hslot
  obtain ⟨rfl, hafter⟩ := Prod.mk.inj hslot
  rw [hw, hv]
  refine ⟨rfl, ⟨hsw.wired h.left, hsv.wired h.right, fun n i hi' => ?_, ?_⟩, ?_⟩
  · exact hsw.slots (R := fun _ _ x y => y = x) hsv hafter.symm (h.slot n i hi')
  · rw [hsv.topics.1, hsw.topics.1, h.list]
  · obtain ⟨hnow, hmint, hlock⟩ := hsw.clock
    obtain ⟨hnow', hmint', hlock'⟩ := hsv.clock
    exact ⟨by rw [hnow, hnow', hm.now], by rw [hlock, hlock', hm.lockFree],
      by rw [hmint, hmint']; exact hm.mint⟩

/-- A save of another id on one side. -/
theorem Agree.save_outside (h : Agree I w v) (hi : ¬I m id) (item : Item m.State)
    (expected : Option Token) : Agree I ((store m).save id item expected w).2 v := by
  obtain ⟨answer, w', hw, hsw⟩ := h.left.saved m id item expected
  rw [hw]
  refine ⟨hsw.wired h.left, h.right, fun n i hi' => ?_, by rw [hsw.topics.1, h.list]⟩
  rw [h.slot n i hi', hsw.others n i fun he hid => hi (he ▸ hid ▸ hi')]

/-- The clock, the locks and the topics cache of one side may change. -/
theorem Agree.left_congr (h : Agree I w v) (ha : w.Alike w') (hlist : w'.topicList = w.topicList)
    (hloaded : ∀ kept ∈ w'.topicCache.slot, Topic.load w.topicList = .ok kept.1) : Agree I w' v where
  left := ⟨fun m n hn => (h.left.beside m n hn).congr (by rw [ha.shelf]) (by rw [ha.shelf]),
    by rwa [hlist]⟩
  right := h.right
  slot m id hi := (h.slot m id hi).trans (ha.slot m id).symm
  list := h.list.trans hlist.symm

theorem Agree.topics_left (h : Agree I w v) : Agree I (topics w).2 v := by
  obtain ⟨cache, htopics, hcache⟩ := h.left.topics_eq
  rw [htopics]
  exact h.left_congr (alike_withCache w cache) rfl hcache

theorem Agree.symm (h : Agree I w v) : Agree I v w :=
  ⟨h.right, h.left, fun m id hi => (h.slot m id hi).symm, h.list.symm⟩

theorem Agree.topics (h : Agree I w v) : (World.topics v).1 = (World.topics w).1 ∧
    Agree I (World.topics w).2 (World.topics v).2 := by
  obtain ⟨cache, htopics, -⟩ := h.left.topics_eq
  obtain ⟨cache', htopics', -⟩ := h.right.topics_eq
  refine ⟨?_, h.topics_left.symm.topics_left.symm⟩
  rw [htopics, htopics', h.list]

theorem SameMoment.topics (hw : w.Wired) (hv : v.Wired) (h : w.SameMoment v) :
    SameMoment (World.topics w).2 (World.topics v).2 := by
  obtain ⟨cache, htopics, -⟩ := hw.topics_eq
  obtain ⟨cache', htopics', -⟩ := hv.topics_eq
  rw [htopics, htopics']
  exact ⟨h.now, h.lockFree, h.mint⟩

/-- The stores of two states that are the same to the ids in `I`. -/
theorem mirrors_store (hi : I m id) :
    (store m).Mirrors (fun t => t) (fun w v => Agree I w v ∧ w.SameMoment v) (fun _ => True) id
      (store m) := by
  refine Backend.mirrors_of_same (fun w v h => ⟨?_, h⟩) fun w v h item expected => ?_
  · exact congrArg Reply.answer (h.1.fetch hi)
  · exact h.1.save h.2 hi item expected

/-- The store of one state, for ids that are not in `I`. -/
theorem mirrors_store_outside (hi : ¬I m id) :
    (store m).Mirrors (fun t => t) (fun w u => w = u ∧ Agree I w v) (fun _ => True) id
      (store m) := by
  refine Backend.mirrors_of_same (fun w u h => ?_) fun w u h item expected => ?_
  · obtain ⟨rfl, h⟩ := h
    exact ⟨rfl, rfl, h⟩
  · obtain ⟨rfl, h⟩ := h
    exact ⟨rfl, rfl, h.save_outside hi item expected⟩

end World

namespace Circumstances

variable {R : World → World → Prop} {m : MachineName} {id : String}
  {faults : MachineName → Faults} {limits : Timeouts} {I : MachineName → String → Prop}

theorem mirrors_store_alone (faults : MachineName → Faults)
    (h : (World.store m).Mirrors (fun t => t) R (fun _ => True) id (World.store m)) :
    ((alone faults).store m).Mirrors (fun t => t) R (fun _ => True) id ((alone faults).store m) :=
  (h.faulty (faults m)).interrupted fun _ _ hr => hr

/-- The same faults on both sides. -/
theorem mirrors_alone
    (hstore : ∀ m id, I m id →
      (World.store m).Mirrors (fun t => t) R (fun _ => True) id (World.store m))
    (htopics : ∀ w v, R w v →
      (World.topics v).1 = (World.topics w).1 ∧ R (World.topics w).2 (World.topics v).2) :
    ((alone faults).controller limits).Mirrors (fun t => t) R (fun _ _ => True) I
      ((alone faults).controller limits) where
  store m id hi := by
    have h := mirrors_store_alone faults (hstore m id hi)
    cases m <;> exact h
  topics := htopics
  limits := rfl
  lifecycle a _ := Machine.keeps_true _ a
  publication a _ := Machine.keeps_true _ a

end Circumstances

/-- A request with the token that its commit is given. -/
structure Stamped where
  request : Request
  token : Token

namespace Stamped

variable {w v : World} {q : Stamped} {I : MachineName → String → Prop} {limits : Timeouts}

/-- The state in which the request is handled. -/
def arrive (q : Stamped) (w : World) : World :=
  q.request.arrive { w with mint := fun _ => q.token }

def handle (limits : Timeouts) (q : Stamped) : StateM World Response := fun w =>
  q.request.handle limits { w with mint := fun _ => q.token }

theorem alike_arrive (q : Stamped) (w : World) : w.Alike (q.arrive w) :=
  ⟨fun m => by cases m <;> rfl, rfl, rfl, rfl⟩

theorem agree_arrive_left (h : World.Agree I w v) (q : Stamped) : World.Agree I (q.arrive w) v :=
  h.left_congr (q.alike_arrive w) rfl h.left.loaded

theorem sound_arrive (hw : w.Sound) (q : Stamped) : (q.arrive w).Sound := by
  have h := q.alike_arrive w
  exact hw.congr q.request.valid (fun m => by rw [h.shelf m])
    (fun m => by rw [h.shelf m]; exact hw.feed m) fun m => by rw [h.shelf m]; exact hw.fits m

theorem agree_arrive (h : World.Agree I w v) (q : Stamped) :
    World.Agree I (q.arrive w) (q.arrive v) ∧ World.SameMoment (q.arrive w) (q.arrive v) :=
  ⟨(agree_arrive_left (agree_arrive_left h q).symm q).symm, rfl, rfl, q.token, rfl, rfl⟩

/-- A request about an id in `I`, in two states that are the same to those. -/
theorem handle_within (limits : Timeouts) (h : World.Agree I w v) (hq : q.request.ask.Within I) :
    (q.handle limits v).1 = (q.handle limits w).1 ∧
      World.Agree I (q.handle limits w).2 (q.handle limits v).2 := by
  have hmirrors : ((Circumstances.alone q.request.faults).controller limits).Mirrors (fun t => t)
      (fun w v => World.Agree I w v ∧ w.SameMoment v) (fun _ _ => True) I
      ((Circumstances.alone q.request.faults).controller limits) :=
    Circumstances.mirrors_alone (fun m id hi => World.mirrors_store hi)
      fun w v hr => ⟨hr.1.topics.1, hr.1.topics.2, hr.2.topics hr.1.left hr.1.right⟩
  obtain ⟨hresponse, hafter⟩ := hmirrors.send hq (agree_arrive h q)
  exact ⟨hresponse.eq, hafter.1⟩

/-- A request about other ids, in one of them. -/
theorem handle_outside (limits : Timeouts) (h : World.Agree I w v)
    (hq : q.request.ask.Within fun m id => ¬I m id) : World.Agree I (q.handle limits w).2 v := by
  have hmirrors : ((Circumstances.alone q.request.faults).controller limits).Mirrors (fun t => t)
      (fun w u => w = u ∧ World.Agree I w v) (fun _ _ => True) (fun m id => ¬I m id)
      ((Circumstances.alone q.request.faults).controller limits) := by
    refine Circumstances.mirrors_alone (fun m id hi => World.mirrors_store_outside hi)
      fun w u hr => ?_
    obtain ⟨rfl, h⟩ := hr
    exact ⟨rfl, rfl, h.topics_left⟩
  exact (hmirrors.send hq ⟨rfl, agree_arrive_left h q⟩).2.2

end Stamped
end ServiceCatalog
