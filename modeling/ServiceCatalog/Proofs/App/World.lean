import ServiceCatalog.App.Setup
import ServiceCatalog.Proofs.Machines.Lifecycle
import ServiceCatalog.Proofs.Machines.Publication
import ServiceCatalog.Proofs.Store.Feed
import ServiceCatalog.Proofs.Store.Frame

/-! The two stores of the application: what a save of one does to both. -/
namespace ServiceCatalog

instance : (m : MachineName) → LawfulNamed m.State
  | .lifecycle => inferInstanceAs (LawfulNamed Lifecycle.State)
  | .publication => inferInstanceAs (LawfulNamed Publication.State)

namespace Shelf

variable {S : Type} {files files' : FileTree} {s s' : Shelf (Item S)} {id : String}

/-- What is kept in memory fits; what is read from files does so anyway. -/
def Fits : Shelf (Item S) → Prop
  | .memory m => ∀ r ∈ m.records, r.document.service.Fits
  | .directory _ => True

theorem Fits.withFeed (h : s.Fits) (f : Feed (Item S)) : (s.withFeed f).Fits := by
  cases s with
  | memory m => exact h
  | directory d => trivial

theorem path?_withFeed {D : Type} (s : Shelf D) (f : Feed D) : (s.withFeed f).path? = s.path? := by
  cases s <;> rfl

variable [Named S] {r : Versioned (Item S)}

theorem Fits.fetch (h : s.Fits) (hr : s.fetch files id = .ok (some r)) :
    r.document.service.Fits := by
  cases s with
  | memory m =>
    obtain ⟨u, -, hr⟩ := bind_eq_ok.mp hr
    exact h r (List.mem_of_find?_eq_some (Except.ok.inj hr))
  | directory d =>
    obtain ⟨u, -, hr⟩ := bind_eq_ok.mp hr
    obtain ⟨found, hfound, hr⟩ := bind_eq_ok.mp hr
    obtain ⟨q, rfl, rfl⟩ := Option.map_eq_some_iff.mp (Except.ok.inj hr)
    unfold Directory.readRecord at hfound
    split at hfound
    · split at hfound
      · next htext =>
        cases hfound
        exact Stored.fits_of_ofText? htext
      · cases hfound
    · cases hfound
    · cases hfound

theorem Fits.save (h : s.Fits) {now : Instant} {fresh : Token} {lockFree : Bool} {item : Item S}
    (hi : item.service.Fits) {expected : Option Token}
    {answer : Except StoreError (Versioned (Item S))}
    (hs : s.save files now fresh lockFree id item expected = (answer, files', s')) : s'.Fits := by
  cases s with
  | directory d =>
    obtain ⟨d', -, rfl⟩ := exists_of_save_directory hs
    trivial
  | memory m =>
    unfold Shelf.save at hs
    dsimp only at hs
    split at hs
    · next hm =>
      cases hs
      obtain ⟨-, rfl, rfl⟩ := Memory.save_eq_ok hm
      intro q hq
      rcases Memory.mem_put hq with rfl | hq
      · exact hi
      · exact h q hq
    · cases hs
      exact h

end Shelf

namespace World

variable {w w' : World} {m n : MachineName}

section Parts

variable (w) (m) (s : Shelf (Item m.State)) (f : Feed (Item m.State)) (files : FileTree)
  (answer : Except StoreError (Versioned (Item m.State)))

@[simp] theorem shelf_withShelf : (w.withShelf m s).shelf m = s := by cases m <;> rfl

theorem shelf_withShelf_of_ne (h : n ≠ m) : (w.withShelf m s).shelf n = w.shelf n := by
  cases m <;> cases n <;> first | rfl | exact absurd rfl h

@[simp] theorem shelf_saved : (w.saved m (answer, files, s)).shelf m = s := by cases m <;> rfl

theorem shelf_saved_of_ne (h : n ≠ m) : (w.saved m (answer, files, s)).shelf n = w.shelf n := by
  cases m <;> cases n <;> first | rfl | exact absurd rfl h

@[simp] theorem files_saved : (w.saved m (answer, files, s)).files = files := by cases m <;> rfl

@[simp] theorem now_saved : (w.saved m (answer, files, s)).now = w.now := by cases m <;> rfl

@[simp] theorem shelf_withFeed : (w.withFeed m f).shelf m = (w.shelf m).withFeed f :=
  shelf_withShelf w m _

theorem shelf_withFeed_of_ne (h : n ≠ m) : (w.withFeed m f).shelf n = w.shelf n :=
  shelf_withShelf_of_ne w m _ h

theorem withFeed_withFeed (g : Feed (Item m.State)) :
    (w.withFeed m f).withFeed m g = w.withFeed m g := by
  cases m with
  | lifecycle => cases hs : w.lifecycle <;> simp [withFeed, withShelf, shelf, Shelf.withFeed, hs]
  | publication => cases hs : w.publication <;> simp [withFeed, withShelf, shelf, Shelf.withFeed, hs]

theorem withFeed_feed : w.withFeed m (w.shelf m).feed = w := by
  rcases w with ⟨now, mint, issued, files, lifecycle, publication, lockFree, topics, cache, sink⟩
  cases m with
  | lifecycle => cases lifecycle <;> rfl
  | publication => cases publication <;> rfl

end Parts

/-- The clock shows a time, the feeds are in order and the stores share no file. -/
structure Sound (w : World) : Prop where
  now : w.now.Valid
  feed : ∀ m, (w.shelf m).feed.Sound
  beside : ∀ m n, n ≠ m → (w.shelf m).Beside (w.shelf n)
  fits : ∀ m, (w.shelf m).Fits

theorem Sound.congr (h : w.Sound) (hnow : w'.now.Valid)
    (hpath : ∀ m, (w'.shelf m).path? = (w.shelf m).path?) (hfeed : ∀ m, (w'.shelf m).feed.Sound)
    (hfits : ∀ m, (w'.shelf m).Fits) : w'.Sound where
  now := hnow
  feed := hfeed
  beside m n hn := (h.beside m n hn).congr (hpath m) (hpath n)
  fits := hfits

/-- Both stores answer as before, and nothing was queued for anybody. -/
def Unchanged (w w' : World) : Prop :=
  ∀ m, Shelf.Unchanged w.files (w.shelf m) w'.files (w'.shelf m)

theorem Unchanged.refl (w : World) : Unchanged w w := fun _ => ⟨fun _ => rfl, rfl⟩

/-- One record of one machine was inserted or replaced and queued once for each of that machine's
subscribers; all the rest is as before. -/
structure Commits (w w' : World) (m : MachineName) (r : Versioned (Item m.State)) : Prop where
  stored : (w'.shelf m).fetch w'.files r.id = .ok (some r)
  others : ∀ id, id ≠ r.id → (w'.shelf m).fetch w'.files id = (w.shelf m).fetch w.files id
  queued : ∀ k, (w.shelf m).feed.isLive k = true →
    (w'.shelf m).feed.queue k = (w.shelf m).feed.queue k ++ [r]
  live : (w'.shelf m).feed.isLive = (w.shelf m).feed.isLive
  elsewhere : ∀ n, n ≠ m → Shelf.Unchanged w.files (w.shelf n) w'.files (w'.shelf n)

section Save

variable {id : String} {item : Item m.State} {expected : Option Token} {files : FileTree}
  {s : Shelf (Item m.State)} {answer : Except StoreError (Versioned (Item m.State))}
  {r : Versioned (Item m.State)}

theorem Sound.elsewhere (hw : w.Sound) (hn : n ≠ m)
    (hs : (w.shelf m).save w.files w.now w.fresh (w.lockFree m) id item expected =
      (answer, files, s)) :
    Shelf.Unchanged w.files (w.shelf n) files ((w.saved m (answer, files, s)).shelf n) := by
  rw [shelf_saved_of_ne w m s files answer hn]
  exact ⟨Shelf.fetch_beside (hw.beside m n hn) hs, rfl⟩

/-- A save that fails changes nothing in either store. -/
theorem Sound.unchanged_of_save (hw : w.Sound) {e : StoreError}
    (h : (store m).save id item expected w = (.answer (.error e), w')) : Unchanged w w' := by
  rcases hs : (w.shelf m).save w.files w.now w.fresh (w.lockFree m) id item expected with
    ⟨answer, files, s⟩
  simp only [store, hs] at h
  cases h
  intro n
  rw [files_saved]
  by_cases hn : n = m
  · subst hn
    rw [shelf_saved]
    exact Shelf.save_unchanged hs
  · exact hw.elsewhere hn hs

/-- A save that succeeds changes its own record in its own store. -/
theorem Sound.commits_of_save (hw : w.Sound) (hi : item.service.Fits)
    (h : (store m).save id item expected w = (.answer (.ok r), w')) :
    r.id = id ∧ Commits w w' m r := by
  rcases hs : (w.shelf m).save w.files w.now w.fresh (w.lockFree m) id item expected with
    ⟨answer, files, s⟩
  simp only [store, hs] at h
  cases h
  obtain ⟨rfl, hc⟩ := Shelf.save_commits (Item.readable hi) hw.now hs
  refine ⟨rfl, ⟨?_, ?_, ?_, ?_, ?_⟩⟩
  · rw [shelf_saved, files_saved]
    exact hc.stored
  · rw [shelf_saved, files_saved]
    exact hc.others
  · rw [shelf_saved, hc.feed]
    exact fun k hk => Feed.queue_publish (hw.feed m) hk _
  · rw [shelf_saved, hc.feed]
    exact Feed.isLive_publish _ _
  · rw [files_saved]
    exact fun n hn => hw.elsewhere hn hs

theorem Sound.save (hw : w.Sound) (hi : item.service.Fits) :
    ((store m).save id item expected w).2.Sound := by
  rcases hs : (w.shelf m).save w.files w.now w.fresh (w.lockFree m) id item expected with
    ⟨answer, files, s⟩
  have hfeed : s.feed.Sound := by
    cases answer with
    | error e =>
      rw [(Shelf.save_unchanged hs).feed]
      exact hw.feed m
    | ok r =>
      rw [(Shelf.save_commits (Item.readable hi) hw.now hs).2.feed]
      exact (hw.feed m).publish r
  have hparts : ∀ n, ((w.saved m (answer, files, s)).shelf n).path? = (w.shelf n).path? ∧
      ((w.saved m (answer, files, s)).shelf n).feed.Sound ∧
      ((w.saved m (answer, files, s)).shelf n).Fits := by
    intro n
    by_cases hn : n = m
    · subst hn
      rw [shelf_saved]
      exact ⟨Shelf.path?_save hs, hfeed, (hw.fits n).save hi hs⟩
    · rw [shelf_saved_of_ne w m s files answer hn]
      exact ⟨rfl, hw.feed n, hw.fits n⟩
  simp only [store, hs]
  exact hw.congr (by simpa using hw.now) (fun n => (hparts n).1) (fun n => (hparts n).2.1)
    fun n => (hparts n).2.2

end Save

section Open

variable {S : Type} {settings : StoreSettings} {machine : String} {files files' : FileTree}
  {s : Shelf (Item S)}

theorem openShelf_eq_ok (h : openShelf settings machine files = .ok (s, files')) :
    s.feed = {} ∧ s.Fits ∧ ∀ p ∈ s.path?, p = Path.join settings.directory machine := by
  unfold openShelf at h
  split at h
  · cases h
    exact ⟨rfl, by simp [Shelf.Fits], by simp [Shelf.path?]⟩
  · dsimp only at h
    split at h
    · next hd =>
      cases h
      obtain ⟨made, -, hd⟩ := bind_eq_ok.mp hd
      cases hd
      exact ⟨rfl, trivial, by simp [Shelf.path?]⟩
    · cases h

theorem isFileName_lifecycle : IsFileName Lifecycle.machineName :=
  ⟨by decide, by decide, by decide, by decide, by decide, by decide⟩

theorem isFileName_publication : IsFileName Publication.machineName :=
  ⟨by decide, by decide, by decide, by decide, by decide, by decide⟩

/-- The application starts in order, whatever is on disk. -/
theorem sound_of_openAll {settings : Settings} {now : Instant} {mint : Nat → Token}
    {sink : SinkState} (h : openAll settings now mint sink files = (.ok w, files'))
    (hnow : now.Valid) : w.Sound := by
  unfold openAll at h
  split at h
  · cases h
  · next lifecycle opened hl =>
    split at h
    · cases h
    · next publication opened' hp =>
      split at h
      · cases h
      · cases h
        obtain ⟨hfeed, hfits, hpath⟩ := openShelf_eq_ok hl
        obtain ⟨hfeed', hfits', hpath'⟩ := openShelf_eq_ok hp
        have hbeside : lifecycle.Beside publication := by
          intro p hp q hq
          exact ⟨settings.store.directory, Lifecycle.machineName, Publication.machineName,
            isFileName_lifecycle, isFileName_publication, by decide, hpath p hp, hpath' q hq⟩
        refine ⟨hnow, fun m => ?_, fun m n hn => ?_, fun m => ?_⟩
        · cases m with
          | lifecycle => exact hfeed ▸ Feed.sound_empty
          | publication => exact hfeed' ▸ Feed.sound_empty
        · cases m with
          | lifecycle =>
            cases n with
            | lifecycle => exact absurd rfl hn
            | publication => exact hbeside
          | publication =>
            cases n with
            | lifecycle => exact hbeside.symm
            | publication => exact absurd rfl hn
        · cases m with
          | lifecycle => exact hfits
          | publication => exact hfits'

end Open

end World
end ServiceCatalog
