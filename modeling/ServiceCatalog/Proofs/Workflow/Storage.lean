import ServiceCatalog.Proofs.Store.Session
import ServiceCatalog.Proofs.Workflow.Consistency

/-! The items of a machine are stored alike in memory and in a directory. -/
namespace ServiceCatalog.Session

variable {S : Type} [Named S]

/-- The numbers of the document fit their words, and the clock shows a time. -/
def Call.Fits : Call (Item S) → Prop
  | .save _ item _ => item.service.Fits
  | .setClock now => now.Valid
  | _ => True

theorem Call.Fits.readable [LawfulNamed S] {c : Call (Item S)} (h : c.Fits) : c.Readable := by
  cases c with
  | save id item expected => exact Item.readable h
  | setClock now => exact h
  | fetch id => trivial
  | subscribe => trivial
  | leave n => trivial
  | receive n => trivial
  | reopen => trivial

/-- A store in a directory answers as one in memory does, however often it is opened again. -/
theorem directory_refines_memory [LawfulNamed S] {ρ : Token → Token} (hρ : Function.Injective ρ)
    {files : FileTree} {path : String}
    (hempty : Shelf.Empty (D := Item S) files (.directory ⟨path, {}⟩)) {now : Instant}
    (hnow : now.Valid) {mint mint' : Nat → Token} (hmint : ∀ n, mint' n = ρ (mint n))
    {calls : List (Call (Item S))} (hcalls : ∀ c ∈ calls, c.Fits) :
    answers { files, shelf := .directory ⟨path, {}⟩, now, mint := mint' }
        (calls.map (·.rename ρ)) =
      (answers { files := {}, shelf := .memory {}, now, mint } calls).map (·.rename ρ) := by
  have hmemory : Shelf.Empty (D := Item S) {} (.memory {}) := rfl
  have hagrees : Agrees ρ (D := Item S) { files := {}, shelf := .memory {}, now, mint }
      { files, shelf := .directory ⟨path, {}⟩, now, mint := mint' } :=
    ⟨⟨_, Shelf.holds_of_empty hmemory, Shelf.holds_of_empty hempty⟩,
      Feed.agrees_next Feed.sound_empty Feed.sound_empty, rfl, hnow, hmint, rfl⟩
  exact hagrees.answers hρ fun c hc => (hcalls c hc).readable

/-- Tokens with a mark. -/
def marked (t : Token) : Token := ⟨t.text ++ "*"⟩

theorem marked_injective : Function.Injective marked := by
  intro a b h
  have htext : a.text ++ "*" = b.text ++ "*" := congrArg Token.text h
  cases a
  cases b
  simpa [← String.toList_inj] using htext

open Race Lifecycle in
/-- A draft is stored and replaced; the store is opened again before a stale save. -/
def draftCalls : List (Call (Item State)) :=
  let draft : Item State := ⟨{ id := "library", data := libraryData }, .draft, some "create"⟩
  [.save "library" draft none, .subscribe,
    .save "library" { draft with lastTransition := some "edit" } (some ⟨"0"⟩), .receive 0,
    .save "no/id" draft none, .setClock ⟨-1, 5⟩, .reopen, .save "library" draft (some ⟨"0"⟩),
    .receive 0, .fetch "library"]

open Race Lifecycle in
theorem directory_refines_memory_draftCalls :
    answers { files := ⟨[(["records"], .directory)]⟩, shelf := .directory ⟨"records", {}⟩,
              now := ⟨0, 0⟩, mint := fun n => marked ⟨toString n⟩ }
        (draftCalls.map (·.rename marked)) =
      let draft : Item State := ⟨{ id := "library", data := libraryData }, .draft, some "create"⟩
      let edited : Versioned (Item State) :=
        ⟨"library", { draft with lastTransition := some "edit" }, ⟨"1*"⟩, ⟨0, 0⟩⟩
      [.saved (.ok ⟨"library", draft, ⟨"0*"⟩, ⟨0, 0⟩⟩), .done, .saved (.ok edited),
        .received (some edited), .saved (.error (.invalidId "no/id")), .done, .reopened (.ok ()),
        .saved (.error (.conflict "library" (some ⟨"0*"⟩) (some ⟨"1*"⟩))), .received none,
        .fetched (.ok (some edited))] := by
  have hfits : ∀ c ∈ draftCalls, c.Fits := by
    have hservice : Service.Fits { id := "library", data := libraryData } :=
      ⟨⟨by simp [libraryData], by decide⟩, by simp⟩
    have hclock : (⟨-1, 5⟩ : Instant).Valid := by decide
    simp [draftCalls, Call.Fits, hservice, hclock]
  have hnow : (⟨0, 0⟩ : Instant).Valid := by decide
  have hmint : ∀ n, marked ⟨toString n⟩ = marked ((fun k => ⟨toString k⟩ : Nat → Token) n) :=
    fun _ => rfl
  exact (directory_refines_memory marked_injective Shelf.empty_records hnow hmint hfits).trans rfl

end ServiceCatalog.Session
