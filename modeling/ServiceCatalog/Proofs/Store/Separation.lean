import ServiceCatalog.Proofs.Store.Slot

/-!
The files of one id are not those of another. The names that an id is given in a directory end
differently and start with all of the id, so whatever stands in the directory, a save of one id leaves
the files of every other as they are, and every other id is fetched as before.
-/
namespace ServiceCatalog.Directory

variable {D : Type} {files files' : FileTree} {s s' : Directory D} {id : String}

theorem draftName_injective : Function.Injective draftName := by
  intro a b h
  have := congrArg String.toList h
  simpa [draftName, String.toList_inj] using this

/-- The record and the draft of an id. -/
def ownNames (id : String) : List String := [recordName id, draftName id]

/-- All files of the directory that a save of an id may open. -/
def usedNames (id : String) : List String := [recordName id, draftName id, lockName]

theorem ownNames_disjoint {a b : String} (h : a ≠ b) : (ownNames a).Disjoint (usedNames b) := by
  simp [List.Disjoint, ownNames, usedNames, recordName_injective.eq_iff, draftName_injective.eq_iff, h,
    recordName_ne_draftName, recordName_ne_lockName, draftName_ne_lockName,
    (recordName_ne_draftName _ _).symm]

theorem isFileName_of_mem_usedNames (hid : isValidId id = true) {f : String} (hf : f ∈ usedNames id) :
    IsFileName f := by
  simp only [usedNames, List.mem_cons, List.not_mem_nil, or_false] at hf
  rcases hf with rfl | rfl | rfl
  · exact isFileName_recordName hid
  · exact isFileName_draftName hid
  · exact isFileName_lockName

/-- The path of an entry of the directory: it adds one name to the directory's path, and leads nowhere
but below the place that the directory's path leads to. -/
structure IsEntry (s : Directory D) (f : String) : Prop where
  absolute : (s.place f).absolute = (Path.ofText s.path).absolute
  names : (s.place f).names = (Path.ofText s.path).names ++ [f]
  ending : (s.place f).ending = .name
  leads : ∀ {files : FileTree} {q : Place}, files.resolve (s.place f) = .ok q →
    ∃ home, Reaches files s home ∧ q = home ++ [f]

theorem isEntry (s : Directory D) {f : String} (hf : IsFileName f) : IsEntry s f where
  absolute := Path.absolute_join s.path hf
  names := names_place s hf
  ending := ending_place s hf
  leads := reaches_of_resolve hf

/-- Where the files stand that a save of an id may open. -/
def reached (files : FileTree) (s : Directory D) (id : String) : Set Place :=
  {q | ∃ f ∈ usedNames id, files.resolve (s.place f) = .ok q}

theorem mem_reached {f : String} (hf : f ∈ usedNames id) {q : Place}
    (h : files.resolve (s.place f) = .ok q) : q ∈ reached files s id := ⟨f, hf, h⟩

theorem reached_congr {places : Set Place} (hc : files.ChangesFiles places files') :
    reached files' s id = reached files s id := by
  simp only [reached, hc.resolve_eq_ok_iff]

theorem reached_of_touch {q : Place} (h : files.touch (s.place lockName) = .ok (q, files')) :
    files.ChangesFiles (reached files s id) files' := by
  obtain ⟨-, hq, hne, text, hu⟩ := FileTree.touch_eq_ok h
  exact .of_update (mem_reached (by simp [usedNames]) hq) hne (by simp) hu

theorem reached_of_replace {text : String} (h : s.replace files id text = .ok files') :
    files.ChangesFiles (reached files s id) files' := by
  have hrecord : recordName id ∈ usedNames id := by simp [usedNames]
  have hdraft : draftName id ∈ usedNames id := by simp [usedNames]
  obtain ⟨drafted, hwrite, hrename⟩ := bind_eq_ok.mp h
  obtain ⟨p, hp, hne, hu⟩ := FileTree.write_eq_ok hwrite
  have hc : files.ChangesFiles (reached files s id) drafted :=
    .of_update (mem_reached hdraft hp) hne (by simp) hu
  obtain ⟨p', q, old, hp', hq, hold, hqne, hu'⟩ := FileTree.rename_eq_ok hrename
  refine hc.trans (.of_update_update (mem_reached hdraft (hc.resolve_eq_ok_iff.mp hp'))
    (mem_reached hrecord (hc.resolve_eq_ok_iff.mp hq)) ?_ hqne (by simp) (by simp) hu')
  simp [hold]

variable [Document D] {now : Instant} {fresh : Token} {lockFree : Bool} {document : D}
  {expected : Option Token} {answer : Except StoreError (Versioned D)}

theorem reached_of_save
    (h : save files s now fresh lockFree id document expected = (answer, files', s')) :
    files.ChangesFiles (reached files s id) files' := by
  rcases save_cases h with ⟨-, -, -, rfl | ⟨q, ht⟩⟩ | ⟨-, -, -, q, touched, ht, hr⟩
  · exact .refl _ _
  · exact reached_of_touch ht
  · have hc : files.ChangesFiles (reached files s id) touched := reached_of_touch ht
    exact hc.trans (reached_congr hc ▸ reached_of_replace hr)

theorem fetch_of_save {i : String} (hi : i ≠ id)
    (h : save files s now fresh lockFree id document expected = (answer, files', s')) :
    fetch files' s' i = fetch files s i := by
  have hsave : Shelf.save files (.directory s) now fresh lockFree id document expected =
      (answer, files', .directory s') := by
    rw [Shelf.save, h]
  have hslot := Shelf.slot_save_of_ne hsave hi
  show Shelf.fetch files' (.directory s') i = Shelf.fetch files (.directory s) i
  rw [Shelf.fetch_eq_slot, Shelf.fetch_eq_slot, hslot]

/-- Different ids have no file in common, and each of their files is an entry of the directory. So
whatever stands there and however it ends, a save of one id leaves every file but its own record, its
own draft and the lock, and every other id is fetched as before. -/
theorem save_separate (s : Directory D) {a b : String} (ha : isValidId a = true)
    (hb : isValidId b = true) (hne : a ≠ b) :
    (ownNames a).Disjoint (usedNames b) ∧ (ownNames b).Disjoint (usedNames a) ∧
    (∀ f ∈ usedNames a ++ usedNames b, IsEntry s f) ∧
    (∀ i j, recordName i ≠ draftName j ∧ recordName i ≠ lockName) ∧
    ∀ (files : FileTree) (now : Instant) (fresh : Token) (lockFree : Bool) (document : D)
      (expected : Option Token) (answer : Except StoreError (Versioned D)) (files' : FileTree)
      (s' : Directory D),
      save files s now fresh lockFree a document expected = (answer, files', s') →
        (∀ q, (∀ f ∈ usedNames a, files.resolve (s.place f) ≠ .ok q) →
          files'.get? q = files.get? q) ∧
        ∀ i, i ≠ a → fetch files' s' i = fetch files s i := by
  refine ⟨ownNames_disjoint hne, ownNames_disjoint hne.symm, fun f hf => ?_,
    fun i j => ⟨recordName_ne_draftName i j, recordName_ne_lockName i⟩,
    fun files now fresh lockFree document expected answer files' s' h => ⟨fun q hq => ?_, ?_⟩⟩
  · rcases List.mem_append.mp hf with hf | hf
    · exact isEntry s (isFileName_of_mem_usedNames ha hf)
    · exact isEntry s (isFileName_of_mem_usedNames hb hf)
  · refine (reached_of_save h).get?_of_notMem ?_
    rintro ⟨f, hf, hr⟩
    exact hq f hf hr
  · exact fun i hi => fetch_of_save hi h

/-- A record that was cut off stands beside drafts of two ids, one of them the start of the other. The
other's draft is half a letter. -/
def crowded : FileTree :=
  ⟨[(["records"], .directory), (["records", "a-1.json"], .file (.text "\x7b\"version\": \"v")),
    (["records", "a-1.json.tmp"], .file (.ofBytes [0xc3])),
    (["records", "a.json.tmp"], .file (.text "left"))]⟩

theorem save_separate_crowded :
    let s : Directory Json := ⟨"records", {}⟩
    let saved := save crowded s ⟨0, 0⟩ ⟨"v1"⟩ true "a" .null none
    isValidId "a" = true ∧ isValidId "a-1" = true ∧ "a" ≠ "a-1" ∧
      (∀ f ∈ usedNames "a", crowded.resolve (s.place f) ≠ .ok ["records", "a-1.json.tmp"]) ∧
      saved.2.1.get? ["records", "a-1.json.tmp"] = some (.file (.ofBytes [0xc3])) ∧
      fetch saved.2.1 saved.2.2 "a-1" = fetch crowded s "a-1" := by
  intro s saved
  have ha : isValidId "a" = true := by decide
  have hb : isValidId "a-1" = true := by decide
  have hne : "a" ≠ "a-1" := by decide
  have hq : ∀ f ∈ usedNames "a", crowded.resolve (s.place f) ≠ .ok ["records", "a-1.json.tmp"] := by
    decide +kernel
  have hleft : crowded.get? ["records", "a-1.json.tmp"] = some (.file (.ofBytes [0xc3])) := by
    decide +kernel
  rcases h : saved with ⟨answer, files', s'⟩
  obtain ⟨hfiles, hfetch⟩ := (save_separate s ha hb hne).2.2.2.2 crowded ⟨0, 0⟩ ⟨"v1"⟩ true .null none
    answer files' s' h
  exact ⟨ha, hb, hne, hq, (hfiles _ hq).trans hleft, hfetch _ hne.symm⟩

end ServiceCatalog.Directory
