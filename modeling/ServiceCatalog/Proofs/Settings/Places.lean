import Mathlib.Data.Option.Basic
import ServiceCatalog.Settings.Layer

/-!
What stands under a name of a section while layers are put on a tree. An entry that leads elsewhere
leaves it, one that says something about it decides it, so after a layer the last entry that says
something stands there, and what stood there before if there is none.
-/
namespace ServiceCatalog

namespace Step

/-- The name of the entry that a path changes at the top: the last name of a path is made small. -/
def leads? : List Step → Option String
  | [.child c] => some (Setting.lower c)
  | .child c :: _ => some c
  | _ => none

/-- Every path of a layer starts with a name. -/
theorem exists_leads? (s : String) : ∃ c, leads? (path s) = some c := by
  have hchild : ∀ c rest, ∃ d, leads? (.child c :: rest) = some d := by
    rintro c (_ | ⟨s, rest⟩)
    · exact ⟨_, rfl⟩
    · exact ⟨_, rfl⟩
  unfold path
  dsimp only
  split
  · exact hchild _ _
  · split
    · exact hchild _ _
    · exact hchild _ _

/-- A path that leads neither to the section as a whole nor to this name in it. -/
def Apart (part key : String) (steps : List Step) : Prop :=
  ∃ c ∈ leads? steps, c = part → ∃ k ∈ leads? steps.tail, k ≠ key

instance (part key : String) (steps : List Step) : Decidable (Apart part key steps) :=
  inferInstanceAs (Decidable (∃ c ∈ leads? steps, c = part → ∃ k ∈ leads? steps.tail, k ≠ key))

end Step

namespace Setting

variable {t v : Setting} {es ks : List (String × Setting)} {steps : List Step} {part key c : String}

theorem lookUp_putEntry (j k : String) (v : Setting) (es : List (String × Setting)) :
    lookUp j (putEntry k v es) = if j = k then some v else lookUp j es := by
  induction es with
  | nil =>
    by_cases h : j = k
    · simp [putEntry, lookUp, h]
    · simp [putEntry, lookUp, h, Ne.symm h]
  | cons e es ih =>
    unfold lookUp at ih ⊢
    rw [putEntry]
    by_cases he : e.1 = k
    · by_cases h : j = k
      · simp [he, h]
      · simp [he, h, Ne.symm h]
    · by_cases h : e.1 = j
      · have hjk : j ≠ k := h ▸ he
        simp [h, hjk]
      · simpa [he, h] using ih

/-- A path that starts with a name changes the entry of that name and leaves a table. -/
theorem exists_put (h : Step.leads? steps = some c) (v t : Setting) :
    ∃ w, put v steps t = .table (putEntry c w t.entries) := by
  match steps, h with
  | [.child k], h =>
    cases h
    exact ⟨_, rfl⟩
  | .child k :: s :: rest, h =>
    cases h
    exact ⟨_, rfl⟩

/-- What stands under a name of a section. -/
def at? (t : Setting) (part key : String) : Option Setting :=
  lookUp key ((lookUp part t.entries).getD .nothing).entries

/-- Where the section is given, it is a table. -/
def IsSection (t : Setting) (part : String) : Prop :=
  ∀ u ∈ lookUp part t.entries, ∃ ks, u = .table ks

/-- A path that leads to another section leaves this one. -/
theorem lookUp_put_of_ne (h : Step.leads? steps = some c) (hne : c ≠ part) (v t : Setting) :
    lookUp part (put v steps t).entries = lookUp part t.entries := by
  obtain ⟨w, hw⟩ := exists_put h v t
  rw [hw, entries, lookUp_putEntry, if_neg hne.symm]

/-- A path that goes on below a section changes the section. -/
theorem lookUp_put_of_tail {k : String} (h : Step.leads? steps = some part)
    (hk : Step.leads? steps.tail = some k) (v t : Setting) :
    lookUp part (put v steps t).entries =
      some (put v steps.tail ((lookUp part t.entries).getD .nothing)) := by
  match steps, h, hk with
  | .child _ :: s :: rest, h, _ =>
    cases h
    show lookUp part (putEntry part _ t.entries) = _
    rw [lookUp_putEntry, if_pos rfl]
    rfl

theorem at?_put_of_apart (h : Step.Apart part key steps) (v t : Setting) :
    (put v steps t).at? part key = t.at? part key := by
  obtain ⟨c, hc, htail⟩ := h
  unfold at?
  by_cases hpart : c = part
  · subst hpart
    obtain ⟨k, hk, hne⟩ := htail rfl
    rw [lookUp_put_of_tail hc hk, Option.getD_some]
    exact lookUp_put_of_ne hk hne v _
  · rw [lookUp_put_of_ne hc hpart]

theorem isSection_put_of_apart (h : Step.Apart part key steps) (ht : t.IsSection part)
    (v : Setting) : (put v steps t).IsSection part := by
  obtain ⟨c, hc, htail⟩ := h
  intro u hu
  by_cases hpart : c = part
  · subst hpart
    obtain ⟨k, hk, -⟩ := htail rfl
    rw [lookUp_put_of_tail hc hk, Option.mem_some_iff] at hu
    obtain ⟨w, hw⟩ := exists_put hk v ((lookUp c t.entries).getD .nothing)
    exact ⟨_, hu.symm.trans hw⟩
  · rw [lookUp_put_of_ne hc hpart] at hu
    exact ht u hu

/-- A value that stands as it is, whatever stood there before. -/
def IsLeaf (v : Setting) : Prop := ∀ old, v.onTop old = v

/-- Only tables are joined. -/
theorem isLeaf_of_ne_table (h : ∀ es, v ≠ .table es) : v.IsLeaf := by
  intro old
  rw [onTop]
  exact h

/-- What an entry of a layer says about a setting: in a table for the section, or by its path. -/
inductive Says (part key : String) : String × Setting → Setting → Prop
  | inside {name c k : String} {ks : List (String × Setting)} {v : Setting}
      (hpath : Step.path name = [.child c]) (hpart : lower c = part) (hmem : (k, v) ∈ ks)
      (hkey : lower k = key) : Says part key (name, .table ks) v
  | along {name k : String} {v : Setting} (hpath : Step.path name = [.child part, .child k])
      (hkey : lower k = key) : Says part key (name, v) v

/-- An entry that leads elsewhere, or is a table for the section, or a value for the setting. -/
inductive Orderly (part key : String) : String × Setting → Prop
  | apart {name : String} {v : Setting} (h : Step.Apart part key (Step.path name)) :
    Orderly part key (name, v)
  | table {name c : String} {ks : List (String × Setting)} (hpath : Step.path name = [.child c])
      (hpart : lower c = part) : Orderly part key (name, .table ks)
  | along {name k : String} {v : Setting} (hpath : Step.path name = [.child part, .child k])
      (hkey : lower k = key) : Orderly part key (name, v)

theorem Says.not_apart {e : String × Setting} (h : Says part key e v) :
    ¬Step.Apart part key (Step.path e.1) := by
  rintro ⟨c, hc, htail⟩
  cases h with
  | inside hpath hpart hmem hkey =>
    rw [hpath] at hc htail
    cases hc
    obtain ⟨k, hk, -⟩ := htail hpart
    cases hk
  | along hpath hkey =>
    rw [hpath] at hc htail
    cases hc
    obtain ⟨k, hk, hne⟩ := htail rfl
    cases hk
    exact hne hkey

theorem exists_onTopEntries (ks es : List (String × Setting)) :
    ∃ es', onTopEntries ks (.table es) = .table es' := by
  induction ks generalizing es with
  | nil => exact ⟨es, by rw [onTopEntries]⟩
  | cons e ks ih =>
    rw [onTopEntries]
    exact ih _

/-- Of the entries of a section the last one of a name decides. -/
theorem lookUp_onTopEntries (hleaf : ∀ e ∈ ks, lower e.1 = key → e.2.IsLeaf) (t : Setting) :
    (∃ e ∈ ks, lower e.1 = key ∧ lookUp key (onTopEntries ks t).entries = some e.2) ∨
      (∀ e ∈ ks, lower e.1 ≠ key) ∧ lookUp key (onTopEntries ks t).entries = lookUp key t.entries := by
  induction ks generalizing t with
  | nil => exact .inr ⟨by simp, by rw [onTopEntries]⟩
  | cons e ks ih =>
    rw [onTopEntries]
    rcases ih (fun d hd => hleaf d (List.mem_cons_of_mem _ hd)) _ with ⟨d, hd, hkey, h⟩ | ⟨hnone, h⟩
    · exact .inl ⟨d, List.mem_cons_of_mem _ hd, hkey, h⟩
    · rw [h, entries, lookUp_putEntry]
      by_cases hkey : lower e.1 = key
      · refine .inl ⟨e, List.mem_cons_self .., hkey, ?_⟩
        rw [if_pos hkey.symm, hleaf e (List.mem_cons_self ..) hkey]
      · refine .inr ⟨List.forall_mem_cons.mpr ⟨hkey, hnone⟩, ?_⟩
        rw [if_neg (Ne.symm hkey)]

/-- A value with the path of the setting stands there afterwards, whatever the section was before. -/
theorem at?_put_along {k : String} (hpath : steps = [.child part, .child k]) (hkey : lower k = key)
    (hleaf : v.IsLeaf) (t : Setting) :
    (put v steps t).IsSection part ∧ (put v steps t).at? part key = some v := by
  have hput : lookUp part (put v steps t).entries = some (put v [.child k]
      ((lookUp part t.entries).getD .nothing)) := by
    rw [hpath]
    exact lookUp_put_of_tail rfl rfl v t
  refine ⟨fun u hu => ?_, ?_⟩
  · rw [hput, Option.mem_some_iff] at hu
    exact ⟨_, hu.symm.trans (by rw [put])⟩
  · unfold at?
    rw [hput, Option.getD_some, put, entries, lookUp_putEntry, if_pos hkey.symm, hleaf]

/-- What an entry says stands there afterwards. -/
theorem at?_put {e : String × Setting} (h : Orderly part key e)
    (hleaf : ∀ v, Says part key e v → v.IsLeaf) (ht : t.IsSection part) :
    (put e.2 (Step.path e.1) t).IsSection part ∧
      ((∃ v, Says part key e v ∧ (put e.2 (Step.path e.1) t).at? part key = some v) ∨
        (∀ v, ¬Says part key e v) ∧
          (put e.2 (Step.path e.1) t).at? part key = t.at? part key) := by
  cases h with
  | apart h =>
    exact ⟨isSection_put_of_apart h ht _, .inr ⟨fun v hv => hv.not_apart h, at?_put_of_apart h _ t⟩⟩
  | @table name c ks hpath hpart =>
    have hput : lookUp part (put (.table ks) (Step.path name) t).entries =
        some (onTopEntries ks ((lookUp part t.entries).getD (.table []))) := by
      rw [hpath, put, entries, lookUp_putEntry, hpart, if_pos rfl, onTop]
    have hsection : ∃ old, (lookUp part t.entries).getD (.table []) = .table old := by
      cases hu : lookUp part t.entries with
      | none => exact ⟨[], rfl⟩
      | some u => exact ht u hu
    have hentries : ((lookUp part t.entries).getD (.table [])).entries =
        ((lookUp part t.entries).getD .nothing).entries := by
      cases lookUp part t.entries <;> rfl
    refine ⟨fun u hu => ?_, ?_⟩
    · obtain ⟨old, hold⟩ := hsection
      rw [hput, hold, Option.mem_some_iff] at hu
      obtain ⟨es', hes⟩ := exists_onTopEntries ks old
      exact ⟨es', hu.symm.trans hes⟩
    · have hks : ∀ d ∈ ks, lower d.1 = key → d.2.IsLeaf := fun d hd hk =>
        hleaf d.2 (.inside hpath hpart hd hk)
      unfold at?
      rw [hput, Option.getD_some, ← hentries]
      rcases lookUp_onTopEntries hks ((lookUp part t.entries).getD (.table [])) with
        ⟨d, hd, hk, h⟩ | ⟨hnone, h⟩
      · exact .inl ⟨d.2, .inside hpath hpart hd hk, h⟩
      · refine .inr ⟨fun v hv => ?_, h⟩
        cases hv with
        | inside _ _ hmem hkey => exact hnone _ hmem hkey
        | along hpath' _ =>
          rw [hpath] at hpath'
          cases hpath'
  | @along name k v hpath hkey =>
    obtain ⟨hsection, hat⟩ := at?_put_along hpath hkey (hleaf v (.along hpath hkey)) t
    exact ⟨hsection, .inl ⟨v, .along hpath hkey, hat⟩⟩

/-- After a layer the last entry that says something about a setting stands there. -/
theorem at?_addLayer {layer : List (String × Setting)} (h : ∀ e ∈ layer, Orderly part key e)
    (hleaf : ∀ e ∈ layer, ∀ v, Says part key e v → v.IsLeaf) (ht : t.IsSection part) :
    (t.addLayer layer).IsSection part ∧
      ((∃ e ∈ layer, ∃ v, Says part key e v ∧ (t.addLayer layer).at? part key = some v) ∨
        (∀ e ∈ layer, ∀ v, ¬Says part key e v) ∧
          (t.addLayer layer).at? part key = t.at? part key) := by
  induction layer generalizing t with
  | nil => exact ⟨ht, .inr ⟨by simp, rfl⟩⟩
  | cons e layer ih =>
    obtain ⟨hsection, hput⟩ := at?_put (h e (List.mem_cons_self ..)) (hleaf e (List.mem_cons_self ..)) ht
    obtain ⟨hlast, hrest⟩ := ih (fun d hd => h d (List.mem_cons_of_mem _ hd))
      (fun d hd => hleaf d (List.mem_cons_of_mem _ hd)) hsection
    refine ⟨hlast, ?_⟩
    rcases hrest with ⟨d, hd, v, hv, hat⟩ | ⟨hnone, hat⟩
    · exact .inl ⟨d, List.mem_cons_of_mem _ hd, v, hv, hat⟩
    · rcases hput with ⟨v, hv, hat'⟩ | ⟨hnone', hat'⟩
      · exact .inl ⟨e, List.mem_cons_self .., v, hv, hat.trans hat'⟩
      · exact .inr ⟨List.forall_mem_cons.mpr ⟨hnone', hnone⟩, hat.trans hat'⟩

/-- A value that stands under a setting stands there after a layer whose entries lead elsewhere or put
it there once more. -/
theorem at?_addLayer_of_again {e : String × Setting} {k : String}
    (hpath : Step.path e.1 = [.child part, .child k]) (hkey : lower k = key) (hleaf : e.2.IsLeaf)
    {layer : List (String × Setting)} (h : ∀ d ∈ layer, d = e ∨ Step.Apart part key (Step.path d.1))
    (ht : t.IsSection part ∧ t.at? part key = some e.2) :
    (t.addLayer layer).IsSection part ∧ (t.addLayer layer).at? part key = some e.2 := by
  induction layer generalizing t with
  | nil => exact ht
  | cons d layer ih =>
    refine ih (fun f hf => h f (List.mem_cons_of_mem _ hf)) ?_
    rcases h d (List.mem_cons_self ..) with rfl | hapart
    · exact at?_put_along hpath hkey hleaf t
    · exact ⟨isSection_put_of_apart hapart ht.1 _, (at?_put_of_apart hapart _ t).trans ht.2⟩

/-- What an entry of a layer puts under a setting stands there afterwards when no other entry says
anything about it. -/
theorem at?_addLayer_of_mem {e : String × Setting} {k : String}
    (hpath : Step.path e.1 = [.child part, .child k]) (hkey : lower k = key) (hleaf : e.2.IsLeaf)
    {layer : List (String × Setting)} (h : ∀ d ∈ layer, d = e ∨ Step.Apart part key (Step.path d.1))
    (he : e ∈ layer) (t : Setting) :
    (t.addLayer layer).IsSection part ∧ (t.addLayer layer).at? part key = some e.2 := by
  obtain ⟨before, after, rfl⟩ := List.append_of_mem he
  rw [addLayer, List.foldl_append, List.foldl_cons]
  exact at?_addLayer_of_again hpath hkey hleaf
    (fun d hd => h d (List.mem_append_right _ (List.mem_cons_of_mem _ hd)))
    (at?_put_along hpath hkey hleaf _)

/-- A tree that is a table stays one. -/
theorem exists_addLayer (layer es : List (String × Setting)) :
    ∃ es', addLayer (.table es) layer = .table es' := by
  induction layer generalizing es with
  | nil => exact ⟨es, rfl⟩
  | cons e layer ih =>
    obtain ⟨c, hc⟩ := Step.exists_leads? e.1
    obtain ⟨w, hw⟩ := exists_put hc e.2 (.table es)
    rw [addLayer, List.foldl_cons, hw]
    exact ih _

end Setting
end ServiceCatalog
