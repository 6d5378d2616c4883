import ServiceCatalog.Proofs.App.Slots

/-!
The topics behind their cache. Whatever the times of the requests are, they are answered as if the list
were loaded for each of them anew, and those that name no topic are answered alike for every list.
-/
namespace ServiceCatalog

namespace World

/-- The same state with other topics. -/
def withTopics (w : World) (list : List Topic) (cache : Cache (List Topic)) : World :=
  { w with topicList := list, topicCache := cache }

/-- The second state is the first with other topics, of which something holds. -/
def Refiled (P : List Topic → Cache (List Topic) → List Topic → Cache (List Topic) → Prop)
    (w v : World) : Prop :=
  ∃ list cache, v = w.withTopics list cache ∧ P w.topicList w.topicCache list cache

variable {P : List Topic → Cache (List Topic) → List Topic → Cache (List Topic) → Prop}
  {w v : World}

theorem Refiled.arrive (h : Refiled P w v) (q : Request) : Refiled P (q.arrive w) (q.arrive v) := by
  obtain ⟨list, cache, rfl, hp⟩ := h
  exact ⟨list, cache, rfl, hp⟩

section Save

variable {m : MachineName} {id : String} {item : Item m.State} {expected : Option Token}
  {list : List Topic} {cache : Cache (List Topic)}

end Save

/-- The topics as they are loaded without a cache. -/
def loadTopics : StateM World (Except LoadError (List Topic)) := fun w =>
  (Topic.load w.topicList, w)

/-- Both have this list, and what is kept in the cache of the first is what a load of it gives. -/
def Loaded (list : List Topic) : World → World → Prop :=
  Refiled fun own cache other _ =>
    own = list ∧ other = list ∧ ∀ kept ∈ cache.slot, Topic.load list = .ok kept.1

variable {list : List Topic}

theorem Loaded.topics_eq (h : Loaded list w v) : ∃ cache,
    topics w = (Topic.load list, w.withTopics list cache) ∧ Loaded list (w.withTopics list cache) v := by
  obtain ⟨other, cache, rfl, hlist, rfl, hslot⟩ := h
  rw [← hlist] at hslot ⊢
  obtain ⟨kept, hget, hkept⟩ := Cache.get_of_loaded hslot w.now w
  refine ⟨kept, ?_, w.topicList, cache, rfl, rfl, rfl, hkept⟩
  rw [topics, hget]
  rfl

end World

namespace Circumstances

open World

variable {w v : World} {limits : Timeouts} {faults : MachineName → Faults} {list : List Topic}

end Circumstances

namespace Request

open World

variable {w v : World} {limits : Timeouts} {q : Request} {list : List Topic}

/-- The answers to some requests, one after the other, and the state after them. -/
def answers (serve : Request → StateM World Response) : List Request → World → List Response × World
  | [], w => ([], w)
  | q :: qs, w =>
    let served := serve q w
    let rest := answers serve qs served.2
    (served.1 :: rest.1, rest.2)

open Race in
/-- The creation of a service under a topic or none. -/
def creation (id : String) (topic : Option Nat) (now : Instant) (valid : now.Valid) : Request where
  ask := .act .lifecycle "create" id
    { libraryData with metadata := { libraryData.metadata with topicId := topic } }.toJson
  now := now
  valid := valid

end Request
end ServiceCatalog
