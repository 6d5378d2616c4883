import ServiceCatalog.Cache
import ServiceCatalog.Decode.Record
/-! The topics a service can be filed under. An empty list is a failure to load. -/
namespace ServiceCatalog

structure Topic where
  id : Nat
  name : String
  deriving DecidableEq, Repr

namespace Topic

def toJson (t : Topic) : Json := .obj [("id", .nat t.id), ("name", .str t.name)]

def fields : Decode.Fields Topic :=
  Topic.mk <$> .required "id" Decode.u32 <*> .required "name" Decode.string

def ofJson : Json → Decoded Topic := Decode.record false "struct Topic" fields

/-- The list from the settings, as a source to load from. -/
def load (list : List Topic) : Except LoadError (List Topic) :=
  if list.isEmpty then .error ⟨"no topics configured"⟩ else .ok list

end Topic
end ServiceCatalog
