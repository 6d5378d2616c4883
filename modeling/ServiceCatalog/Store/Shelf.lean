import ServiceCatalog.Store.Directory
import ServiceCatalog.Store.Memory
/-! One store of either kind, with its feed. A tree of files is at hand for the kind that needs one. -/
namespace ServiceCatalog

inductive Shelf (D : Type) where
  | memory (store : Memory D)
  | directory (store : Directory D)

namespace Shelf

variable {D : Type}

def feed : Shelf D → Feed D
  | .memory s => s.feed
  | .directory s => s.feed

def withFeed (f : Feed D) : Shelf D → Shelf D
  | .memory s => .memory { s with feed := f }
  | .directory s => .directory { s with feed := f }

variable [Document D]

def fetch (files : FileTree) (s : Shelf D) (id : String) : Except StoreError (Option (Versioned D)) :=
  match s with
  | .memory m => m.fetch id
  | .directory d => d.fetch files id

/-- Only a directory has a lock. -/
def save (files : FileTree) (s : Shelf D) (now : Instant) (fresh : Token) (lockFree : Bool)
    (id : String) (document : D) (expected : Option Token) :
    Except StoreError (Versioned D) × FileTree × Shelf D :=
  match s with
  | .memory m =>
    match m.save now fresh id document expected with
    | .ok (r, m) => (.ok r, files, .memory m)
    | .error e => (.error e, files, .memory m)
  | .directory d =>
    let (r, files, d) := d.save files now fresh lockFree id document expected
    (r, files, .directory d)

end Shelf
end ServiceCatalog
