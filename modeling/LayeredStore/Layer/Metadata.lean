import LayeredStore.Cache.Metadata
import LayeredStore.Request

/-!
# The metadata cache as a layer

Answers metadata requests from the cache and remembers what is found further in. Pages are not
kept, but every item on one is. What a request may change is forgotten before it goes further in
and once more when it comes back. Clients know it as the `MetadataCachingProvider`.
-/

namespace LayeredStore.MetadataCache

/-- Forgets what a request may change: the path that is written, created or removed as a file,
and all below a folder that is removed or a place that something is moved from or to. -/
def forget (c : MetadataCache) : Request → MetadataCache
  | .write file .. => c.invalidate file
  | .createFolder folder => c.invalidate folder
  | .deleteFile file => c.invalidate file
  | .deleteFolder folder => c.invalidateSubtree folder
  | .move source target _ => (c.invalidateSubtree source).invalidateSubtree target
  | .metadata .. | .list .. | .quota .. | .read .. => c

/-- A request arrives from outside: it is answered if the cache knows the answer. -/
def receive (c : MetadataCache) (now : Nanoseconds) :
    Request → MetadataCache × Option (Answer Reply)
  | .metadata path =>
    let (found, c) := c.get now path
    (c, found.map fun a => a.map Reply.item)
  | r => (c.forget r, none)

/-- Remembers how a metadata lookup ended; a failure other than absence is forgotten. -/
def remember (c : MetadataCache) (now : Nanoseconds) (path : Path) : Answer Reply → MetadataCache
  | .ok (.item item) => c.insertFound now item
  | .ok _ => c
  | .error f => if f.isNotFound then c.insertMissing now path f else c.invalidate path

/-- Remembers all items of a page. -/
def rememberAll (c : MetadataCache) (now : Nanoseconds) : Answer Reply → MetadataCache
  | .ok (.listing l) => l.items.foldl (fun c item => c.insertFound now item) c
  | _ => c

/-- A request that went further in comes back with its answer. -/
def returned (c : MetadataCache) (now : Nanoseconds) (r : Request) (a : Answer Reply) :
    MetadataCache :=
  match r with
  | .metadata path => c.remember now path a
  | .list .. => c.rememberAll now a
  | r => c.forget r

end LayeredStore.MetadataCache
