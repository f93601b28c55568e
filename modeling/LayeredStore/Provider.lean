import LayeredStore.Store.Page

/-!
# The provider

A store that answers requests, page by page and with one quota for all folders. Clients know it as
the `InMemoryProvider`.
-/

namespace LayeredStore

/-- A store, what it says about quotas, and how long its pages are. -/
structure Provider where
  store : Store
  quota : Option (Answer Quota)
  pageSize : UInt64

namespace Provider

/-- The page size if nothing else is asked for. -/
def defaultPageSize : UInt64 := 100

/-- A provider of an empty store without quotas. A page holds at least one item. -/
def new (pageSize : UInt64) : Provider := ⟨.initial, none, max pageSize 1⟩

/-- How much room a folder has, where that is known. -/
def folderQuota (p : Provider) (folder : Path) : Answer Quota := do
  p.store.requireFolder folder
  match p.quota with
  | some q => q
  | none => throw (.quotaNotAvailable folder)

/-- A change of the store: it happens if it succeeds. -/
def commit {α : Type} (p : Provider) (change : Answer (α × Store)) (reply : α → Reply) :
    Provider × Outcome Reply :=
  match change with
  | .ok (a, store) => ({ p with store }, .value (reply a))
  | .error f => (p, .failure f)

/-- Carries out a request at a moment. -/
def serve (p : Provider) (now : Timestamp) : Request → Provider × Outcome Reply
  | .metadata path => (p, .answer ((p.store.metadata path).map Reply.item))
  | .list folder token => (p, (p.store.list p.pageSize folder token).map Reply.listing)
  | .quota folder => (p, .answer ((p.folderQuota folder).map Reply.quota))
  | .read file offset count => (p, (p.store.read file offset count).map Reply.data)
  | .write file replace data modified =>
    p.commit (p.store.write file replace data (modified.getD now)) .item
  | .createFolder folder =>
    p.commit ((p.store.createFolder folder).map fun s => (folder, s)) .path
  | .deleteFile file => p.commit ((p.store.deleteFile file).map fun s => ((), s)) fun _ => .done
  | .deleteFolder folder =>
    p.commit ((p.store.deleteFolder folder).map fun s => ((), s)) fun _ => .done
  | .move source target replace =>
    let (store, answer) := p.store.move source target replace
    ({ p with store }, .answer (answer.map Reply.path))

end Provider
end LayeredStore
