import LayeredStore.Path.Arithmetic
import LayeredStore.Request

/-!
# The store

Folders and files by path, in the order of the paths: the entries of the `InMemoryProvider`. At
first there is nothing but the root folder. What puts something at a path asks for the folder above
it first; only seeding makes folders there instead.
-/

namespace LayeredStore

/-- What is stored at a path. -/
inductive Entry
  | folder
  | file (data : ByteArray) (modified : Timestamp)

/-- Whether an entry is a folder. -/
def Entry.isFolder : Entry → Bool
  | .folder => true
  | .file .. => false

/-- What is known of an entry at a path. -/
def Entry.item (path : Path) : Entry → Item
  | .folder => .folder path
  | .file data modified => .file path (UInt64.ofNat data.size) (some modified)

/-- Folders and files by path. -/
structure Store where
  entries : Std.ExtTreeMap Path Entry

namespace Store

/-- The store with nothing but the root folder. -/
def initial : Store := ⟨(∅ : Std.ExtTreeMap Path Entry).insert .root .folder⟩

/-- The entry at a path. -/
def get? (s : Store) (path : Path) : Option Entry := s.entries[path]?

/-- Whether something is stored at a path. -/
def contains (s : Store) (path : Path) : Bool := s.entries.contains path

/-- The store with an entry at a path, in the place of what was there. -/
def put (s : Store) (path : Path) (e : Entry) : Store := ⟨s.entries.insert path e⟩

/-- The store without a path. -/
def remove (s : Store) (path : Path) : Store := ⟨s.entries.erase path⟩

/-- The store without a path and all below it. -/
def removeSubtree (s : Store) (path : Path) : Store :=
  ⟨s.entries.filter fun key _ => !key.startsWith path⟩

/-- Fails unless a folder is stored at a path. -/
def requireFolder (s : Store) (folder : Path) : Answer Unit :=
  match s.get? folder with
  | some .folder => .ok ()
  | some (.file ..) => .error (.typeMismatch folder)
  | none => .error (.notFound folder)

/-- Fails unless the parent of a path is a folder; a path without a parent counts as taken. -/
def requireParent (s : Store) (path : Path) : Answer Unit :=
  match path.parent? with
  | some parent => s.requireFolder parent
  | none => .error (.alreadyExists path)

/-- The item at a path. -/
def metadata (s : Store) (path : Path) : Answer Item :=
  match s.get? path with
  | some e => .ok (e.item path)
  | none => .error (.notFound path)

/-- The bytes from number `start` up to number `stop`, which have to be in order and in range. -/
def slice (bytes : ByteArray) (start stop : Nat) : Outcome ByteArray :=
  if start ≤ stop ∧ stop ≤ bytes.size then .value (bytes.extract start stop) else .crash

/-- Where a read from an offset on starts and stops among a number of bytes. Neither is beyond the
last byte, and a sum that is no 64-bit number counts as the largest one. -/
def readRange (size offset : UInt64) (count : Option UInt64) : UInt64 × UInt64 :=
  let start := min offset size
  let stop := match count with
    | some n => min (UInt64.ofNatClamp (start.toNat + n.toNat)) size
    | none => size
  (start, stop)

/-- The bytes of a file from an offset on, cut to a number of them if one is given. -/
def read (s : Store) (file : Path) (offset : UInt64) (count : Option UInt64) :
    Outcome ByteArray :=
  match s.get? file with
  | some (.file data _) =>
    let (start, stop) := readRange (UInt64.ofNat data.size) offset count
    slice data start.toNat stop.toNat
  | some .folder => .failure (.typeMismatch file)
  | none => .failure (.notFound file)

/-- Stores a file. A folder is never replaced, a file only if that is wanted. -/
def write (s : Store) (file : Path) (replace : Bool) (data : ByteArray) (modified : Timestamp) :
    Answer (Item × Store) := do
  s.requireParent file
  match s.get? file with
  | some .folder => throw (.typeMismatch file)
  | some (.file ..) => if replace then pure () else throw (.alreadyExists file)
  | none => pure ()
  let e := Entry.file data modified
  return (e.item file, s.put file e)

/-- Makes a folder where nothing is yet. -/
def createFolder (s : Store) (folder : Path) : Answer Store := do
  if s.contains folder then throw (.alreadyExists folder)
  s.requireParent folder
  return s.put folder .folder

/-- Removes a file. -/
def deleteFile (s : Store) (file : Path) : Answer Store :=
  match s.get? file with
  | some (.file ..) => .ok (s.remove file)
  | some .folder => .error (.typeMismatch file)
  | none => .error (.notFound file)

/-- Removes a folder and all below it; the root stays. -/
def deleteFolder (s : Store) (folder : Path) : Answer Store := do
  if folder.isRoot then throw (.provider "cannot delete the root folder")
  s.requireFolder folder
  return s.removeSubtree folder

/-- Stores an entry, and a folder above it wherever there is nothing. -/
def seed (s : Store) (path : Path) (e : Entry) : Store :=
  (path.ancestors.foldl (fun s a => if s.contains a then s else s.put a .folder) s).put path e

/-! ### Moving

A move gives every key at or below the source a new place, one key after the other in their order.
The way from the source to a key is taken lexically, after normalization, so that keys with `.` and
`..` segments can end up at odd places, and a later key overwrites an earlier one. What is at the
target is removed before anything else is looked at again: a move that fails then has removed it
all the same. -/

/-- The new place of a key, as far from the target as the key is from the source. -/
def relocated (source target key : Path) : Path := target.resolve (source.between key)

/-- Takes the entry of a key to its new place, if it is still there. -/
def relocate (source target : Path) (s : Store) (key : Path) : Store :=
  match s.get? key with
  | some e => (s.remove key).put (relocated source target key) e
  | none => s

/-- Takes all keys at or below the source to their new places. -/
def relocateAll (s : Store) (source target : Path) : Store :=
  (s.entries.keys.filter (·.startsWith source)).foldl (relocate source target) s

/-- Moves an item with all below it; the store may have changed even if that fails. -/
def move (s : Store) (source target : Path) (replace : Bool) : Store × Answer Path :=
  if !s.contains source then (s, .error (.notFound source))
  else if target.startsWith source then
    (s, .error (.provider
      ("cannot move " ++ source.text ++ " into itself (" ++ target.text ++ ")")))
  else if s.contains target && !replace then (s, .error (.alreadyExists target))
  else
    let cleared := if s.contains target then s.removeSubtree target else s
    match cleared.requireParent target with
    | .error f => (cleared, .error f)
    | .ok () => (cleared.relocateAll source target, .ok target)

/-! ### What is stored after an operation -/

/-- At first only the root is stored. -/
theorem get?_initial (path : Path) :
    initial.get? path = if path = .root then some .folder else none := by
  by_cases h : path = .root <;> simp [initial, get?, eq_comm (a := Path.root), h]

/-- What is put at a path is there, and nothing else changes. -/
theorem get?_put (s : Store) (path other : Path) (e : Entry) :
    (s.put path e).get? other = if path = other then some e else s.get? other := by
  simp [put, get?, Std.ExtTreeMap.getElem?_insert]

/-- A removed path is empty, and nothing else changes. -/
theorem get?_remove (s : Store) (path other : Path) :
    (s.remove path).get? other = if path = other then none else s.get? other := by
  simp [remove, get?, Std.ExtTreeMap.getElem?_erase]

/-- A removed subtree is empty, and nothing else changes. -/
theorem get?_removeSubtree (s : Store) (path other : Path) :
    (s.removeSubtree path).get? other =
      if other.startsWith path then none else s.get? other := by
  by_cases h : other.startsWith path <;> cases he : s.entries[other]? <;>
    simp [removeSubtree, get?, h, he]

/-- A path is stored where there is an entry. -/
theorem contains_eq_isSome (s : Store) (path : Path) :
    s.contains path = (s.get? path).isSome :=
  Std.ExtTreeMap.contains_eq_isSome_getElem?

end Store
end LayeredStore
