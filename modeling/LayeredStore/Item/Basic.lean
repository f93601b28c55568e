import LayeredStore.Path.Basic
import LayeredStore.Time

/-!
# Items, listings and quotas

What a provider says about its folders and files. Clients know items as `ItemMetadata`, kinds as
`ItemType` and listings as `ItemList`.
-/

namespace LayeredStore

/-- What kind of thing an item is. -/
inductive Kind
  | file
  | folder
  | unknown
deriving DecidableEq, Inhabited

/-- What is known of a file or a folder. -/
structure Item where
  name : String
  path : Path
  kind : Kind
  modified : Option Timestamp
  size : Option UInt64
deriving DecidableEq, Inhabited

namespace Item

/-- A file, named by the last segment of its path. -/
def file (path : Path) (size : UInt64) (modified : Option Timestamp) : Item :=
  ⟨path.name, path, .file, modified, some size⟩

/-- A folder, named by the last segment of its path; it has no size and no time. -/
def folder (path : Path) : Item := ⟨path.name, path, .folder, none, none⟩

/-- Whether the item is a folder. -/
def isFolder (item : Item) : Bool := item.kind = .folder

end Item

/-- One page of what a folder holds; a token leads to the next page. -/
structure Listing where
  items : List Item
  nextToken : Option String
deriving DecidableEq, Inhabited

namespace Listing

/-- A page with nothing on it, and no page after it. -/
def empty : Listing := ⟨[], none⟩

/-- The items of `l` and `more` after them, going on at `nextToken`. -/
def add (l : Listing) (more : List Item) (nextToken : Option String) : Listing :=
  ⟨l.items ++ more, nextToken⟩

/-- The page `l` and the page after it as one. -/
def join (l next : Listing) : Listing := l.add next.items next.nextToken

/-- Number of items. -/
def length (l : Listing) : Nat := l.items.length

/-- An addition to the listing of a given number, or to the last one. -/
structure Addition where
  items : List Item
  nextToken : Option String
  base : Option Nat

/-- All listings that arise from `listings` by additions; each makes a new one, at the end. -/
def grow (listings : List Listing) (additions : List Addition) : List Listing :=
  additions.foldl (fun ls a =>
    let base := match a.base with
      | some i => ls[i]?.getD empty
      | none => ls.getLast?.getD empty
    ls ++ [base.add a.items a.nextToken]) listings

end Listing

/-- How much room a folder has. -/
structure Quota where
  available : UInt64
  total : Option UInt64
  used : Option UInt64
deriving DecidableEq, Inhabited

end LayeredStore
