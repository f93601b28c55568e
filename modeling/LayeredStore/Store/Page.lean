import LayeredStore.Store.Basic

/-!
# Pages

A listing shows the children of a folder in the order of their paths, one page at a time. A
page token is the number of children that come before the page, in decimal digits.
-/

namespace LayeredStore.Store

/-- The number that a page token writes: digits, perhaps after a plus sign, below two to the
sixty-fourth. -/
def tokenValue? (token : String) : Option Nat :=
  let digits := match token.toList with
    | '+' :: rest => rest
    | cs => cs
  if digits ≠ [] ∧ digits.all Char.isDigit then
    let n := digits.foldl (fun n c => n * 10 + (c.toNat - '0'.toNat)) 0
    if n < UInt64.size then some n else none
  else none

/-- The items directly in a folder, in the order of their paths. -/
def children (s : Store) (folder : Path) : List Item :=
  (s.entries.toList.filter fun (key, _) => key.parent? = some folder).map fun (key, e) =>
    e.item key

/-- The number of children before the page of a token; a token may not lead beyond them. -/
def pageStart (count : Nat) : Option String → Answer Nat
  | none => .ok 0
  | some token => match tokenValue? token with
    | some n => if n ≤ count then .ok n else .error (.invalidPageToken token)
    | none => .error (.invalidPageToken token)

/-- The page of `items` from number `start` on, with a token if more follow. -/
def page (items : List Item) (size start : Nat) : Listing :=
  let stop := min (start + size) items.length
  ⟨(items.take stop).drop start, if stop < items.length then some (toString stop) else none⟩

/-- One page of a folder. The end of a page has to be a 64-bit number, even if there are fewer
children. -/
def list (s : Store) (pageSize : UInt64) (folder : Path) (token : Option String) :
    Outcome Listing :=
  match s.requireFolder folder with
  | .error f => .failure f
  | .ok () =>
    let items := s.children folder
    match pageStart items.length token with
    | .error f => .failure f
    | .ok start =>
      if start + pageSize.toNat < UInt64.size then .value (page items pageSize.toNat start)
      else .crash

end LayeredStore.Store
