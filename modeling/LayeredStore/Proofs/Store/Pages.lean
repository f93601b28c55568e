import LayeredStore.Proofs.Store.Scope
import Mathlib.Algebra.Order.Floor.Div

/-!
# Walking through pages

A walk through a folder begins without a token and goes on with the token of each page to the next
one. Main statement: there is exactly one walk; it ends, with as few pages as the children fit on
and all of them full but the last; and the joined pages are the children in the order of their
paths, each once and as the provider describes it.
-/

namespace LayeredStore

namespace Listing

/-- Pages joined to one listing, each added to those before it. -/
def joinAll : List Listing → Listing
  | [] => .empty
  | first :: rest => rest.foldl join first

/-- Joined pages have the items of all of them and the token of the last one. -/
private theorem joinAll_eq (pages : List Listing) :
    joinAll pages = ⟨pages.flatMap items, pages.getLast?.bind nextToken⟩ := by
  cases pages with
  | nil => rfl
  | cons first rest =>
    rw [joinAll]
    induction rest generalizing first with
    | nil => simp
    | cons second rest ih =>
      rw [List.foldl_cons, ih]
      cases rest <;> simp [join, add, List.getLast?_cons]

end Listing

namespace Store

/-! ### Tokens -/

/-- A written number is read as the number. -/
private theorem tokenValue?_toString {n : Nat} (h : n < UInt64.size) :
    tokenValue? (toString n) = some n := by
  have hchars : (toString n).toList = Nat.toDigits 10 n := String.toList_ofList
  have hdigit (c : Char) (hc : c ∈ Nat.toDigits 10 n) : c.isDigit = true :=
    Nat.isDigit_of_mem_toDigits (by decide) (by decide) hc
  have hfold : (Nat.toDigits 10 n).foldl (fun n c => n * 10 + (c.toNat - '0'.toNat)) 0 = n := by
    have hvalue := Nat.ofDigitChars_ten_toDigits (n := n)
    rw [Nat.ofDigitChars_eq_foldl] at hvalue
    simpa only [Nat.mul_comm] using hvalue
  unfold tokenValue?
  extract_lets digits value
  have hdigits : digits = Nat.toDigits 10 n := by
    simp only [digits, hchars]
    split
    · next rest hplus => exact absurd (hdigit '+' (hplus ▸ List.mem_cons_self)) (by decide)
    · rfl
  have hvalue : value = n := by simp only [value, hdigits, hfold]
  rw [if_pos (hdigits ▸ ⟨Nat.toDigits_ne_nil, List.all_eq_true.mpr hdigit⟩), hvalue, if_pos h]

/-- A page may begin at any child, and after the last one. -/
theorem pageStart_toString {count n : Nat} (h : n < UInt64.size) (hn : n ≤ count) :
    pageStart count (some (toString n)) = .ok n := by
  simp only [pageStart, tokenValue?_toString h, if_pos hn]

/-! ### Pages -/

/-- The keys directly in a folder. -/
def childKeys (s : Store) (folder : Path) : List Path :=
  s.entries.keys.filter (·.parent? = some folder)

/-- The keys in a folder are in strict order, so that none is there twice. -/
theorem pairwise_childKeys (s : Store) (folder : Path) :
    (s.childKeys folder).Pairwise fun a b => compare a b = .lt :=
  Std.ExtTreeMap.ordered_keys.filter _

/-- The items in a folder are at its keys. -/
theorem map_path_children (s : Store) (folder : Path) :
    (s.children folder).map Item.path = s.childKeys folder := by
  rw [children, childKeys, List.map_map, ← Std.ExtTreeMap.map_fst_toList_eq_keys, List.filter_map]
  exact List.map_congr_left fun entry _ => path_item entry.1 entry.2

/-- There are as many items in a folder as keys. -/
theorem length_children (s : Store) (folder : Path) :
    (s.children folder).length = (s.childKeys folder).length := by
  rw [← map_path_children, List.length_map]

variable {items : List Item} {size start : Nat}

/-- A page leads on exactly if there are items after it. -/
theorem nextToken_page : (page items size start).nextToken =
    if start + size < items.length then some (toString (start + size)) else none := by
  by_cases h : start + size < items.length
  · simp [page, Nat.min_eq_left h.le, h]
  · simp [page, Nat.min_eq_right (Nat.not_lt.mp h), h]

/-- A page and the items after it are the items from its start on. -/
theorem items_page_append (items : List Item) (size start : Nat) :
    (page items size start).items ++ items.drop (start + size) = items.drop start := by
  have hpage : (page items size start).items = (items.drop start).take size := by
    rw [page, List.drop_take, List.take_eq_take_iff, List.length_drop]
    omega
  rw [hpage, ← List.drop_drop, List.take_append_drop]

/-- A page with items after it is full. -/
private theorem length_page (h : start + size < items.length) :
    (page items size start).length = size := by
  simp only [page, Listing.length, List.length_drop, List.length_take]
  omega

end Store

namespace Provider

variable {p : Provider} {folder : Path} {token : Option String} {pages : List Listing}

/-! ### Walks -/

/-- The pages of a walk that begins with a token, each asked for with the token of the one before,
up to one that has none. -/
inductive Pages (p : Provider) (folder : Path) : Option String → List Listing → Prop
  | last {now : Timestamp} {token : Option String} {page : Listing}
    (hpage : p.serve now (.list folder token) = (p, .value (.listing page)))
    (hlast : page.nextToken = none) : Pages p folder token [page]
  | next {now : Timestamp} {token : Option String} {page : Listing} {following : String}
    {pages : List Listing} (hpage : p.serve now (.list folder token) = (p, .value (.listing page)))
    (hnext : page.nextToken = some following) (hrest : Pages p folder (some following) pages) :
    Pages p folder token (page :: pages)

/-- A provider serves the pages that its store lists. -/
theorem serve_list_eq_iff {now : Timestamp} {l : Listing} :
    p.serve now (.list folder token) = (p, .value (.listing l)) ↔
      p.store.list p.pageSize folder token = .value l := by
  rcases hlist : p.store.list p.pageSize folder token with (_ | _) | _ <;>
    simp [serve, hlist, Outcome.map, Outcome.value, Except.map]

/-- For a token a provider always serves the same page. -/
private theorem eq_of_serve_list {now now' : Timestamp} {l l' : Listing}
    (h : p.serve now (.list folder token) = (p, .value (.listing l)))
    (h' : p.serve now' (.list folder token) = (p, .value (.listing l'))) : l = l' := by
  have hboth := (serve_list_eq_iff.mp h).symm.trans (serve_list_eq_iff.mp h')
  simpa [Outcome.value] using hboth

namespace Pages

/-- Only one walk begins with a token. -/
theorem unique {pages' : List Listing} (h : p.Pages folder token pages)
    (h' : p.Pages folder token pages') : pages = pages' := by
  induction h generalizing pages' with
  | last hpage hlast =>
    cases h' with
    | last hpage' _ => rw [eq_of_serve_list hpage hpage']
    | next hpage' hnext' _ =>
      rw [← eq_of_serve_list hpage hpage', hlast] at hnext'
      cases hnext'
  | next hpage hnext _ ih =>
    cases h' with
    | last hpage' hlast' =>
      rw [← eq_of_serve_list hpage hpage', hnext] at hlast'
      cases hlast'
    | next hpage' hnext' hrest' =>
      obtain rfl := eq_of_serve_list hpage hpage'
      obtain rfl := Option.some.inj (hnext.symm.trans hnext')
      rw [ih hrest']

/-- The last page of a walk has no token. -/
private theorem bind_nextToken_getLast? (h : p.Pages folder token pages) :
    pages.getLast?.bind Listing.nextToken = none := by
  induction h with
  | last _ hlast => exact hlast
  | next _ _ hrest ih =>
    cases hrest <;> simpa using ih

/-- What holds of the page that no item comes after, and of a page in front of a walk that begins
where the page ends, holds of every walk. -/
@[elab_as_elim] theorem start_induction {motive : Nat → List Listing → Prop}
    (last : ∀ start, ¬ start + p.pageSize.toNat < (p.store.children folder).length →
      motive start [Store.page (p.store.children folder) p.pageSize.toNat start])
    (next : ∀ start pages, start + p.pageSize.toNat < (p.store.children folder).length →
      pages ≠ [] → motive (start + p.pageSize.toNat) pages →
      motive start (Store.page (p.store.children folder) p.pageSize.toNat start :: pages))
    {start : Nat} (hstart : Store.pageStart (p.store.children folder).length token = .ok start)
    (h : p.Pages folder token pages) : motive start pages := by
  induction h generalizing start with
  | last hpage hlast =>
    obtain ⟨-, start', hstart', -, rfl⟩ := Store.list_eq_value_iff.mp (serve_list_eq_iff.mp hpage)
    obtain rfl := Except.ok.inj (hstart.symm.trans hstart')
    refine last start fun hmore => ?_
    rw [Store.nextToken_page, if_pos hmore] at hlast
    cases hlast
  | next hpage hnext hrest ih =>
    obtain ⟨-, start', hstart', hfits, rfl⟩ :=
      Store.list_eq_value_iff.mp (serve_list_eq_iff.mp hpage)
    obtain rfl := Except.ok.inj (hstart.symm.trans hstart')
    rw [Store.nextToken_page] at hnext
    split at hnext
    · next hmore =>
      obtain rfl := Option.some.inj hnext
      refine next start _ hmore ?_ (ih (Store.pageStart_toString hfits hmore.le))
      cases hrest <;> exact List.cons_ne_nil _ _
    · cases hnext

/-- One page more is filled by as many items more as fit on it. -/
private theorem ceilDiv_add_self {count size : Nat} (hsize : 0 < size) :
    (count + size) ⌈/⌉ size = count ⌈/⌉ size + 1 := by
  have hsum : count + size + size - 1 = count + size - 1 + size := by omega
  rw [Nat.ceilDiv_eq_add_pred_div, Nat.ceilDiv_eq_add_pred_div, hsum, Nat.add_div_right _ hsize]

section Start

variable {start : Nat} (hstart : Store.pageStart (p.store.children folder).length token = .ok start)

include hstart

/-- The items of a walk are the children from its start on. -/
theorem flatMap_items (h : p.Pages folder token pages) :
    pages.flatMap Listing.items = (p.store.children folder).drop start := by
  refine start_induction ?last ?next hstart h
  case last =>
    intro start hlast
    have hrest := Store.items_page_append (p.store.children folder) p.pageSize.toNat start
    rw [List.drop_eq_nil_of_le (Nat.not_lt.mp hlast), List.append_nil] at hrest
    simpa using hrest
  case next =>
    intro start pages _ _ ih
    rw [List.flatMap_cons, ih]
    exact Store.items_page_append _ _ start

/-- All pages of a walk but the last are full. -/
theorem length_of_mem_dropLast (h : p.Pages folder token pages) :
    ∀ page ∈ pages.dropLast, page.length = p.pageSize.toNat := by
  refine start_induction ?last ?next hstart h
  case last => simp
  case next =>
    intro start pages hmore hne ih
    rw [List.dropLast_cons_of_ne_nil hne, List.forall_mem_cons]
    exact ⟨Store.length_page hmore, ih⟩

/-- A walk has as few pages as the children from its start on fit on, and at least one. -/
theorem length_eq (hsize : 0 < p.pageSize.toNat) (h : p.Pages folder token pages) :
    pages.length = max 1 (((p.store.children folder).length - start) ⌈/⌉ p.pageSize.toNat) := by
  refine start_induction ?last ?next hstart h
  case last =>
    intro start hlast
    have hone : ((p.store.children folder).length - start) ⌈/⌉ p.pageSize.toNat ≤ 1 := by
      rw [ceilDiv_le_iff_le_mul hsize]
      omega
    rw [List.length_singleton, Nat.max_eq_left hone]
  case next =>
    intro start pages hmore _ ih
    generalize hrest : (p.store.children folder).length - (start + p.pageSize.toNat) = rest at ih
    have hall : (p.store.children folder).length - start = rest + p.pageSize.toNat := by omega
    have hpos : 0 < rest ⌈/⌉ p.pageSize.toNat := by
      rw [Nat.ceilDiv_eq_add_pred_div]
      exact Nat.div_pos (by omega) hsize
    rw [List.length_cons, ih, hall, ceilDiv_add_self hsize, Nat.max_eq_right hpos,
      Nat.max_eq_right (Nat.le_add_left 1 _)]

end Start

end Pages

/-- A walk can begin wherever a page can, as long as its end is a 64-bit number: the ends of all
later pages are, since no page begins before the end of the first one. -/
theorem exists_pages (hfolder : p.store.get? folder = some .folder)
    (hcount : 2 * (p.store.children folder).length ≤ UInt64.size) (hsize : 0 < p.pageSize.toNat)
    {start : Nat} (hstart : Store.pageStart (p.store.children folder).length token = .ok start)
    (hfits : start + p.pageSize.toNat < UInt64.size) : ∃ pages, p.Pages folder token pages := by
  induction hleft : (p.store.children folder).length - start using Nat.strongRecOn
    generalizing token start with
  | ind left ih =>
    have hpage : p.serve ⟨0⟩ (.list folder token) = (p, .value (.listing
        (Store.page (p.store.children folder) p.pageSize.toNat start))) :=
      serve_list_eq_iff.mpr (Store.list_eq_value_iff.mpr ⟨hfolder, start, hstart, hfits, rfl⟩)
    by_cases hmore : start + p.pageSize.toNat < (p.store.children folder).length
    · -- the next page ends no further than twice where it begins
      obtain ⟨pages, hpages⟩ := ih _ (by omega) (Store.pageStart_toString hfits hmore.le)
        (by omega) rfl
      exact ⟨_, .next hpage (by rw [Store.nextToken_page, if_pos hmore]) hpages⟩
    · exact ⟨_, .last hpage (by rw [Store.nextToken_page, if_neg hmore])⟩

/-- **Walks list all children.** Through a stored folder leads exactly one walk, whatever page size
is asked for. It has as few pages as the children of the folder fit on, and at least one; all pages
but the last are full. The joined pages have no token, and their items are at the keys in the
folder, in strictly increasing order, and are what the provider says of these keys. The bound on the
number of children holds of every list in memory, which takes at most half of the 64-bit
addresses. -/
theorem walks_list_all_children (s : Store) (quota : Option (Answer Quota)) (n : UInt64)
    {folder : Path} (hfolder : s.get? folder = some .folder)
    (hcount : 2 * (s.childKeys folder).length ≤ UInt64.size) :
    let p : Provider := { Provider.new n with store := s, quota }
    let size := max n.toNat 1
    ∃ pages, (∀ pages', p.Pages folder none pages' ↔ pages' = pages) ∧
      pages.length = max 1 ((s.childKeys folder).length ⌈/⌉ size) ∧
      (∀ page ∈ pages.dropLast, page.length = size) ∧
      (Listing.joinAll pages).nextToken = none ∧
      (Listing.joinAll pages).items.map Item.path = s.childKeys folder ∧
      (s.childKeys folder).Pairwise (fun a b => compare a b = .lt) ∧
      ∀ item ∈ (Listing.joinAll pages).items, ∀ now,
        p.serve now (.metadata item.path) = (p, .value (.item item)) := by
  intro p size
  have hsize : p.pageSize.toNat = size := UInt64.toNat_max n 1
  have hpos : 0 < p.pageSize.toNat := by omega
  have hstart : Store.pageStart (p.store.children folder).length none = .ok 0 := rfl
  rw [← s.length_children] at hcount ⊢
  obtain ⟨pages, hpages⟩ := exists_pages hfolder hcount hpos hstart
    ((Nat.zero_add _).symm ▸ p.pageSize.toNat_lt)
  have hitems : (Listing.joinAll pages).items = s.children folder := by
    rw [Listing.joinAll_eq]
    exact hpages.flatMap_items hstart
  refine ⟨pages, fun pages' => ⟨fun h => h.unique hpages, fun h => h ▸ hpages⟩, ?_, ?_, ?_, ?_,
    s.pairwise_childKeys folder, ?_⟩
  · rw [← hsize]
    exact hpages.length_eq hstart hpos
  · rw [← hsize]
    exact hpages.length_of_mem_dropLast hstart
  · rw [Listing.joinAll_eq]
    exact hpages.bind_nextToken_getLast?
  · rw [hitems, s.map_path_children]
  · intro item hitem now
    rw [hitems] at hitem
    have hmetadata : p.store.metadata item.path = .ok item := Store.metadata_of_mem_children hitem
    rw [serve, hmetadata]
    rfl

/-- Three children on pages of two; what is in one of them is not listed. -/
theorem walks_list_all_children_three :
    let d : Path := ⟨true, ["d"]⟩
    let s := ((((Store.initial.put d .folder).put (d.child "c") .folder).put (d.child "a")
      (.file .empty ⟨0⟩)).put ((d.child "c").child "x") .folder).put (d.child "b") .folder
    let p : Provider := { Provider.new 2 with store := s, quota := none }
    s.get? d = some .folder ∧ 2 * (s.childKeys d).length ≤ UInt64.size ∧
      ∃ pages, (∀ pages', p.Pages d none pages' ↔ pages' = pages) ∧ pages.length = 2 ∧
        (Listing.joinAll pages).nextToken = none ∧
        (Listing.joinAll pages).items.map Item.path = [d.child "a", d.child "b", d.child "c"] := by
  intro d s p
  have hfolder : s.get? d = some .folder := by simp [s, Store.get?_put, d, Path.child]
  have hkeys : s.childKeys d = [d.child "a", d.child "b", d.child "c"] := by decide +kernel
  have hcount : 2 * (s.childKeys d).length ≤ UInt64.size := by rw [hkeys]; decide
  obtain ⟨pages, hunique, hlength, -, hlast, hitems, -⟩ :=
    walks_list_all_children s none 2 hfolder hcount
  refine ⟨hfolder, hcount, pages, hunique, ?_, hlast, hitems.trans hkeys⟩
  rw [hlength, hkeys]
  decide

end Provider
end LayeredStore
