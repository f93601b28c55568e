import LayeredStore.Proofs.Store.Pages

/-!
# Where pages end

A page ends a page size after its start, or with the last child. The sum of start and page size is
taken in 64 bits before it is cut to the number of children, and both come from outside. Main
statement: a list request fails for the folder or for the token, or gets the children from a start
up to an end which are in order and in range, or crashes; it crashes exactly if the sum is too
large, and a folder has a token for which that is so exactly if its number of children and the page
size together are too large.
-/

namespace LayeredStore

namespace Outcome

variable {α β : Type} {o : Outcome α} {f : α → β}

private theorem map_eq_crash_iff : o.map f = .crash ↔ o = .crash := by
  cases o <;> simp [map]

private theorem map_eq_failure_iff {failure : Failure} :
    o.map f = .failure failure ↔ o = .failure failure := by
  rcases o with (_ | _) | _ <;> simp [map, Outcome.failure, Except.map]

private theorem map_eq_value_iff {b : β} : o.map f = .value b ↔ ∃ a, o = .value a ∧ f a = b := by
  rcases o with (_ | _) | _ <;> simp [map, value, Except.map]

end Outcome

/-- Whether a listing is the part of a list from number `start` up to but not including number
`stop`, with a token that leads to what follows it. -/
structure Listing.Shows (l : Listing) (items : List Item) (start stop : Nat) : Prop where
  start_le : start ≤ stop
  stop_le : stop ≤ items.length
  items_eq : l.items = items.extract start stop
  nextToken_eq : l.nextToken = if stop < items.length then some (toString stop) else none

/-- The part of a list from a number to another one, and its token, are all of a listing. -/
private theorem Listing.Shows.unique {l l' : Listing} {items : List Item} {start stop : Nat}
    (h : l.Shows items start stop) (h' : l'.Shows items start stop) : l = l' := by
  obtain ⟨-, -, hitems, hnext⟩ := h
  obtain ⟨-, -, hitems', hnext'⟩ := h'
  cases l
  cases l'
  simp_all

namespace Store

variable {s : Store} {pageSize : UInt64} {folder : Path} {token : Option String}

/-! ### Starts and ends -/

/-- What a token writes is a 64-bit number. -/
private theorem lt_size_of_tokenValue? {text : String} {n : Nat} (h : tokenValue? text = some n) :
    n < UInt64.size := by
  unfold tokenValue? at h
  extract_lets digits value at h
  split at h
  · split at h
    · next hlt => exact Option.some.inj h ▸ hlt
    · cases h
  · cases h

/-- A page starts at the first child, or where a token says unless that is beyond the last one. -/
theorem pageStart_eq_ok_iff {count start : Nat} : pageStart count token = .ok start ↔
    token = none ∧ start = 0 ∨
      ∃ text, token = some text ∧ tokenValue? text = some start ∧ start ≤ count := by
  cases token with
  | none => simp [pageStart, eq_comm]
  | some text =>
    cases hvalue : tokenValue? text with
    | none => simp [pageStart, hvalue]
    | some n =>
      by_cases hle : n ≤ count
      · have hother : n = start → start ≤ count := fun h => h ▸ hle
        simpa [pageStart, hvalue, hle] using hother
      · have hother : n = start → count < start := fun h => h ▸ Nat.not_le.mp hle
        simpa [pageStart, hvalue, hle] using hother

/-- A token is refused if it is no number, or one that leads beyond the children. -/
theorem pageStart_eq_error_iff {count : Nat} {f : Failure} : pageStart count token = .error f ↔
    ∃ text, token = some text ∧ f = .invalidPageToken text ∧
      ∀ n, tokenValue? text = some n → count < n := by
  cases token with
  | none => simp [pageStart]
  | some text =>
    cases hvalue : tokenValue? text with
    | none => simp [pageStart, hvalue, eq_comm]
    | some n =>
      by_cases hle : n ≤ count
      · simp [pageStart, hvalue, hle]
      · simp [pageStart, hvalue, hle, Nat.not_le.mp hle, eq_comm]

/-- A page starts among the children or right after them, at a 64-bit number. -/
theorem pageStart_le {count start : Nat} (h : pageStart count token = .ok start) :
    start ≤ count ∧ start < UInt64.size := by
  obtain ⟨-, rfl⟩ | ⟨text, -, hvalue, hle⟩ := pageStart_eq_ok_iff.mp h
  · exact ⟨Nat.zero_le count, by decide⟩
  · exact ⟨hle, lt_size_of_tokenValue? hvalue⟩

/-- A page shows the items from its start on, as many as fit on it. -/
private theorem page_shows {items : List Item} {start : Nat} (size : Nat)
    (h : start ≤ items.length) :
    (page items size start).Shows items start (min (start + size) items.length) where
  start_le := Nat.le_min.mpr ⟨Nat.le_add_right start size, h⟩
  stop_le := Nat.min_le_right _ _
  items_eq := by rw [page, List.drop_take, List.extract_eq_take_drop]
  nextToken_eq := rfl

/-! ### Outcomes of listings -/

/-- A listing crashes where its end is no 64-bit number. -/
theorem list_eq_crash_iff : s.list pageSize folder token = .crash ↔ s.get? folder = some .folder ∧
    ∃ start, pageStart (s.children folder).length token = .ok start ∧
      UInt64.size ≤ start + pageSize.toNat := by
  rw [← requireFolder_eq_ok_iff]
  cases hfolder : s.requireFolder folder with
  | error f => simp [list, hfolder, Outcome.failure]
  | ok =>
    cases hstart : pageStart (s.children folder).length token with
    | error f => simp [list, hfolder, hstart, Outcome.failure]
    | ok start =>
      by_cases hfits : start + pageSize.toNat < UInt64.size
      · simp [list, hfolder, hstart, hfits, Outcome.value]
      · simp [list, hfolder, hstart, hfits, Nat.not_lt.mp hfits]

/-- A listing fails if there is no folder, or if its token is refused. -/
theorem list_eq_failure_iff {f : Failure} : s.list pageSize folder token = .failure f ↔
    s.requireFolder folder = .error f ∨
      s.get? folder = some .folder ∧ pageStart (s.children folder).length token = .error f := by
  rw [← requireFolder_eq_ok_iff]
  cases hfolder : s.requireFolder folder with
  | error f => simp [list, hfolder, Outcome.failure]
  | ok =>
    cases hstart : pageStart (s.children folder).length token with
    | error f => simp [list, hfolder, hstart, Outcome.failure]
    | ok start =>
      by_cases hfits : start + pageSize.toNat < UInt64.size <;>
        simp [list, hfolder, hstart, hfits, Outcome.value, Outcome.failure]

/-- A page is listed with the children from its start up to its end. -/
theorem list_eq_value_iff_shows {l : Listing} : s.list pageSize folder token = .value l ↔
    s.get? folder = some .folder ∧
      ∃ start, pageStart (s.children folder).length token = .ok start ∧
        start + pageSize.toNat < UInt64.size ∧ l.Shows (s.children folder) start
          (min (start + pageSize.toNat) (s.children folder).length) := by
  rw [list_eq_value_iff]
  refine and_congr_right fun _ => exists_congr fun start => and_congr_right fun hstart =>
    and_congr_right fun _ => ?_
  have hpage := page_shows pageSize.toNat (pageStart_le hstart).1
  exact ⟨fun h => h ▸ hpage, hpage.unique⟩

end Store

namespace Provider

variable {p : Provider} {now : Timestamp} {folder : Path} {token : Option String}

/-- A provider serves a list request as its store does, and stays as it is. -/
private theorem serve_list_eq_pair_iff {o : Outcome Reply} :
    p.serve now (.list folder token) = (p, o) ↔
    (p.store.list p.pageSize folder token).map Reply.listing = o := by
  rw [serve, Prod.mk.injEq]
  exact and_iff_right rfl

/-- **Lists are in range or past the words.** A list request is answered with the children from the
start of its page up to its end, which are in order and in range; or it fails for the folder or the
token; or it crashes, where the sum of start and page size is no 64-bit number. A folder has a token
with which that happens exactly if its number of children and the page size have no sum in 64
bits. -/
theorem lists_crash_iff_past_words (s : Store) (quota : Option (Answer Quota)) (n : UInt64)
    (folder : Path) :
    let p : Provider := { Provider.new n with store := s, quota }
    let size := max n.toNat 1
    let items := s.children folder
    (∀ token now,
      (p.serve now (.list folder token) = (p, .crash) ↔ s.get? folder = some .folder ∧
        ∃ start, Store.pageStart items.length token = .ok start ∧ UInt64.size ≤ start + size) ∧
      (∀ f, p.serve now (.list folder token) = (p, .failure f) ↔ s.requireFolder folder = .error f ∨
        s.get? folder = some .folder ∧ ∃ text, token = some text ∧ f = .invalidPageToken text ∧
          ∀ start, Store.tokenValue? text = some start → items.length < start) ∧
      (∀ reply, p.serve now (.list folder token) = (p, .value reply) ↔
        s.get? folder = some .folder ∧ ∃ start, Store.pageStart items.length token = .ok start ∧
          start + size < UInt64.size ∧
          ∃ l, reply = .listing l ∧ l.Shows items start (min (start + size) items.length))) ∧
    ((∃ token now, p.serve now (.list folder token) = (p, .crash)) ↔
      s.get? folder = some .folder ∧ UInt64.size ≤ items.length + size) := by
  intro p size items
  have hsize : p.pageSize.toNat = size := UInt64.toNat_max n 1
  have hcrash : ∀ token now, p.serve now (.list folder token) = (p, .crash) ↔
      s.get? folder = some .folder ∧
        ∃ start, Store.pageStart items.length token = .ok start ∧ UInt64.size ≤ start + size := by
    intro token now
    rw [← hsize, ← Store.list_eq_crash_iff, serve_list_eq_pair_iff, Outcome.map_eq_crash_iff]
  refine ⟨fun token now => ⟨hcrash token now, ?_, ?_⟩, ?_, ?_⟩
  · intro f
    rw [← Store.pageStart_eq_error_iff, ← Store.list_eq_failure_iff, serve_list_eq_pair_iff,
      Outcome.map_eq_failure_iff]
  · intro reply
    rw [serve_list_eq_pair_iff, Outcome.map_eq_value_iff, ← hsize]
    constructor
    · rintro ⟨l, hl, rfl⟩
      obtain ⟨hfolder, start, hstart, hfits, hshows⟩ := Store.list_eq_value_iff_shows.mp hl
      exact ⟨hfolder, start, hstart, hfits, l, rfl, hshows⟩
    · rintro ⟨hfolder, start, hstart, hfits, l, rfl, hshows⟩
      exact ⟨l, Store.list_eq_value_iff_shows.mpr ⟨hfolder, start, hstart, hfits, hshows⟩, rfl⟩
  · rintro ⟨token, now, h⟩
    obtain ⟨hfolder, start, hstart, hlarge⟩ := (hcrash token now).mp h
    obtain ⟨hle, -⟩ := Store.pageStart_le hstart
    exact ⟨hfolder, by omega⟩
  · rintro ⟨hfolder, hlarge⟩
    -- no 64-bit number among the children is larger than this one
    let start := min items.length (UInt64.size - 1)
    have hword : start < UInt64.size :=
      (Nat.min_le_right _ _).trans_lt (Nat.sub_lt (by decide) Nat.one_pos)
    have hstart := Store.pageStart_toString hword (Nat.min_le_left items.length _)
    exact ⟨some (toString start), ⟨0⟩, (hcrash _ _).mpr ⟨hfolder, start, hstart, by omega⟩⟩

/-- It is not so that listing never crashes: the second page of a folder with one child, if pages
are as long as a 64-bit number can say. -/
theorem not_lists_never_crash : ¬ ∀ (s : Store) (quota : Option (Answer Quota)) (n : UInt64)
    (folder : Path) (token : Option String) (now : Timestamp),
    let p : Provider := { Provider.new n with store := s, quota }
    (p.serve now (.list folder token)).2 ≠ .crash := by
  intro h
  let s : Store := Store.initial.put ⟨true, ["a"]⟩ .folder
  have hcount : (s.children .root).length = 1 := by decide +kernel
  have hstart : Store.pageStart (s.children .root).length (some "1") = .ok 1 := by
    rw [hcount]
    decide +kernel
  have hfolder : s.get? .root = some .folder := by
    simp [s, Store.get?_put, Store.get?_initial, Path.root]
  have hlist : s.list 18446744073709551615 .root (some "1") = .crash :=
    Store.list_eq_crash_iff.mpr ⟨hfolder, 1, hstart, by decide⟩
  refine h s none 18446744073709551615 .root (some "1") ⟨0⟩ ?_
  exact congrArg (Outcome.map Reply.listing) hlist

end Provider
end LayeredStore
