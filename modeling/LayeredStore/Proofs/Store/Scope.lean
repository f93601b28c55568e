import LayeredStore.Provider

/-!
# What a request can change

Every kind of request has a scope, the paths at which it can change the store. Main statements:
a served request leaves all other paths as they are, and what it replies about single items is
what the store says of their paths.
-/

namespace LayeredStore

/-- Whether a request can change what is stored at a path. -/
def Request.mayChange (r : Request) (path : Path) : Bool :=
  match r with
  | .write file .. => path = file
  | .createFolder folder => path = folder
  | .deleteFile file => path = file
  | .deleteFolder folder => path.startsWith folder
  | .move source target _ => path.startsWith source || path.startsWith target
  | .metadata .. | .list .. | .quota .. | .read .. => false

namespace Store

/-! ### Moving -/

/-- The new place of a key is at or below the target. -/
theorem startsWith_relocated (source target key : Path) :
    (relocated source target key).startsWith target = true := by
  rw [Path.startsWith_iff]
  simp [relocated, Path.resolve, Path.between]

/-- Taking one key to its new place changes nothing but that key and the target's subtree. -/
private theorem get?_relocate {source target key path : Path} (s : Store) (hkey : key ≠ path)
    (hpath : path.startsWith target = false) :
    (relocate source target s key).get? path = s.get? path := by
  unfold relocate
  split
  · have hplace : relocated source target key ≠ path := by
      rintro rfl
      simp [startsWith_relocated] at hpath
    rw [get?_put, if_neg hplace, get?_remove, if_neg hkey]
  · rfl

/-- Taking keys to their new places changes nothing but those keys and the target's subtree. -/
theorem get?_foldl_relocate {source target path : Path} {keys : List Path}
    (hkeys : path ∉ keys) (hpath : path.startsWith target = false) (s : Store) :
    (keys.foldl (relocate source target) s).get? path = s.get? path := by
  induction keys generalizing s with
  | nil => rfl
  | cons key keys ih =>
    rw [List.mem_cons, not_or] at hkeys
    obtain ⟨hne, hkeys⟩ := hkeys
    rw [List.foldl_cons, ih hkeys, get?_relocate s (Ne.symm hne) hpath]

/-- A move changes nothing outside the subtrees of its source and its target. -/
theorem get?_move {source target path : Path} (s : Store) (replace : Bool)
    (hsource : path.startsWith source = false) (htarget : path.startsWith target = false) :
    (s.move source target replace).1.get? path = s.get? path := by
  have hcleared : (if s.contains target then s.removeSubtree target else s).get? path =
      s.get? path := by
    split
    · rw [get?_removeSubtree, htarget]
      rfl
    · rfl
  unfold move
  split
  · rfl
  · split
    · rfl
    · split
      · rfl
      · dsimp only
        split
        · exact hcleared
        · refine (get?_foldl_relocate ?_ htarget _).trans hcleared
          intro hmem
          simp [hsource] at hmem

/-! ### The other operations -/

/-- A file that is stored is put at its path. -/
theorem eq_put_of_write {s t : Store} {file : Path} {replace : Bool} {data : ByteArray}
    {modified : Timestamp} {item : Item}
    (h : s.write file replace data modified = .ok (item, t)) :
    item = (Entry.file data modified).item file ∧ t = s.put file (.file data modified) := by
  unfold write at h
  cases hp : s.requireParent file with
  | error f => simp [hp, bind, Except.bind] at h
  | ok _ =>
    rcases he : s.get? file with _ | _ | _
    · obtain ⟨rfl, rfl⟩ : _ ∧ _ := by simpa [hp, he, bind, Except.bind, pure, Except.pure] using h
      exact ⟨rfl, rfl⟩
    · simp [hp, he, bind, Except.bind, throw, throwThe, MonadExceptOf.throw] at h
    · cases replace with
      | false => simp [hp, he, bind, Except.bind, throw, throwThe, MonadExceptOf.throw] at h
      | true =>
        obtain ⟨rfl, rfl⟩ : _ ∧ _ := by
          simpa [hp, he, bind, Except.bind, pure, Except.pure] using h
        exact ⟨rfl, rfl⟩

/-- What is a folder is not overwritten by a file. -/
theorem get?_ne_folder_of_write {s t : Store} {file : Path} {replace : Bool} {data : ByteArray}
    {modified : Timestamp} {item : Item}
    (h : s.write file replace data modified = .ok (item, t)) :
    s.get? file ≠ some .folder := by
  intro hf
  cases hp : s.requireParent file <;>
    simp [write, hp, hf, bind, Except.bind, throw, throwThe, MonadExceptOf.throw] at h

/-- A file is only stored below a folder. -/
theorem requireParent_of_write {s t : Store} {file : Path} {replace : Bool} {data : ByteArray}
    {modified : Timestamp} {item : Item}
    (h : s.write file replace data modified = .ok (item, t)) : s.requireParent file = .ok () := by
  cases hp : s.requireParent file with
  | error f => simp [write, hp, bind, Except.bind] at h
  | ok _ => rfl

/-- A folder that is made is put at its path. -/
theorem eq_put_of_createFolder {s t : Store} {folder : Path}
    (h : s.createFolder folder = .ok t) : t = s.put folder .folder := by
  unfold createFolder at h
  cases hc : s.contains folder with
  | true => simp [hc, bind, Except.bind, throw, throwThe, MonadExceptOf.throw] at h
  | false =>
    cases hp : s.requireParent folder with
    | error f => simp [hc, hp, bind, Except.bind] at h
    | ok _ =>
      simpa [hc, hp, bind, Except.bind, pure, Except.pure, eq_comm] using h

/-- A folder is made where there was nothing. -/
theorem get?_of_createFolder {s t : Store} {folder : Path} (h : s.createFolder folder = .ok t) :
    s.get? folder = none := by
  cases hc : s.contains folder with
  | true => simp [createFolder, hc, bind, Except.bind, throw, throwThe, MonadExceptOf.throw] at h
  | false => simpa [contains_eq_isSome] using hc

/-- A folder is only made below a folder. -/
theorem requireParent_of_createFolder {s t : Store} {folder : Path}
    (h : s.createFolder folder = .ok t) : s.requireParent folder = .ok () := by
  have hnone := get?_of_createFolder h
  cases hp : s.requireParent folder with
  | error f => simp [createFolder, contains_eq_isSome, hnone, hp, bind, Except.bind] at h
  | ok _ => rfl

/-- A file that is deleted is removed. -/
theorem eq_remove_of_deleteFile {s t : Store} {file : Path} (h : s.deleteFile file = .ok t) :
    t = s.remove file := by
  unfold deleteFile at h
  split at h
  · exact (Except.ok.inj h).symm
  · simp at h
  · simp at h

/-- What is deleted as a file is one. -/
theorem exists_file_of_deleteFile {s t : Store} {file : Path} (h : s.deleteFile file = .ok t) :
    ∃ data modified, s.get? file = some (.file data modified) := by
  unfold deleteFile at h
  split at h
  · next data modified he => exact ⟨data, modified, he⟩
  · simp at h
  · simp at h

/-- A folder that is deleted is removed with all below it. -/
theorem eq_removeSubtree_of_deleteFolder {s t : Store} {folder : Path}
    (h : s.deleteFolder folder = .ok t) : t = s.removeSubtree folder := by
  unfold deleteFolder at h
  cases hr : folder.isRoot with
  | true => simp [hr, bind, Except.bind, throw, throwThe, MonadExceptOf.throw] at h
  | false =>
    cases hf : s.requireFolder folder with
    | error f => simp [hr, hf, bind, Except.bind] at h
    | ok _ =>
      simpa [hr, hf, bind, Except.bind, pure, Except.pure, eq_comm] using h

/-- The root is not deleted. -/
theorem isRoot_eq_false_of_deleteFolder {s t : Store} {folder : Path}
    (h : s.deleteFolder folder = .ok t) : folder.isRoot = false := by
  cases hr : folder.isRoot with
  | true => simp [deleteFolder, hr, bind, Except.bind, throw, throwThe, MonadExceptOf.throw] at h
  | false => rfl

end Store

/-! ### Served requests -/

namespace Provider

/-- A change leaves a path as it is if it does so where it succeeds. -/
private theorem get?_commit {α : Type} (p : Provider) {change : Answer (α × Store)}
    (reply : α → Reply) {path : Path}
    (h : ∀ a t, change = .ok (a, t) → t.get? path = p.store.get? path) :
    (p.commit change reply).1.store.get? path = p.store.get? path := by
  cases change with
  | error f => rfl
  | ok result => exact h result.1 result.2 rfl

/-- What a change is told to reply does not matter for whether it succeeds. -/
theorem eq_ok_of_map {α : Type} {change : Answer Store} {made a : α} {t : Store}
    (h : change.map (fun s => (made, s)) = .ok (a, t)) : change = .ok t := by
  cases change with
  | error f => simp [Except.map] at h
  | ok t' =>
    obtain ⟨-, rfl⟩ : made = a ∧ t' = t := by simpa [Except.map] using h
    rfl

/-- A served request changes nothing outside its scope. -/
theorem get?_serve (p : Provider) (now : Timestamp) {r : Request} {path : Path}
    (h : r.mayChange path = false) :
    (p.serve now r).1.store.get? path = p.store.get? path := by
  cases r with
  | metadata path => rfl
  | list folder token => rfl
  | quota folder => rfl
  | read file offset count => rfl
  | write file replace data modified =>
    have hne : file ≠ path := by
      rintro rfl
      simp [Request.mayChange] at h
    apply p.get?_commit
    intro item t ht
    obtain ⟨-, rfl⟩ := Store.eq_put_of_write ht
    rw [Store.get?_put, if_neg hne]
  | createFolder folder =>
    have hne : folder ≠ path := by
      rintro rfl
      simp [Request.mayChange] at h
    apply p.get?_commit
    intro made t ht
    rw [Store.eq_put_of_createFolder (eq_ok_of_map ht), Store.get?_put, if_neg hne]
  | deleteFile file =>
    have hne : file ≠ path := by
      rintro rfl
      simp [Request.mayChange] at h
    apply p.get?_commit
    intro done t ht
    rw [Store.eq_remove_of_deleteFile (eq_ok_of_map ht), Store.get?_remove, if_neg hne]
  | deleteFolder folder =>
    have hout : path.startsWith folder = false := h
    apply p.get?_commit
    intro done t ht
    rw [Store.eq_removeSubtree_of_deleteFolder (eq_ok_of_map ht), Store.get?_removeSubtree, hout]
    rfl
  | move source target replace =>
    obtain ⟨hs, ht⟩ := Bool.or_eq_false_iff.mp h
    exact Store.get?_move p.store replace hs ht

/-- What is known of a path outside the scope of a served request stays the same. -/
theorem metadata_serve (p : Provider) (now : Timestamp) {r : Request} {path : Path}
    (h : r.mayChange path = false) :
    (p.serve now r).1.store.metadata path = p.store.metadata path := by
  unfold Store.metadata
  rw [p.get?_serve now h]

/-- A request with no scope leaves the provider as it is. -/
theorem serve_eq_self (p : Provider) (now : Timestamp) {r : Request}
    (h : r.operation = .metadata ∨ r.operation = .list ∨ r.operation = .quota ∨
      r.operation = .read) : (p.serve now r).1 = p := by
  cases r <;> simp [Request.operation] at h <;> rfl

end Provider

/-! ### Items on pages -/

namespace Store

/-- The path of an entry's item is the path where it is stored. -/
theorem path_item (path : Path) (e : Entry) : (e.item path).path = path := by
  cases e <;> rfl

/-- A child is what the store says of its path. -/
theorem metadata_of_mem_children {s : Store} {folder : Path} {item : Item}
    (h : item ∈ s.children folder) : s.metadata item.path = .ok item := by
  obtain ⟨⟨key, e⟩, hmem, rfl⟩ := List.mem_map.mp h
  have hget : s.get? key = some e :=
    Std.ExtTreeMap.mem_toList_iff_getElem?_eq_some.mp (List.mem_filter.mp hmem).1
  rw [path_item, metadata, hget]

/-- A path is that of a folder exactly where a folder is stored. -/
theorem requireFolder_eq_ok_iff {s : Store} {folder : Path} :
    s.requireFolder folder = .ok () ↔ s.get? folder = some .folder := by
  rcases hfolder : s.get? folder with _ | _ | _ <;> simp [requireFolder, hfolder]

/-- A page is listed where a folder is stored, from a start that the token gives, if its end is a
64-bit number. -/
theorem list_eq_value_iff {s : Store} {pageSize : UInt64} {folder : Path} {token : Option String}
    {l : Listing} : s.list pageSize folder token = .value l ↔ s.get? folder = some .folder ∧
      ∃ start, pageStart (s.children folder).length token = .ok start ∧
        start + pageSize.toNat < UInt64.size ∧
        page (s.children folder) pageSize.toNat start = l := by
  rw [← requireFolder_eq_ok_iff]
  cases hfolder : s.requireFolder folder with
  | error f => simp [list, hfolder, Outcome.failure, Outcome.value]
  | ok =>
    cases hstart : pageStart (s.children folder).length token with
    | error f => simp [list, hfolder, hstart, Outcome.failure, Outcome.value]
    | ok start =>
      by_cases hfits : start + pageSize.toNat < UInt64.size <;>
        simp [list, hfolder, hstart, hfits, Outcome.value]

/-- An item on a page is what the store says of its path. -/
theorem metadata_of_mem_list {s : Store} {pageSize : UInt64} {folder : Path}
    {token : Option String} {l : Listing} {item : Item}
    (h : s.list pageSize folder token = .value l) (hitem : item ∈ l.items) :
    s.metadata item.path = .ok item := by
  obtain ⟨-, start, -, -, rfl⟩ := list_eq_value_iff.mp h
  exact metadata_of_mem_children (List.mem_of_mem_take (List.mem_of_mem_drop hitem))

end Store
end LayeredStore
