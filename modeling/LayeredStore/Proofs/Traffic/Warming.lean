import LayeredStore.Proofs.Store.Pages
import LayeredStore.Proofs.Traffic.Caching

/-!
# Walks that warm a cache

Every item on a page is remembered when the page comes back through a metadata cache. Main
statement: when all pages of a folder come back, one after the other and among whatever else is
going on, every child of the folder is on one of them, and lookups of the child are answered from
the cache with what the provider would answer, until a lifetime has passed since the first page came
back; unless the children have changed since then, or someone has made a request that may change the
child, with success or not, which was not done with when the page with the child came back.
-/

namespace LayeredStore

/-- Stores that agree on the paths in a folder have the same children there. -/
private theorem Store.children_congr {s t : Store} {folder : Path}
    (h : ∀ path, path.parent? = some folder → s.get? path = t.get? path) :
    s.children folder = t.children folder := by
  have hfilter : (s.entries.filter fun key _ => decide (key.parent? = some folder)) =
      t.entries.filter fun key _ => decide (key.parent? = some folder) := by
    refine Std.ExtTreeMap.ext_getElem? fun {path} => ?_
    by_cases hpath : path.parent? = some folder
    · have hsame : s.entries[path]? = t.entries[path]? := h path hpath
      simp [hpath, hsame]
    · simp [hpath]
  have hlist := congrArg Std.ExtTreeMap.toList hfilter
  rw [Std.ExtTreeMap.toList_filter, Std.ExtTreeMap.toList_filter] at hlist
  exact congrArg (List.map fun entry => entry.2.item entry.1) hlist

/-- What comes from the start of a page on is on the page, or comes from where its token leads
on. -/
private theorem Store.mem_page_or_follows {items : List Item} {size start : Nat} {item : Item}
    (hfits : start + size < UInt64.size) (hitem : item ∈ items.drop start) :
    item ∈ (Store.page items size start).items ∨
      ∃ following next, (Store.page items size start).nextToken = some following ∧
        Store.pageStart items.length (some following) = .ok next ∧ item ∈ items.drop next := by
  rw [← Store.items_page_append items size start, List.mem_append] at hitem
  refine hitem.imp_right fun hlater => ?_
  have hmore : start + size < items.length := by
    by_contra hend
    rw [List.drop_eq_nil_of_le (Nat.not_lt.mp hend)] at hlater
    cases hlater
  exact ⟨_, start + size, by rw [Store.nextToken_page, if_pos hmore],
    Store.pageStart_toString hfits hmore.le, hlater⟩

/-- To make a folder where something is already changes nothing. -/
private theorem Provider.createFolder_serve_of_contains (p : Provider) {folder : Path}
    (h : p.store.contains folder = true) (now : Timestamp) :
    (p.serve now (.createFolder folder)).1 = p := by
  have hfails : p.store.createFolder folder = .error (.alreadyExists folder) := by
    rw [Store.createFolder, if_pos h]
    rfl
  rw [Provider.serve, hfails]
  rfl

namespace Front

variable {f : Front} {c : MetadataCache} {e : Event} {es : List Event} {folder : Path}
  {token : Option String} {page : Listing}

/-! ### Pages that come back -/

/-- An event brings a page of a folder to a caller who has asked for it. -/
def Fetches (f : Front) (e : Event) (folder : Path) (token : Option String) (page : Listing) :
    Prop :=
  ∃ id, e = .serve id ∧ f.traffic.tasks[id]? = some ⟨.caller, .list folder token, .calling⟩ ∧
    (f.step e).2 = .report (.value (.listing page))

/-- A page that comes back is one that the store lists, and all its items are known. -/
theorem Holds.fetches {allowed : Request → Prop} (h : f.Holds c allowed)
    (hfetch : f.Fetches e folder token page) :
    f.provider.store.list f.provider.pageSize folder token = .value page ∧
      ∃ c', (f.step e).1.Holds c' allowed ∧ c'.outcomes.lifetime = c.outcomes.lifetime ∧
        f.traffic.now ≤ (f.step e).1.traffic.now ∧
        ∀ item ∈ page.items, c'.Knows f.traffic.now item.path (.ok item) := by
  obtain ⟨id, rfl, htask, hreport⟩ := hfetch
  obtain ⟨c', h', hmove, hlater⟩ := h.serve id
  have hlayers := h'.layers
  rw [step_serve h.layers htask] at hreport hlayers
  have hserve : (f.provider.serve ⟨f.traffic.now⟩ (.list folder token)).2 =
      .value (.listing page) := Effect.report.inj hreport
  have hlist := Provider.serve_list_eq_iff.mp (Prod.ext rfl hserve)
  obtain rfl : c.returned f.traffic.now (.list folder token) (.ok (.listing page)) = c' := by
    simpa [hserve, Outcome.value] using hlayers
  exact ⟨hlist, _, h', hmove.lifetime_eq, hlater, fun item => c.knows_of_list f.traffic.now hlist⟩

/-- A run begins with a page of a folder that comes back with a path on it. -/
inductive Brings (folder path : Path) : Front → List Event → Prop
  | intro {f : Front} {e : Event} {later : List Event} {token : Option String} {page : Listing}
    (hfetch : f.Fetches e folder token page) (hpath : path ∈ page.items.map Item.path) :
    Brings folder path f (e :: later)

/-! ### Walks -/

/-- A run begins with the page of a token, and goes on with the page that its token leads to, up to
one that has none; whatever else happens comes between the pages and after the last one. -/
inductive Walk (folder : Path) : Option String → Front → List Event → Prop
  | last {f : Front} {e : Event} {later : List Event} {token : Option String} {page : Listing}
    (hfetch : f.Fetches e folder token page) (hlast : page.nextToken = none) :
    Walk folder token f (e :: later)
  | next {f : Front} {e : Event} {between later : List Event} {token : Option String}
    {page : Listing} {following : String} (hfetch : f.Fetches e folder token page)
    (hnext : page.nextToken = some following)
    (hrest : Walk folder (some following) (f.after (e :: between)) later) :
    Walk folder token f (e :: (between ++ later))

/-- The children of a folder are those of a store. -/
def HasChildrenOf (f : Front) (s : Store) (folder : Path) : Prop :=
  ∀ path, path.parent? = some folder → f.provider.store.get? path = s.get? path

/-- A child is what the store says of its path. -/
private theorem HasChildrenOf.metadata_eq {s : Store} {path : Path} (h : f.HasChildrenOf s folder)
    (hpath : path ∈ s.childKeys folder) : f.provider.store.metadata path = s.metadata path := by
  have hparent : path.parent? = some folder := by
    simpa using (List.mem_filter.mp hpath).2
  rw [Store.metadata, Store.metadata, h path hparent]

variable {s : Store} {item : Item} {path : Path}

/-- What is on a page is known after every run that begins when the page comes back. -/
private theorem Holds.knows_of_mem_page (h : f.Holds c fun r => r.mayChange item.path = false)
    (hfetch : f.Fetches e folder token page) (hmem : item ∈ page.items)
    (hes : Issues (fun r => r.mayChange item.path = false) es)
    (hstore : Throughout (fun g => g.provider.store.metadata item.path = .ok item)
      (f.step e).1 es) :
    ∃ c', (f.after (e :: es)).Holds c' (fun r => r.mayChange item.path = false) ∧
      c'.outcomes.lifetime = c.outcomes.lifetime ∧
      c'.Knows f.traffic.now item.path (.ok item) := by
  obtain ⟨-, c₁, h₁, hlife, hlater, hknows⟩ := h.fetches hfetch
  obtain ⟨c', h', hlife', hknows'⟩ := h₁.knows_after hes hstore hlater (hknows item hmem)
  exact ⟨c', h', hlife'.trans hlife, hknows'⟩

/-- A child is known after every run that begins when a page with it comes back, if the children of
the folder stay as they are and nobody makes a request that may change the child. -/
theorem Brings.knows (hbrings : Brings folder path f es)
    (h : f.Holds c fun r => r.mayChange path = false)
    (hes : Issues (fun r => r.mayChange path = false) es)
    (hstore : Throughout (fun g => g.HasChildrenOf s folder) f es)
    (hpath : path ∈ s.childKeys folder) :
    ∃ item c', s.metadata path = .ok item ∧
      (f.after es).Holds c' (fun r => r.mayChange path = false) ∧
      c'.outcomes.lifetime = c.outcomes.lifetime ∧
      c'.Knows f.traffic.now path (.ok item) := by
  obtain ⟨hfetch, hmem⟩ := hbrings
  obtain ⟨item, hitem, rfl⟩ := List.mem_map.mp hmem
  -- what is on the page is what the store says of it
  obtain ⟨hlist, -⟩ := h.fetches hfetch
  have hsame := Store.metadata_of_mem_list hlist hitem
  rw [hstore.head.metadata_eq hpath] at hsame
  obtain ⟨c', h'⟩ := h.knows_of_mem_page hfetch hitem
    (fun r hr => hes r (List.mem_cons_of_mem _ hr))
    (hstore.2.imp fun g hg => (hg.metadata_eq hpath).trans hsame)
  exact ⟨item, c', hsame, h'⟩

/-- All requests of a run are allowed if there are no others. -/
private theorem issues_true (es : List Event) : Issues (fun _ => True) es :=
  fun _ _ => trivial

/-- A page of a walk begins where the walk does. -/
private theorem Holds.page_eq {allowed : Request → Prop} (h : f.Holds c allowed)
    (hfetch : f.Fetches e folder token page) (hstore : f.HasChildrenOf s folder) {start : Nat}
    (hstart : Store.pageStart (s.children folder).length token = .ok start) :
    ∃ size, start + size < UInt64.size ∧ page = Store.page (s.children folder) size start := by
  obtain ⟨hlist, -⟩ := h.fetches hfetch
  obtain ⟨-, start', hstart', hfits, hpage⟩ := Store.list_eq_value_iff.mp hlist
  rw [Store.children_congr hstore] at hstart' hpage
  obtain rfl := Except.ok.inj (hstart.symm.trans hstart')
  exact ⟨_, hfits, hpage.symm⟩

/-- **Walks bring all children.** Every child from the start of a walk on comes back on a page of
the walk. -/
theorem Walk.exists_brings (hwalk : Walk folder token f es) (h : f.Holds c fun _ => True)
    (hstore : Throughout (fun g => g.HasChildrenOf s folder) f es) {start : Nat}
    (hstart : Store.pageStart (s.children folder).length token = .ok start)
    (hitem : item ∈ (s.children folder).drop start) :
    ∃ before later, es = before ++ later ∧ Brings folder item.path (f.after before) later := by
  induction hwalk generalizing c start with
  | @last f e later token page hfetch hlast =>
    obtain ⟨size, hfits, rfl⟩ := h.page_eq hfetch hstore.head hstart
    obtain hmem | ⟨following, next, hnext, -⟩ := Store.mem_page_or_follows hfits hitem
    · exact ⟨[], e :: later, rfl, .intro hfetch (List.mem_map_of_mem hmem)⟩
    · cases hlast.symm.trans hnext
  | @next f e between later token page following hfetch hfollowing hrest ih =>
    obtain ⟨size, hfits, rfl⟩ := h.page_eq hfetch hstore.head hstart
    obtain hmem | ⟨following', next, hnext, hstart', hitem'⟩ :=
      Store.mem_page_or_follows hfits hitem
    · exact ⟨[], e :: (between ++ later), rfl, .intro hfetch (List.mem_map_of_mem hmem)⟩
    · obtain rfl := Option.some.inj (hfollowing.symm.trans hnext)
      have happend : e :: (between ++ later) = (e :: between) ++ later := rfl
      rw [happend] at hstore ⊢
      obtain ⟨c₁, h₁, -, -⟩ := h.after (issues_true (e :: between))
      obtain ⟨before, later', rfl, hbrings⟩ := ih h₁ hstore.of_append hstart' hitem'
      rw [← after_append] at hbrings
      exact ⟨(e :: between) ++ before, later', (List.append_assoc _ _ _).symm, hbrings⟩

/-! ### Lookups after a walk -/

/-- A lookup of a path that the cache knows is answered when its task runs. -/
private theorem reports_of_find? (hl : f.traffic.layers = [.metadata c]) {id : Nat} {path : Path}
    (htask : f.traffic.tasks[id]? = some ⟨.caller, .metadata path, .issued⟩)
    (hfind : c.outcomes.find? f.traffic.now path = some (.ok item)) :
    (f.step (.run id)).2 = .report (.value (.item item)) := by
  have hpoll := Traffic.poll_issued hl htask
  simp only [MetadataCache.receive, MetadataCache.get, hfind, Option.map_some] at hpoll
  simp only [step, hpoll]
  rfl

/-- Lookups of a path are answered with an item, without a call of the provider: that of a caller
who asks now, and those of all who have asked before and whose tasks have still to run. -/
structure Recalls (f : Front) (path : Path) (item : Item) : Prop where
  asked : ((f.step (.issue (.metadata path))).1.step (.run f.traffic.next)).2 =
    .report (.value (.item item))
  waiting : ∀ (id : Nat),
    f.traffic.tasks[id]? = some ⟨.caller, .metadata path, .issued⟩ →
      (f.step (.run id)).2 = .report (.value (.item item))

/-- What the cache knows is recalled for a lifetime. -/
theorem Holds.recalls {allowed : Request → Prop} {since : Nanoseconds} {path : Path}
    (h : f.Holds c allowed) (hknows : c.Knows since path (.ok item))
    (hnow : f.traffic.now - since < c.outcomes.lifetime) : f.Recalls path item where
  asked := reports_of_find? (f := (f.step (.issue (.metadata path))).1) h.layers
    Std.ExtTreeMap.getElem?_insert_self (hknows.find? hnow)
  waiting _ htask := reports_of_find? h.layers htask (hknows.find? hnow)

/-- Nobody makes a request that may change a path: none is under way, and none is issued. -/
structure Spares (f : Front) (es : List Event) (path : Path) : Prop where
  underWay : ∀ (id : Nat) (task : Task), f.traffic.tasks[id]? = some task →
    task.request.mayChange path = false
  issued : Issues (fun r => r.mayChange path = false) es

/-- **Walks warm the cache.** When the pages of a folder come back, from the first to the last one,
every child is on one of them. From the moment on at which such a page comes back, a lookup of the
child is answered from the cache, with what the provider would answer, as long as less than a
lifetime has passed since the first page came back. All else may happen as it will, before the walk,
during it and after it, and the cache may have held anything of the child before; but the children
of the folder stay as they are from the first page on, and from the page with the child on nobody
makes a request that may change the child, not even one that fails. -/
theorem walks_warm_cache (c : MetadataCache) (p : Provider) (now : Nanoseconds)
    (earlier es : List Event) (folder : Path) :
    let f := (start c p now).after earlier
    let g := f.after es
    Walk folder none f es →
    Throughout (fun h => h.HasChildrenOf f.provider.store folder) f es →
    g.traffic.now - f.traffic.now < c.outcomes.lifetime →
    ∀ path ∈ f.provider.store.childKeys folder,
      (∃ before later, es = before ++ later ∧ Brings folder path (f.after before) later) ∧
      ∀ before later, es = before ++ later → Brings folder path (f.after before) later →
        (f.after before).Spares later path →
          ∃ item, (∀ moment, g.provider.serve moment (.metadata path) =
            (g.provider, .value (.item item))) ∧ g.Recalls path item := by
  intro f g hwalk hstore hnow path hpath
  obtain ⟨c₁, h₁, hlife₁, -⟩ := (Holds.start c p now fun _ => True).after (issues_true earlier)
  constructor
  · obtain ⟨item, hitem, rfl⟩ : ∃ item ∈ f.provider.store.children folder, item.path = path := by
      rw [← Store.map_path_children] at hpath
      exact List.mem_map.mp hpath
    exact hwalk.exists_brings h₁ hstore rfl (List.drop_zero ▸ hitem)
  · intro before later hes hbrings hspares
    obtain ⟨c₂, h₂, hlife₂, hlater⟩ := h₁.after (issues_true before)
    have hrest : Throughout (fun h => h.HasChildrenOf f.provider.store folder) (f.after before)
        later := (hes ▸ hstore).of_append
    have hg : g = (f.after before).after later := by
      rw [← after_append, ← hes]
    obtain ⟨item, c', hitem, h', hlife, hknows⟩ :=
      hbrings.knows (h₂.restrict hspares.underWay) hspares.issued hrest hpath
    rw [← hg] at h'
    refine ⟨item, fun moment => ?_, h'.recalls (hknows.mono hlater) ?_⟩
    · rw [Provider.serve, hstore.last.metadata_eq hpath, hitem]
      rfl
    · rwa [hlife, hlife₂, hlife₁]

/-- Two pages bring three children. Of the last one it was believed that it is absent, and someone
tries in vain to create it once more between the pages. -/
theorem walks_warm_cache_two_pages :
    let d : Path := ⟨true, ["d"]⟩
    let x := d.child "x"
    let s := (((Store.initial.put d .folder).put (d.child "a") .folder).put (d.child "b")
      .folder).put x .folder
    let p : Provider := ⟨s, none, 2⟩
    let c := (⟨⟨ofSeconds 10, ∅⟩, .zero⟩ : MetadataCache).insertMissing 0 x (.notFound x)
    let f := (start c p 0).after [.issue (.list d none), .run 0]
    let between : List Event := [.issue (.createFolder x), .run 1, .serve 1,
      .issue (.list d (some "2")), .run 2, .tick (ofSeconds 4)]
    let before := .serve 0 :: between
    let later : List Event := [.serve 2, .tick (ofSeconds 5)]
    let es := .serve 0 :: (between ++ later)
    let g := f.after es
    Walk d none f es ∧ Throughout (fun h => h.HasChildrenOf f.provider.store d) f es ∧
      g.traffic.now - f.traffic.now < c.outcomes.lifetime ∧
      x ∈ f.provider.store.childKeys d ∧ Brings d x (f.after before) later ∧
      (f.after before).Spares later x ∧
      ∃ item, (∀ moment, g.provider.serve moment (.metadata x) =
        (g.provider, .value (.item item))) ∧ g.Recalls x item := by
  intro d x s p c f between before later es g
  let first : Listing := ⟨[.folder (d.child "a"), .folder (d.child "b")], some "2"⟩
  let second : Listing := ⟨[.folder x], none⟩
  have hfirst : f.Fetches (.serve 0) d none first :=
    ⟨0, rfl, by decide +kernel, by decide +kernel⟩
  have hsecond : (f.after before).Fetches (.serve 2) d (some "2") second :=
    ⟨2, rfl, by decide +kernel, by decide +kernel⟩
  have hlast : Walk d (some "2") (f.after before) later := .last hsecond rfl
  have hwalk : Walk d none f es := .next hfirst rfl hlast
  have hbrings : Brings d x (f.after before) later := .intro hsecond List.mem_cons_self
  -- nothing is asked for but pages and what is there already
  let asks : Request → Prop := fun r => (∃ folder token, r = .list folder token) ∨
    r = .createFolder x
  have hearlier : Issues asks [.issue (.list d none), .run 0] := by
    intro r hr
    exact .inl ⟨d, none, by simpa using hr⟩
  have hes : Issues asks es := by
    intro r hr
    have hr' : r = .createFolder x ∨ r = .list d (some "2") := by
      simpa [es, between, later] using hr
    exact hr'.symm.imp_left fun h => ⟨d, some "2", h⟩
  have hkeep : ∀ r, asks r → ∀ now, (p.serve now r).1 = p := by
    rintro r (⟨folder, token, rfl⟩ | rfl) now
    · rfl
    · exact p.createFolder_serve_of_contains (by decide +kernel) now
  have h₀ := Holds.start c p 0 asks
  obtain ⟨c₁, h₁, -, -⟩ := h₀.after hearlier
  have hp : f.provider = p :=
    ((h₀.imp hkeep).throughout_provider_eq (hearlier.imp hkeep) rfl).last
  have hprovider := (h₁.imp hkeep).throughout_provider_eq (hes.imp hkeep) hp
  have hstore : Throughout (fun h => h.HasChildrenOf f.provider.store d) f es :=
    hprovider.imp fun h hh path _ => by rw [hh.trans hp.symm]
  -- only the call of the second page is under way when it comes back
  have hall : (f.after before).traffic.tasks.toList.all
      (fun entry => !entry.2.request.mayChange x) = true := by decide +kernel
  have hunderWay : ∀ (id : Nat) (task : Task), (f.after before).traffic.tasks[id]? = some task →
      task.request.mayChange x = false := by
    intro id task htask
    simpa using List.all_eq_true.mp hall (id, task)
      (Std.ExtTreeMap.mem_toList_iff_getElem?_eq_some.mpr htask)
  have hissued : Issues (fun r => r.mayChange x = false) later := by
    intro r hr
    simp [later] at hr
  have hspares : (f.after before).Spares later x := ⟨hunderWay, hissued⟩
  have hnow : g.traffic.now - f.traffic.now < c.outcomes.lifetime := by decide +kernel
  have hx : x ∈ f.provider.store.childKeys d := by decide +kernel
  refine ⟨hwalk, hstore, hnow, hx, hbrings, hspares, (walks_warm_cache c p 0
    [.issue (.list d none), .run 0] es d hwalk hstore ?_ x hx).2 before later rfl hbrings hspares⟩
  decide +kernel

/-- It is not so that a walk warms the cache as long as the store does not change: a child is asked
for that someone has tried in vain to create once more. -/
theorem not_walks_warm_cache : ¬ ∀ (c : MetadataCache) (p : Provider) (now : Nanoseconds)
    (earlier es : List Event) (folder : Path),
    let f := (start c p now).after earlier
    let g := f.after es
    Walk folder none f es →
    Throughout (fun h => h.provider = f.provider) f es →
    g.traffic.now - f.traffic.now < c.outcomes.lifetime →
    ∀ path ∈ f.provider.store.childKeys folder,
      ∃ item, (∀ moment, g.provider.serve moment (.metadata path) =
        (g.provider, .value (.item item))) ∧ g.Recalls path item := by
  intro h
  let d : Path := ⟨true, ["d"]⟩
  let x := d.child "x"
  let p : Provider := ⟨(Store.initial.put d .folder).put x .folder, none, 100⟩
  let c : MetadataCache := ⟨⟨ofSeconds 10, ∅⟩, .zero⟩
  let f := (start c p 0).after [.issue (.list d none), .run 0]
  let es : List Event := [.serve 0, .issue (.createFolder x), .run 1, .serve 1,
    .issue (.metadata x)]
  have hfetch : f.Fetches (.serve 0) d none ⟨[.folder x], none⟩ :=
    ⟨0, rfl, by decide +kernel, by decide +kernel⟩
  -- nothing is asked for but what is there already
  let asks : Request → Prop := fun r => r = .list d none ∨ r = .createFolder x ∨ r = .metadata x
  have hearlier : Issues asks [.issue (.list d none), .run 0] := by
    intro r hr
    exact .inl (by simpa using hr)
  have hes : Issues asks es := by
    intro r hr
    exact .inr (by simpa [es] using hr)
  have hkeep : ∀ r, asks r → ∀ now, (p.serve now r).1 = p := by
    rintro r (rfl | rfl | rfl) now
    · rfl
    · exact p.createFolder_serve_of_contains (by decide +kernel) now
    · rfl
  obtain ⟨c₁, h₁, -, -⟩ := (Holds.start c p 0 asks).after hearlier
  have hprovider := (h₁.imp hkeep).throughout_provider_eq (hes.imp hkeep) rfl
  obtain ⟨item, -, hrecalls⟩ := h c p 0 [.issue (.list d none), .run 0] es d (.last hfetch rfl)
    hprovider (by decide +kernel) x (by decide +kernel)
  have hcalls : ((f.after es).step (.run 2)).2 = .call (.metadata x) := by decide +kernel
  have hreports := hrecalls.waiting 2 (by decide +kernel)
  cases hcalls.symm.trans hreports

end Front
end LayeredStore
