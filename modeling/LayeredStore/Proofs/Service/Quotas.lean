import LayeredStore.Proofs.Layer.Resting
import LayeredStore.Proofs.Service.Transparency
import LayeredStore.Proofs.Traffic.Record

/-!
# Quotas behind a coalescing layer

One caller makes one request after the other, with pauses, and a single coalescing layer stands
before the provider. The layer keeps the quotas that it has been told, and the absence of folders,
for a lifetime. Main statement: a quota is answered as the provider alone would answer it, or the
folder is said to be absent that was so when its quota was last asked for in vain, less than a
lifetime ago, and has been put there since.
-/

namespace LayeredStore

/-! ### What a request does to a folder -/

/-- Whether a request puts something at exactly this path. -/
def Request.creates (r : Request) (path : Path) : Bool :=
  match r with
  | .write file .. => file = path
  | .createFolder folder => folder = path
  | .metadata .. | .list .. | .quota .. | .read .. | .deleteFile .. | .deleteFolder ..
  | .move .. => false

/-- A request that can change a path, but does not cover its quota, puts something there. -/
private theorem Request.creates_of_mayChange {r : Request} {path : Path}
    (h : r.mayChange path = true) (hcovers : r.covers (.quota path) = false) :
    r.creates path = true := by
  cases r with
  | write file replace data modified => simpa [creates, mayChange, eq_comm] using h
  | createFolder folder => simpa [creates, mayChange, eq_comm] using h
  | deleteFile file =>
    obtain rfl : path = file := by simpa [mayChange] using h
    simp [covers, isBelow, Path.startsWith_refl] at hcovers
  | deleteFolder folder => exact absurd (hcovers.symm.trans h) (by simp)
  | move source target replace => exact absurd (hcovers.symm.trans h) (by simp)
  | _ => simp [mayChange] at h

namespace Provider

variable {p q : Provider} {folder : Path}

/-- No request changes what the provider says about quotas. -/
theorem quota_serve (p : Provider) (now : Timestamp) (r : Request) :
    (p.serve now r).1.quota = p.quota := by
  have hcommit {α : Type} (change : Answer (α × Store)) (reply : α → Reply) :
      (p.commit change reply).1.quota = p.quota := by
    cases change <;> rfl
  cases r with
  | write file replace data modified => exact hcommit _ _
  | createFolder folder => exact hcommit _ _
  | deleteFile file => exact hcommit _ _
  | deleteFolder folder => exact hcommit _ _
  | _ => rfl

/-- Of the quota of a folder only matters whether it is a folder. -/
private theorem folderQuota_congr (hquota : p.quota = q.quota)
    (h : p.store.requireFolder folder = q.store.requireFolder folder) :
    p.folderQuota folder = q.folderQuota folder := by
  simp [folderQuota, h, hquota]

/-- What fails to be a folder has no quota. -/
private theorem folderQuota_of_error {f : Failure} (h : p.store.requireFolder folder = .error f) :
    p.folderQuota folder = .error f := by
  simp [folderQuota, h, bind, Except.bind]

/-- A request that does not cover a folder's quota leaves a folder a folder and anything else
anything else, unless it puts something where there was nothing. -/
theorem requireFolder_serve (p : Provider) (now : Timestamp) {r : Request}
    (h : r.covers (.quota folder) = false) :
    (p.serve now r).1.store.requireFolder folder = p.store.requireFolder folder ∨
      p.store.requireFolder folder = .error (.notFound folder) ∧ r.creates folder = true ∧
        ∃ reply, (p.serve now r).2 = .value reply := by
  cases hchange : r.mayChange folder with
  | false => exact .inl (by rw [Store.requireFolder, p.get?_serve now hchange, Store.requireFolder])
  | true =>
    have hcreates := Request.creates_of_mayChange hchange h
    cases r with
    | write file replace data modified =>
      obtain rfl : file = folder := by simpa [Request.creates] using hcreates
      cases hw : p.store.write file replace data (modified.getD now) with
      | error f => exact .inl (by simp [serve, commit, hw])
      | ok written =>
        obtain ⟨item, t⟩ := written
        obtain ⟨-, rfl⟩ := Store.eq_put_of_write hw
        have hnot := Store.get?_ne_folder_of_write hw
        cases he : p.store.get? file with
        | none =>
          refine .inr ⟨by simp [Store.requireFolder, he], hcreates, .item item, ?_⟩
          simp [serve, commit, hw]
        | some e =>
          cases e with
          | folder => exact absurd he hnot
          | file old changed =>
            exact .inl (by simp [serve, commit, hw, Store.requireFolder, Store.get?_put, he])
    | createFolder made =>
      obtain rfl : made = folder := by simpa [Request.creates] using hcreates
      cases hm : p.store.createFolder made with
      | error f => exact .inl (by simp [serve, commit, hm, Except.map])
      | ok t =>
        have hnone := Store.get?_of_createFolder hm
        refine .inr ⟨by simp [Store.requireFolder, hnone], hcreates, .path made, ?_⟩
        simp [serve, commit, hm, Except.map]
    | _ => simp [Request.creates] at hcreates

end Provider

/-! ### The provider alone -/

namespace Bare

variable {b : Bare} {folder : Path} {since : List Turn}

@[simp] theorem after_append (b : Bare) (turns turns' : List Turn) :
    b.after (turns ++ turns') = (b.after turns).after turns' := List.foldl_append

/-- No turn changes what the provider says about quotas. -/
private theorem quota_after (b : Bare) (turns : List Turn) :
    (b.after turns).provider.quota = b.provider.quota := by
  induction turns generalizing b with
  | nil => rfl
  | cons t turns ih =>
    refine (ih (b.turn t)).trans ?_
    cases t with
    | request r => exact b.provider.quota_serve ⟨b.now⟩ r
    | pause d => rfl

/-- What has been a folder is one after some turns, and what has not is not, unless something has
been put where there was nothing, or a request covers its quota. -/
private theorem requireFolder_after (b : Bare)
    (h : ∀ r, .request r ∈ since → r.covers (.quota folder) = false) :
    (b.after since).provider.store.requireFolder folder = b.provider.store.requireFolder folder ∨
      b.provider.store.requireFolder folder = .error (.notFound folder) ∧
        ∃ first r rest, since = first ++ .request r :: rest ∧ r.creates folder = true ∧
          ∃ reply, (b.after first).answer r = .value reply := by
  induction since using List.reverseRecOn with
  | nil => exact .inl rfl
  | append_singleton since t ih =>
    rcases ih fun r hr => h r (List.mem_append_left _ hr) with
      hsame | ⟨hnone, first, r, rest, rfl, hput⟩
    · cases t with
      | pause d => exact .inl (by simpa [after, turn] using hsame)
      | request r =>
        have hcovers := h r (List.mem_append_right _ (List.mem_singleton_self _))
        rcases (b.after since).provider.requireFolder_serve ⟨(b.after since).now⟩ hcovers with
          hserve | ⟨hnone, hcreates, reply, hreply⟩
        · refine .inl ?_
          rw [after_append]
          exact hserve.trans hsame
        · exact .inr ⟨hsame ▸ hnone, since, r, [], rfl, hcreates, reply, hreply⟩
    · exact .inr ⟨hnone, first, r, rest ++ [t], by simp, hput⟩

/-- The quota of a folder was answered so at a moment, and nothing has covered it since. -/
def Found (b : Bare) (turns : List Turn) (folder : Path) (moment : Nanoseconds)
    (answer : Answer Reply) : Prop :=
  ∃ earlier since, turns = earlier ++ .request (.quota folder) :: since ∧
    (b.after earlier).now = moment ∧
    (b.after earlier).answer (.quota folder) = .answer answer ∧
    ∀ r, .request r ∈ since → r.covers (.quota folder) = false

/-- The quota of a folder was asked for in vain less than a lifetime ago, because there was
nothing, and something has been put there since; nothing has covered the quota in between. -/
def CameUp (b : Bare) (lifetime : Nanoseconds) (turns : List Turn) (folder : Path) : Prop :=
  ∃ earlier first r rest,
    turns = earlier ++ .request (.quota folder) :: (first ++ .request r :: rest) ∧
    (b.after earlier).answer (.quota folder) = .failure (.notFound folder) ∧
    (b.after turns).now - (b.after earlier).now < lifetime ∧
    (∀ r', .request r' ∈ first ++ .request r :: rest → r'.covers (.quota folder) = false) ∧
    r.creates folder = true ∧
    ∃ reply, (b.after (earlier ++ .request (.quota folder) :: first)).answer r = .value reply

/-- What was found goes on to be what was found if a turn does not cover it. -/
theorem Found.snoc {turns : List Turn} {moment : Nanoseconds} {answer : Answer Reply}
    (h : b.Found turns folder moment answer) {t : Turn}
    (ht : ∀ r, t = .request r → r.covers (.quota folder) = false) :
    b.Found (turns ++ [t]) folder moment answer := by
  obtain ⟨earlier, since, rfl, hnow, hanswer, hsince⟩ := h
  refine ⟨earlier, since ++ [t], by simp, hnow, hanswer, ?_⟩
  intro r hr
  rcases List.mem_append.mp hr with hr | hr
  · exact hsince r hr
  · exact ht r (List.mem_singleton.mp hr).symm

/-- What was found less than a lifetime ago is what is found now, unless the folder was absent and
something has come up there. -/
private theorem Found.eq_or_cameUp {turns : List Turn} {moment lifetime : Nanoseconds}
    {answer : Answer Reply} (h : b.Found turns folder moment answer)
    (hlives : (b.after turns).now - moment < lifetime) :
    .answer answer = (b.after turns).answer (.quota folder) ∨
      answer = .error (.notFound folder) ∧ b.CameUp lifetime turns folder := by
  obtain ⟨earlier, since, rfl, rfl, hanswer, hsince⟩ := h
  obtain rfl : ((b.after earlier).provider.folderQuota folder).map Reply.quota = answer := by
    simpa [Bare.answer, Provider.serve] using hanswer
  rcases (b.after earlier).requireFolder_after hsince with
    hsame | ⟨hnone, first, r, rest, rfl, hcreates, reply, hreply⟩
  · refine .inl ?_
    have hquota : (b.after (earlier ++ .request (.quota folder) :: since)).provider.quota =
        (b.after earlier).provider.quota := by
      rw [quota_after, quota_after]
    have hrequire :
        (b.after (earlier ++ .request (.quota folder) :: since)).provider.store.requireFolder
          folder = (b.after earlier).provider.store.requireFolder folder := by
      rw [after_append]
      exact hsame
    have hfolder := Provider.folderQuota_congr hquota hrequire
    simp only [Bare.answer, Provider.serve, hfolder]
  · have hmissing := Provider.folderQuota_of_error hnone
    refine .inr ⟨by rw [hmissing]; rfl, earlier, first, r, rest, rfl, ?_, hlives, hsince, hcreates,
      reply, ?_⟩
    · rw [hanswer, hmissing]
      rfl
    · rw [after_append]
      exact hreply

end Bare

/-! ### The provider behind a coalescing layer -/

namespace Service

/-- A quiet service holds what a provider alone holds after the same turns; its only layer rests,
and keeps of the quotas what was found in some turn and not covered since. -/
structure Keeps (s : Service) (c : Coalescer) (lifetime : Nanoseconds) (b : Bare)
    (turns : List Turn) : Prop where
  quiet : s.Quiet
  provider : s.provider = (b.after turns).provider
  now : s.now = (b.after turns).now
  layers : s.traffic.layers = [.coalescing c]
  resting : c.Resting
  lifetime : c.quota.outcomes.lifetime = lifetime
  kept : ∀ (folder : Path) (moment : Nanoseconds) (answer : Answer Reply),
    c.kept? (.quota folder) = some (moment, answer) → b.Found turns folder moment answer

variable {s : Service} {c : Coalescer} {lifetime : Nanoseconds} {b : Bare} {turns : List Turn}

/-- A new service with a coalescing layer keeps nothing. -/
private theorem exists_keeps_of_new? {pageSize : UInt64} {capable : Bool}
    (h : new? 0 pageSize capable [.coalescing lifetime] = some s) (p : Provider) :
    ∃ c, ({ s with provider := p } : Service).Keeps c lifetime ⟨p, epoch⟩ [] := by
  obtain ⟨layers, hlayers, hs⟩ := Option.map_eq_some_iff.mp h
  obtain ⟨l, hl, rfl⟩ : ∃ l, Layer.new? capable (.coalescing lifetime) = some l ∧ [l] = layers := by
    simpa [Option.bind_eq_some_iff] using hlayers
  obtain ⟨c, hc, rfl⟩ := Option.map_eq_some_iff.mp hl
  have htraffic : s.traffic = .start [.coalescing c] epoch := by rw [← hs]; rfl
  have hnow : s.now = epoch := by rw [Service.now, htraffic, Traffic.start]
  have hkept : c.quota.outcomes = ⟨lifetime, ∅⟩ := by
    obtain ⟨quota, hquota, rfl⟩ := Option.map_eq_some_iff.mp hc
    rw [QuotaCache.eq_of_new? hquota]
  refine ⟨c, (quiet_of_new? h).of_tasks (quiet_of_new? h).tasks s.made p, rfl, hnow, ?_,
    (Coalescer.idle_of_new? hc).resting, ?_, ?_⟩
  · rw [htraffic, Traffic.start]
  · rw [hkept]
  · simp [Coalescer.kept?, hkept]

/-- After a request the service keeps again what was found, and a quota is answered as the provider
alone would answer it or with what is kept and lives. -/
theorem Keeps.call (h : s.Keeps c lifetime b turns) (r : Request) :
    ∃ c' outcome, (s.call (.request r)).2 = some outcome ∧
      (s.call (.request r)).1.Keeps c' lifetime b (turns ++ [.request r]) ∧
      (r.operation = .quota → outcome = (b.after turns).answer r ∨
        ∃ answer moment, outcome = .answer answer ∧ c.kept? r = some (moment, answer) ∧
          (b.after turns).now - moment < lifetime) := by
  have hserve : r.operation ≠ .list →
      ((b.after turns).provider.serve ⟨(b.after turns).now⟩ r).2 ≠ .crash := by
    intro hr
    refine Provider.serve_ne_crash ?_ _
    cases r <;> trivial
  obtain ⟨c', outcome, hway, hleaves, hanswer⟩ := h.resting.exists_passes hserve s.traffic.next
  have hway' : Passage s.now r s.traffic.next s.traffic.layers s.provider [.coalescing c']
      ((b.after turns).provider.serve ⟨(b.after turns).now⟩ r).1 outcome := by
    rw [h.now, h.layers, h.provider]
    exact hway
  obtain ⟨next, made, hcall⟩ := h.quiet.call hway'
  rw [hcall]
  refine ⟨c', outcome, rfl, ⟨h.quiet.of_tasks ?_ made _, ?_, ?_, rfl, hleaves.resting,
    hleaves.lifetime.trans h.lifetime, ?_⟩, ?_⟩
  · exact h.quiet.tasks
  · rw [Bare.after_append]
    rfl
  · rw [Bare.after_append]
    exact h.now
  · intro folder moment answer hkept
    rcases hleaves.kept folder moment answer hkept with ⟨hkept, hcovers⟩ | ⟨rfl, rfl, hanswer⟩
    · refine (h.kept folder moment answer hkept).snoc ?_
      rintro r' ⟨⟩
      exact hcovers
    · exact ⟨turns, [], rfl, rfl, hanswer.symm, by simp⟩
  · rw [← h.lifetime]
    exact hanswer

/-- When time passes the service goes on to keep what was found. -/
private theorem Keeps.sleep (h : s.Keeps c lifetime b turns) (d : Nanoseconds) :
    (s.sleep d).Keeps c lifetime b (turns ++ [.pause d]) := by
  rw [h.quiet.sleep]
  refine ⟨h.quiet.of_tasks ?_ s.made s.provider, ?_, ?_, h.layers, h.resting, h.lifetime, ?_⟩
  · exact h.quiet.tasks
  · rw [Bare.after_append]
    exact h.provider
  · rw [Bare.after_append]
    exact congrArg (· + d) h.now
  · intro folder moment answer hkept
    exact (h.kept folder moment answer hkept).snoc (by rintro r ⟨⟩)

/-- After all turns the service keeps what was found in them. -/
theorem Keeps.after (h : s.Keeps c lifetime b []) (turns : List Turn) :
    ∃ c', (s.after turns).Keeps c' lifetime b turns := by
  induction turns using List.reverseRecOn with
  | nil => exact ⟨c, h⟩
  | append_singleton turns t ih =>
    obtain ⟨c', h'⟩ := ih
    have hafter : s.after (turns ++ [t]) = (s.after turns).turn t := List.foldl_append
    rw [hafter]
    cases t with
    | request r =>
      obtain ⟨c'', -, -, hkeeps, -⟩ := h'.call r
      exact ⟨c'', hkeeps⟩
    | pause d => exact ⟨c', h'.sleep d⟩

/-- **Quotas are right unless the folder has come up.** Let a coalescing layer stand before a
provider that holds anything and says anything about quotas, and let a single caller make one
request after the other, with pauses. Then the quota of any folder is answered as the provider
alone would answer it at that point, or the folder is said to be absent and has come up: it was
absent when its quota was asked for less than a lifetime ago, a request has put something there
since, and no request since then covers its quota. -/
theorem quotas_are_right_unless_folder_came_up {capable : Bool} {lifetime : Nanoseconds}
    {p : Provider} {s : Service}
    (h : new? 0 p.pageSize capable [.coalescing lifetime] = some s) (turns : List Turn)
    (folder : Path) :
    let layered : Service := { s with provider := p }
    let bare : Bare := ⟨p, epoch⟩
    ∃ outcome, ((layered.after turns).call (.request (.quota folder))).2 = some outcome ∧
      (outcome = (bare.after turns).answer (.quota folder) ∨
        outcome = .failure (.notFound folder) ∧ bare.CameUp lifetime turns folder) := by
  intro layered bare
  obtain ⟨c, hstart⟩ := exists_keeps_of_new? h p
  obtain ⟨c', hkeeps⟩ := hstart.after turns
  obtain ⟨-, outcome, hcall, -, hanswer⟩ := hkeeps.call (.quota folder)
  refine ⟨outcome, hcall, ?_⟩
  rcases hanswer rfl with hright | ⟨answer, moment, rfl, hkept, hlives⟩
  · exact .inl hright
  · rcases (hkeeps.kept folder moment answer hkept).eq_or_cameUp hlives with hright | ⟨rfl, hcame⟩
    · exact .inl hright
    · exact .inr ⟨rfl, hcame⟩

/-- A folder is moved to where there was nothing when the quota was asked for: the quota is
right. -/
theorem quotas_are_right_unless_folder_came_up_move :
    let a : Path := ⟨true, ["a"]⟩
    let b : Path := ⟨true, ["b"]⟩
    let p : Provider := ⟨Store.initial.put a .folder, some (.ok ⟨5, none, none⟩), 100⟩
    let turns : List Turn := [.request (.quota b), .request (.move a b false)]
    ∃ s, new? 0 p.pageSize true [.coalescing (ofSeconds 10)] = some s ∧
      ((({ s with provider := p } : Service).after turns).call (.request (.quota b))).2 =
        some (.value (.quota ⟨5, none, none⟩)) := by
  intro a b p turns
  obtain ⟨s, hs⟩ : ∃ s, new? 0 p.pageSize true [.coalescing (ofSeconds 10)] = some s :=
    Option.isSome_iff_exists.mp rfl
  obtain ⟨outcome, hcall, hright | ⟨-, earlier, first, r, rest, hsplit, -, -, -, hcreates, -⟩⟩ :=
    quotas_are_right_unless_folder_came_up hs turns b
  · have hbare : ((⟨p, epoch⟩ : Bare).after turns).answer (.quota b) =
        .value (.quota ⟨5, none, none⟩) := by decide +kernel
    exact ⟨s, hs, by rw [hcall, hright, hbare]⟩
  · have hmem : Turn.request r ∈ turns := by simp [hsplit]
    simp only [turns, List.mem_cons, Turn.request.injEq, List.not_mem_nil, or_false] at hmem
    rcases hmem with rfl | rfl <;> simp [Request.creates] at hcreates

/-- It is not so that every quota is answered as the provider alone would answer it. -/
theorem not_quotas_are_right :
    ¬ ∀ (capable : Bool) (lifetime : Nanoseconds) (p : Provider) (s : Service),
      new? 0 p.pageSize capable [.coalescing lifetime] = some s →
      ∀ (turns : List Turn) (folder : Path),
        ((({ s with provider := p } : Service).after turns).call (.request (.quota folder))).2 =
          some (((⟨p, epoch⟩ : Bare).after turns).answer (.quota folder)) := by
  intro h
  let a : Path := ⟨true, ["a"]⟩
  let p : Provider := ⟨.initial, some (.ok ⟨5, none, none⟩), 100⟩
  let turns : List Turn := [.request (.quota a), .request (.createFolder a)]
  let c : Coalescer := ⟨.empty, .empty, ⟨⟨ofSeconds 10, ∅⟩, .empty, 0, ∅, .zero⟩⟩
  let s : Service := ⟨.start [.coalescing c] epoch, .new p.pageSize, 0, true, [], [], ∅, ∅, []⟩
  have hnew : new? 0 p.pageSize true [.coalescing (ofSeconds 10)] = some s := rfl
  have hlayered : ((({ s with provider := p } : Service).after turns).call
      (.request (.quota a))).2 = some (.failure (.notFound a)) := by decide +kernel
  have hbare : ((⟨p, epoch⟩ : Bare).after turns).answer (.quota a) =
      .value (.quota ⟨5, none, none⟩) := by decide +kernel
  have hright := h true (ofSeconds 10) p s hnew turns a
  rw [hlayered, hbare] at hright
  simp [Outcome.failure, Outcome.value] at hright

end Service
end LayeredStore
