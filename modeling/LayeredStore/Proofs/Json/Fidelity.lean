import LayeredStore.Json.Record
import LayeredStore.Proofs.Json.Reading
import Mathlib.Data.List.Nodup

/-!
# Writing and reading in agreement

A way of writing values in JSON and a way of reading them belong together if a written value is
read as itself. How a record is written and read is put together from its fields: here are the
values that fields have, and what becomes of the fields of a written object. Main statement: what
is read from a text is read again, the same, from the text that writes it.
-/

namespace LayeredStore.Json

variable {α : Type} {write : α → Json} {read : Json → Option α} {Valid : α → Prop}

/-- Whether valid values that are written are read as themselves, and only valid ones are read.
No written value has a number that is not an integer. -/
structure Faithful (write : α → Json) (read : Json → Option α) (Valid : α → Prop) : Prop where
  isIntegral (a : α) : (write a).IsIntegral
  read_write {a : α} (h : Valid a) : read (write a) = some a
  valid {j : Json} {a : α} (h : read j = some a) : Valid a

/-- Whether a valid value is read from the text that writes it, and a value that is read from any
text is valid and read, the same, from the text that writes it. -/
def RoundTrips (write : α → Json) (read : Json → Option α) (Valid : α → Prop) : Prop :=
  (∀ a, Valid a → (parse? (render (write a))).bind read = some a) ∧
    ∀ text a, (parse? text).bind read = some a →
      Valid a ∧ (parse? (render (write a))).bind read = some a

/-- Values survive their text if they survive their JSON. -/
theorem Faithful.roundTrips (h : Faithful write read Valid) : RoundTrips write read Valid := by
  have hwritten (a : α) (ha : Valid a) : (parse? (render (write a))).bind read = some a := by
    rw [parse?_render (h.isIntegral a), Option.bind_some, h.read_write ha]
  refine ⟨hwritten, ?_⟩
  intro text a hread
  obtain ⟨j, -, hj⟩ := Option.bind_eq_some_iff.mp hread
  exact ⟨h.valid hj, hwritten a (h.valid hj)⟩

/-! ### Values of fields -/

theorem faithful_bool : Faithful .bool bool? fun _ => True :=
  ⟨.bool, fun _ => rfl, fun _ => trivial⟩

theorem faithful_string : Faithful string string? fun _ => True :=
  ⟨fun s => .text (some s), fun _ => rfl, fun _ => trivial⟩

theorem IsIntegral.nat (n : Nat) : (nat n).IsIntegral := .integer false n

theorem word?_nat {n : Nat} (h : n < UInt64.size) : word? (nat n) = some (UInt64.ofNat n) :=
  if_pos h

theorem faithful_word : Faithful word word? fun _ => True where
  isIntegral n := .nat n.toNat
  read_write {n} _ := by rw [word, word?_nat n.toNat_lt, UInt64.ofNat_toNat]
  valid _ := trivial

/-- A choice that is read by its name is written by it. -/
theorem faithful_choice (name : α → String) (ofName? : String → Option α)
    (h : ∀ a, ofName? (name a) = some a) :
    Faithful (fun a => string (name a)) (fun j => (choice? j).bind ofName?) fun _ => True :=
  ⟨fun a => .text (some (name a)), fun {a} _ => h a, fun _ => trivial⟩

/-- What is read item by item is valid item by item. -/
private theorem forall_of_mapM_eq_some (hvalid : ∀ {j a}, read j = some a → Valid a)
    {items : List Json} {as : List α} (h : items.mapM read = some as) : ∀ a ∈ as, Valid a := by
  induction items generalizing as with
  | nil =>
    obtain rfl : [] = as := by simpa using h
    simp
  | cons j items ih =>
    simp only [List.mapM_cons, Option.bind_eq_bind, Option.bind_eq_some_iff, Option.pure_def,
      Option.some.injEq] at h
    obtain ⟨a, ha, as, has, rfl⟩ := h
    exact List.forall_mem_cons.mpr ⟨hvalid ha, ih has⟩

/-- Arrays are faithful if their items are. -/
theorem Faithful.list (h : Faithful write read Valid) :
    Faithful (fun as => .array (as.map write)) (list? read) fun as => ∀ a ∈ as, Valid a where
  isIntegral as := by
    refine .array fun v hv => ?_
    obtain ⟨a, -, rfl⟩ := List.mem_map.mp hv
    exact h.isIntegral a
  read_write {as} has := by
    rw [list?]
    induction as with
    | nil => rfl
    | cons a as ih =>
      obtain ⟨ha, has⟩ := List.forall_mem_cons.mp has
      rw [List.map_cons, List.mapM_cons, h.read_write ha, ih has]
      rfl
  valid {j as} has := by
    cases j with
    | array items => exact forall_of_mapM_eq_some h.valid has
    | _ => cases has

/-! ### Fields that may be missing -/

theorem IsIntegral.option (h : ∀ a, (write a).IsIntegral) (o : Option α) :
    (option write o).IsIntegral := by
  cases o with
  | none => exact .null
  | some a => exact h a

/-- A field that is there, and not `null`, is read. -/
theorem optional_some {j : Json} {a : α} (hnull : read .null = none) (h : read j = some a) :
    optional read (some j) = some (some a) := by
  cases j with
  | null => simp [hnull] at h
  | _ => simp [optional, h]

/-- A field that is written as `null` where there is no value. -/
theorem Faithful.optional_option (h : Faithful write read Valid) (hnull : read .null = none)
    {o : Option α} (ho : ∀ a ∈ o, Valid a) : optional read (some (option write o)) = some o := by
  cases o with
  | none => rfl
  | some a => exact optional_some hnull (h.read_write (ho a rfl))

/-- A field that is left out where there is no value. -/
theorem Faithful.optional_map (h : Faithful write read Valid) (hnull : read .null = none)
    {o : Option α} (ho : ∀ a ∈ o, Valid a) : optional read (o.map write) = some o := by
  cases o with
  | none => rfl
  | some a => exact optional_some hnull (h.read_write (ho a rfl))

/-- What is read from a field that may be missing is valid. -/
theorem Faithful.valid_of_optional (h : Faithful write read Valid) {field : Option Json}
    {o : Option α} (ho : optional read field = some o) : ∀ a ∈ o, Valid a := by
  rintro a rfl
  unfold optional at ho
  split at ho
  · cases ho
  · cases ho
  · obtain ⟨b, hb, hba⟩ := Option.map_eq_some_iff.mp ho
    cases hba
    exact h.valid hb

/-- What is read from a field that must be there is valid. -/
theorem Faithful.valid_of_required (h : Faithful write read Valid) {field : Option Json} {a : α}
    (ha : required read field = some a) : Valid a := by
  obtain ⟨j, -, hj⟩ := Option.bind_eq_some_iff.mp ha
  exact h.valid hj

/-! ### Objects -/

/-- A written object has the entries that it was written from. -/
theorem fields_eq (entries : List (String × Json)) :
    fields entries = .object (entries.map fun entry => (some entry.1, entry.2)) := rfl

theorem IsIntegral.fields {entries : List (String × Json)}
    (h : ∀ entry ∈ entries, entry.2.IsIntegral) : (fields entries).IsIntegral := by
  rw [fields_eq]
  refine .object fun field hfield => ?_
  obtain ⟨entry, hentry, rfl⟩ := List.mem_map.mp hfield
  exact h entry hentry

/-- A name is looked up in a written object as in the entries that it was written from. -/
private theorem lookup_map_some (entries : List (String × Json)) (n : String) :
    (entries.map fun entry => (some entry.1, entry.2)).lookup (some n) = entries.lookup n := by
  induction entries with
  | nil => rfl
  | cons entry entries ih =>
    rw [List.map_cons, List.lookup_cons, List.lookup_cons, ih]
    rfl

namespace Record

/-- An object is read as a record if it names known fields only, each at most once. -/
private theorem fields?_object (r : Record) {fs : List (Option String × Json)}
    (hknown : ∀ field ∈ fs, ∃ n ∈ r.names, field.1 = some n)
    (honce : ∀ n ∈ r.names, (fs.map Prod.fst).count (some n) ≤ 1) :
    r.fields? (.object fs) = some (r.names.map fun n => fs.lookup (some n)) := by
  refine if_pos ?_
  rw [Bool.and_eq_true, List.all_eq_true, List.all_eq_true]
  constructor
  · intro field hfield
    obtain ⟨n, hn, hname⟩ := hknown field hfield
    simp [hname, hn]
  · intro n hn
    have hcount := honce n hn
    rw [List.count, List.countP_map] at hcount
    exact decide_eq_true hcount

/-- A written object of known fields, each written once, is read as what was written. -/
theorem fields?_fields (r : Record) {entries : List (String × Json)}
    (hknown : ∀ entry ∈ entries, entry.1 ∈ r.names) (hnodup : (entries.map Prod.fst).Nodup) :
    r.fields? (fields entries) = some (r.names.map fun n => entries.lookup n) := by
  have hnames : (entries.map fun entry => (some entry.1, entry.2)).map Prod.fst =
      (entries.map Prod.fst).map some := by simp
  rw [fields_eq, fields?_object]
  · simp only [lookup_map_some]
  · intro field hfield
    obtain ⟨entry, hentry, rfl⟩ := List.mem_map.mp hfield
    exact ⟨entry.1, hknown entry hentry, rfl⟩
  · intro n _
    rw [hnames]
    exact List.nodup_iff_count.mp (hnodup.map fun _ _ => Option.some.inj) (some n)

end Record
end LayeredStore.Json
