import LayeredStore.Item.Record
import LayeredStore.Proofs.Json.Fidelity
import LayeredStore.Proofs.Settings.Acceptance

/-!
# Records survive their text

For each kind of record, what is written is read as itself, and what is read can be written. A
moment can be written if its seconds fit into the record, and so can an item or a listing whose
moments fit; all other values can be written always. Main statement: `records_round_trip`.
-/

namespace LayeredStore

open Json

/-! ### Paths -/

/-- What is written of a path is read as the path. -/
theorem Path.faithful : Faithful toJson ofJson? fun _ => True where
  isIntegral p := .fields (by
    simp [faithful_bool.isIntegral, faithful_string.list.isIntegral])
  read_write {p} _ := by
    have hsegments : list? string? (.array (p.segments.map string)) = some p.segments :=
      faithful_string.list.read_write fun _ _ => trivial
    rw [ofJson?, toJson, Record.fields?_fields _ (by simp [record]) (by simp)]
    simp [record, List.lookup_cons, required, bool?, hsegments]
  valid _ := trivial

/-! ### Moments -/

namespace Timestamp

/-- Whether the seconds of a moment fit into a record. -/
def IsRecordable (t : Timestamp) : Prop := wholeSeconds t.sinceEpoch ≤ lastSecond

instance (t : Timestamp) : Decidable t.IsRecordable :=
  inferInstanceAs (Decidable (wholeSeconds t.sinceEpoch ≤ lastSecond))

variable {t : Timestamp}

/-- A moment is put together again from its parts. -/
private theorem ofParts?_parts (h : t.IsRecordable) :
    ofParts? (wholeSeconds t.sinceEpoch) (subsecond t.sinceEpoch) = some t := by
  have hcarry : subsecond t.sinceEpoch / nanosPerSecond = 0 :=
    Nat.div_eq_of_lt (Nat.mod_lt _ (by decide))
  have hsum : ofSeconds (wholeSeconds t.sinceEpoch) + subsecond t.sinceEpoch = t.sinceEpoch :=
    Nat.div_add_mod' t.sinceEpoch nanosPerSecond
  rw [ofParts?, hcarry, Nat.add_zero, hsum]
  exact if_pos h

/-- A moment put together from parts fits into a record. -/
private theorem isRecordable_of_ofParts? {seconds nanos : Nat}
    (h : ofParts? seconds nanos = some t) : t.IsRecordable := by
  unfold ofParts? at h
  split at h
  · next hle =>
    cases h
    have hwhole : wholeSeconds (ofSeconds seconds + nanos) = seconds + nanos / nanosPerSecond := by
      rw [wholeSeconds, ofSeconds, Nat.add_comm, Nat.add_mul_div_right _ _ (by decide),
        Nat.add_comm]
    rwa [IsRecordable, hwhole]
  · cases h

/-- What is written of a moment whose seconds fit is read as the moment. -/
theorem faithful : Faithful toJson ofJson? IsRecordable where
  isIntegral t := .fields (by simp [IsIntegral.nat])
  read_write {t} h := by
    have hseconds : wholeSeconds t.sinceEpoch < UInt64.size := Nat.lt_of_le_of_lt h (by decide)
    have hnanos : subsecond t.sinceEpoch < UInt32.size :=
      Nat.lt_trans (Nat.mod_lt _ (by decide)) (by decide : nanosPerSecond < UInt32.size)
    have hnanos' : subsecond t.sinceEpoch < UInt64.size := Nat.lt_trans hnanos (by decide)
    rw [ofJson?, toJson, Record.fields?_fields _ (by simp [record]) (by simp)]
    simp [record, List.lookup_cons, required, word?_nat hseconds, word?_nat hnanos',
      -UInt64.toNat_ofNat', UInt64.toNat_ofNat_of_lt' hseconds,
      UInt64.toNat_ofNat_of_lt' hnanos', hnanos, ofParts?_parts h]
  valid {j t} h := by
    simp only [ofJson?, Option.bind_eq_bind, Option.bind_eq_some_iff] at h
    obtain ⟨fields, -, h⟩ := h
    split at h
    · simp only [Option.bind_eq_some_iff] at h
      obtain ⟨seconds, -, nanos, -, h⟩ := h
      split at h
      · exact isRecordable_of_ofParts? h
      · cases h
    · cases h

end Timestamp

/-! ### Items and listings -/

theorem Kind.faithful : Faithful toJson ofJson? fun _ => True :=
  faithful_choice name ofName? (by rintro (_ | _ | _) <;> decide)

namespace Item

/-- Whether the moment of an item, if it has one, fits into a record. -/
def IsRecordable (item : Item) : Prop := ∀ t ∈ item.modified, t.IsRecordable

/-- What is written of an item whose moment fits is read as the item. -/
theorem faithful : Faithful toJson ofJson? IsRecordable where
  isIntegral item := .fields (by
    simp [faithful_string.isIntegral, Path.faithful.isIntegral, Kind.faithful.isIntegral,
      IsIntegral.option Timestamp.faithful.isIntegral, IsIntegral.option faithful_word.isIntegral])
  read_write {item} h := by
    have hmodified := Timestamp.faithful.optional_option rfl h
    have hsize := faithful_word.optional_option rfl (o := item.size) fun _ _ => trivial
    rw [ofJson?, toJson, Record.fields?_fields _ (by simp [record]) (by simp)]
    simp [record, List.lookup_cons, required, hmodified, hsize, faithful_string.read_write trivial,
      Path.faithful.read_write trivial, Kind.faithful.read_write trivial]
  valid {j item} h := by
    simp only [ofJson?, Option.bind_eq_bind, Option.bind_eq_some_iff] at h
    obtain ⟨fields, -, h⟩ := h
    split at h
    · simp only [Option.bind_eq_some_iff] at h
      obtain ⟨name, -, path, -, kind, -, modified, hmodified, size, -, h⟩ := h
      cases h
      exact Timestamp.faithful.valid_of_optional hmodified
    · cases h

end Item

namespace Listing

/-- Whether the moments of all items fit into records. -/
def IsRecordable (l : Listing) : Prop := ∀ item ∈ l.items, item.IsRecordable

/-- What is written of a listing whose moments fit is read as the listing. -/
theorem faithful : Faithful toJson ofJson? IsRecordable where
  isIntegral l := .fields (by
    simp [Item.faithful.list.isIntegral, IsIntegral.option faithful_string.isIntegral])
  read_write {l} h := by
    have hitems := Item.faithful.list.read_write h
    have hnext := faithful_string.optional_option rfl (o := l.nextToken) fun _ _ => trivial
    rw [ofJson?, toJson, Record.fields?_fields _ (by simp [record]) (by simp)]
    simp [record, List.lookup_cons, required, hitems, hnext]
  valid {j l} h := by
    simp only [ofJson?, Option.bind_eq_bind, Option.bind_eq_some_iff] at h
    obtain ⟨fields, -, h⟩ := h
    split at h
    · simp only [Option.bind_eq_some_iff] at h
      obtain ⟨items, hitems, nextToken, -, h⟩ := h
      cases h
      exact Item.faithful.list.valid_of_required hitems
    · cases h

end Listing

/-! ### Quotas -/

/-- What is written of a quota is read as the quota. -/
theorem Quota.faithful : Faithful toJson ofJson? fun _ => True where
  isIntegral q := .fields (by
    simp [faithful_word.isIntegral, IsIntegral.option faithful_word.isIntegral])
  read_write {q} _ := by
    have hoption (o : Option UInt64) : optional word? (some (option word o)) = some o :=
      faithful_word.optional_option rfl fun _ _ => trivial
    rw [ofJson?, toJson, Record.fields?_fields _ (by simp [record]) (by simp)]
    simp [record, List.lookup_cons, required, faithful_word.read_write trivial, hoption]
  valid _ := trivial

/-! ### Settings -/

theorem StackChoice.faithful : Faithful toJson ofJson? fun _ => True :=
  faithful_choice name ofName? (by rintro (_ | _ | _) <;> decide)

namespace Settings

/-- The fields of written settings: those in milliseconds only where they have a value. -/
def entries (s : Settings) : List (String × Json) :=
  [("metadata_ttl_secs", .word s.metadataSeconds), ("quota_ttl_secs", .word s.quotaSeconds),
    ("stack", s.stack.toJson)] ++
  (s.metadataMillis.map fun n => ("metadata_ttl_millis", word n)).toList ++
  (s.quotaMillis.map fun n => ("quota_ttl_millis", word n)).toList

theorem toJson_eq (s : Settings) : s.toJson = .fields s.entries := by
  obtain ⟨metadataSeconds, quotaSeconds, stack, _ | metadataMillis, _ | quotaMillis⟩ := s <;> rfl

/-- A field in milliseconds that has not been written is found to be missing. -/
private theorem fields?_toJson (s : Settings) : record.fields? s.toJson =
    some [some (.word s.metadataSeconds), some (.word s.quotaSeconds), some s.stack.toJson,
      s.metadataMillis.map word, s.quotaMillis.map word] := by
  obtain ⟨metadataSeconds, quotaSeconds, stack, metadataMillis, quotaMillis⟩ := s
  rw [toJson_eq]
  cases metadataMillis <;> cases quotaMillis <;>
    rw [Record.fields?_fields _ (by simp [entries, record]) (by simp [entries])] <;>
    simp [entries, record, List.lookup_cons]

/-- What is written of settings is read as the settings. -/
theorem faithful : Faithful toJson ofJson? fun _ => True where
  isIntegral s := by
    rw [toJson_eq]
    exact .fields (by
      simp [entries, or_imp, forall_and, faithful_word.isIntegral, StackChoice.faithful.isIntegral])
  read_write {s} _ := by
    have hmillis (o : Option UInt64) : optional word? (o.map word) = some o :=
      faithful_word.optional_map rfl fun _ _ => trivial
    rw [ofJson?, fields?_toJson]
    simp [orElse, faithful_word.read_write trivial, StackChoice.faithful.read_write trivial,
      hmillis]
  valid _ := trivial

/-- Settings that have been accepted are accepted again from the document that writes them. -/
theorem ofText_render {text : String} {s : Settings} (h : ofText text = .ok s) :
    ofText (render s.toJson) = .ok s := by
  obtain ⟨hread, hpositive⟩ := ofText_eq_ok_iff.mp h
  exact ofText_eq_ok_iff.mpr ⟨(faithful.roundTrips.2 text s hread).2, hpositive⟩

end Settings

/-! ### All records -/

/-- **Records survive their text.** Take paths, items, listings and quotas: every value of which the
moments fit into records is read from the text that writes it, and every value that is read from
some text is such a value, and is read again from the text that writes it. So are settings, which
are written without the fields in milliseconds that have no value; and settings that are accepted
are accepted again. -/
theorem records_round_trip :
    RoundTrips Path.toJson Path.ofJson? (fun _ => True) ∧
    RoundTrips Item.toJson Item.ofJson? Item.IsRecordable ∧
    RoundTrips Listing.toJson Listing.ofJson? Listing.IsRecordable ∧
    RoundTrips Quota.toJson Quota.ofJson? (fun _ => True) ∧
    RoundTrips Settings.toJson Settings.ofJson? (fun _ => True) ∧
    (∀ s : Settings, s.toJson = .fields s.entries) ∧
    ∀ text s, Settings.ofText text = .ok s → Settings.ofText (render s.toJson) = .ok s :=
  ⟨Path.faithful.roundTrips, Item.faithful.roundTrips, Listing.faithful.roundTrips,
    Quota.faithful.roundTrips, Settings.faithful.roundTrips, Settings.toJson_eq,
    fun _ _ => Settings.ofText_render⟩

/-- A listing with escapes in a name, an empty segment in a path, the latest moment and the
greatest size. -/
def extremeListing : Listing :=
  ⟨[⟨"\"\\\n\x01é", ⟨true, ["", "\"\\\n\x01é"]⟩, .file,
    some ⟨ofSeconds Timestamp.lastSecond + 999999999⟩, some 18446744073709551615⟩], none⟩

/-- The listing is read from its text; and settings that are given as an array, without the last
two fields, are accepted again from the object that writes them. -/
theorem records_round_trip_extreme :
    extremeListing.IsRecordable ∧
    (parse? (render extremeListing.toJson)).bind Listing.ofJson? = some extremeListing ∧
    Settings.ofText "[5,7,\"metadata\"]" = .ok ⟨5, 7, .metadata, none, none⟩ ∧
    Settings.ofText (render (Settings.toJson ⟨5, 7, .metadata, none, none⟩)) =
      .ok ⟨5, 7, .metadata, none, none⟩ := by
  obtain ⟨-, -, hlisting, -, -, -, hsettings⟩ := records_round_trip
  have hrecordable : extremeListing.IsRecordable := by
    simp only [Listing.IsRecordable, extremeListing, List.forall_mem_singleton]
    intro t ht
    obtain rfl := Option.some.inj ht
    decide
  have haccepted : Settings.ofText "[5,7,\"metadata\"]" = .ok ⟨5, 7, .metadata, none, none⟩ :=
    Settings.ofText_eq_ok_iff.mpr ⟨by decide +kernel, by rintro (_ | _) <;> decide⟩
  exact ⟨hrecordable, hlisting.1 _ hrecordable, haccepted, hsettings _ _ haccepted⟩

end LayeredStore
