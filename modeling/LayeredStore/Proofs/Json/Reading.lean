import LayeredStore.Json.Parse
import LayeredStore.Proofs.Json.Scanning

/-!
# Reading what is written

Reading is followed from any point of a text on: a written value takes reading from where a value
is awaited to where it has been supplied, whatever comes after it. Main statement: a written value
whose numbers are integers is read as itself.
-/

namespace LayeredStore.Json

open Token Progress

/-- Whether all numbers in a value are integers. -/
inductive IsIntegral : Json → Prop
  | null : IsIntegral .null
  | bool (b : Bool) : IsIntegral (.bool b)
  | integer (negative : Bool) (n : Nat) : IsIntegral (.integer negative n)
  | text (s : Option String) : IsIntegral (.text s)
  | array {items : List Json} (h : ∀ v ∈ items, IsIntegral v) : IsIntegral (.array items)
  | object {fields : List (Option String × Json)} (h : ∀ field ∈ fields, IsIntegral field.2) :
    IsIntegral (.object fields)

/-! ### Reading on -/

/-- The value that is read when a text follows after what has been read. -/
def readFrom (p : Progress) (cs : List Char) : Option Json :=
  (scan? cs).bind fun tokens => match tokens.foldlM step p with
  | some (.complete v) => some v
  | _ => none

private theorem parse?_eq_readFrom (text : String) :
    parse? text = readFrom (.value []) text.toList := rfl

variable {p q : Progress} {frames : List Frame}

/-- The first token is taken, and reading goes on after it. -/
private theorem readFrom_token {cs rest : List Char} {t : Token}
    (hscan : scan? cs = (scan? rest).map (t :: ·)) (hstep : p.step t = some q) :
    readFrom p cs = readFrom q rest := by
  rw [readFrom, hscan, Option.bind_map]
  simp only [readFrom, Function.comp_def, List.foldlM_cons, hstep, Option.bind_eq_bind,
    Option.bind_some]

theorem readFrom_punctuation {c : Char} {t : Token} (h : punctuation? c = some t)
    (hstep : p.step t = some q) (rest : List Char) : readFrom p (c :: rest) = readFrom q rest :=
  readFrom_token (scan?_punctuation h rest) hstep

private theorem readFrom_scalar {cs rest : List Char} {v : Json}
    (h : scanScalar cs = some (v, rest)) (hstep : p.step (.scalar v) = some q) :
    readFrom p cs = readFrom q rest :=
  readFrom_token (scan?_scalar h) hstep

/-- Whether a value may follow, to be supplied to the given frames. -/
inductive Progress.Awaits : Progress → List Frame → Prop
  | value (frames : List Frame) : Awaits (.value frames) frames
  | opened (frames : List Frame) : Awaits (.opened frames) (.items [] :: frames)

namespace Progress.Awaits

private theorem step_scalar (h : p.Awaits frames) (v : Json) :
    p.step (.scalar v) = some (supply v frames) := by
  cases h <;> rfl

private theorem step_leftBracket (h : p.Awaits frames) :
    p.step .leftBracket = some (.opened frames) := by
  cases h <;> rfl

private theorem step_leftBrace (h : p.Awaits frames) :
    p.step .leftBrace = some (.unnamed frames) := by
  cases h <;> rfl

end Progress.Awaits

/-- Whether a written value is read as itself wherever a value is awaited. -/
def ReadsBack (v : Json) : Prop :=
  ∀ (p : Progress) (frames : List Frame) (rest : List Char), p.Awaits frames → EndsNumber rest →
    readFrom p (chars v ++ rest) = readFrom (supply v frames) rest

/-- A scalar that is scanned as itself is read as itself. -/
private theorem ReadsBack.of_scanScalar {v : Json}
    (h : ∀ rest, EndsNumber rest → scanScalar (chars v ++ rest) = some (v, rest)) :
    v.ReadsBack :=
  fun _ _ rest hawaits hrest => readFrom_scalar (h rest hrest) (hawaits.step_scalar v)

/-! ### Arrays -/

/-- Every item of an array but the first is written after a comma. -/
private theorem itemsChars_cons (v : Json) (items : List Json) :
    itemsChars (v :: items) = chars v ++ items.flatMap fun w => ',' :: chars w := by
  induction items generalizing v with
  | nil => simp [itemsChars]
  | cons w items ih => rw [itemsChars, ih, List.flatMap_cons, List.cons_append]

/-- What is written after a comma, or else a closing bracket, does not go on with a number. -/
theorem endsNumber_flatMap {α : Type} (write : α → List Char) (items : List α) {c : Char}
    (hc : c ∈ [']', '\x7d']) (rest : List Char) :
    EndsNumber ((items.flatMap fun a => ',' :: write a) ++ c :: rest) := by
  cases items with
  | nil => exact endsNumber_cons (List.mem_cons_of_mem ',' hc) rest
  | cons a items => exact endsNumber_cons (by decide) _

/-- The remaining items of an array are read after those that have been read. -/
private theorem readFrom_items {items : List Json} (h : ∀ v ∈ items, v.ReadsBack) (done : List Json)
    (frames : List Frame) (rest : List Char) :
    readFrom (.items done frames) ((items.flatMap fun v => ',' :: chars v) ++ ']' :: rest) =
      readFrom (supply (.array (done.reverse ++ items)) frames) rest := by
  induction items generalizing done with
  | nil => simpa using readFrom_punctuation (c := ']') rfl rfl rest
  | cons v items ih =>
    obtain ⟨hv, hitems⟩ := List.forall_mem_cons.mp h
    calc readFrom (.items done frames)
          (((v :: items).flatMap fun v => ',' :: chars v) ++ ']' :: rest)
        = readFrom (.items done frames)
            (',' :: (chars v ++ ((items.flatMap fun v => ',' :: chars v) ++ ']' :: rest))) := by
          rw [List.flatMap_cons, List.cons_append, List.cons_append, List.append_assoc]
      _ = readFrom (.value (.items done :: frames))
            (chars v ++ ((items.flatMap fun v => ',' :: chars v) ++ ']' :: rest)) :=
          readFrom_punctuation rfl rfl _
      _ = readFrom (.items (v :: done) frames)
            ((items.flatMap fun v => ',' :: chars v) ++ ']' :: rest) :=
          hv _ _ _ (.value _) (endsNumber_flatMap chars items (by decide) rest)
      _ = readFrom (supply (.array (done.reverse ++ v :: items)) frames) rest := by
          rw [ih hitems, List.reverse_cons, List.append_assoc, List.singleton_append]

/-- An array of values that are read as themselves is read as itself. -/
private theorem ReadsBack.array {items : List Json} (h : ∀ v ∈ items, v.ReadsBack) :
    (Json.array items).ReadsBack := by
  intro p frames rest hawaits hrest
  have hopen : readFrom p (chars (.array items) ++ rest) =
      readFrom (.opened frames) (itemsChars items ++ ']' :: rest) := by
    rw [chars, List.cons_append, List.append_assoc, List.singleton_append]
    exact readFrom_punctuation rfl hawaits.step_leftBracket _
  rw [hopen]
  cases items with
  | nil => exact readFrom_punctuation rfl rfl rest
  | cons v items =>
    obtain ⟨hv, hitems⟩ := List.forall_mem_cons.mp h
    rw [itemsChars_cons, List.append_assoc,
      hv _ _ _ (.opened frames) (endsNumber_flatMap chars items (by decide) rest)]
    exact readFrom_items hitems [v] frames rest

/-! ### Objects -/

/-- The written form of a field. -/
def fieldChars (field : Option String × Json) : List Char :=
  textChars field.1 ++ ':' :: chars field.2

/-- Every field of an object but the first is written after a comma. -/
private theorem fieldsChars_cons (field : Option String × Json)
    (fields : List (Option String × Json)) : fieldsChars (field :: fields) =
      fieldChars field ++ fields.flatMap fun f => ',' :: fieldChars f := by
  induction fields generalizing field with
  | nil => simp [fieldsChars, fieldChars]
  | cons f fields ih => simp [fieldsChars, ih, fieldChars]

/-- A field is read after those that have been read, wherever a name may follow. -/
private theorem readFrom_field {field : Option String × Json} (h : field.2.ReadsBack)
    {done : List (Option String × Json)} {frames : List Frame} {rest : List Char}
    (hname : p.step (.scalar (.text field.1)) = some (.named done field.1 frames))
    (hrest : EndsNumber rest) :
    readFrom p (fieldChars field ++ rest) = readFrom (.fields (field :: done) frames) rest := by
  rw [fieldChars, List.append_assoc, List.cons_append,
    readFrom_scalar (scanScalar_textChars field.1 _) hname]
  calc readFrom (.named done field.1 frames) (':' :: (chars field.2 ++ rest))
      = readFrom (.value (.fields done field.1 :: frames)) (chars field.2 ++ rest) :=
        readFrom_punctuation rfl rfl _
    _ = readFrom (.fields (field :: done) frames) rest := h _ _ _ (.value _) hrest

/-- The remaining fields of an object are read after those that have been read. -/
private theorem readFrom_fields {fields : List (Option String × Json)}
    (h : ∀ field ∈ fields, field.2.ReadsBack) (done : List (Option String × Json))
    (frames : List Frame) (rest : List Char) :
    readFrom (.fields done frames)
        ((fields.flatMap fun f => ',' :: fieldChars f) ++ '\x7d' :: rest) =
      readFrom (supply (.object (done.reverse ++ fields)) frames) rest := by
  induction fields generalizing done with
  | nil => simpa using readFrom_punctuation (c := '\x7d') rfl rfl rest
  | cons f fields ih =>
    obtain ⟨hf, hfields⟩ := List.forall_mem_cons.mp h
    calc readFrom (.fields done frames)
          (((f :: fields).flatMap fun f => ',' :: fieldChars f) ++ '\x7d' :: rest)
        = readFrom (.fields done frames) (',' :: (fieldChars f ++
            ((fields.flatMap fun f => ',' :: fieldChars f) ++ '\x7d' :: rest))) := by
          rw [List.flatMap_cons, List.cons_append, List.cons_append, List.append_assoc]
      _ = readFrom (.nextName done frames) (fieldChars f ++
            ((fields.flatMap fun f => ',' :: fieldChars f) ++ '\x7d' :: rest)) :=
          readFrom_punctuation rfl rfl _
      _ = readFrom (.fields (f :: done) frames)
            ((fields.flatMap fun f => ',' :: fieldChars f) ++ '\x7d' :: rest) :=
          readFrom_field hf rfl (endsNumber_flatMap fieldChars fields (by decide) rest)
      _ = readFrom (supply (.object (done.reverse ++ f :: fields)) frames) rest := by
          rw [ih hfields, List.reverse_cons, List.append_assoc, List.singleton_append]

/-- An object of values that are read as themselves is read as itself. -/
private theorem ReadsBack.object {fields : List (Option String × Json)}
    (h : ∀ field ∈ fields, field.2.ReadsBack) : (Json.object fields).ReadsBack := by
  intro p frames rest hawaits hrest
  have hopen : readFrom p (chars (.object fields) ++ rest) =
      readFrom (.unnamed frames) (fieldsChars fields ++ '\x7d' :: rest) := by
    rw [chars, List.cons_append, List.append_assoc, List.singleton_append]
    exact readFrom_punctuation rfl hawaits.step_leftBrace _
  rw [hopen]
  cases fields with
  | nil => exact readFrom_punctuation rfl rfl rest
  | cons f fields =>
    obtain ⟨hf, hfields⟩ := List.forall_mem_cons.mp h
    rw [fieldsChars_cons, List.append_assoc,
      readFrom_field hf rfl (endsNumber_flatMap fieldChars fields (by decide) rest)]
    exact readFrom_fields hfields [f] frames rest

/-! ### All values -/

/-- Wherever a value is awaited, a written value whose numbers are integers is read as itself. -/
theorem IsIntegral.readsBack {v : Json} (h : v.IsIntegral) : v.ReadsBack := by
  induction h with
  | null => exact .of_scanScalar fun _ _ => rfl
  | bool b => cases b <;> exact .of_scanScalar fun _ _ => rfl
  | integer negative n => exact .of_scanScalar fun _ hrest => scanScalar_integer negative n hrest
  | text s => exact .of_scanScalar fun rest _ => scanScalar_textChars s rest
  | array _ ih => exact .array ih
  | object _ ih => exact .object ih

/-- A written value whose numbers are integers is read as itself. -/
theorem parse?_render {v : Json} (h : v.IsIntegral) : parse? (render v) = some v := by
  have hread := h.readsBack (.value []) [] [] (.value []) endsNumber_nil
  rw [List.append_nil] at hread
  rw [parse?_eq_readFrom, render, String.toList_ofList, hread]
  simp [readFrom, scan?, scanAfter, supply]

end LayeredStore.Json
