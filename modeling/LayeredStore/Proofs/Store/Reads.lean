import LayeredStore.Provider
import Mathlib.Data.UInt

/-!
# Reading in pieces

A read starts at its offset and stops at the sum of offset and count, both cut to the size of the
file. The sum is taken in 64 bits, and a read that stopped before its start or after the end of the
file would crash. Main statement: a read of a file gets its bytes from the offset on, cut to the
count; and what is read in pieces, each from where the one before has ended, until a read gets
nothing, is the file.
-/

namespace LayeredStore

namespace Store

variable {s : Store} {file : Path} {data : ByteArray} {modified : Timestamp}

/-! ### Starts and stops -/

/-- A read starts at its offset, but not beyond the end. -/
private theorem toNat_readRange_fst (size offset : UInt64) (count : Option UInt64) :
    (readRange size offset count).1.toNat = min offset.toNat size.toNat :=
  UInt64.toNat_min offset size

/-- A read stops where its count ends, but not beyond the end. -/
private theorem toNat_readRange_snd (size offset : UInt64) (count : Option UInt64) :
    (readRange size offset count).2.toNat =
      min (count.elim size.toNat fun n => offset.toNat + n.toNat) size.toNat := by
  have hsize := size.toNat_lt_size
  cases count with
  | none => exact (Nat.min_self _).symm
  | some n =>
    show (min (UInt64.ofNatClamp ((min offset size).toNat + n.toNat)) size).toNat =
      min (offset.toNat + n.toNat) size.toNat
    rw [UInt64.toNat_min, UInt64.toNat_min]
    obtain hfits | hlarge := Nat.lt_or_ge (min offset.toNat size.toNat + n.toNat) UInt64.size
    · rw [UInt64.toNat_ofNatClamp_of_lt hfits]
      omega
    · -- the sum and the largest word are both no less than the size
      rw [UInt64.toNat_ofNatClamp_of_le hlarge]
      omega

/-- A read starts no later than it stops, and stops no later than the end. -/
private theorem readRange_le (size offset : UInt64) (count : Option UInt64) :
    (readRange size offset count).1.toNat ≤ (readRange size offset count).2.toNat ∧
      (readRange size offset count).2.toNat ≤ size.toNat := by
  rw [toNat_readRange_fst, toNat_readRange_snd]
  cases count <;> simp only [Option.elim] <;> omega

/-! ### Parts of bytes -/

/-- Bounds beyond the end are as good as the end. -/
private theorem extract_min_size (data : ByteArray) (start stop : Nat) :
    data.extract (min start data.size) (min stop data.size) = data.extract start stop := by
  calc data.extract (min start data.size) (min stop data.size)
      = data.extract start (min stop data.size) := by
        rw [ByteArray.extract_eq_extract_left]
        omega
    _ = data.extract start stop := by
        apply ByteArray.ext
        rw [ByteArray.data_extract, ByteArray.data_extract, Array.extract_eq_extract_right,
          ByteArray.size_data]
        omega

section Rest

variable {data : ByteArray} {done : Nat} (hdone : done ≤ data.size)

include hdone

/-- A piece whose length is not zero is empty exactly if no bytes are left. -/
private theorem extract_add_eq_empty_iff {n : Nat} (hn : 0 < n) :
    data.extract done (done + n) = .empty ↔ done = data.size := by
  rw [ByteArray.extract_eq_empty_iff]
  omega

/-- A piece ends where its length says, but not beyond the end. -/
private theorem size_extract_add (n : Nat) :
    done + (data.extract done (done + n)).size = min (done + n) data.size := by
  rw [ByteArray.size_extract]
  omega

/-- A piece and the bytes after it are what was left. -/
private theorem extract_append_rest (n : Nat) :
    data.extract done (done + n) ++ data.extract (min (done + n) data.size) data.size =
      data.extract done data.size := by
  rw [← extract_min_size data done (done + n), Nat.min_eq_left hdone]
  exact (ByteArray.extract_eq_extract_append_extract _ (by omega) (Nat.min_le_right _ _)).symm

end Rest

/-- The bytes between two bounds are those from the first one on, as many as the bounds say. -/
private theorem extract_eq_toByteArray (data : ByteArray) (start stop : Nat) :
    data.extract start stop =
      ((data.data.toList.drop start).take (stop - start)).toByteArray := by
  apply ByteArray.ext
  rw [ByteArray.data_extract, List.data_toByteArray, ← List.extract_eq_take_drop,
    ← Array.toList_extract, Array.toArray_toList]

/-! ### Outcomes of reads -/

/-- A read of a file gets the bytes between its start and its stop. -/
theorem read_eq_extract_readRange (hfile : s.get? file = some (.file data modified))
    (offset : UInt64) (count : Option UInt64) :
    s.read file offset count =
      let range := readRange (UInt64.ofNat data.size) offset count
      .value (data.extract range.1.toNat range.2.toNat) := by
  obtain ⟨hstart, hstop⟩ := readRange_le (UInt64.ofNat data.size) offset count
  have hsize : (UInt64.ofNat data.size).toNat ≤ data.size := by
    rw [UInt64.toNat_ofNat']
    exact Nat.mod_le _ _
  simp only [read, hfile, slice]
  exact if_pos ⟨hstart, hstop.trans hsize⟩

/-- A read does not crash. -/
theorem read_ne_crash (s : Store) (file : Path) (offset : UInt64) (count : Option UInt64) :
    s.read file offset count ≠ .crash := by
  rcases hentry : s.get? file with _ | _ | ⟨data, modified⟩
  · simp [read, hentry, Outcome.failure]
  · simp [read, hentry, Outcome.failure]
  · simp [read_eq_extract_readRange hentry, Outcome.value]

/-- A read of a file gets the bytes from its offset on, as many as it asks for. -/
theorem read_eq_extract (hfile : s.get? file = some (.file data modified))
    (hsize : data.size < UInt64.size) (offset : UInt64) (count : Option UInt64) :
    s.read file offset count = .value (data.extract offset.toNat
      (count.elim data.size fun n => offset.toNat + n.toNat)) := by
  rw [read_eq_extract_readRange hfile]
  simp only [toNat_readRange_fst, toNat_readRange_snd, UInt64.toNat_ofNat_of_lt' hsize]
  rw [extract_min_size]

end Store

namespace Provider

variable {p : Provider} {file : Path} {data : ByteArray} {modified : Timestamp}
variable {times : Nat → Timestamp} {sizes : Nat → UInt64} {i done : Nat} {pieces : List ByteArray}

/-! ### Reading on -/

/-- The pieces of a file from read number `i` on, when so many bytes are done. Each read is made at
its time and asks for its number of bytes from where the one before has ended, until one gets
nothing. -/
inductive Pieces (p : Provider) (file : Path) (times : Nat → Timestamp) (sizes : Nat → UInt64) :
    Nat → Nat → List ByteArray → Prop
  | last {i done : Nat}
    (hread : p.serve (times i) (.read file (UInt64.ofNat done) (some (sizes i))) =
      (p, .value (.data .empty))) : Pieces p file times sizes i done []
  | next {i done : Nat} {piece : ByteArray} {pieces : List ByteArray}
    (hread : p.serve (times i) (.read file (UInt64.ofNat done) (some (sizes i))) =
      (p, .value (.data piece))) (hne : piece ≠ .empty)
    (hrest : Pieces p file times sizes (i + 1) (done + piece.size) pieces) :
    Pieces p file times sizes i done (piece :: pieces)

/-- One request has one reply. -/
private theorem eq_of_serve_data {now : Timestamp} {r : Request} {bytes bytes' : ByteArray}
    (h : p.serve now r = (p, .value (.data bytes)))
    (h' : p.serve now r = (p, .value (.data bytes'))) : bytes = bytes' := by
  simpa [Outcome.value] using h.symm.trans h'

/-- There is only one way to read on. -/
theorem Pieces.unique {pieces' : List ByteArray} (h : p.Pieces file times sizes i done pieces)
    (h' : p.Pieces file times sizes i done pieces') : pieces = pieces' := by
  induction h generalizing pieces' with
  | last hread =>
    cases h' with
    | last _ => rfl
    | next hread' hne' _ => exact absurd (eq_of_serve_data hread' hread) hne'
  | next hread hne _ ih =>
    cases h' with
    | last hread' => exact absurd (eq_of_serve_data hread hread') hne
    | next hread' _ hrest' =>
      obtain rfl := eq_of_serve_data hread hread'
      rw [ih hrest']

section File

variable (hfile : p.store.get? file = some (.file data modified)) (hsize : data.size < UInt64.size)

include hfile hsize

/-- A provider replies to a read with the bytes from the offset on, as many as it asks for. -/
theorem serve_read (now : Timestamp) (offset : UInt64) (count : Option UInt64) :
    p.serve now (.read file offset count) = (p, .value (.data (data.extract offset.toNat
      (count.elim data.size fun n => offset.toNat + n.toNat)))) := by
  rw [serve, Store.read_eq_extract hfile hsize]
  rfl

/-- Reading on gets the bytes between what is done and where the count ends. -/
theorem serve_read_done (hdone : done ≤ data.size) (now : Timestamp) (n : UInt64) :
    p.serve now (.read file (UInt64.ofNat done) (some n)) =
      (p, .value (.data (data.extract done (done + n.toNat)))) := by
  rw [serve_read hfile hsize, UInt64.toNat_ofNat_of_lt' (hdone.trans_lt hsize)]
  rfl

/-- All pieces together are what was not done. -/
theorem Pieces.foldr_append (hpos : ∀ i, 0 < sizes i)
    (h : p.Pieces file times sizes i done pieces) (hdone : done ≤ data.size) :
    pieces.foldr (· ++ ·) .empty = data.extract done data.size := by
  induction h with
  | @last i done hread =>
    have hempty := eq_of_serve_data (serve_read_done hfile hsize hdone _ _) hread
    have hn : 0 < (sizes i).toNat := UInt64.lt_iff_toNat_lt.mp (hpos i)
    have hend := (Store.extract_add_eq_empty_iff hdone hn).mp hempty
    rw [hend, ByteArray.extract_same]
    rfl
  | @next i done piece pieces hread _ _ ih =>
    obtain rfl := eq_of_serve_data (serve_read_done hfile hsize hdone _ _) hread
    rw [Store.size_extract_add hdone] at ih
    rw [List.foldr_cons, ih (Nat.min_le_right _ _)]
    exact Store.extract_append_rest hdone _

/-- A file can be read to its end, whatever the times. -/
theorem exists_pieces (sizes : Nat → UInt64) (i : Nat) (hdone : done ≤ data.size) :
    ∃ pieces, ∀ times, p.Pieces file times sizes i done pieces := by
  induction hleft : data.size - done using Nat.strongRecOn generalizing i done with
  | ind left ih =>
    let piece := data.extract done (done + (sizes i).toNat)
    have hread := serve_read_done hfile hsize hdone (n := sizes i)
    by_cases hend : piece = .empty
    · exact ⟨[], fun times => .last (hend ▸ hread (times i))⟩
    · -- a piece that is not empty leaves less to read, and does not go beyond the end
      have hnext : done + piece.size ≤ data.size :=
        (Store.size_extract_add hdone _).trans_le (Nat.min_le_right _ _)
      have hmore : 0 < piece.size := Nat.pos_of_ne_zero (mt ByteArray.size_eq_zero_iff.mp hend)
      obtain ⟨pieces, hpieces⟩ := ih (data.size - (done + piece.size)) (by omega) (i + 1) hnext rfl
      exact ⟨piece :: pieces, fun times => .next (hread (times i)) hend (hpieces times)⟩

end File

/-- **Reads reassemble files.** A read of a stored file never crashes, wherever it starts and stops:
it gets the bytes of the file without those before its offset, cut to its count if it has one. Reads
that follow one another from the beginning, of any lengths but zero and at any times, come to one
that gets nothing; the pieces do not depend on the times, and together they are the file. The bound
on the size holds of all bytes in memory, since their number is a 64-bit one. -/
theorem reads_reassemble_files (hfile : p.store.get? file = some (.file data modified))
    (hsize : data.size < UInt64.size) :
    (∀ now offset count,
      let rest := data.data.toList.drop offset.toNat
      p.serve now (.read file offset count) =
        (p, .value (.data (count.elim rest fun n => rest.take n.toNat).toByteArray))) ∧
    ∀ sizes : Nat → UInt64, (∀ i, 0 < sizes i) →
      ∃ pieces, (∀ times pieces', p.Pieces file times sizes 0 0 pieces' ↔ pieces' = pieces) ∧
        pieces.foldr (· ++ ·) .empty = data := by
  refine ⟨fun now offset count => ?_, fun sizes hpos => ?_⟩
  · intro rest
    have hrest : rest.length = data.size - offset.toNat := by
      rw [List.length_drop, Array.length_toList, ByteArray.size_data]
    rw [serve_read hfile hsize, Store.extract_eq_toByteArray]
    cases count with
    | none => rw [Option.elim_none, Option.elim_none, ← hrest, List.take_length]
    | some n => rw [Option.elim_some, Option.elim_some, Nat.add_sub_cancel_left]
  · obtain ⟨pieces, hpieces⟩ := exists_pieces hfile hsize sizes 0 (Nat.zero_le _)
    refine ⟨pieces, fun times pieces' => ⟨fun h => h.unique (hpieces times), ?_⟩, ?_⟩
    · rintro rfl
      exact hpieces times
    · rw [(hpieces fun _ => ⟨0⟩).foldr_append hfile hsize hpos (Nat.zero_le _),
        ByteArray.extract_zero_size]

/-- Six bytes in pieces of four: the second piece is shorter, and the third read gets nothing. A
count that leads beyond the 64-bit numbers is cut to what is there. -/
theorem reads_reassemble_files_six :
    let f : Path := ⟨true, ["f"]⟩
    let data : ByteArray := ⟨#[97, 98, 99, 100, 101, 102]⟩
    let pieces : List ByteArray := [⟨#[97, 98, 99, 100]⟩, ⟨#[101, 102]⟩]
    let p : Provider := { Provider.new 1 with store := Store.initial.put f (.file data ⟨0⟩) }
    let sizes : Nat → UInt64 := fun _ => 4
    p.store.get? f = some (.file data ⟨0⟩) ∧ data.size < UInt64.size ∧ (∀ i, 0 < sizes i) ∧
      p.serve ⟨0⟩ (.read f 3 (some 18446744073709551615)) =
        (p, .value (.data ⟨#[100, 101, 102]⟩)) ∧
      (∀ times pieces', p.Pieces f times sizes 0 0 pieces' ↔ pieces' = pieces) ∧
      pieces.foldr (· ++ ·) .empty = data := by
  intro f data pieces p sizes
  have hfile : p.store.get? f = some (.file data ⟨0⟩) := by simp [p, Store.get?_put]
  have hsize : data.size < UInt64.size := by decide
  have hpos : ∀ i, 0 < sizes i := fun _ => by decide
  obtain ⟨hread, hall⟩ := reads_reassemble_files hfile hsize
  obtain ⟨whole, hunique, hdata⟩ := hall sizes hpos
  have hpieces : p.Pieces f (fun _ => ⟨0⟩) sizes 0 0 pieces :=
    .next (hread ⟨0⟩ 0 (some 4)) (by decide)
      (.next (hread ⟨0⟩ 4 (some 4)) (by decide) (.last (hread ⟨0⟩ 6 (some 4))))
  obtain rfl := (hunique _ _).mp hpieces
  exact ⟨hfile, hsize, hpos, hread ⟨0⟩ 3 _, hunique, hdata⟩

end Provider
end LayeredStore
