import MatchTrace.Proofs.Text.Utf8
import MatchTrace.Proofs.Zip.Inflate
import MatchTrace.Zip.Unpack

/-!
Zip archives read back as they were written, if all their sizes fit into the fields of 16 and 32 bits.
-/

namespace MatchTrace.Zip

set_option autoImplicit false

section Numbers

variable (method check packed size named start count length : Nat)

def commonNumbers : List Nat :=
  word16 20 ++ word16 0x800 ++ word16 method ++ word16 0 ++ word16 0x21 ++ word32 check ++ word32 packed ++ word32 size ++
    word16 named ++ word16 0

def localNumbers : List Nat := word32 0x04034b50 ++ commonNumbers method check packed size named

def lineNumbers : List Nat :=
  word32 0x02014b50 ++ word16 20 ++ commonNumbers method check packed size named ++ word16 0 ++ word16 0 ++ word16 0 ++
    word32 0 ++ word32 start

def endNumbers : List Nat :=
  word32 0x06054b50 ++ word16 0 ++ word16 0 ++ word16 count ++ word16 count ++ word32 length ++ word32 start ++ word16 0

theorem local_length : (localNumbers method check packed size named).length = 30 := by
  simp [localNumbers, commonNumbers, word16, word32]

theorem line_length : (lineNumbers method check packed size named start).length = 46 := by
  simp [lineNumbers, commonNumbers, word16, word32]

theorem end_length : (endNumbers start count length).length = 22 := by
  simp [endNumbers, word16, word32]

variable (b : ByteArray) (i : Nat)

theorem local_words (there : Holds b i ((localNumbers method check packed size named).map Nat.toUInt8)) :
    word32? b i = some localMark ∧ word16? b (i + 26) = some (named % 0x10000) ∧ word16? b (i + 28) = some 0 := by
  have half := word16_there b i _ there
  refine ⟨word32_there b i _ there 0 localMark ?_, half 26 named ?_, half 28 0 ?_⟩
  all_goals simp [localNumbers, commonNumbers, word16, word32, localMark]

theorem line_words (there : Holds b i ((lineNumbers method check packed size named start).map Nat.toUInt8)) :
    word32? b i = some directoryMark ∧ word16? b (i + 8) = some 0x800 ∧ word16? b (i + 10) = some (method % 0x10000) ∧
      word32? b (i + 16) = some (check % 0x100000000) ∧ word32? b (i + 20) = some (packed % 0x100000000) ∧
      word32? b (i + 24) = some (size % 0x100000000) ∧ word16? b (i + 28) = some (named % 0x10000) ∧
      word16? b (i + 30) = some 0 ∧ word16? b (i + 32) = some 0 ∧ word32? b (i + 42) = some (start % 0x100000000) := by
  have half := word16_there b i _ there
  have full := word32_there b i _ there
  refine ⟨full 0 directoryMark ?_, half 8 0x800 ?_, half 10 method ?_, full 16 check ?_, full 20 packed ?_,
    full 24 size ?_, half 28 named ?_, half 30 0 ?_, half 32 0 ?_, full 42 start ?_⟩
  all_goals simp [lineNumbers, commonNumbers, word16, word32, directoryMark]

theorem end_words (there : Holds b i ((endNumbers start count length).map Nat.toUInt8)) :
    word32? b i = some endMark ∧ word16? b (i + 4) = some 0 ∧ word16? b (i + 6) = some 0 ∧
      word16? b (i + 8) = some (count % 0x10000) ∧ word16? b (i + 10) = some (count % 0x10000) ∧
      word32? b (i + 16) = some (start % 0x100000000) ∧ word16? b (i + 20) = some 0 := by
  have half := word16_there b i _ there
  have full := word32_there b i _ there
  refine ⟨full 0 endMark ?_, half 4 0 ?_, half 6 0 ?_, half 8 count ?_, half 10 count ?_, full 16 start ?_, half 20 0 ?_⟩
  all_goals simp [endNumbers, word16, word32, endMark]

end Numbers

section Entry

variable (compression : Compression) (name : String) (bytes : ByteArray) (start : Nat)

theorem local_data :
    (localEntry compression name.toUTF8 bytes (pack compression bytes)).data.toList =
      (localNumbers (methodOf compression) (checksum bytes).toNat (pack compression bytes).size bytes.size
          name.toUTF8.size).map Nat.toUInt8 ++
        (name.toUTF8.data.toList ++ (pack compression bytes).data.toList) := by
  rw [localEntry, ByteArray.toList_data_append, ByteArray.toList_data_append, List.append_assoc]
  rfl

theorem line_data :
    (directoryLine compression name.toUTF8 bytes (pack compression bytes) start).data.toList =
      (lineNumbers (methodOf compression) (checksum bytes).toNat (pack compression bytes).size bytes.size name.toUTF8.size
        start).map Nat.toUInt8 ++ name.toUTF8.data.toList := by
  rw [directoryLine, ByteArray.toList_data_append]
  rfl

def lineOf : Line where
  isEncrypted := false
  method := methodOf compression
  checksum := (checksum bytes).toNat
  packedSize := (pack compression bytes).size
  size := bytes.size % 0x100000000
  headerStart := start
  nameBytes := name.toUTF8
  name := name
  comment := ""

variable (b : ByteArray) (i : Nat) (named : name.toUTF8.size < 0x10000) (short : (pack compression bytes).size < 0x100000000)

include named short

theorem line_at (there : Holds b i (directoryLine compression name.toUTF8 bytes (pack compression bytes) start).data.toList)
    (early : start < 0x100000000) :
    Line.at? b i = some (lineOf compression name bytes start, i + 46 + name.toUTF8.size) := by
  rw [line_data] at there
  obtain ⟨mark, flags, method, check, packed, size, nameSize, extraSize, commentSize, header⟩ :=
    line_words _ _ _ _ _ _ b i (holds_front b i _ _ there)
  have names := holds_back b i _ _ there
  rw [List.length_map, line_length] at names
  have inside := holds_length b _ _ names
  rw [length_data] at inside
  rw [Nat.mod_eq_of_lt named] at nameSize
  rw [Nat.mod_eq_of_lt short] at packed
  rw [Nat.mod_eq_of_lt early] at header
  rw [Nat.mod_eq_of_lt (checksum bytes).toNat_lt] at check
  have kind : methodOf compression % 0x10000 = methodOf compression := by cases compression <;> rfl
  rw [kind] at method
  have plain : methodOf compression ≠ Line.cipherMethod ∨ false = true := by cases compression <;> decide
  have flag : (0x800 / 0x800 % 2 == 1) = true := rfl
  have text : textOf true name.toUTF8 = name := Utf8.decode_written name
  have comment : textOf true ByteArray.empty = "" := Utf8.decode_written ""
  simp only [Line.at?, mark, flags, method, check, packed, size, nameSize, extraSize, commentSize, header,
    holds_slice b _ _ names, slice_nothing b _ inside, Nat.add_zero, Option.bind_eq_bind, Option.bind_some,
    Option.pure_def, guard_true, flag, text, comment]
  exact (congrArg (Option.bind · _) (if_pos plain)).trans rfl

omit named short in
theorem packed_at (there : Holds b i (pack compression bytes).data.toList) :
    bodyAt b (lineOf compression name bytes start) i = checkedText (checksum bytes).toNat bytes := by
  have inside := holds_length b _ _ there
  rw [length_data] at inside
  simp only [bodyAt, lineOf, Nat.min_eq_left inside, holds_extract b i _ there, Bool.false_eq_true, if_false]
  cases compression with
  | stored => rw [methodOf, stored, if_pos rfl, pack]
  | deflated =>
      have packed : methodOf .deflated ≠ stored := by decide
      rw [if_neg packed, inflate_stored]
      rfl

omit short in
theorem body_at (there : Holds b start (localEntry compression name.toUTF8 bytes (pack compression bytes)).data.toList) :
    body b (lineOf compression name bytes start) = checkedText (checksum bytes).toNat bytes := by
  rw [local_data] at there
  obtain ⟨mark, nameSize, extraSize⟩ := local_words _ _ _ _ _ b start (holds_front b start _ _ there)
  rw [Nat.mod_eq_of_lt named] at nameSize
  have rest := holds_back b start _ _ there
  rw [List.length_map, local_length] at rest
  have data := holds_back b _ _ _ rest
  rw [length_data] at data
  have opened : dataStart? b start = some (start + 30 + name.toUTF8.size) := by
    simp only [dataStart?, mark, nameSize, extraSize, Option.bind_eq_bind, Option.bind_some, Option.pure_def, guard_true]
    rfl
  have clear : ¬ (lineOf compression name bytes start).isEncrypted = true := Bool.false_ne_true
  have header : (lineOf compression name bytes start).headerStart = start := rfl
  rw [body, if_neg clear, header, opened]
  exact packed_at compression name bytes start b _ data

end Entry

section Archive

variable (compression : Compression)

def entryBytes (e : String × ByteArray) : List UInt8 :=
  (localEntry compression e.1.toUTF8 e.2 (pack compression e.2)).data.toList

def bodyBytes (entries : List (String × ByteArray)) : List UInt8 := entries.flatMap (entryBytes compression)

def directoryBytes : Nat → List (String × ByteArray) → List UInt8
  | _, [] => []
  | start, e :: entries =>
    (directoryLine compression e.1.toUTF8 e.2 (pack compression e.2) start).data.toList ++
      directoryBytes (start + (entryBytes compression e).length) entries

def linesOf : Nat → List (String × ByteArray) → List Line
  | _, [] => []
  | start, e :: entries =>
    lineOf compression e.1 e.2 start :: linesOf (start + (entryBytes compression e).length) entries

variable (e : String × ByteArray) (entries : List (String × ByteArray))

theorem body_bytes_cons :
    bodyBytes compression (e :: entries) = entryBytes compression e ++ bodyBytes compression entries := List.flatMap_cons

theorem entry_length :
    (entryBytes compression e).length = 30 + e.1.toUTF8.size + (pack compression e.2).size := by
  rw [entryBytes, local_data, List.length_append, List.length_map, local_length, List.length_append, length_data,
    length_data, Nat.add_assoc]

theorem written_data (w : Written) :
    (entries.foldl (Written.add compression) w).body.data.toList =
        w.body.data.toList ++ bodyBytes compression entries ∧
      (entries.foldl (Written.add compression) w).directory.data.toList =
        w.directory.data.toList ++ directoryBytes compression w.body.size entries := by
  induction entries generalizing w with
  | nil => exact ⟨(List.append_nil _).symm, (List.append_nil _).symm⟩
  | cons e entries ih =>
      obtain ⟨body, directory⟩ := ih (w.add compression e)
      rw [List.foldl_cons, body, directory]
      constructor
      · rw [body_bytes_cons, ← List.append_assoc]
        exact congrArg (· ++ _) ByteArray.toList_data_append
      · have size : (w.add compression e).body.size = w.body.size + (entryBytes compression e).length := by
          rw [entryBytes, length_data]
          exact ByteArray.size_append
        rw [size, directoryBytes, ← List.append_assoc]
        exact congrArg (· ++ _) ByteArray.toList_data_append

theorem write_data :
    (write compression entries).data.toList = bodyBytes compression entries ++ (directoryBytes compression 0 entries ++
      (endNumbers (bodyBytes compression entries).length entries.length
        (directoryBytes compression 0 entries).length).map Nat.toUInt8) := by
  obtain ⟨body, directory⟩ := written_data compression entries ⟨ByteArray.empty, ByteArray.empty⟩
  have body : _ = bodyBytes compression entries := body
  have directory : _ = directoryBytes compression 0 entries := directory
  rw [write, ByteArray.toList_data_append, ByteArray.toList_data_append, List.append_assoc, ← body, ← directory,
    length_data, length_data]
  rfl

section Places

variable (b : ByteArray) (i start : Nat) (named : ∀ e ∈ entries, e.1.toUTF8.size < 0x10000)

theorem lines_early (line : Line) (mem : line ∈ linesOf compression start entries) :
    line.headerStart < start + (bodyBytes compression entries).length := by
  induction entries generalizing start with
  | nil => cases mem
  | cons e entries ih =>
      rw [body_bytes_cons, List.length_append, ← Nat.add_assoc]
      rcases List.mem_cons.mp mem with rfl | later
      · change start < _
        rw [entry_length]
        omega
      · exact ih _ later

include named

theorem list_at (there : Holds b i (directoryBytes compression start entries))
    (small : start + (bodyBytes compression entries).length < 0x100000000) :
    Line.listAt? b entries.length i = some (linesOf compression start entries) := by
  induction entries generalizing i start with
  | nil => rfl
  | cons e entries ih =>
      rw [body_bytes_cons, List.length_append, ← Nat.add_assoc] at small
      have size := entry_length compression e
      have first := line_at compression e.1 e.2 start b i (named e List.mem_cons_self) (by omega)
        (holds_front b i _ _ there) (by omega)
      have rest := holds_back b i _ _ there
      rw [line_data, List.length_append, List.length_map, line_length, length_data, ← Nat.add_assoc] at rest
      have others := ih _ _ (fun f mem => named f (List.mem_cons_of_mem e mem)) rest small
      rw [List.length_cons, Line.listAt?, first]
      change (Line.listAt? b entries.length (i + 46 + e.1.toUTF8.size)).bind _ = _
      rw [others]
      rfl

theorem bodies_at (there : Holds b start (bodyBytes compression entries)) :
    (linesOf compression start entries).map (fun line => Entry.mk line.name (body b line)) =
      entries.map fun e => ⟨e.1, checkedText (checksum e.2).toNat e.2⟩ := by
  induction entries generalizing start with
  | nil => rfl
  | cons e entries ih =>
      rw [body_bytes_cons] at there
      have first := body_at compression e.1 e.2 start b (named e List.mem_cons_self) (holds_front b start _ _ there)
      have others := ih _ (fun f mem => named f (List.mem_cons_of_mem e mem)) (holds_back b start _ _ there)
      rw [linesOf, List.map_cons, List.map_cons, others, first]
      rfl

end Places

end Archive

-- The sizes of an archive go into the fields that tell them, and no two entries have one name.
structure Fits (compression : Compression) (entries : List (String × ByteArray)) : Prop where
  distinct : (entries.map (·.1)).Nodup
  named : ∀ e ∈ entries, e.1.toUTF8.size < 0x10000
  few : entries.length < 0xFFFF
  small : (write compression entries).size < 0xFFFFFFFF

theorem put_new (e : Entry) (entries : List Entry) (fresh : e.name ∉ entries.map (·.name)) :
    putEntry e entries = entries ++ [e] := by
  induction entries with
  | nil => rfl
  | cons f entries ih =>
      rw [List.map_cons, List.mem_cons, not_or] at fresh
      rw [putEntry, if_neg (Ne.symm fresh.1), ih fresh.2]
      rfl

theorem put_all (entries done : List Entry) (distinct : ((done ++ entries).map (·.name)).Nodup) :
    entries.foldl (fun found e => putEntry e found) done = done ++ entries := by
  induction entries generalizing done with
  | nil => exact (List.append_nil done).symm
  | cons e entries ih =>
      have fresh : e.name ∉ done.map (·.name) := by
        rw [List.map_append, List.map_cons] at distinct
        exact fun mem => (List.nodup_append.mp distinct).2.2 _ mem _ List.mem_cons_self rfl
      rw [List.foldl_cons, put_new e done fresh, ih _ (by rwa [List.append_assoc]), List.append_assoc]
      rfl

theorem lines_placed (b : ByteArray) (stop count : Nat) (lines : List Line) (listed : Line.listAt? b count stop = some lines)
    (early : ∀ line ∈ lines, line.headerStart < stop) : Directory.lines? b ⟨stop, count, 0⟩ = some lines := by
  rw [Directory.lines?, listed]
  change lines.mapM _ = some lines
  clear listed
  induction lines with
  | nil => rfl
  | cons line lines ih =>
      have here : line.headerStart + 0 < stop := early line List.mem_cons_self
      rw [List.mapM_cons, ih fun other mem => early other (List.mem_cons_of_mem line mem)]
      simp only [here, guard_true]
      rfl

section Whole

variable (compression : Compression) (entries : List (String × ByteArray)) (fits : Fits compression entries)

theorem write_size :
    (write compression entries).size =
      (bodyBytes compression entries).length + (directoryBytes compression 0 entries).length + 22 := by
  rw [← length_data, write_data, List.length_append, List.length_append, List.length_map, end_length, Nat.add_assoc]

theorem write_holds :
    Holds (write compression entries) 0 (bodyBytes compression entries) ∧
      Holds (write compression entries) (bodyBytes compression entries).length (directoryBytes compression 0 entries) ∧
      Holds (write compression entries)
        ((bodyBytes compression entries).length + (directoryBytes compression 0 entries).length)
        ((endNumbers (bodyBytes compression entries).length entries.length
          (directoryBytes compression 0 entries).length).map Nat.toUInt8) := by
  have whole := holds_self (write compression entries)
  rw [write_data] at whole
  have rest := holds_back _ _ _ _ whole
  rw [Nat.zero_add] at rest
  exact ⟨holds_front _ _ _ _ whole, holds_front _ _ _ _ rest, holds_back _ _ _ _ rest⟩

-- The directory starts where the first line's mark is.
theorem directory_start (filled : entries ≠ []) :
    markedBetween? (write compression entries) directoryMark (bodyBytes compression entries).length
        ((bodyBytes compression entries).length + (directoryBytes compression 0 entries).length) some =
      some (bodyBytes compression entries).length := by
  cases entries with
  | nil => exact absurd rfl filled
  | cons e rest =>
      have there := (write_holds compression (e :: rest)).2.1
      rw [directoryBytes, line_data] at there
      obtain ⟨mark, -⟩ := line_words _ _ _ _ _ _ _ _ (holds_front _ _ _ _ (holds_front _ _ _ _ there))
      have long : 46 ≤ (directoryBytes compression 0 (e :: rest)).length := by
        rw [directoryBytes, line_data, List.length_append, List.length_append, List.length_map, line_length]
        omega
      obtain ⟨n, places⟩ : ∃ n, (bodyBytes compression (e :: rest)).length +
          (directoryBytes compression 0 (e :: rest)).length - 3 - (bodyBytes compression (e :: rest)).length = n + 1 :=
        ⟨(directoryBytes compression 0 (e :: rest)).length - 4, by omega⟩
      rw [markedBetween?, places, List.range_succ_eq_map,
        List.findSome?_cons_of_isSome (by rw [Nat.add_zero, if_pos mark]; rfl), Nat.add_zero, if_pos mark]

include fits

theorem directory_at :
    Directory.at? (write compression entries)
        ((bodyBytes compression entries).length + (directoryBytes compression 0 entries).length) =
      some ⟨(bodyBytes compression entries).length, entries.length, 0⟩ := by
  obtain ⟨-, directory, ending⟩ := write_holds compression entries
  obtain ⟨mark, disk, directoryDisk, count, total, listed, comment⟩ := end_words _ _ _ _ _ ending
  have small := fits.small
  have few := fits.few
  have size := write_size compression entries
  rw [Nat.mod_eq_of_lt (by omega)] at count total listed
  have inside : (bodyBytes compression entries).length + (directoryBytes compression 0 entries).length + 22 + 0 ≤
      (write compression entries).size := by omega
  have narrow : ¬ (entries.length = 0xFFFF ∨ (bodyBytes compression entries).length = 0xFFFFFFFF) := by omega
  have found : Directory.ofEnd? (write compression entries)
      ((bodyBytes compression entries).length + (directoryBytes compression 0 entries).length) =
        some ⟨(bodyBytes compression entries).length, entries.length, 0⟩ := by
    by_cases none : entries = []
    · subst none
      simp only [Directory.ofEnd?, disk, directoryDisk, count, total, listed, Option.bind_eq_bind, Option.bind_some,
        Option.pure_def, guard_true]
      rfl
    · have start := directory_start compression entries none
      have length : ¬ entries.length = 0 := mt List.eq_nil_of_length_eq_zero none
      simp only [Directory.ofEnd?, disk, directoryDisk, count, total, listed, if_neg length, start, Option.bind_eq_bind,
        Option.bind_some, Option.pure_def, guard_true, Nat.sub_self]
  simp only [Directory.at?, mark, comment, total, listed, Option.bind_eq_bind, Option.bind_some, Option.pure_def,
    guard_true, inside, narrow, false_and, if_false]
  exact found

theorem directory_lines :
    directoryLines? (write compression entries) = some (linesOf compression 0 entries) := by
  obtain ⟨-, directory, -⟩ := write_holds compression entries
  have small := fits.small
  rw [write_size] at small
  have lines := list_at compression entries _ _ 0 fits.named directory (by omega)
  have early := lines_early compression entries 0
  rw [Nat.zero_add] at early
  have found : (Directory.at? (write compression entries)
      ((bodyBytes compression entries).length + (directoryBytes compression 0 entries).length)).bind
        (Directory.lines? (write compression entries)) = some (linesOf compression 0 entries) := by
    rw [directory_at compression entries fits]
    exact lines_placed _ _ _ _ lines early
  have last : (write compression entries).size - 21 =
      (bodyBytes compression entries).length + (directoryBytes compression 0 entries).length + 1 := by
    rw [write_size]
    rfl
  rw [directoryLines?, last, List.range_succ, List.reverse_append, List.reverse_singleton, List.singleton_append]
  refine (List.findSome?_cons_of_isSome ?_).trans found
  exact Option.isSome_of_mem found

theorem read_write :
    read? (write compression entries) =
      some (entries.map fun e => ⟨e.1, checkedText (checksum e.2).toNat e.2⟩) := by
  obtain ⟨bodies, -, -⟩ := write_holds compression entries
  have told := bodies_at compression entries _ 0 fits.named bodies
  have stored := put_all (entries.map fun e => ⟨e.1, checkedText (checksum e.2).toNat e.2⟩) [] (by
    rw [List.nil_append, List.map_map]
    exact fits.distinct)
  rw [← told, List.foldl_map] at stored
  rw [read?, directory_lines compression entries fits, Option.map_some]
  exact congrArg some (stored.trans told)

end Whole

theorem checked_text (text : String) : checkedText (checksum text.toUTF8).toNat text.toUTF8 = .text text := by
  have valid : String.fromUTF8? text.toUTF8 = some text := dif_pos text.isValidUTF8
  rw [checkedText, if_neg (not_not_intro rfl), valid]

/-- Texts that were packed under names of their own read back in order, if the sizes of the archive go into their fields. -/
theorem read_texts (compression : Compression) (entries : List (String × String))
    (fits : Fits compression (entries.map fun (name, text) => (name, text.toUTF8))) :
    read? (write compression (entries.map fun (name, text) => (name, text.toUTF8))) =
      some (entries.map fun (name, text) => ⟨name, .text text⟩) := by
  rw [read_write compression _ fits, List.map_map]
  refine congrArg some (List.map_congr_left fun e _ => ?_)
  exact congrArg (Entry.mk e.1) (checked_text e.2)

end MatchTrace.Zip
