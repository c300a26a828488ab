import Mathlib.Data.List.TakeWhile
import MatchTrace.Archive.Read
import MatchTrace.Proofs.Except

/-!
The lines of a text, and what a table says that has a record in each of them.
-/

namespace MatchTrace

set_option autoImplicit false

variable {α : Type}

namespace Archive

-- The lines of a text. A line feed ends a line, together with a carriage return right in front of it; what is left behind the
-- last line feed is a line too, unless nothing is.
inductive Lined : List Char → List (List Char) → Prop where
  | nil : Lined [] []
  | last (line : List Char) : line ≠ [] → '\n' ∉ line → Lined line [line]
  | feed (line rest : List Char) (lines : List (List Char)) : '\n' ∉ line → line.getLast? ≠ some '\r' → Lined rest lines →
      Lined (line ++ '\n' :: rest) (line :: lines)
  | both (line rest : List Char) (lines : List (List Char)) : '\n' ∉ line → Lined rest lines →
      Lined (line ++ '\r' :: '\n' :: rest) (line :: lines)

theorem rows_from_line (row line rest : List Char) (flat : '\n' ∉ line) :
    rowsFrom row (line ++ '\n' :: rest) = dropReturn (row.reverse ++ line) :: rowsFrom [] rest := by
  induction line generalizing row with
  | nil => rw [List.nil_append, rowsFrom, if_pos rfl, List.append_nil]
  | cons c cs ih =>
      rw [List.mem_cons, not_or] at flat
      rw [List.cons_append, rowsFrom, if_neg (Ne.symm flat.1), ih (c :: row) flat.2]
      simp

theorem rows_from_last (row line : List Char) (left : row.reverse ++ line ≠ []) (flat : '\n' ∉ line) :
    rowsFrom row line = [row.reverse ++ line] := by
  induction line generalizing row with
  | nil =>
      cases row with
      | nil => exact absurd rfl left
      | cons c cs => rw [rowsFrom, List.append_nil]; rfl
  | cons c cs ih =>
      rw [List.mem_cons, not_or] at flat
      rw [rowsFrom, if_neg (Ne.symm flat.1), ih (c :: row) (by simp) flat.2]
      simp

theorem drop_return_end (line : List Char) : dropReturn (line ++ ['\r']) = line := by
  rw [dropReturn, if_pos List.getLast?_concat, List.dropLast_concat]

theorem rows_of_lined (text : List Char) (lines : List (List Char)) (lined : Lined text lines) :
    rowsFrom [] text = lines := by
  induction lined with
  | nil => rfl
  | last line left flat => exact rows_from_last [] line left flat
  | feed line rest lines flat solid _ ih =>
      rw [rows_from_line [] line rest flat, ih, List.reverse_nil, List.nil_append, dropReturn, if_neg solid]
  | both line rest lines flat _ ih =>
      have ended : '\n' ∉ line ++ ['\r'] := by simp [flat]
      rw [List.append_cons, rows_from_line [] _ rest ended, ih, List.reverse_nil, List.nil_append, drop_return_end]

theorem lined_rows (row text : List Char) (flat : '\n' ∉ row) : Lined (row.reverse ++ text) (rowsFrom row text) := by
  induction text generalizing row with
  | nil =>
      cases row with
      | nil => exact .nil
      | cons c cs =>
          rw [List.append_nil]
          exact .last _ (by simp) (by rwa [List.mem_reverse])
  | cons c cs ih =>
      by_cases ended : c = '\n'
      · subst ended
        have rest := ih [] List.not_mem_nil
        rw [rowsFrom, if_pos rfl, dropReturn]
        split
        · next last =>
            -- the row was collected in reverse, so the carriage return is its head
            obtain ⟨line, rfl⟩ : ∃ line, row = '\r' :: line := by simpa [List.head?_eq_some_iff] using last
            rw [List.mem_cons, not_or] at flat
            rw [List.reverse_cons, List.dropLast_concat, List.append_assoc]
            exact .both _ _ _ (by simpa using flat.2) rest
        · next solid => exact .feed _ _ _ (by simpa using flat) solid rest
      · rw [rowsFrom, if_neg ended, List.append_cons, ← List.reverse_cons]
        exact ih (c :: row) (by simp [flat, Ne.symm ended])

theorem lined_iff (text : List Char) (lines : List (List Char)) : Lined text lines ↔ rowsFrom [] text = lines :=
  ⟨rows_of_lined text lines, fun same => same ▸ lined_rows [] text List.not_mem_nil⟩

def Tabled (read : String → Except RowError α) (text : String) (records : List α) : Prop :=
  ∃ lines, Lined text.toList lines ∧ lines.map (fun line => read (String.ofList line)) = records.map .ok

-- Some line of the text does not read, and of the first such line this is said.
inductive Untabled (read : String → Except RowError α) (text : String) : String → Prop where
  | line (before : List (List Char)) (bad : List Char) (after : List (List Char)) (fault : RowError) :
      Lined text.toList (before ++ bad :: after) → (∀ line ∈ before, ∃ x, read (String.ofList line) = .ok x) →
      read (String.ofList bad) = .error fault → Untabled read text fault.message

theorem decoded_ok_iff (entry : String) (read : Except RowError α) (x : α) : decoded entry read = .ok x ↔ read = .ok x := by
  cases read with
  | ok y => rw [decoded, Except.ok.injEq, Except.ok.injEq]
  | error fault => exact iff_of_false (fun none => nomatch none) (fun none => nomatch none)

theorem decoded_error_iff (entry : String) (read : Except RowError α) (e : TraceError) :
    decoded entry read = .error e ↔ ∃ fault, read = .error fault ∧ e = .malformed entry fault.message := by
  cases read with
  | ok y =>
      refine iff_of_false (fun none => nomatch none) ?_
      rintro ⟨_, none, _⟩
      cases none
  | error fault =>
      rw [decoded, Except.error.injEq]
      constructor
      · rintro rfl
        exact ⟨fault, rfl, rfl⟩
      · rintro ⟨_, ⟨⟩, rfl⟩
        rfl

-- Whether the faults are told of the entry line by line or at the end, they are told in the same way.
theorem decoded_map_m (entry : String) (read : String → Except RowError α) (lines : List String) :
    lines.mapM (fun line => decoded entry (read line)) = decoded entry (lines.mapM read) := by
  induction lines with
  | nil => rfl
  | cons line lines ih =>
      rw [List.mapM_cons, List.mapM_cons, ih]
      cases read line with
      | error fault => rfl
      | ok x => cases lines.mapM read <;> rfl

variable (read : String → Except RowError α) (entry text : String)

theorem table_ok_iff (records : List α) :
    (rows text).mapM (fun row => decoded entry (read row)) = .ok records ↔ Tabled read text records := by
  rw [decoded_map_m, decoded_ok_iff, map_m_ok_iff, rows, List.map_map]
  constructor
  · intro same
    exact ⟨_, (lined_iff _ _).mpr rfl, same⟩
  · rintro ⟨lines, lined, same⟩
    rw [(lined_iff _ _).mp lined]
    exact same

theorem table_error_iff (e : TraceError) :
    (rows text).mapM (fun row => decoded entry (read row)) = .error e ↔
      ∃ reason, Untabled read text reason ∧ e = .malformed entry reason := by
  rw [decoded_map_m, decoded_error_iff, rows, List.mapM_map]
  constructor
  · rintro ⟨fault, failed, rfl⟩
    obtain ⟨before, bad, after, lines, sound, failed⟩ := (map_m_error_iff _ _ _).mp failed
    exact ⟨_, .line before bad after fault ((lined_iff _ _).mpr lines) sound failed, rfl⟩
  · rintro ⟨_, ⟨before, bad, after, fault, lined, sound, failed⟩, rfl⟩
    exact ⟨fault, (map_m_error_iff _ _ _).mpr ⟨before, bad, after, (lined_iff _ _).mp lined, sound, failed⟩, rfl⟩

def Trimmed (text line : String) : Prop :=
  (∃ count, text.toList = line.toList ++ List.replicate count '\n') ∧ line.toList.getLast? ≠ some '\n'

theorem trimmed_iff (line : String) : Trimmed text line ↔ dropLineFeeds text = line := by
  constructor
  · rintro ⟨⟨count, same⟩, solid⟩
    have feeds : ∀ c ∈ List.replicate count '\n', c == '\n' := fun c mem => beq_iff_eq.mpr (List.eq_of_mem_replicate mem)
    rw [← List.head?_reverse] at solid
    rw [dropLineFeeds, same, List.reverse_append, List.reverse_replicate, List.dropWhile_append_of_pos feeds,
      List.dropWhile_beq_eq_self_of_head?_ne solid, List.reverse_reverse, String.ofList_toList]
  · rintro rfl
    have feeds : text.toList.reverse.takeWhile (· == '\n') = List.replicate _ '\n' :=
      List.eq_replicate_of_mem fun c mem => beq_iff_eq.mp (List.mem_takeWhile_imp (p := (· == '\n')) mem)
    refine ⟨⟨(text.toList.reverse.takeWhile (· == '\n')).length, ?_⟩, ?_⟩
    · have parts := congrArg List.reverse (List.takeWhile_append_dropWhile (p := (· == '\n')) (l := text.toList.reverse))
      rw [List.reverse_append, List.reverse_reverse, feeds, List.reverse_replicate] at parts
      rw [dropLineFeeds, String.toList_ofList, parts]
    · have solid := List.head?_dropWhile_not (· == '\n') text.toList.reverse
      rw [dropLineFeeds, String.toList_ofList, List.getLast?_reverse]
      intro last
      rw [last] at solid
      exact absurd solid (by decide)

end Archive

end MatchTrace
