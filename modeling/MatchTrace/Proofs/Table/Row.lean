import MatchTrace.Table.Row

/-!
A row splits back into the fields it was made of, whatever they hold, and a row is one line.
-/

namespace MatchTrace.Row

set_option autoImplicit false

theorem unescape_cons (c : Char) (rest : List Char) (plain : c ≠ '\\') :
    unescape (c :: rest) = c :: unescape rest := by
  rw [unescape]
  · exact fun same => absurd same.symm plain.symm
  · exact fun _ _ same => absurd same.symm plain.symm

theorem pieces_cons (c : Char) (rest : List Char) (plain : c ≠ '\\') (inside : c ≠ separator) :
    pieces (c :: rest) = onFirst [c] (pieces rest) := by
  rw [pieces, if_neg inside]
  exact fun _ _ same => absurd same.symm plain.symm

theorem escape_char_cases (c : Char) :
    (escapeChar c = [c] ∧ c ≠ '\\' ∧ c ≠ separator ∧ c ≠ '\n' ∧ c ≠ '\r') ∨
      ∃ d, escapeChar c = ['\\', d] ∧ unescapeChar d = c ∧ d ≠ '\n' ∧ d ≠ '\r' := by
  by_cases backslash : c = '\\'
  · exact .inr ⟨'\\', by simp [escapeChar, backslash], by rw [backslash]; decide, by decide, by decide⟩
  by_cases cut : c = separator
  · exact .inr ⟨separator, by simp [escapeChar, cut, separator], by rw [cut]; decide, by decide, by decide⟩
  by_cases feed : c = '\n'
  · exact .inr ⟨'n', by simp [escapeChar, feed, separator], by rw [feed]; decide, by decide, by decide⟩
  by_cases back : c = '\r'
  · exact .inr ⟨'r', by simp [escapeChar, back, separator], by rw [back]; decide, by decide, by decide⟩
  exact .inl ⟨by simp [escapeChar, backslash, cut, feed, back], backslash, cut, feed, back⟩

theorem escape_cons (c : Char) (rest : List Char) : escape (c :: rest) = escapeChar c ++ escape rest :=
  List.flatMap_cons

theorem unescape_escape (field : List Char) : unescape (escape field) = field := by
  induction field with
  | nil => rfl
  | cons c rest ih =>
      rcases escape_char_cases c with ⟨same, plain, _⟩ | ⟨d, written, back, _⟩
      · rw [escape_cons, same, List.singleton_append, unescape_cons c _ plain, ih]
      · rw [escape_cons, written, List.cons_append, List.singleton_append, unescape, back, ih]

theorem pieces_escape (field rest : List Char) (p : List Char) (ps : List (List Char))
    (cut : pieces rest = p :: ps) : pieces (escape field ++ rest) = (escape field ++ p) :: ps := by
  induction field with
  | nil => exact cut
  | cons c field ih =>
      rw [escape_cons, List.append_assoc, List.append_assoc]
      rcases escape_char_cases c with ⟨same, plain, inside, _⟩ | ⟨d, written, _⟩
      · rw [same, List.singleton_append, pieces_cons c _ plain inside, ih]
        rfl
      · rw [written, List.cons_append, List.singleton_append, pieces, ih]
        rfl

theorem join_cons (field next : List Char) (fields : List (List Char)) :
    join (field :: next :: fields) = escape field ++ separator :: join (next :: fields) := by
  simp [join, List.intercalate]

theorem join_single (field : List Char) : join [field] = escape field := by
  simp [join, List.intercalate]

theorem pieces_join (field : List Char) (fields : List (List Char)) :
    pieces (join (field :: fields)) = (field :: fields).map escape := by
  induction fields generalizing field with
  | nil =>
      rw [join_single]
      simpa using pieces_escape field [] [] [] rfl
  | cons next fields ih =>
      rw [join_cons, pieces_escape field (separator :: join (next :: fields)) [] _ rfl, ih, List.append_nil]
      rfl

theorem split_join (field : List Char) (fields : List (List Char)) :
    split (join (field :: fields)) = field :: fields := by
  rw [split, pieces_join, List.map_map]
  exact (List.map_congr_left fun f _ => unescape_escape f).trans (List.map_id _)

theorem escape_one_line (field : List Char) (c : Char) (mem : c ∈ escape field) : c ≠ '\n' ∧ c ≠ '\r' := by
  obtain ⟨d, _, mem⟩ := List.mem_flatMap.mp mem
  rcases escape_char_cases d with ⟨same, _, _, noFeed, noReturn⟩ | ⟨e, written, _, noFeed, noReturn⟩
  · rw [same, List.mem_singleton] at mem
    exact mem ▸ ⟨noFeed, noReturn⟩
  · rw [written, List.mem_cons, List.mem_singleton] at mem
    rcases mem with rfl | rfl
    · decide
    · exact ⟨noFeed, noReturn⟩

theorem join_one_line (fields : List (List Char)) (c : Char) (mem : c ∈ join fields) : c ≠ '\n' ∧ c ≠ '\r' := by
  induction fields with
  | nil => cases mem
  | cons field fields ih =>
      cases fields with
      | nil =>
          rw [join_single] at mem
          exact escape_one_line field c mem
      | cons next fields =>
          rw [join_cons, List.mem_append, List.mem_cons] at mem
          rcases mem with mem | rfl | mem
          · exact escape_one_line field c mem
          · decide
          · exact ih mem

end MatchTrace.Row
