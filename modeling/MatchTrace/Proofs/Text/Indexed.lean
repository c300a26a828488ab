import MatchTrace.Proofs.Except
import MatchTrace.Proofs.Text.Slices
import MatchTrace.Text.Indexed

/-!
Lines as they are extracted, and what ends them. An extracted line followed by its line end is the line, unless it is
the last one and ends in a carriage return: that is no line end, but is dropped like one.
-/

namespace MatchTrace

set_option autoImplicit false

def dropEnd (c : Char) (s : List Char) : List Char := if s.getLast? = some c then s.dropLast else s

def lineEnd (s : List Char) : List Char :=
  if ['\r', '\n'] <:+ s then ['\r', '\n'] else if ['\n'] <:+ s then ['\n'] else []

def bare (s : List Char) : List Char := dropEnd '\r' (dropEnd '\n' s)

theorem drop_end_snoc (c d : Char) (s : List Char) : dropEnd c (s ++ [d]) = if d = c then s else s ++ [d] := by
  simp [dropEnd]

theorem drop_end_other (c : Char) (s : List Char) (other : s.getLast? ≠ some c) : dropEnd c s = s := if_neg other

theorem line_end_none (s : List Char) (other : s.getLast? ≠ some '\n') : lineEnd s = [] := by
  have plain (u : List Char) : ¬ u ++ ['\n'] <:+ s := by
    intro ends
    obtain ⟨v, same⟩ := ends
    exact other (by simp [← same])
  have long : ¬ ['\r', '\n'] <:+ s := plain ['\r']
  have short : ¬ ['\n'] <:+ s := plain []
  rw [lineEnd, if_neg long, if_neg short]

theorem line_end_feed (s : List Char) (other : s.getLast? ≠ some '\r') : lineEnd (s ++ ['\n']) = ['\n'] := by
  have long : ¬ ['\r', '\n'] <:+ s ++ ['\n'] := by
    intro ends
    obtain ⟨u, same⟩ := ends
    have shape : u ++ ['\r'] = s := List.append_cancel_right (by simpa using same)
    exact other (by simp [← shape])
  rw [lineEnd, if_neg long, if_pos (List.suffix_append s ['\n'])]

theorem line_end_both (s : List Char) : lineEnd (s ++ ['\r'] ++ ['\n']) = ['\r', '\n'] := by
  simp [lineEnd]

theorem bare_return (s : List Char) (ends : s.getLast? = some '\r') : bare s ++ ['\r'] = s := by
  obtain ⟨u, rfl⟩ := List.getLast?_eq_some_iff.mp ends
  simp [bare, drop_end_snoc]

-- Only a carriage return that no line feed follows is lost.
theorem bare_ended (s : List Char) : bare s ++ lineEnd s = s ↔ s.getLast? ≠ some '\r' := by
  by_cases feed : s.getLast? = some '\n'
  · obtain ⟨v, rfl⟩ := List.getLast?_eq_some_iff.mp feed
    by_cases both : v.getLast? = some '\r'
    · obtain ⟨u, rfl⟩ := List.getLast?_eq_some_iff.mp both
      refine iff_of_true ?_ (by simp)
      rw [bare, drop_end_snoc, if_pos rfl, drop_end_snoc, if_pos rfl, line_end_both, List.append_assoc]
      rfl
    · refine iff_of_true ?_ (by simp)
      rw [bare, drop_end_snoc, if_pos rfl, drop_end_other _ _ both, line_end_feed v both]
  · rw [line_end_none s feed, List.append_nil]
    by_cases lone : s.getLast? = some '\r'
    · have lost := bare_return s lone
      refine iff_of_false (fun kept => ?_) (not_not_intro lone)
      rw [kept] at lost
      simp at lost
    · refine iff_of_true ?_ lone
      rw [bare, drop_end_other _ _ feed, drop_end_other _ _ lone]

theorem of_snoc (cs : List Char) (start stop : Nat) (c : Char) (ordered : start ≤ stop) (here : cs[stop]? = some c) :
    LineSpan.of ⟨start, stop + 1⟩ cs = LineSpan.of ⟨start, stop⟩ cs ++ [c] := by
  have place : start + (stop - start) = stop := by omega
  simp only [LineSpan.of, List.extract_eq_take_drop]
  rw [Nat.succ_sub ordered, List.take_add_one, List.getElem?_drop, place, here]
  rfl

theorem of_empty (cs : List Char) (start : Nat) : LineSpan.of ⟨start, start⟩ cs = [] := by
  simp [LineSpan.of]

namespace IndexedText

theorem drop_before_of (t : Input) (start stop : Nat) (c : Char) (ordered : start ≤ stop) (inside : stop ≤ t.length) :
    LineSpan.of ⟨start, dropBefore t start stop c⟩ t.chars.toList =
      dropEnd c (LineSpan.of ⟨start, stop⟩ t.chars.toList) ∧
      start ≤ dropBefore t start stop c ∧ dropBefore t start stop c ≤ stop := by
  by_cases empty : start = stop
  · subst empty
    simp [dropBefore, of_empty, dropEnd]
  · obtain ⟨k, rfl⟩ : ∃ k, stop = k + 1 := ⟨stop - 1, by omega⟩
    have short : start ≤ k := by omega
    obtain ⟨d, here⟩ : ∃ d, t.chars.toList[k]? = some d := ⟨_, List.getElem?_eq_getElem inside⟩
    have same : t.charAt k = some d := by
      rw [← here, Input.charAt, Array.getElem?_toList]
    have step : dropBefore t start (k + 1) c = if d = c then k else k + 1 := by
      simp [dropBefore, same, Nat.lt_succ_of_le short]
    rw [step, of_snoc _ start k _ short here, drop_end_snoc]
    split
    · exact ⟨rfl, short, Nat.le_succ k⟩
    · exact ⟨of_snoc _ start k _ short here, ordered, Nat.le_refl _⟩

theorem line_text_of (t : Input) (r : LineSpan) (ordered : r.start ≤ r.stop) (inside : r.stop ≤ t.length) :
    lineText t r = String.ofList (bare (r.of t.chars.toList)) := by
  obtain ⟨feed, above, below⟩ := drop_before_of t r.start r.stop '\n' ordered inside
  obtain ⟨both, above', below'⟩ := drop_before_of t r.start _ '\r' above (Nat.le_trans below inside)
  rw [lineText, bare, ← feed, ← both]
  exact extract_of t ⟨r.start, _⟩ above' (Nat.le_trans below' (Nat.le_trans below inside))

end IndexedText

theorem line_range_clamped (t : Input) (place : Nat) :
    ∃ r, t.lineTable.lineRange (place + 1) = .ok r ∧
      t.lineTable.ranges[min place (t.lineTable.lineCount - 1)]? = some r := by
  by_cases inside : place < t.lineTable.lineCount
  · have there := List.getElem?_eq_getElem inside
    have early : place ≤ t.lineTable.lineCount - 1 := by omega
    refine ⟨_, LineTable.line_range_found t place _ there, ?_⟩
    rwa [Nat.min_eq_left early]
  · have past : t.lineTable.ranges[place]? = none := List.getElem?_eq_none (Nat.le_of_not_lt inside)
    have late : t.lineTable.lineCount - 1 ≤ place := by omega
    refine ⟨t.lineTable.lastRange, ?_, ?_⟩
    · rw [LineTable.lineRange, past]
      rfl
    · rw [Nat.min_eq_right late]
      exact last_range_found t

-- The text as a whole ends in a carriage return if its last line does, and no other line does.
theorem cut_return (cs : List Char) (closed : List (List Char)) (last : List Char) (cut : Cut cs closed last) :
    cs.getLast? = some '\r' ↔ last.getLast? = some '\r' := by
  have front : (closed.map (· ++ ['\n'])).flatten.getLast? ≠ some '\r' := by
    cases closed using List.reverseRecOn with
    | nil => simp
    | append_singleton closed w => simp
  rw [cut.whole, List.getLast?_append]
  cases last.getLast? with
  | none => simpa using front
  | some c => simp

theorem line_return (t : Input) (place : Nat) (r : LineSpan) (found : t.lineTable.ranges[place]? = some r) :
    (r.of t.chars.toList).getLast? = some '\r' ↔
      t.lineTable.lineCount = place + 1 ∧ t.chars.toList.getLast? = some '\r' := by
  obtain ⟨closed, last, cut, texts⟩ := table_cut t
  have count : t.lineTable.lineCount = closed.length + 1 := by
    have lengths := congrArg List.length texts
    simpa [LineTable.lineCount] using lengths
  have text : (closed.map (· ++ ['\n']) ++ [last])[place]? = some (r.of t.chars.toList) := by
    rw [← texts, List.getElem?_map, found]
    rfl
  have inside : place < t.lineTable.lineCount := (List.getElem?_eq_some_iff.mp found).1
  by_cases early : place < closed.length
  · rw [List.getElem?_append_left (by simpa using early), List.getElem?_map, List.getElem?_eq_getElem early,
      Option.map_some, Option.some.injEq] at text
    refine iff_of_false ?_ fun late => ?_
    · simp [← text]
    · omega
  · have final : place = closed.length := by omega
    rw [List.getElem?_append_right (by simpa using Nat.le_of_not_lt early), final, List.length_map, Nat.sub_self] at text
    rw [← Option.some.inj text, cut_return _ _ _ cut]
    simp [count, final]

def endedAs (line text : String) : String := line ++ String.ofList (lineEnd text.toList)

theorem ended_as_of (t : Input) (r : LineSpan) (mem : r ∈ t.lineTable.ranges) :
    endedAs (IndexedText.lineText t r) (t.extract r.start r.stop) =
      String.ofList (bare (r.of t.chars.toList) ++ lineEnd (r.of t.chars.toList)) := by
  have within := table_within t r mem
  rw [endedAs, IndexedText.line_text_of t r within.1 within.2, range_text t r mem, String.toList_ofList,
    String.ofList_append]

theorem joined_lines (t : Input) :
    String.join (t.lineTable.ranges.map fun r => endedAs (IndexedText.lineText t r) (t.extract r.start r.stop)) =
      t.text ↔ t.chars.toList.getLast? ≠ some '\r' := by
  obtain ⟨closed, last, cut, texts⟩ := table_cut t
  have kept : (closed.map (· ++ ['\n'])).map (fun s => bare s ++ lineEnd s) = closed.map (· ++ ['\n']) := by
    rw [List.map_map]
    apply List.map_congr_left
    intro w _
    exact (bare_ended _).mpr (by simp)
  have shape : t.lineTable.ranges.map (fun r => bare (r.of t.chars.toList) ++ lineEnd (r.of t.chars.toList)) =
      closed.map (· ++ ['\n']) ++ [bare last ++ lineEnd last] := by
    have mapped := congrArg (List.map fun s => bare s ++ lineEnd s) texts
    rwa [List.map_map, List.map_append, kept] at mapped
  rw [List.map_congr_left (ended_as_of t), join_texts, shape, List.flatten_concat, Input.text, String.ofList_inj,
    ne_eq, cut_return _ _ _ cut, ← ne_eq, ← bare_ended]
  conv_lhs => rw [cut.whole]
  exact List.append_right_inj _

namespace IndexedText

def endedLine (b : IndexedText) (number : Nat) : Except RuleError String := do
  let r ← (b.lineRange number).1
  let line ← (b.extractLine number).1
  return endedAs line (b.input.extract r.start r.stop)

end IndexedText

/-- Every line number stands for a line, and what is extracted of it, followed by its line end, is the line, unless it
is the last line of a text that ends in a carriage return; then that character is lost, and nothing else. So the
extracted lines with their ends make up the text again, unless the text ends in a carriage return. -/
theorem extracted_lines_keep_text (b : IndexedText) :
    (∀ n, 1 ≤ n → ∃ r line, (b.lineRange n).1 = .ok r ∧ (b.extractLine n).1 = .ok line ∧
      (endedAs line (b.input.extract r.start r.stop) = b.input.extract r.start r.stop ↔
        ¬ (b.input.lineTable.lineCount ≤ n ∧ b.input.chars.toList.getLast? = some '\r')) ∧
      (b.input.lineTable.lineCount ≤ n → b.input.chars.toList.getLast? = some '\r' →
        line ++ "\r" = b.input.extract r.start r.stop)) ∧
    ∃ parts, (List.range' 1 b.input.lineTable.lineCount).mapM b.endedLine = .ok parts ∧
      (String.join parts = b.input.text ↔ b.input.chars.toList.getLast? ≠ some '\r') := by
  have counted := line_feeds b.input
  constructor
  · intro n first
    obtain ⟨place, rfl⟩ : ∃ place, n = place + 1 := ⟨n - 1, by omega⟩
    obtain ⟨r, range, found⟩ := line_range_clamped b.input place
    have mem := List.mem_of_getElem? found
    have within := table_within b.input r mem
    have last : b.input.lineTable.lineCount = min place (b.input.lineTable.lineCount - 1) + 1 ↔
        b.input.lineTable.lineCount ≤ place + 1 := by omega
    have lone := line_return b.input _ r found
    rw [last] at lone
    refine ⟨r, _, range, congrArg (Except.map _) range, ?_, fun late ends => ?_⟩
    · rw [ended_as_of b.input r mem, range_text b.input r mem, String.ofList_inj, bare_ended, ne_eq, lone]
    · have lost := bare_return _ (lone.mpr ⟨late, ends⟩)
      rw [IndexedText.line_text_of b.input r within.1 within.2, range_text b.input r mem]
      conv_rhs => rw [← lost, String.ofList_append]
  · refine ⟨_, map_m_numbered b.endedLine _ b.input.lineTable.ranges 1 fun place r found => ?_, joined_lines b.input⟩
    rw [Nat.add_comm]
    have range := LineTable.line_range_found b.input place r found
    simp only [IndexedText.endedLine, IndexedText.lineRange, IndexedText.extractLine, range]
    rfl

-- The carriage return at the end of this text belongs to its only line, but is no line end.
theorem lone_return_lost :
    ((IndexedText.ofString "a\r").lineRange 1).1.toOption = some ⟨0, 2⟩ ∧
      ((IndexedText.ofString "a\r").extractLine 1).1.toOption = some "a" ∧
      (Input.ofString "a\r").extract 0 2 = "a\r" ∧ endedAs "a" "a\r" ≠ "a\r" := by
  decide +kernel

end MatchTrace
