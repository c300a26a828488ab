import Mathlib.Data.List.Chain
import MatchTrace.Proofs.Text.LineTable

/-!
The text of the lines of a text. The ranges of the line table lie one behind the other, from the start of the text to its
end, and cut it behind each of its line feeds.
-/

namespace MatchTrace

set_option autoImplicit false

def LineSpan.of (r : LineSpan) (cs : List Char) : List Char := cs.extract r.start r.stop

theorem of_length (r : LineSpan) (cs : List Char) (inside : r.stop ≤ cs.length) : (r.of cs).length = r.stop - r.start := by
  simp only [LineSpan.of, List.extract_eq_take_drop, List.length_take, List.length_drop]
  omega

theorem span_middle (before w after : List Char) :
    LineSpan.of ⟨before.length, before.length + w.length⟩ (before ++ (w ++ after)) = w := by
  simp [LineSpan.of]

theorem extract_of (t : Input) (r : LineSpan) (ordered : r.start ≤ r.stop) (inside : r.stop ≤ t.length) :
    t.extract r.start r.stop = String.ofList (r.of t.chars.toList) := by
  rw [Input.extract, Nat.min_eq_left inside, Nat.min_eq_left ordered, Array.toList_extract, LineSpan.of]

section Lines

variable (start : Nat) (cs : List Char) (spans : List LineSpan) (lines : Lines start cs spans)

include lines

theorem lines_first : spans.head?.map (·.start) = some start := by
  cases lines <;> rfl

theorem lines_chained : spans.IsChain fun r s => s.start = r.stop := by
  induction lines with
  | last start w => exact .singleton _
  | line start w rest spans flat below ih =>
      apply List.IsChain.cons ih
      intro s next
      have first := lines_first _ rest spans below
      rw [next] at first
      exact Option.some.inj first

theorem lines_last : spans.getLast?.map (·.stop) = some (start + cs.length) := by
  induction lines with
  | last start w => rfl
  | line start w rest spans flat below ih =>
      have more : spans ≠ [] := by
        intro none
        subst none
        cases below
      rw [List.getLast?_cons_of_ne_nil more, ih]
      simp [Nat.add_assoc, Nat.add_comm 1]

end Lines

-- A text that is cut behind each of its line feeds, into closed lines and the one that is left.
structure Cut (cs : List Char) (closed : List (List Char)) (last : List Char) : Prop where
  whole : cs = (closed.map (· ++ ['\n'])).flatten ++ last
  flat : ∀ w ∈ closed, '\n' ∉ w
  flat_last : '\n' ∉ last

theorem lines_cut (before cs : List Char) (spans : List LineSpan) (lines : Lines before.length cs spans) :
    ∃ closed last, Cut cs closed last ∧
      spans.map (·.of (before ++ cs)) = closed.map (· ++ ['\n']) ++ [last] := by
  generalize place : before.length = start at lines
  induction lines generalizing before with
  | last start w flat =>
      subst place
      refine ⟨[], w, ⟨rfl, by simp, flat⟩, ?_⟩
      simpa using span_middle before w []
  | line start w rest spans flat below ih =>
      subst place
      obtain ⟨closed, last, cut, texts⟩ := ih (before ++ (w ++ ['\n'])) (by simp [Nat.add_assoc])
      refine ⟨w :: closed, last, ⟨?_, ?_, cut.flat_last⟩, ?_⟩
      · simp [cut.whole]
      · exact List.forall_mem_cons.mpr ⟨flat, cut.flat⟩
      · have here := span_middle before (w ++ ['\n']) rest
        simp only [List.append_assoc, List.singleton_append, List.length_append, List.length_singleton] at here texts
        rw [List.map_cons, List.map_cons, texts, Nat.add_assoc, here]
        rfl

theorem join_texts (texts : LineSpan → List Char) (spans : List LineSpan) :
    String.join (spans.map fun r => String.ofList (texts r)) = String.ofList (spans.map texts).flatten := by
  apply String.toList_injective
  simp [String.toList_join, List.flatMap_def, Function.comp_def]

theorem table_cut (t : Input) :
    ∃ closed last, Cut t.chars.toList closed last ∧
      t.lineTable.ranges.map (·.of t.chars.toList) = closed.map (· ++ ['\n']) ++ [last] :=
  lines_cut [] _ _ (table_lines t)

theorem range_text (t : Input) (r : LineSpan) (mem : r ∈ t.lineTable.ranges) :
    t.extract r.start r.stop = String.ofList (r.of t.chars.toList) :=
  extract_of t r (table_within t r mem).1 (table_within t r mem).2

-- The ranges of a table lie end to end in the text, and each but the last is what stands from one line feed to the next.
structure LineTable.Tiles (x : LineTable) (t : Input) : Prop where
  first : x.ranges.head?.map (·.start) = some 0
  next : x.ranges.IsChain fun r s => s.start = r.stop
  last : x.ranges.getLast?.map (·.stop) = some t.length
  closed : ∀ r ∈ x.ranges.dropLast, r.start < r.stop ∧
    ∃ w, '\n' ∉ w ∧ t.extract r.start r.stop = String.ofList (w ++ ['\n'])
  left : ∀ r ∈ x.ranges.getLast?, r.start ≤ r.stop ∧ '\n' ∉ (t.extract r.start r.stop).toList
  count : x.lineCount = t.chars.toList.count '\n' + 1
  whole : String.join (x.ranges.map fun r => t.extract r.start r.stop) = t.text

/-- The ranges of the lines of a text lie end to end, from its start to its end. Each but the last covers at least one
character, and has a line feed at its end and nowhere else; the last has none. There is one range more than there are
line feeds, and the text of the lines, one after the other, is the text. -/
theorem ranges_tile_text (t : Input) : t.lineTable.Tiles t := by
  obtain ⟨closed, last, cut, texts⟩ := table_cut t
  have front : t.lineTable.ranges.dropLast.map (·.of t.chars.toList) = closed.map (· ++ ['\n']) := by
    rw [List.map_dropLast, texts, List.dropLast_concat]
  refine ⟨lines_first 0 _ _ (table_lines t), lines_chained 0 _ _ (table_lines t), ?_, ?_, ?_, line_feeds t, ?_⟩
  · have ended := lines_last 0 _ _ (table_lines t)
    rwa [Nat.zero_add] at ended
  · intro r mem
    have inside := List.dropLast_subset _ mem
    have among := List.mem_map_of_mem (f := (·.of t.chars.toList)) mem
    rw [front] at among
    obtain ⟨w, mem', text⟩ := List.mem_map.mp among
    have length := of_length r t.chars.toList (table_within t r inside).2
    rw [← text, List.length_append, List.length_singleton] at length
    refine ⟨by omega, w, cut.flat w mem', ?_⟩
    rw [range_text t r inside, text]
  · intro r ending
    have inside := List.mem_of_getLast? ending
    refine ⟨(table_within t r inside).1, ?_⟩
    have text := congrArg List.getLast? texts
    rw [List.getLast?_map, ending, List.getLast?_concat, Option.map_some, Option.some.injEq] at text
    rw [range_text t r inside, String.toList_ofList, text]
    exact cut.flat_last
  · rw [List.map_congr_left (range_text t), join_texts, texts, List.flatten_concat, ← cut.whole, Input.text]

end MatchTrace
