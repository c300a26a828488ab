import Mathlib.Data.List.DropRight
import MatchTrace.Text.LineTable

/-!
Positions in a text. The line table finds the line of an offset by halving, and what it finds is what counting the
line feeds in front of the offset would give. Lines and their ranges lead back to the offset.
-/

namespace MatchTrace

set_option autoImplicit false

inductive Lines : Nat → List Char → List LineSpan → Prop where
  | last (start : Nat) (w : List Char) : '\n' ∉ w → Lines start w [⟨start, start + w.length⟩]
  | line (start : Nat) (w rest : List Char) (spans : List LineSpan) :
      '\n' ∉ w → Lines (start + w.length + 1) rest spans →
      Lines start (w ++ '\n' :: rest) (⟨start, start + w.length + 1⟩ :: spans)

theorem ranges_lines (start : Nat) (w cs : List Char) (flat : '\n' ∉ w) :
    Lines start (w ++ cs) (LineTable.rangesFrom start (start + w.length) cs) := by
  induction cs generalizing start w with
  | nil =>
      rw [List.append_nil]
      exact .last start w flat
  | cons c cs ih =>
      by_cases feed : c = '\n'
      · subst feed
        exact .line start w cs _ flat (ih (start + w.length + 1) [] List.not_mem_nil)
      · have longer : '\n' ∉ w ++ [c] := by
          simpa [flat] using fun same => feed same.symm
        simpa [LineTable.rangesFrom, feed, Nat.add_assoc] using ih start (w ++ [c]) longer

theorem table_lines (t : Input) : Lines 0 t.chars.toList t.lineTable.ranges :=
  ranges_lines 0 [] t.chars.toList List.not_mem_nil

section Lines

variable (start : Nat) (cs : List Char) (spans : List LineSpan) (lines : Lines start cs spans)

include lines

theorem lines_count : spans.length = cs.count '\n' + 1 := by
  induction lines with
  | last start w flat => simp [List.count_eq_zero_of_not_mem flat]
  | line start w rest spans flat _ ih =>
      simp only [List.length_cons, ih, List.count_append, List.count_eq_zero_of_not_mem flat, List.count_cons_self]
      omega

theorem lines_within (r : LineSpan) (mem : r ∈ spans) :
    start ≤ r.start ∧ r.start ≤ r.stop ∧ r.stop ≤ start + cs.length := by
  induction lines with
  | last start w =>
      cases List.mem_singleton.mp mem
      exact ⟨Nat.le_refl _, Nat.le_add_right _ _, Nat.le_refl _⟩
  | line start w rest spans flat _ ih =>
      rw [List.length_append, List.length_cons]
      rcases List.mem_cons.mp mem with rfl | mem
      · dsimp only
        omega
      · have inner := ih mem
        omega

theorem lines_ordered : spans.Pairwise fun r s => r.stop ≤ s.start := by
  induction lines with
  | last start w => exact List.pairwise_singleton _ _
  | line start w rest spans flat below ih =>
      exact List.pairwise_cons.mpr ⟨fun s mem => (lines_within _ rest spans below s mem).1, ih⟩

theorem lines_apart (i j : Nat) (r s : LineSpan) (before : i < j) (first : spans[i]? = some r)
    (second : spans[j]? = some s) : r.stop ≤ s.start := by
  obtain ⟨inside, rfl⟩ := List.getElem?_eq_some_iff.mp first
  obtain ⟨inside', rfl⟩ := List.getElem?_eq_some_iff.mp second
  exact List.pairwise_iff_getElem.mp (lines_ordered start cs spans lines) i j inside inside' before

end Lines

theorem line_feeds (t : Input) : t.lineTable.lineCount = t.chars.toList.count '\n' + 1 :=
  lines_count 0 _ _ (table_lines t)

theorem table_within (t : Input) (r : LineSpan) (mem : r ∈ t.lineTable.ranges) :
    r.start ≤ r.stop ∧ r.stop ≤ t.length := by
  have bounds := lines_within 0 _ _ (table_lines t) r mem
  rw [Nat.zero_add] at bounds
  exact bounds.2

theorem last_range_found (t : Input) :
    t.lineTable.ranges[t.lineTable.lineCount - 1]? = some t.lineTable.lastRange := by
  have inside : t.lineTable.lineCount - 1 < t.lineTable.lineCount := by
    rw [line_feeds]
    exact Nat.lt_succ_self _
  have there := List.getElem?_eq_getElem inside
  have last : t.lineTable.lastRange = (t.lineTable.ranges[t.lineTable.lineCount - 1]?).getD ⟨0, 0⟩ := by
    rw [LineTable.lastRange, List.getLastD_eq_getLast?, List.getLast?_eq_getElem?]
    rfl
  rw [last, there]
  rfl

def lastPiece (s : List Char) : List Char := s.rtakeWhile (· ≠ '\n')

-- Where the next character would stand: behind as many line feeds as the text has, and as far from the last of them as
-- the text goes on behind it.
def Position.behind (s : List Char) : Position := ⟨s.count '\n' + 1, (lastPiece s).length + 1⟩

theorem last_piece_flat (w : List Char) (flat : '\n' ∉ w) : lastPiece w = w := by
  apply List.rtakeWhile_eq_self_iff.mpr
  intro c mem
  exact decide_eq_true fun same => flat (same ▸ mem)

theorem last_piece_feed (w s : List Char) : lastPiece (w ++ '\n' :: s) = lastPiece s := by
  induction s using List.reverseRecOn with
  | nil => exact List.rtakeWhile_concat_neg _ w '\n' (by decide)
  | append_singleton s c ih =>
      rw [← List.cons_append, ← List.append_assoc, lastPiece, lastPiece, List.rtakeWhile_concat, List.rtakeWhile_concat]
      split
      · exact congrArg (· ++ [c]) ih
      · rfl

theorem lines_at (start : Nat) (cs : List Char) (spans : List LineSpan) (lines : Lines start cs spans) (d : Nat)
    (inside : d ≤ cs.length) :
    ∃ r, spans[(cs.take d).count '\n']? = some r ∧ r.start + (lastPiece (cs.take d)).length = start + d ∧
      (d < cs.length → start + d < r.stop) := by
  induction lines generalizing d with
  | last start w flat =>
      have front : '\n' ∉ w.take d := fun mem => flat (List.mem_of_mem_take mem)
      refine ⟨_, by rw [List.count_eq_zero_of_not_mem front]; rfl, ?_, fun short => Nat.add_lt_add_left short start⟩
      rw [last_piece_flat _ front, List.length_take, Nat.min_eq_left inside]
  | line start w rest spans flat _ ih =>
      rw [List.length_append, List.length_cons] at inside
      by_cases first : d ≤ w.length
      · have front : '\n' ∉ w.take d := fun mem => flat (List.mem_of_mem_take mem)
        rw [List.take_append_of_le_length first, List.count_eq_zero_of_not_mem front, last_piece_flat _ front,
          List.length_take, Nat.min_eq_left first]
        refine ⟨_, rfl, rfl, fun _ => ?_⟩
        dsimp only
        omega
      · obtain ⟨e, rfl⟩ : ∃ e, d = w.length + (e + 1) := ⟨d - w.length - 1, by omega⟩
        obtain ⟨r, found, place, short⟩ := ih e (by omega)
        rw [List.take_length_add_append, List.take_succ_cons, last_piece_feed, List.count_append,
          List.count_eq_zero_of_not_mem flat, Nat.zero_add, List.count_cons_self]
        refine ⟨r, found, by omega, fun shorter => ?_⟩
        rw [List.length_append, List.length_cons] at shorter
        have := short (by omega)
        omega

namespace LineTable

-- Halving finds the place where the property changes, if there is one.
theorem turning_place_at (holds : Nat → Bool) (low high place : Nat) (above : low ≤ place) (below : place ≤ high)
    (front : ∀ i, low ≤ i → i < place → holds i = true) (back : ∀ i, place ≤ i → i < high → holds i = false) :
    turningPlace holds low high = place := by
  fun_induction turningPlace holds low high with
  | case1 low high open' middle held ih =>
      have passed : middle < place := by
        by_contra late
        have := back middle (by omega) (by omega)
        simp [held] at this
      exact ih (by omega) below (fun i from' => front i (by omega)) back
  | case2 low high open' middle failed ih =>
      have early : place ≤ middle := by
        by_contra late
        exact failed (front middle (by omega) (by omega))
      exact ih above early front fun i from' until' => back i from' (by omega)
  | case3 low high shut => omega

theorem place_of_offset (t : Input) (offset : Nat) (inside : offset < t.length) :
    t.lineTable.placeOf offset = (t.chars.toList.take offset).count '\n' := by
  obtain ⟨r, found, place, short⟩ := lines_at 0 _ _ (table_lines t) offset (Nat.le_of_lt inside)
  generalize (t.chars.toList.take offset).count '\n' = k at found ⊢
  have stops := short inside
  have within : k < t.lineTable.lineCount := (List.getElem?_eq_some_iff.mp found).1
  have found_place : turningPlace (t.lineTable.endsBefore offset) 0 t.lineTable.lineCount = k := by
    apply turning_place_at _ 0 _ k (Nat.zero_le k) (Nat.le_of_lt within)
    · intro i _ before
      have there := List.getElem?_eq_getElem (Nat.lt_trans before within)
      have apart := lines_apart 0 _ _ (table_lines t) i k _ r before there found
      rw [endsBefore, there]
      exact decide_eq_true (by omega)
    · intro i from' until'
      have there := List.getElem?_eq_getElem until'
      rw [endsBefore, there]
      apply decide_eq_false
      rcases Nat.eq_or_lt_of_le from' with rfl | behind
      · rw [found, Option.some.injEq] at there
        rw [← there]
        omega
      · have apart := lines_apart 0 _ _ (table_lines t) k i r _ behind found there
        have ordered := (table_within t _ (List.mem_of_getElem? there)).1
        omega
  rw [placeOf, found_place]
  omega

theorem position_behind (t : Input) (offset : Nat) :
    t.lineTable.position offset = .behind (t.chars.toList.take offset) := by
  by_cases inside : offset < t.length
  · obtain ⟨r, found, place, -⟩ := lines_at 0 _ _ (table_lines t) offset (Nat.le_of_lt inside)
    have column : offset - r.start = (lastPiece (t.chars.toList.take offset)).length := by omega
    have short : ¬ t.lineTable.textLength ≤ offset := Nat.not_le_of_lt inside
    simp only [position, if_neg short, place_of_offset t offset inside, found, Option.getD_some, column,
      Position.behind]
  · have past : t.chars.toList.length ≤ offset := Nat.le_of_not_lt inside
    obtain ⟨r, found, place, -⟩ := lines_at 0 _ _ (table_lines t) t.chars.toList.length (Nat.le_refl _)
    rw [List.take_length] at found place
    have last := last_range_found t
    rw [line_feeds, Nat.add_sub_cancel, found, Option.some.injEq] at last
    have column : t.lineTable.textLength - r.start = (lastPiece t.chars.toList).length := by
      have total : t.lineTable.textLength = t.chars.toList.length := rfl
      omega
    have long : t.lineTable.textLength ≤ offset := past
    rw [position, if_pos long, ← last, column, line_feeds, List.take_of_length_le past, Position.behind]

theorem line_range_found (t : Input) (place : Nat) (r : LineSpan) (found : t.lineTable.ranges[place]? = some r) :
    t.lineTable.lineRange (place + 1) = .ok r := by
  rw [lineRange, found]
  rfl

theorem position_inside (t : Input) (place offset : Nat) (r : LineSpan)
    (found : t.lineTable.ranges[place]? = some r) (low : r.start ≤ offset) (high : offset < r.stop) :
    t.lineTable.position offset = ⟨place + 1, offset - r.start + 1⟩ := by
  have within := table_within t r (List.mem_of_getElem? found)
  have inside : offset < t.length := Nat.lt_of_lt_of_le high within.2
  obtain ⟨s, held, start, short⟩ := lines_at 0 _ _ (table_lines t) offset (Nat.le_of_lt inside)
  have stops := short inside
  rw [position_behind, Position.behind]
  generalize (t.chars.toList.take offset).count '\n' = k at held ⊢
  have same : k = place := by
    rcases Nat.lt_trichotomy k place with before | same | behind
    · have := lines_apart 0 _ _ (table_lines t) k place s r before held found
      omega
    · exact same
    · have := lines_apart 0 _ _ (table_lines t) place k r s behind found held
      omega
  subst same
  rw [held, Option.some.injEq] at found
  subst found
  have column : (lastPiece (t.chars.toList.take offset)).length = offset - s.start := by omega
  rw [column]

end LineTable

theorem behind_append (s u : List Char) : Position.behind s ≤ Position.behind (s ++ u) := by
  by_cases fed : '\n' ∈ u
  · refine .inl ?_
    have counted := List.count_pos_iff.mpr fed
    simp only [Position.behind, List.count_append]
    omega
  · refine .inr ⟨?_, ?_⟩
    · simp [Position.behind, List.count_eq_zero_of_not_mem fed]
    · have longer : (lastPiece s).length ≤ (lastPiece (s ++ u)).length := by
        induction u using List.reverseRecOn with
        | nil => rw [List.append_nil]
        | append_singleton u c ih =>
            rw [List.mem_append, not_or, List.mem_singleton] at fed
            have other : c ≠ '\n' := fun same => fed.2 same.symm
            have grown : lastPiece (s ++ (u ++ [c])) = lastPiece (s ++ u) ++ [c] := by
              rw [← List.append_assoc]
              exact List.rtakeWhile_concat_pos _ _ c (decide_eq_true other)
            rw [grown, List.length_append]
            exact Nat.le_add_right_of_le (ih fed.1)
      exact Nat.succ_le_succ longer

/-- The position of an offset has one line more than there are line feeds in front of the offset, and one column more
than there are characters behind the last of those. An offset past the end of the text has the position of the end,
which is on the last line. Positions are in the order of their offsets. From an offset inside of the text, the range
of its line and its column lead back to it, and from a column inside of a line, the offset leads back to line and
column. -/
theorem positions_follow_line_feeds (t : Input) :
    (∀ offset, t.lineTable.position offset = .behind (t.chars.toList.take offset)) ∧
    (∀ offset, t.length ≤ offset → t.lineTable.position offset = t.lineTable.position t.length ∧
      (t.lineTable.position offset).line = t.lineTable.lineCount) ∧
    (∀ a b, a ≤ b → t.lineTable.position a ≤ t.lineTable.position b) ∧
    (∀ offset < t.length, ∃ r, t.lineTable.lineRange (t.lineTable.position offset).line = .ok r ∧
      r.start + (t.lineTable.position offset).column - 1 = offset ∧ r.contains offset = true) ∧
    ∀ n, 1 ≤ n → n ≤ t.lineTable.lineCount → ∃ r, t.lineTable.lineRange n = .ok r ∧
      ∀ column, 1 ≤ column → column ≤ r.length → t.lineTable.position (r.start + column - 1) = ⟨n, column⟩ := by
  refine ⟨LineTable.position_behind t, ?_, ?_, ?_, ?_⟩
  · intro offset past
    have long : t.lineTable.textLength ≤ offset := past
    have whole : t.lineTable.textLength ≤ t.length := Nat.le_refl _
    rw [LineTable.position, if_pos long, LineTable.position, if_pos whole]
    exact ⟨rfl, rfl⟩
  · intro a b ahead
    rw [LineTable.position_behind, LineTable.position_behind]
    obtain ⟨u, longer⟩ := List.take_prefix_take_left (l := t.chars.toList) ahead
    rw [← longer]
    exact behind_append _ u
  · intro offset inside
    obtain ⟨r, found, start, short⟩ := lines_at 0 _ _ (table_lines t) offset (Nat.le_of_lt inside)
    have stops := short inside
    rw [LineTable.position_behind]
    refine ⟨r, LineTable.line_range_found t _ r found, ?_, ?_⟩
    · simp only [Position.behind]
      omega
    · simp only [LineSpan.contains, Bool.and_eq_true, decide_eq_true_eq]
      omega
  · intro n first last
    obtain ⟨place, rfl⟩ : ∃ place, n = place + 1 := ⟨n - 1, by omega⟩
    have found := List.getElem?_eq_getElem (Nat.lt_of_succ_le last)
    refine ⟨_, LineTable.line_range_found t place _ found, fun column low high => ?_⟩
    rw [LineSpan.length] at high
    rw [LineTable.position_inside t place _ _ found (by omega) (by omega)]
    congr 1
    omega

example : ([1, 2, 9].map (Input.ofString "a\n\nb").lineTable.position) = [⟨1, 2⟩, ⟨2, 1⟩, ⟨3, 2⟩] := by
  decide +kernel

end MatchTrace
