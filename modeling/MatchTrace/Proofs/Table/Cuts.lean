import Mathlib.Algebra.Group.Nat.Even
import Mathlib.Data.List.Basic
import Mathlib.Data.List.Induction
import MatchTrace.Proofs.Table.Fields

/-!
Where a row is cut. Whether a separator is escaped can be told from the backslashes right in front of it: an even number
of them escape each other, and one that is left over escapes the separator. So a row can be taken one character at a
time, if the backslashes it ends in are counted.
-/

namespace MatchTrace

set_option autoImplicit false

namespace Row

def backslashes (cs : List Char) : Nat := (cs.reverse.takeWhile (· == '\\')).length

-- A separator stands at the place, and no backslash in front of it is left over.
def CutsAt (row : List Char) (i : Nat) : Prop := row[i]? = some separator ∧ Even (backslashes (row.take i))

instance (row : List Char) : DecidablePred (CutsAt row) := fun _ => inferInstanceAs (Decidable (_ ∧ _))

def rejoin (raw : List (List Char)) : List Char := [separator].intercalate raw

def onLast (c : Char) : List (List Char) → List (List Char)
  | [] => [[c]]
  | [p] => [p ++ [c]]
  | p :: q :: ps => p :: onLast c (q :: ps)

theorem backslashes_snoc (cs : List Char) (c : Char) :
    backslashes (cs ++ [c]) = if c = '\\' then backslashes cs + 1 else 0 := by
  by_cases same : c = '\\'
  · simp [backslashes, same]
  · simp [backslashes, same]

theorem backslashes_behind (cs rest : List Char) (c : Char) (plain : c ≠ '\\') :
    backslashes (cs ++ c :: rest) = backslashes rest := by
  induction rest using List.reverseRecOn with
  | nil => rw [backslashes_snoc, if_neg plain, backslashes, List.reverse_nil, List.takeWhile_nil, List.length_nil]
  | append_singleton rest d ih =>
      rw [← List.cons_append, ← List.append_assoc, backslashes_snoc, backslashes_snoc, ih]

theorem backslashes_pair (c : Char) (rest : List Char) :
    Even (backslashes ('\\' :: c :: rest)) ↔ Even (backslashes rest) := by
  induction rest using List.reverseRecOn with
  | nil =>
      by_cases same : c = '\\'
      · rw [same]
        decide
      · have ended := backslashes_snoc ['\\'] c
        rw [if_neg same] at ended
        exact iff_of_true (ended ▸ Even.zero) Even.zero
  | append_singleton rest d ih =>
      rw [← List.cons_append, ← List.cons_append, backslashes_snoc, backslashes_snoc]
      by_cases same : d = '\\'
      · rw [if_pos same, if_pos same, Nat.even_add_one, Nat.even_add_one, ih]
      · rw [if_neg same, if_neg same]

theorem on_last_snoc (c : Char) (front : List (List Char)) (last : List Char) :
    onLast c (front ++ [last]) = front ++ [last ++ [c]] := by
  induction front with
  | nil => rfl
  | cons p front ih =>
      cases front with
      | nil => rfl
      | cons q front => exact congrArg (p :: ·) ih

theorem on_first_last (cs : List Char) (c : Char) (ps : List (List Char)) :
    onFirst cs (onLast c ps) = onLast c (onFirst cs ps) := by
  cases ps with
  | nil => rfl
  | cons p ps =>
      cases ps with
      | nil => simp [onFirst, onLast]
      | cons q ps => rfl

theorem on_first_some (cs : List Char) (ps : List (List Char)) : onFirst cs ps ≠ [] := by
  cases ps with
  | nil => exact List.cons_ne_nil _ _
  | cons p ps => exact List.cons_ne_nil _ _

theorem pieces_some (row : List Char) : ∃ front last, pieces row = front ++ [last] := by
  have some : pieces row ≠ [] := by
    fun_cases pieces row with
    | case1 => exact List.cons_ne_nil _ _
    | case2 c rest => exact on_first_some _ _
    | case3 rest alone => exact List.cons_ne_nil _ _
    | case4 c rest alone other => exact on_first_some _ _
  exact (List.eq_nil_or_concat' (pieces row)).resolve_left some

theorem on_first_cut (cs row : List Char) : onFirst cs (pieces row ++ [[]]) = onFirst cs (pieces row) ++ [[]] := by
  obtain ⟨front, last, cut⟩ := pieces_some row
  rw [cut]
  cases front <;> rfl

theorem on_last_behind (c : Char) (p : List Char) (row : List Char) :
    onLast c (p :: pieces row) = p :: onLast c (pieces row) := by
  obtain ⟨front, last, cut⟩ := pieces_some row
  rw [cut, ← List.cons_append, on_last_snoc, on_last_snoc, List.cons_append]

-- One more character: a separator that cuts begins a piece, and all else goes on with the last one.
theorem pieces_snoc (row : List Char) (c : Char) :
    pieces (row ++ [c]) =
      if c = separator ∧ Even (backslashes row) then pieces row ++ [[]] else onLast c (pieces row) := by
  fun_induction pieces row with
  | case1 =>
      by_cases cut : c = separator
      · simp [pieces, cut, backslashes, separator]
      · simp [pieces, cut, onFirst, onLast]
  | case2 d rest ih =>
      have escaped : pieces ('\\' :: d :: rest ++ [c]) = onFirst ['\\', d] (pieces (rest ++ [c])) := rfl
      simp only [escaped, ih, backslashes_pair]
      by_cases cut : c = separator ∧ Even (backslashes rest)
      · rw [if_pos cut, if_pos cut, on_first_cut]
      · rw [if_neg cut, if_neg cut, on_first_last]
  | case3 rest alone ih =>
      have here : pieces (separator :: rest ++ [c]) = [] :: pieces (rest ++ [c]) := rfl
      have behind := backslashes_behind [] rest separator (by decide)
      simp only [List.nil_append] at behind
      simp only [here, ih, behind]
      by_cases cut : c = separator ∧ Even (backslashes rest)
      · rw [if_pos cut, if_pos cut, List.cons_append]
      · rw [if_neg cut, if_neg cut, on_last_behind]
  | case4 d rest alone other ih =>
      by_cases dangling : d = '\\'
      · -- Nothing stands behind the backslash, so it escapes what comes now.
        have last : rest = [] := by
          cases rest with
          | nil => rfl
          | cons e rest => exact (alone e rest dangling rfl).elim
        rw [dangling, last, if_neg (fun cut => absurd cut.2 (by decide))]
        rfl
      · have behind := backslashes_behind [] rest d dangling
        rw [List.nil_append] at behind
        have plain : pieces (d :: rest ++ [c]) = onFirst [d] (pieces (rest ++ [c])) := pieces_cons d _ dangling other
        simp only [plain, ih, behind]
        by_cases cut : c = separator ∧ Even (backslashes rest)
        · rw [if_pos cut, if_pos cut, on_first_cut]
        · rw [if_neg cut, if_neg cut, on_first_last]

theorem rejoin_snoc (front : List (List Char)) (last : List Char) (some : front ≠ []) :
    rejoin (front ++ [last]) = rejoin front ++ separator :: last := by
  induction front with
  | nil => exact absurd rfl some
  | cons p front ih =>
      cases front with
      | nil => simp [rejoin]
      | cons q front =>
          have rest := ih (List.cons_ne_nil q front)
          simp only [rejoin, List.cons_append, List.intercalate_cons_cons] at rest ⊢
          simp only [rest, List.append_assoc]

theorem rejoin_append (front back : List (List Char)) (before : front ≠ []) (behind : back ≠ []) :
    rejoin (front ++ back) = rejoin front ++ separator :: rejoin back := by
  induction back using List.reverseRecOn with
  | nil => exact absurd rfl behind
  | append_singleton back p ih =>
      cases back with
      | nil => simpa [rejoin] using rejoin_snoc front p before
      | cons q back =>
          have some : front ++ q :: back ≠ [] := by simp
          rw [← List.append_assoc, rejoin_snoc _ p some, ih (List.cons_ne_nil q back),
            rejoin_snoc _ p (List.cons_ne_nil q back), List.append_assoc, List.cons_append]

theorem backslashes_rejoin (front : List (List Char)) (last : List Char) :
    backslashes (rejoin (front ++ [last])) = backslashes last := by
  cases front with
  | nil => simp [rejoin]
  | cons p front => rw [rejoin_snoc _ last (List.cons_ne_nil p front), backslashes_behind _ _ _ (by decide)]

theorem rejoin_pieces (row : List Char) : rejoin (pieces row) = row := by
  induction row using List.reverseRecOn with
  | nil => rfl
  | append_singleton row c ih =>
      obtain ⟨front, last, raw⟩ := pieces_some row
      rw [pieces_snoc]
      by_cases cut : c = separator ∧ Even (backslashes row)
      · have some : pieces row ≠ [] := by simp [raw]
        rw [if_pos cut, rejoin_snoc _ [] some, ih, cut.1]
      · rw [if_neg cut, raw, on_last_snoc]
        rw [raw] at ih
        cases front with
        | nil => simpa [rejoin] using ih
        | cons p front =>
            have some := List.cons_ne_nil p front
            rw [rejoin_snoc _ _ some] at ih ⊢
            rw [← ih, List.append_assoc, List.cons_append]

theorem pieces_even (row : List Char) (p : List Char) (ended : p ∈ (pieces row).dropLast) : Even (backslashes p) := by
  induction row using List.reverseRecOn with
  | nil => cases ended
  | append_singleton row c ih =>
      obtain ⟨front, last, raw⟩ := pieces_some row
      rw [pieces_snoc] at ended
      rw [raw, List.dropLast_concat] at ih
      by_cases cut : c = separator ∧ Even (backslashes row)
      · rw [if_pos cut, List.dropLast_concat, raw] at ended
        have whole := rejoin_pieces row
        rw [raw] at whole
        rcases List.mem_append.mp ended with early | here
        · exact ih early
        · rw [List.mem_singleton.mp here, ← backslashes_rejoin front last, whole]
          exact cut.2
      · rw [if_neg cut, raw, on_last_snoc, List.dropLast_concat] at ended
        exact ih ended

theorem pieces_cut (before after : List Char) (even : Even (backslashes before)) :
    pieces (before ++ separator :: after) = pieces before ++ pieces after := by
  induction after using List.reverseRecOn with
  | nil => rw [pieces_snoc, if_pos ⟨rfl, even⟩, pieces]
  | append_singleton after c ih =>
      have behind := backslashes_behind before after separator (by decide)
      obtain ⟨front, last, raw⟩ := pieces_some after
      rw [← List.cons_append, ← List.append_assoc, pieces_snoc, pieces_snoc, ih]
      simp only [behind]
      by_cases cut : c = separator ∧ Even (backslashes after)
      · rw [if_pos cut, if_pos cut, List.append_assoc]
      · rw [if_neg cut, if_neg cut, raw, ← List.append_assoc, on_last_snoc, on_last_snoc, List.append_assoc]

theorem cuts_at_iff (row : List Char) (i : Nat) :
    CutsAt row i ↔ ∃ front back, pieces row = front ++ back ∧ front ≠ [] ∧ back ≠ [] ∧
      row.take i = rejoin front ∧ row.drop (i + 1) = rejoin back := by
  constructor
  · rintro ⟨here, even⟩
    obtain ⟨inside, here⟩ := List.getElem?_eq_some_iff.mp here
    have split : row = row.take i ++ separator :: row.drop (i + 1) := by
      rw [← here, List.getElem_cons_drop, List.take_append_drop]
    have cut := pieces_cut (row.take i) (row.drop (i + 1)) even
    rw [← split] at cut
    refine ⟨_, _, cut, ?_, ?_, (rejoin_pieces _).symm, (rejoin_pieces _).symm⟩
    · obtain ⟨front, last, some⟩ := pieces_some (row.take i)
      simp [some]
    · obtain ⟨front, last, some⟩ := pieces_some (row.drop (i + 1))
      simp [some]
  · rintro ⟨front, back, cut, before, behind, left, right⟩
    have whole := rejoin_pieces row
    rw [cut, rejoin_append front back before behind] at whole
    have place : i = (rejoin front).length := by
      have size := congrArg List.length left
      have total := congrArg List.length whole
      rw [List.length_take] at size
      rw [List.length_append, List.length_cons] at total
      omega
    refine ⟨by rw [← whole, place]; simp, ?_⟩
    obtain none | ⟨front, last, rfl⟩ := List.eq_nil_or_concat' front
    · exact absurd none before
    · rw [left, backslashes_rejoin]
      refine pieces_even row last ?_
      rw [cut, List.dropLast_append_of_ne_nil behind]
      simp

theorem length_on_last (c : Char) (row : List Char) : (onLast c (pieces row)).length = (pieces row).length := by
  obtain ⟨front, last, raw⟩ := pieces_some row
  rw [raw, on_last_snoc, List.length_append, List.length_append, List.length_singleton, List.length_singleton]

theorem cuts_snoc (row : List Char) (c : Char) (i : Nat) (inside : i < row.length) : CutsAt (row ++ [c]) i ↔ CutsAt row i := by
  rw [CutsAt, CutsAt, List.getElem?_append_left inside, List.take_append_of_le_length (Nat.le_of_lt inside)]

theorem pieces_length (row : List Char) : (pieces row).length = (List.range row.length).countP (CutsAt row) + 1 := by
  induction row using List.reverseRecOn with
  | nil => rfl
  | append_singleton row c ih =>
      have early : (List.range row.length).countP (CutsAt (row ++ [c])) = (List.range row.length).countP (CutsAt row) := by
        apply List.countP_congr
        intro i mem
        simpa using cuts_snoc row c i (List.mem_range.mp mem)
      have last : CutsAt (row ++ [c]) row.length ↔ c = separator ∧ Even (backslashes row) := by
        simp [CutsAt]
      rw [List.length_append, List.length_singleton, List.range_succ, List.countP_append, early, List.countP_singleton,
        pieces_snoc]
      simp only [last, decide_eq_true_eq]
      by_cases cut : c = separator ∧ Even (backslashes row)
      · rw [if_pos cut, if_pos cut, List.length_append, List.length_singleton, ih]
      · rw [if_neg cut, if_neg cut, length_on_last, ih, Nat.add_zero]

theorem unescape_dangling (cs : List Char) (even : Even (backslashes cs)) :
    unescape (cs ++ ['\\']) = unescape cs ++ ['\\'] := by
  fun_induction unescape cs with
  | case1 => rfl
  | case2 => exact absurd even (by decide)
  | case3 c rest ih =>
      rw [backslashes_pair] at even
      exact congrArg (_ :: ·) (ih even)
  | case4 c rest alone other ih =>
      have plain : c ≠ '\\' := by
        rintro rfl
        cases rest with
        | nil => exact alone rfl rfl
        | cons d rest => exact other d rest rfl rfl
      have behind := backslashes_behind [] rest c plain
      rw [List.nil_append] at behind
      rw [behind] at even
      rw [List.cons_append, unescape_cons c _ plain, ih even, List.cons_append]

theorem dangling_piece (row : List Char) (odd : ¬ Even (backslashes row)) :
    ∃ front last, pieces row = front ++ [last ++ ['\\']] ∧ unescape (last ++ ['\\']) = unescape last ++ ['\\'] := by
  obtain none | ⟨before, c, rfl⟩ := List.eq_nil_or_concat' row
  · rw [none] at odd
    exact absurd odd (by decide)
  · rw [backslashes_snoc] at odd
    by_cases same : c = '\\'
    · rw [if_pos same, Nat.even_add_one, not_not] at odd
      obtain ⟨front, last, raw⟩ := pieces_some before
      have whole := rejoin_pieces before
      rw [raw] at whole
      rw [← whole, backslashes_rejoin] at odd
      refine ⟨front, last, ?_, unescape_dangling last odd⟩
      rw [pieces_snoc, if_neg (fun cut => absurd (same.symm.trans cut.1) (by decide)), raw, on_last_snoc, same]
    · rw [if_neg same] at odd
      exact absurd odd (by decide)

def spelled (piece : List Char) : String := String.ofList (unescape piece)

end Row

/-- A row is cut at the separators behind an even number of backslashes and nowhere else. Its fields are the pieces in
order, without the escapes; put together with separators, the pieces are the row. A backslash that the row ends in and
that escapes nothing belongs to the last field. -/
theorem rows_are_cut_at_bare_separators (row : String) :
    (∀ i, Row.CutsAt row.toList i ↔ ∃ front back, Row.pieces row.toList = front ++ back ∧ front ≠ [] ∧ back ≠ [] ∧
      row.toList.take i = Row.rejoin front ∧ row.toList.drop (i + 1) = Row.rejoin back) ∧
    Row.rejoin (Row.pieces row.toList) = row.toList ∧
    Row.fields row = (Row.pieces row.toList).map Row.spelled ∧
    (Row.fields row).length = (List.range row.toList.length).countP (Row.CutsAt row.toList) + 1 ∧
    (¬ Even (Row.backslashes row.toList) →
      ∃ front last, Row.pieces row.toList = front ++ [last ++ ['\\']] ∧
        Row.fields row = front.map Row.spelled ++ [Row.spelled last ++ "\\"]) := by
  have fields : Row.fields row = (Row.pieces row.toList).map Row.spelled := by
    rw [Row.fields, Row.split, List.map_map]
    rfl
  refine ⟨Row.cuts_at_iff row.toList, Row.rejoin_pieces row.toList, fields, ?_, fun odd => ?_⟩
  · rw [fields, List.length_map]
    exact Row.pieces_length row.toList
  · obtain ⟨front, last, ended, kept⟩ := Row.dangling_piece row.toList odd
    refine ⟨front, last, ended, ?_⟩
    have whole : Row.spelled (last ++ ['\\']) = Row.spelled last ++ "\\" := by
      rw [Row.spelled, kept, String.ofList_append]
      rfl
    rw [fields, ended, List.map_append, List.map_singleton, whole]

-- Three backslashes stand in front of the first separator, two in front of the second, and one at the end.
theorem dangling_row_is_cut :
    let row := "a\\\\\\;b\\\\;c\\"
    Row.fields row = ["a\\;b\\", "c\\"] ∧ ¬ Even (Row.backslashes row.toList) ∧
      ∃ front last, Row.pieces row.toList = front ++ [last ++ ['\\']] := by
  intro row
  have odd : ¬ Even (Row.backslashes row.toList) := by decide +kernel
  obtain ⟨front, last, ended, -⟩ := (rows_are_cut_at_bare_separators row).2.2.2.2 odd
  exact ⟨by decide +kernel, odd, front, last, ended⟩

end MatchTrace
