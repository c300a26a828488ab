import MatchTrace.Proofs.Except
import MatchTrace.Proofs.Table.Record

/-!
Which rows tell of a finished call: those whose fields spell its numbers and its flag, in whichever way. Nothing else is
read, and no number is read as another one.
-/

namespace MatchTrace

set_option autoImplicit false

variable {α : Type}

namespace Row

theorem field_iff (name text : String) (value : Option α) (x : α) : field name text value = .ok x ↔ value = some x := by
  cases value with
  | none => exact iff_of_false (fun refused => nomatch refused) (fun none => nomatch none)
  | some y => rw [field, Except.ok.injEq, Option.some.injEq]

theorem word_iff (name text : String) (n : Nat) :
    word name text = .ok n ↔ Decimal.Unsigned text.toList n ∧ n ≤ Decimal.maxWord := by
  rw [word, field_iff, Decimal.nat_iff]

theorem half_iff (name text : String) (n : Nat) :
    half name text = .ok n ↔ Decimal.Unsigned text.toList n ∧ n ≤ Decimal.maxHalf := by
  rw [half, field_iff, Decimal.nat_iff]

theorem signed_iff (name text : String) (z : Int) :
    signed name text = .ok z ↔ Decimal.Signed text.toList z ∧ -2 ^ 63 ≤ z ∧ z < 2 ^ 63 := by
  rw [signed, field_iff, Decimal.int_iff]

theorem flag_iff (name text : String) (b : Bool) :
    field name text (flag? text) = .ok b ↔ text = if b then "1" else "0" := by
  rw [field_iff, flag?]
  by_cases one : text = "1"
  · subst one
    cases b <;> simp
  · by_cases zero : text = "0"
    · subst zero
      cases b <;> simp
    · cases b <;> simp [one, zero]

end Row

namespace FinishedCall

inductive Spelled (r : FinishedCall) : List String → Prop where
  | columns (parentId id level matcherId startOffset endOffset elapsedNanos : String) :
      Decimal.Signed parentId.toList r.parentId → Decimal.Unsigned id.toList r.id →
      Decimal.Unsigned level.toList r.level → Decimal.Unsigned matcherId.toList r.matcherId →
      Decimal.Unsigned startOffset.toList r.startOffset → Decimal.Unsigned endOffset.toList r.endOffset →
      Decimal.Unsigned elapsedNanos.toList r.elapsedNanos →
      Spelled r [parentId, id, level, if r.success then "1" else "0", matcherId, startOffset, endOffset, elapsedNanos]

theorem of_row_spelled (row : String) (r : FinishedCall) (read : ofRow row = .ok r) :
    r.Fits ∧ r.Spelled (Row.fields row) := by
  rw [ofRow] at read
  split at read
  · next parentId id level success matcherId startOffset endOffset elapsedNanos columns =>
      obtain ⟨_, flag, read⟩ := bind_ok _ _ _ read
      obtain ⟨_, parent, read⟩ := bind_ok _ _ _ read
      obtain ⟨_, number, read⟩ := bind_ok _ _ _ read
      obtain ⟨_, depth, read⟩ := bind_ok _ _ _ read
      obtain ⟨_, matcher, read⟩ := bind_ok _ _ _ read
      obtain ⟨_, start, read⟩ := bind_ok _ _ _ read
      obtain ⟨_, stop, read⟩ := bind_ok _ _ _ read
      obtain ⟨_, elapsed, read⟩ := bind_ok _ _ _ read
      cases read
      rw [Row.flag_iff] at flag
      rw [Row.signed_iff] at parent
      rw [Row.half_iff] at matcher
      rw [Row.word_iff] at number depth start stop elapsed
      rw [columns, flag]
      exact ⟨⟨parent.2.1, parent.2.2, number.2, depth.2, matcher.2, start.2, stop.2, elapsed.2⟩,
        .columns _ _ _ _ _ _ _ parent.1 number.1 depth.1 matcher.1 start.1 stop.1 elapsed.1⟩
  · cases read

theorem of_row_of (row : String) (r : FinishedCall) (fits : r.Fits) (spelled : r.Spelled (Row.fields row)) :
    ofRow row = .ok r := by
  generalize columns : Row.fields row = fields at spelled
  obtain ⟨_, _, _, _, _, _, _, parent, number, depth, matcher, start, stop, elapsed⟩ := spelled
  rw [ofRow, columns]
  simp only [Row.flag_of_string, (Row.signed_iff _ _ _).mpr ⟨parent, fits.parent_low, fits.parent_high⟩,
    (Row.word_iff _ _ _).mpr ⟨number, fits.id⟩, (Row.word_iff _ _ _).mpr ⟨depth, fits.level⟩,
    (Row.half_iff _ _ _).mpr ⟨matcher, fits.matcher⟩, (Row.word_iff _ _ _).mpr ⟨start, fits.start⟩,
    (Row.word_iff _ _ _).mpr ⟨stop, fits.stop⟩, (Row.word_iff _ _ _).mpr ⟨elapsed, fits.elapsed⟩]
  rfl

end FinishedCall

/-- A row tells of a call exactly if it has eight fields which, without their escapes, spell the numbers of the call and
its flag, and the numbers have the widths that the table has for them. What was told of is told of by its own row too. -/
theorem rows_tell_what_they_spell (row : String) :
    (∀ r, FinishedCall.ofRow row = .ok r ↔ r.Fits ∧ r.Spelled (Row.fields row)) ∧
    ∀ r, FinishedCall.ofRow row = .ok r → ∃ line, r.toRow = line ++ "\n" ∧ FinishedCall.ofRow line = .ok r := by
  refine ⟨fun r => ⟨FinishedCall.of_row_spelled row r, fun ⟨fits, spelled⟩ => FinishedCall.of_row_of row r fits spelled⟩, ?_⟩
  intro r read
  obtain ⟨line, written, -, back⟩ := finished_call_holds r (FinishedCall.of_row_spelled row r read).1
  exact ⟨String.ofList line, written.trans String.ofList_append, back⟩

-- The least number of its width after many zeros, an escaped digit and one number that is too large by one.
example :
    (FinishedCall.ofRow "-0009223372036854775808;+0;\\7;1;4294967295;0;0;018446744073709551615").toOption =
        some ⟨-2 ^ 63, 0, 7, true, 2 ^ 32 - 1, 0, 0, 2 ^ 64 - 1⟩ ∧
      (FinishedCall.ofRow "-1;0;0;1;4294967296;0;0;0").toOption = none := by
  decide +kernel

end MatchTrace
