import MatchTrace.Proofs.Table.Record

/-!
Fields in a row. Whatever the fields hold, the row is one line and is cut again where one field ends and the next begins.
-/

namespace MatchTrace

set_option autoImplicit false

namespace Row

def ofFields (fields : List String) : String :=
  ";".intercalate (fields.map fun f => String.ofList (escape f.toList))

theorem of_fields_chars (fields : List String) : (ofFields fields).toList = join (fields.map String.toList) := by
  simp [ofFields, join, String.toList_intercalate, separator, Function.comp_def]

theorem line_of_fields (fields : List String) : line fields = ofFields fields ++ "\n" := by
  rw [line, ← of_fields_chars, String.ofList_append, String.ofList_toList]

theorem fields_of_fields (fields : List String) (some : fields ≠ []) : Row.fields (ofFields fields) = fields := by
  cases fields with
  | nil => exact absurd rfl some
  | cons field rest =>
      have back := fields_join field rest
      rwa [← of_fields_chars, String.ofList_toList] at back

theorem pieces_of_fields (fields : List String) (some : fields ≠ []) :
    pieces (ofFields fields).toList = fields.map fun f => escape f.toList := by
  cases fields with
  | nil => exact absurd rfl some
  | cons field rest =>
      rw [of_fields_chars, List.map_cons, pieces_join]
      simp

end Row

/-- Fields that are escaped and put together with separators make a row on one line, which a table ends with a line feed.
It is cut exactly where a separator was put, and without the escapes its pieces are the fields again, so no two lists of
fields make the same row. -/
theorem fields_survive_in_row (fields : List String) (some : fields ≠ []) :
    let row := Row.ofFields fields
    Row.line fields = row ++ "\n" ∧ (∀ c ∈ row.toList, c ≠ '\r' ∧ c ≠ '\n') ∧
    Row.pieces row.toList = fields.map (fun f => Row.escape f.toList) ∧ Row.fields row = fields ∧
    ∀ others, others ≠ [] → Row.ofFields others = row → others = fields := by
  intro row
  refine ⟨Row.line_of_fields fields, fun c mem => ?_, Row.pieces_of_fields fields some, Row.fields_of_fields fields some, ?_⟩
  · rw [Row.of_fields_chars] at mem
    exact (Row.join_one_line _ c mem).symm
  · intro others more same
    calc others = Row.fields (Row.ofFields others) := (Row.fields_of_fields others more).symm
      _ = Row.fields row := congrArg Row.fields same
      _ = fields := Row.fields_of_fields fields some

-- Fields that end in a backslash, hold nothing, look escaped already, and break lines.
theorem awkward_fields_survive :
    let fields := ["a;b\\", "", "\\;\\n", "\r\n"]
    fields ≠ [] ∧ Row.ofFields fields = "a\\;b\\\\;;\\\\\\;\\\\n;\\r\\n" ∧ Row.fields (Row.ofFields fields) = fields := by
  intro fields
  have some : fields ≠ [] := List.cons_ne_nil _ _
  exact ⟨some, by decide +kernel, (fields_survive_in_row fields some).2.2.2.1⟩

end MatchTrace
