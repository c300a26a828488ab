import MatchTrace.Json.Record
import MatchTrace.Proofs.Except
import MatchTrace.Proofs.Json.Reader

/-!
Records written as JSON read back as themselves.
-/

namespace MatchTrace

set_option autoImplicit false

structure EventEntry.Fits (r : EventEntry) : Prop where
  timestamp : r.timestamp ≤ Decimal.maxWord
  offset : r.offset ≤ Decimal.maxWord
  matcher : r.matcherId ≤ Decimal.maxHalf
  level : r.level ≤ Decimal.maxWord
  node : r.nodeId ≤ Decimal.maxWord
  parent_low : -2 ^ 63 ≤ r.parentId
  parent_high : r.parentId < 2 ^ 63
  elapsed : ∀ n, r.elapsedNanos = some n → n ≤ Decimal.maxWord

namespace JsonValue

theorem text_of_text (s : String) : (ofText s).text? = some s := by
  rw [ofText, text?, unescape_escape, Option.map_some, String.ofList_toList]

theorem nat_of_nat (limit n : Nat) (bound : n ≤ limit) : (ofNat n).nat? limit = some n := by
  rw [ofNat, nat?, Decimal.nat_chars, Decimal.up_to_digits limit n bound]

theorem int_of_int (z : Int) (low : -2 ^ 63 ≤ z) (high : z < 2 ^ 63) : (ofInt z).int? = some z := by
  obtain ⟨c, cs, digits, _, positive⟩ := Decimal.digits_cons z.natAbs
  rw [ofInt, Decimal.int_chars]
  by_cases negative : z < 0
  · have read := Decimal.up_to_digits (Decimal.maxSigned + 1) z.natAbs (by simp only [Decimal.maxSigned]; omega)
    obtain ⟨n, size⟩ : ∃ n, z.natAbs = n + 1 := ⟨z.natAbs - 1, by omega⟩
    rw [if_pos negative, int?, read, size]
    simp only [Int.ofNat_eq_natCast, Option.some.injEq]
    omega
  · have read := Decimal.up_to_digits Decimal.maxSigned z.natAbs (by simp only [Decimal.maxSigned]; omega)
    rw [digits] at read
    rw [if_neg negative, digits, int?, nat?, read]
    · simp only [Option.map_some, Int.ofNat_eq_natCast, Option.some.injEq]
      omega
    · exact fun _ same => absurd (List.cons.inj (JsonValue.number.inj same)).1 positive

theorem tag_of_text (s : String) : (ofText s).tag? = some s := text_of_text s

theorem word_of_nat (n : Nat) (bound : n ≤ Decimal.maxWord) : (ofNat n).word? = some n :=
  nat_of_nat Decimal.maxWord n bound

theorem half_of_nat (n : Nat) (bound : n ≤ Decimal.maxHalf) : (ofNat n).half? = some n :=
  nat_of_nat Decimal.maxHalf n bound

theorem optional_of_nat (n : Nat) (bound : n ≤ Decimal.maxWord) : optionalWord? (some (ofNat n)) = some (some n) :=
  congrArg (Option.map some) (word_of_nat n bound)

theorem printed_text (s : String) : Printed (ofText s) := .string s.toList

theorem printed_nat (n : Nat) : Printed (ofNat n) := .number n

theorem printed_fields (fields : List (String × JsonValue)) (printed : ∀ f ∈ fields, Printed f.2) :
    Printed (ofFields fields) := by
  apply Printed.object
  · intro m mem
    obtain ⟨f, _, rfl⟩ := List.mem_map.mp mem
    exact ⟨f.1.toList, rfl⟩
  · intro m mem
    obtain ⟨f, inside, rfl⟩ := List.mem_map.mp mem
    exact printed f inside

theorem values_of_lookup (name : String) (fields : List (String × JsonValue)) (distinct : (fields.map (·.1)).Nodup) :
    valuesOf name fields = (fields.lookup name).toList := by
  induction fields with
  | nil => rfl
  | cons f fields ih =>
      obtain ⟨key, v⟩ := f
      obtain ⟨fresh, distinct⟩ := List.nodup_cons.mp distinct
      by_cases same : key = name
      · subst same
        have none : fields.filter (·.1 == key) = [] := by
          rw [List.filter_eq_nil_iff]
          intro f mem same
          exact fresh (List.mem_map.mpr ⟨f, mem, beq_iff_eq.mp same⟩)
        simp [valuesOf, none]
      · have rest := ih distinct
        simp only [valuesOf] at rest ⊢
        rw [List.filter_cons_of_neg (by simpa using same), List.lookup_cons, rest]
        simp [beq_eq_false_iff_ne.mpr (Ne.symm same)]

theorem fields_of_fields (names : List String) (fields : List (String × JsonValue))
    (distinct : (fields.map (·.1)).Nodup) :
    (ofFields fields).fields? names = some (names.map fun name => fields.lookup name) := by
  have named : namedMembers (fields.map fun f => (escape f.1.toList, f.2)) = some fields := by
    rw [namedMembers, List.mapM_map]
    refine (map_m_pure _ id fields ?_).trans (congrArg some (List.map_id fields))
    rintro ⟨name, v⟩ _
    simp [unescape_escape]
  change (JsonValue.object (fields.map fun f => (escape f.1.toList, f.2))).fields? names = _
  simp only [fields?, named]
  apply map_m_pure
  intro name _
  rw [values_of_lookup name fields distinct]
  cases fields.lookup name <;> rfl

end JsonValue

theorem phase_of_name (p : Phase) : Phase.ofName? p.name = some p := by
  cases p <;> rfl

theorem category_of_text (k : Category) : Category.ofName? k.name = some k := by
  cases k <;> rfl

theorem entry_printed (r : EventEntry) : r.toJson.Printed := by
  apply JsonValue.printed_fields
  intro f mem
  simp only [List.mem_append, List.mem_cons, List.not_mem_nil, or_false] at mem
  rcases mem with (rfl | rfl | rfl | rfl | rfl | rfl | rfl | rfl | rfl) | mem
  · exact JsonValue.printed_text _
  · exact JsonValue.printed_nat _
  · exact JsonValue.printed_nat _
  · exact JsonValue.printed_nat _
  · exact JsonValue.printed_text _
  · exact JsonValue.printed_text _
  · exact JsonValue.printed_nat _
  · exact JsonValue.printed_nat _
  · exact .number _
  · cases elapsed : r.elapsedNanos with
    | none =>
        rw [elapsed] at mem
        cases mem
    | some n =>
        rw [elapsed, List.mem_singleton] at mem
        exact mem ▸ JsonValue.printed_nat n

theorem entry_of_json (r : EventEntry) (fits : r.Fits) : EventEntry.ofJson? r.toJson = some r := by
  rcases r with ⟨phase, timestamp, offset, matcherId, matcherClass, category, level, nodeId, parentId, elapsed⟩
  have parent := JsonValue.int_of_int parentId fits.parent_low fits.parent_high
  have last : JsonValue.optionalWord? none = some none := rfl
  cases elapsed with
  | none =>
      rw [EventEntry.ofJson?, EventEntry.toJson, JsonValue.fields_of_fields _ _ (by simp)]
      simp [EventEntry.fieldNames, List.lookup_cons, List.lookup_nil, JsonValue.tag_of_text, JsonValue.text_of_text,
        phase_of_name, category_of_text, JsonValue.word_of_nat, JsonValue.half_of_nat, parent, last, fits.timestamp,
        fits.offset, fits.matcher, fits.level, fits.node]
  | some n =>
      rw [EventEntry.ofJson?, EventEntry.toJson, JsonValue.fields_of_fields _ _ (by simp)]
      simp [EventEntry.fieldNames, List.lookup_cons, List.lookup_nil, JsonValue.tag_of_text, JsonValue.text_of_text,
        phase_of_name, category_of_text, JsonValue.word_of_nat, JsonValue.half_of_nat, parent,
        JsonValue.optional_of_nat, fits.timestamp, fits.offset, fits.matcher, fits.level, fits.node,
        fits.elapsed n rfl]

theorem entries_of_lines (rows : List EventEntry) (fits : ∀ r ∈ rows, r.Fits) (text : String)
    (written : text.toList = '[' :: (JsonValue.lineItems (rows.map EventEntry.toJson) ++ ['\n', ']', '\n'])) :
    (JsonValue.ofString? text).bind EventEntry.listOfJson? = some rows := by
  have value : JsonValue.ofString? text = some (.array (rows.map EventEntry.toJson)) := by
    rw [JsonValue.ofString?, written]
    apply JsonValue.of_chars_lines
    intro v mem
    obtain ⟨r, _, rfl⟩ := List.mem_map.mp mem
    exact entry_printed r
  have each := map_m_pure (fun r => EventEntry.ofJson? r.toJson) id rows fun r mem => entry_of_json r (fits r mem)
  rw [List.map_id] at each
  rw [value]
  simp only [EventEntry.listOfJson?, JsonValue.items?, Option.bind_eq_bind, Option.bind_some, List.mapM_map]
  exact each

end MatchTrace
