import MatchTrace.Demo
import MatchTrace.Proofs.Match.Acceptance

/-!
The grammar of comma separated records matches the texts of records, and no others. No greedy choice of a rule
loses a text: a quote that closes a field is never followed by another one, and all else is told by one character.
-/

namespace MatchTrace

set_option autoImplicit false

open scoped Computability

namespace Csv

def bare : Language Char := Letters (· ∉ [',', '"', '\r', '\n'])

def doubled (inner : List Char) : List Char := inner.flatMap fun c => if c = '"' then ['"', '"'] else [c]

def quoted : Language Char := {w | ∃ inner, w = '"' :: (doubled inner ++ ['"'])}

def field : Language Char := bare + quoted

def record : Language Char := Separated field {[',']}

def newline : Language Char := {['\n']} + {['\r', '\n']}

def text : Language Char := Separated record newline

theorem doubled_other (c : Char) (inner : List Char) (other : c ≠ '"') : doubled (c :: inner) = [c] ++ doubled inner := by
  rw [doubled, List.flatMap_cons, if_neg other]
  rfl

theorem doubled_many : ({['"', '"']} + Letter (¬ · = '"') : Language Char)∗ ≤ {w | ∃ inner, w = doubled inner} := by
  apply many_le
  · exact ⟨[], rfl⟩
  · rintro v (rfl | ⟨c, other, rfl⟩) _ ⟨inner, rfl⟩
    · exact ⟨'"' :: inner, rfl⟩
    · exact ⟨c :: inner, (doubled_other c inner other).symm⟩

theorem quoted_pieces : {['"']} * (({['"', '"']} + Letter (¬ · = '"'))∗ * {['"']}) ≤ quoted := by
  intro w mem
  obtain ⟨_, rfl, _, within, rfl⟩ := Language.mem_mul.mp mem
  obtain ⟨v, pieces, _, rfl, rfl⟩ := Language.mem_mul.mp within
  obtain ⟨inner, rfl⟩ := doubled_many pieces
  exact ⟨inner, rfl⟩

theorem newline_pieces : ({['\r']} + 1) * {['\n']} ≤ newline := by
  intro w mem
  obtain ⟨_, rfl | rfl, _, rfl, rfl⟩ := Language.mem_mul.mp mem
  · exact .inr rfl
  · exact .inl rfl

theorem blank_record : [] ∈ record := by
  have blank : [] ∈ field := .inl fun c mem => by cases mem
  exact Language.append_mem_mul blank (Language.nil_mem_kstar _)

-- A last end of line has an empty record behind it.
theorem text_pieces : record * ((newline * record)∗ * ((newline + 1) * 1)) ≤ text := by
  have empty : (1 : Language Char) ≤ record := by
    rintro _ rfl
    exact blank_record
  have last : newline + 1 ≤ (newline * record)∗ := by
    refine add_le ((le_mul_of_one_le_right' empty).trans le_kstar) one_le_kstar
  calc record * ((newline * record)∗ * ((newline + 1) * 1))
      ≤ record * ((newline * record)∗ * (newline * record)∗) := by
        rw [mul_one]
        gcongr
    _ = text := by rw [kstar_mul_kstar, text, Separated]

end Csv

open Csv

variable (t : Input)

section Reads

variable (i : Nat)

theorem quoted_reads : Demo.csv.Reads t Demo.quoted quoted i := by
  apply Demo.csv.reads_labelled
  apply Demo.csv.reads_le t _ _ _ i quoted_pieces
  apply Demo.csv.reads_sequence_cons
  · exact Demo.csv.reads_ch t 0 i '"'
  intro u _
  apply Demo.csv.reads_sequence_cons
  · apply Demo.csv.reads_many
    intro j _
    apply Demo.csv.reads_first_cons
    · exact Demo.csv.reads_string t 5 j _
    apply Demo.csv.reads_first_single
    exact Demo.csv.reads_one t _ j _ (Demo.csv.one_other t 6 7 8 _ _ (Demo.csv.one_ch t 0 '"'))
  exact fun _ _ => Demo.csv.reads_sequence_single t _ _ 2 _ (Demo.csv.reads_ch t 0 _ '"')

theorem bare_reads : Demo.csv.Reads t Demo.bare bare i := by
  apply Demo.csv.reads_labelled
  apply Demo.csv.reads_letters
  exact Demo.csv.one_other t 11 12 14 _ _ (Demo.csv.one_any_of t 13 _)

theorem field_reads : Demo.csv.Reads t Demo.csvField field i := by
  apply Demo.csv.reads_labelled
  rw [field, add_comm]
  apply Demo.csv.reads_first_cons
  · exact quoted_reads t i
  exact Demo.csv.reads_first_single t _ _ 16 i (bare_reads t i)

theorem record_reads : Demo.csv.Reads t Demo.csvRecord record i := by
  apply Demo.csv.reads_labelled
  apply Demo.csv.reads_sequence_cons
  · exact field_reads t i
  intro u _
  apply Demo.csv.reads_sequence_single
  apply Demo.csv.reads_many
  intro j _
  apply Demo.csv.reads_sequence_cons
  · exact Demo.csv.reads_ch t 21 j ','
  exact fun _ _ => Demo.csv.reads_sequence_single t _ _ 20 _ (field_reads t _)

theorem newline_reads : Demo.csv.Reads t Demo.newline newline i := by
  apply Demo.csv.reads_labelled
  apply Demo.csv.reads_le t _ _ _ i newline_pieces
  apply Demo.csv.reads_sequence_cons
  · exact Demo.csv.reads_optional t _ _ 24 i (Demo.csv.reads_ch t 25 i '\r')
  exact fun _ _ => Demo.csv.reads_sequence_single t _ _ 23 _ (Demo.csv.reads_ch t 26 _ '\n')

end Reads

section Takes

variable (w s : List Char)

-- Two quotes are taken as one that is doubled, so the closing one has to be followed by something else.
theorem doubled_takes (inner : List Char) (closed : Starts (· ≠ '"') s) :
    Demo.csv.Takes t (.zeroOrMore 3 (.firstOf 4 [.terminal 5 (.string ['"', '"']),
      .sequence 6 [.testNot 7 Demo.quoteMark, .terminal 8 .any]])) (doubled inner) ('"' :: s) := by
  have other := Demo.csv.one_other t 6 7 8 _ _ (Demo.csv.one_ch t 0 '"')
  induction inner with
  | nil =>
      apply Demo.csv.takes_many_nil
      apply Demo.csv.refuses_first_cons
      · apply Demo.csv.refuses_string
        rintro ⟨u, same⟩
        obtain ⟨-, rfl⟩ := List.cons.inj same
        exact closed '"' rfl rfl
      apply Demo.csv.refuses_first_cons
      · exact Demo.csv.refuses_one t _ _ _ other (starts_cons _ '"' s fun differs => differs rfl)
      exact Demo.csv.refuses_first_nil t _ 4
  | cons c inner ih =>
      by_cases quote : c = '"'
      · subst quote
        apply Demo.csv.takes_many_cons t _ ['"', '"'] (doubled inner) _ 3 _ (by simp) ih
        exact Demo.csv.takes_first t _ _ _ _ 4 (Demo.csv.takes_string t _ 5 _)
      · rw [doubled_other c inner quote]
        apply Demo.csv.takes_many_cons t _ [c] (doubled inner) _ 3 _ (by simp) ih
        apply Demo.csv.takes_other
        · apply Demo.csv.refuses_string
          rintro ⟨u, same⟩
          obtain ⟨rfl, -⟩ := List.cons.inj same
          exact quote rfl
        exact Demo.csv.takes_first t _ _ _ _ 4 (Demo.csv.takes_one t _ _ _ other c quote)

theorem quoted_takes (mem : w ∈ quoted) (closed : Starts (· ≠ '"') s) : Demo.csv.Takes t Demo.quoted w s := by
  obtain ⟨inner, rfl⟩ := mem
  apply Demo.csv.takes_labelled
  apply Demo.csv.takes_sequence_cons t _ _ ['"']
  · exact Demo.csv.takes_ch t _ 0 '"'
  apply Demo.csv.takes_sequence_cons
  · exact doubled_takes t s inner closed
  exact Demo.csv.takes_sequence_single t _ _ _ 2 (Demo.csv.takes_ch t s 0 '"')

theorem field_takes (mem : w ∈ field) (ended : Starts (· ∈ [',', '\r', '\n']) s) :
    Demo.csv.Takes t Demo.csvField w s := by
  apply Demo.csv.takes_labelled
  rcases mem with plain | mem
  · have behind : Starts (· ≠ '"') (w ++ s) := by
      apply starts_letters
      · intro c mem same
        subst same
        exact plain _ mem (by simp)
      · exact starts_among _ _ (by decide) s ended
    apply Demo.csv.takes_other
    · exact Demo.csv.refuses_labelled t _ _ 1 "Quoted" (Demo.csv.refuses_sequence t _ _ _ 2
        (Demo.csv.refuses_ch t _ 0 '"' behind))
    apply Demo.csv.takes_first
    apply Demo.csv.takes_labelled
    apply Demo.csv.takes_letters t _ _ _ 10 _ (Demo.csv.one_other t 11 12 14 _ _ (Demo.csv.one_any_of t 13 _)) plain
    exact starts_among _ _ (by decide) s ended
  · apply Demo.csv.takes_first
    exact quoted_takes t w s mem (starts_among _ _ (by decide) s ended)

theorem record_takes (mem : w ∈ record) (ended : Starts (· ∈ ['\r', '\n']) s) : Demo.csv.Takes t Demo.csvRecord w s := by
  obtain ⟨first, one, others, more, rfl⟩ := Language.mem_mul.mp mem
  have heads : ∀ v ∈ ({[',']} * field : Language Char), ∃ c u, v = c :: u ∧ c ∈ [',', '\r', '\n'] := by
    intro v mem
    obtain ⟨_, rfl, u, _, rfl⟩ := Language.mem_mul.mp mem
    exact ⟨',', u, rfl, by simp⟩
  have ended' : Starts (· ∈ [',', '\r', '\n']) s := starts_le _ _ (fun c mem => List.mem_cons_of_mem _ mem) s ended
  apply Demo.csv.takes_labelled
  apply Demo.csv.takes_sequence_cons
  · exact field_takes t first _ one (starts_many _ _ heads others s more ended')
  apply Demo.csv.takes_sequence_single
  apply Demo.csv.takes_many t _ _ s 19 _ _ heads _ ended' _ more
  · intro v mem u behind
    obtain ⟨_, rfl, v, one, rfl⟩ := Language.mem_mul.mp mem
    apply Demo.csv.takes_sequence_cons
    · exact Demo.csv.takes_ch t _ 21 ','
    exact Demo.csv.takes_sequence_single t _ _ _ 20 (field_takes t v u one behind)
  · apply Demo.csv.refuses_sequence
    exact Demo.csv.refuses_ch t s 21 ',' (starts_among _ _ (by decide) s ended)

theorem newline_takes (mem : w ∈ newline) : Demo.csv.Takes t Demo.newline w s := by
  apply Demo.csv.takes_labelled
  rcases mem with rfl | rfl
  · apply Demo.csv.takes_sequence_cons t _ _ []
    · exact Demo.csv.takes_optional_nil t _ _ 24 (Demo.csv.refuses_ch t _ 25 '\r' (starts_cons _ '\n' s (by decide)))
    exact Demo.csv.takes_sequence_single t _ _ _ 23 (Demo.csv.takes_ch t s 26 '\n')
  · apply Demo.csv.takes_sequence_cons t _ _ ['\r']
    · exact Demo.csv.takes_optional t _ _ _ 24 (Demo.csv.takes_ch t _ 25 '\r')
    exact Demo.csv.takes_sequence_single t _ _ _ 23 (Demo.csv.takes_ch t s 26 '\n')

theorem newline_refuses : Demo.csv.Refuses t Demo.newline [] := by
  apply Demo.csv.refuses_labelled
  apply Demo.csv.refuses_behind t _ _ [] []
  · exact Demo.csv.takes_optional_nil t _ _ 24 (Demo.csv.refuses_ch t _ 25 '\r' (starts_nil _))
  exact Demo.csv.refuses_sequence t _ _ _ 23 (Demo.csv.refuses_ch t _ 26 '\n' (starts_nil _))

end Takes

def Csv.parts : List Rule :=
  [Demo.csvRecord, .zeroOrMore 29 (.sequence 30 [Demo.newline, Demo.csvRecord]), .optional 31 Demo.newline,
    .terminal 32 .endOfInput]

theorem records_read_out :
    Demo.csv.ReadsOut t 28 Csv.parts (record * ((newline * record)∗ * ((newline + 1) * 1))) 0 := by
  apply Demo.csv.reads_out_cons
  · exact record_reads t 0
  intro u _
  apply Demo.csv.reads_out_cons
  · apply Demo.csv.reads_many
    intro j _
    apply Demo.csv.reads_sequence_cons
    · exact newline_reads t j
    exact fun _ _ => Demo.csv.reads_sequence_single t _ _ 30 _ (record_reads t _)
  intro v _
  apply Demo.csv.reads_out_cons
  · exact Demo.csv.reads_optional t _ _ 31 _ (newline_reads t _)
  exact fun _ _ => Demo.csv.reads_out_end t 28 _ 32

theorem records_taken_out (w : List Char) (mem : w ∈ Csv.text) : Demo.csv.TakesOut t 28 Csv.parts w := by
  obtain ⟨first, one, others, more, rfl⟩ := Language.mem_mul.mp mem
  have heads : ∀ v ∈ newline * record, ∃ c u, v = c :: u ∧ c ∈ ['\r', '\n'] := by
    intro v mem
    obtain ⟨_, rfl | rfl, u, _, rfl⟩ := Language.mem_mul.mp mem
    · exact ⟨'\n', u, rfl, by simp⟩
    · exact ⟨'\r', '\n' :: u, rfl, by simp⟩
  have ahead := starts_many _ _ heads others [] more (starts_nil _)
  have taken : Demo.csv.TakesOut t 28 Csv.parts (first ++ (others ++ ([] ++ []))) := by
    apply Demo.csv.takes_out_cons t
    · exact record_takes t first _ one ahead
    apply Demo.csv.takes_out_cons
    · apply Demo.csv.takes_many t _ others [] 29 _ _ heads _ (starts_nil _) _ more
      · intro v mem u behind
        obtain ⟨end', mem', v, one, rfl⟩ := Language.mem_mul.mp mem
        apply Demo.csv.takes_sequence_cons
        · exact newline_takes t end' _ mem'
        exact Demo.csv.takes_sequence_single t _ _ _ 30 (record_takes t v u one behind)
      · exact Demo.csv.refuses_sequence t _ _ _ 30 (newline_refuses t)
    apply Demo.csv.takes_out_cons
    · exact Demo.csv.takes_optional_nil t _ [] 31 (newline_refuses t)
    exact Demo.csv.takes_out_end t 28 32
  simpa only [List.append_nil] using taken

theorem csv_recognizes : Demo.csv.Recognizes Csv.text where
  reads t := by
    obtain ⟨e, meaning, words⟩ := records_read_out t _ (rest_start t)
    refine ⟨e, .labelled 27 "Csv" _ 0 e meaning, fun j matched => ?_⟩
    obtain ⟨mem, last⟩ := words j matched
    exact ⟨text_pieces mem, last⟩
  takes t mem := .labelled 27 "Csv" _ 0 _ (records_taken_out t _ mem 0 (rest_start t))

/-- With the grammar of comma separated records, a parse of any text ends, and without an error. It matches if and only
if the text is one or more records with an end of line between any two, each of them fields with commas between, and
a match ends one past the text. -/
theorem csv_matches_records {ε σ : Type} (input : Input) (l : Listener ε σ) (obliging : ∀ s h, (l s h).2 = none)
    (s : σ) :
    ∃ fuel t matched, (matched = true ↔ input.chars.toList ∈ Csv.text) ∧ ∀ more, fuel ≤ more →
      Demo.csv.heardWith more input l s =
        some (t, .ok ⟨matched, if matched then input.length + 1 else 0, input.length⟩) :=
  Demo.csv.recognized_parse Csv.text csv_recognizes input l obliging s

theorem quoted_field_matches :
    (∀ s h, ((Listener.deaf (ε := Unit)) s h).2 = none) ∧ (Input.ofString "x,\"y\"\"\"\n").chars.toList ∈ Csv.text ∧
      ∃ fuel t, ∀ more, fuel ≤ more →
        Demo.csv.heardWith more (.ofString "x,\"y\"\"\"\n") (Listener.deaf (ε := Unit)) () =
          some (t, .ok ⟨true, 9, 8⟩) := by
  have plain : ['x'] ∈ field := .inl (by simp [bare, Letters])
  have quotes : ['"', 'y', '"', '"', '"'] ∈ field := .inr ⟨['y', '"'], rfl⟩
  have first : ['x', ',', '"', 'y', '"', '"', '"'] ∈ record :=
    Language.append_mem_mul plain (many_once _ _ (Language.append_mem_mul (rfl : [','] ∈ _) quotes))
  have mem : ['x', ',', '"', 'y', '"', '"', '"'] ++ (['\n'] ++ []) ∈ Csv.text :=
    Language.append_mem_mul first (many_once _ _ (Language.append_mem_mul (.inl rfl) blank_record))
  obtain ⟨fuel, t, matched, exactly, heard⟩ :=
    csv_matches_records (.ofString "x,\"y\"\"\"\n") (Listener.deaf (ε := Unit)) (fun _ _ => rfl) ()
  rw [exactly.mpr mem] at heard
  exact ⟨fun _ _ => rfl, mem, fuel, t, heard⟩

end MatchTrace
