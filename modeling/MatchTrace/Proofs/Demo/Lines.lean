import MatchTrace.Proofs.Match.Acceptance
import MatchTrace.Proofs.Match.Mentions
import MatchTrace.Text.LineTable

/-!
The grammar of lines matches every text, and runs its action once behind each line feed, where the table of lines
has the next line begin.
-/

namespace MatchTrace

set_option autoImplicit false

namespace Lines

def flat : Language Char := Letters (· ≠ '\n')

inductive Lined : List Char → Prop where
  | last (w : List Char) : w ∈ flat → Lined w
  | line (w s : List Char) : w ∈ flat → Lined s → Lined (w ++ '\n' :: s)

theorem lined (s : List Char) : Lined s := by
  induction s with
  | nil => exact .last [] fun c mem => by cases mem
  | cons c s ih =>
      by_cases feed : c = '\n'
      · subst feed
        exact .line [] s (fun c mem => by cases mem) ih
      · have longer (w : List Char) (all : w ∈ flat) : c :: w ∈ flat := by
          intro d mem
          rcases List.mem_cons.mp mem with rfl | mem
          · exact feed
          · exact all d mem
        cases ih with
        | last _ all => exact .last (c :: s) (longer s all)
        | line w s all rest => exact .line (c :: w) s (longer w all) rest

theorem feeds_last (i : Nat) (w : List Char) (all : w ∈ flat) : w.idxsOf '\n' i = [] := by
  apply List.idxsOf_eq_nil_iff.mpr
  intro c mem
  simpa using all c mem

theorem feeds_line (i : Nat) (w s : List Char) (all : w ∈ flat) :
    (w ++ '\n' :: s).idxsOf '\n' i = (i + w.length) :: s.idxsOf '\n' (i + w.length + 1) := by
  rw [List.idxsOf_append, feeds_last i w all, List.nil_append, List.idxsOf_cons]
  rfl

theorem starts_behind_feeds (start i : Nat) (s : List Char) :
    (LineTable.rangesFrom start i s).map (·.start) = start :: (s.idxsOf '\n' i).map (· + 1) := by
  induction s generalizing start i with
  | nil => rfl
  | cons c s ih =>
      rw [LineTable.rangesFrom, List.idxsOf_cons]
      by_cases feed : c = '\n'
      · simp [feed, ih]
      · simp [feed, ih]

end Lines

open Lines

def Demo.counts (r : Rule) : Bool := r.label == "CountLine"

-- One call for each line but the first, where that line begins.
def Demo.countCalls (input : Input) : List Call :=
  input.lineTable.ranges.tail.map fun line => ⟨Demo.countLine, line.start, 3⟩

def Demo.plainRules : List Rule :=
  [Demo.lineText, .sequence 2 [.testNot 3 (Demo.ch 4 '\n'), .terminal 5 .any], .testNot 3 (Demo.ch 4 '\n'),
    Demo.ch 4 '\n', .terminal 5 .any, Demo.ch 9 '\n', .terminal 13 .endOfInput]

theorem plain_rules_apart (r : Rule) (mem : r ∈ Demo.plainRules) : Demo.counts r = false := by
  revert r
  decide

theorem plain_rules_closed (r : Rule) (mem : r ∈ Demo.plainRules) (c : Rule) (called : c ∈ Demo.lines.callees r) :
    c ∈ Demo.plainRules := by
  revert r c
  simp [Demo.plainRules, Demo.lineText, Demo.ch, Grammar.callees, Rule.children]

section Lines

variable (t : Input)

theorem text_takes (w s : List Char) (all : w ∈ flat) (ended : Starts (· = '\n') s) :
    Demo.lines.Takes t Demo.lineText w s := by
  have other := Demo.lines.one_other t 2 3 5 _ _ (Demo.lines.one_ch t 4 '\n')
  apply Demo.lines.takes_labelled
  exact Demo.lines.takes_letters t _ w s 1 _ other all (starts_le _ _ (fun _ same differs => differs same) s ended)

theorem count_meaning (i : Nat) : Peg Demo.lines t Demo.countLine i (some i) :=
  .action 6 "CountLine" _ i true fun _ _ _ => rfl

theorem line_takes (w s : List Char) (all : w ∈ flat) : Demo.lines.Takes t Demo.line (w ++ ['\n']) s := by
  apply Demo.lines.takes_labelled
  apply Demo.lines.takes_sequence_cons
  · exact text_takes t w _ all (starts_cons _ '\n' s rfl)
  apply Demo.lines.takes_sequence_cons t _ _ ['\n'] []
  · exact Demo.lines.takes_ch t s 9 '\n'
  exact Demo.lines.takes_sequence_single t _ [] s 8 fun i _ => count_meaning t i

theorem line_refuses (w : List Char) (all : w ∈ flat) : Demo.lines.Refuses t Demo.line w := by
  have stops : Demo.lines.Refuses t Demo.line (w ++ []) := by
    apply Demo.lines.refuses_labelled
    apply Demo.lines.refuses_behind t _ _ w []
    · exact text_takes t w [] all (starts_nil _)
    exact Demo.lines.refuses_sequence t _ _ [] 8 (Demo.lines.refuses_ch t [] 9 '\n' (starts_nil _))
  rwa [List.append_nil] at stops

theorem plain_mentions (fuel level : Nat) (r : Rule) (i : Nat) (mem : r ∈ Demo.plainRules) (e : Option Nat)
    (meaning : Peg Demo.lines t r i e) : Mentions Demo.counts e [] (invoke .noted (Demo.lines.setting t) fuel level r i) :=
  mentions_nothing Demo.counts Demo.lines t Demo.plainRules plain_rules_apart plain_rules_closed fuel level r i mem e
    meaning

theorem count_mentions (fuel level i : Nat) :
    Mentions Demo.counts (some i) [.beforeMatch ⟨Demo.countLine, i, level⟩, .matchSuccess ⟨Demo.countLine, i, level⟩]
      (invoke .noted (Demo.lines.setting t) fuel level Demo.countLine i) := by
  apply mentions_kind Demo.counts _ level Demo.countLine i [] i (by decide)
  exact fun _ _ => mentions_conclude Demo.counts ⟨true, i⟩

theorem line_mentions (i : Nat) (w s : List Char) (all : w ∈ flat) (rest : Rest t i (w ++ '\n' :: s)) (fuel : Nat) :
    Mentions Demo.counts (some (i + w.length + 1))
      [.beforeMatch ⟨Demo.countLine, i + w.length + 1, 3⟩, .matchSuccess ⟨Demo.countLine, i + w.length + 1, 3⟩]
      (invoke .noted (Demo.lines.setting t) fuel 2 Demo.line i) := by
  have read := text_takes t w ('\n' :: s) all (starts_cons _ '\n' s rfl) i rest
  have feed := Demo.lines.takes_ch t s 9 '\n' (i + w.length) (rest_skip t i w _ rest)
  apply mentions_other Demo.counts _ 2 Demo.line i _ _ (by decide)
  intro fuel view
  apply mentions_in_order_step Demo.counts _ Demo.lineText _ i (i + w.length) _ [] _
  · exact plain_mentions t fuel 3 _ i (by simp [Demo.plainRules]) _ read
  apply mentions_in_order_step Demo.counts _ _ _ (i + w.length) (i + w.length + 1) _ [] _
  · exact plain_mentions t fuel 3 _ _ (by simp [Demo.plainRules, Demo.ch]) _ feed
  exact mentions_in_order_step Demo.counts _ _ [] _ _ _ _ [] (count_mentions t fuel 3 _)
    (mentions_in_order_nil Demo.counts _ _)

theorem last_mentions (i : Nat) (w : List Char) (all : w ∈ flat) (rest : Rest t i w) (fuel : Nat) :
    Mentions Demo.counts none [] (invoke .noted (Demo.lines.setting t) fuel 2 Demo.line i) := by
  rw [← List.append_nil w] at rest
  have read := text_takes t w [] all (starts_nil _) i rest
  have stop := Demo.lines.refuses_ch t [] 9 '\n' (starts_nil _) (i + w.length) (rest_skip t i w [] rest)
  apply mentions_other Demo.counts _ 2 Demo.line i _ _ (by decide)
  intro fuel view
  apply mentions_in_order_step Demo.counts _ Demo.lineText _ i (i + w.length) _ [] []
  · exact plain_mentions t fuel 3 _ i (by simp [Demo.plainRules]) _ read
  apply mentions_in_order_fail
  exact plain_mentions t fuel 3 _ _ (by simp [Demo.plainRules, Demo.ch]) _ stop

def Demo.countHooks (c : Call) : List Hook := [.beforeMatch c, .matchSuccess c]

def Demo.callsBehind (feeds : List Nat) : List Call := feeds.map fun i => ⟨Demo.countLine, i + 1, 3⟩

-- Line by line: the repetition reads up to the last one, and runs the action behind each line feed on its way.
theorem many_lines (s : List Char) (whole : Lined s) : ∀ i, Rest t i s →
    ∃ j last, last ∈ flat ∧ Rest t j last ∧ Peg Demo.lines t (.zeroOrMore 12 Demo.line) i (some j) ∧
      ∀ fuel count, Mentions Demo.counts (some j) ((Demo.callsBehind (s.idxsOf '\n' i)).flatMap Demo.countHooks)
        (Mode.noted.repeated (invoke .noted (Demo.lines.setting t) fuel 2) Demo.line count true i) := by
  induction whole with
  | last w all =>
      intro i rest
      refine ⟨i, w, all, rest, .many_end 12 _ i (line_refuses t w all i rest), fun fuel count => ?_⟩
      rw [feeds_last i w all]
      exact mentions_many_end Demo.counts _ _ i [] count (last_mentions t i w all rest fuel)
  | line w s all _ ih =>
      intro i rest
      have place : i + (w ++ ['\n']).length = i + w.length + 1 := by simp [Nat.add_assoc]
      have rest' : Rest t i ((w ++ ['\n']) ++ s) := by simpa using rest
      have behind := rest_skip t i (w ++ ['\n']) s rest'
      have taken := line_takes t w s all i rest'
      rw [place] at behind taken
      obtain ⟨j, last, all', ended, meaning, mentions⟩ := ih (i + w.length + 1) behind
      refine ⟨j, last, all', ended, .many_step 12 _ i _ _ taken (by omega) meaning, fun fuel count => ?_⟩
      rw [feeds_line i w s all]
      exact mentions_many_step Demo.counts _ _ i _ _ _ _ count (line_mentions t i w s all rest fuel) (by omega)
        (mentions fuel)

theorem lines_meaning :
    Peg Demo.lines t Demo.lines.root 0 (some (t.length + 1)) ∧
      ∀ fuel, Mentions Demo.counts (some (t.length + 1))
        ((Demo.callsBehind (t.chars.toList.idxsOf '\n')).flatMap Demo.countHooks)
        (Demo.lines.invokeRoot .noted fuel t) := by
  obtain ⟨j, last, all, rest, meaning, mentions⟩ := many_lines t _ (lined t.chars.toList) 0 (rest_start t)
  have length := rest_length t j last rest
  rw [← List.append_nil last] at rest
  have read := text_takes t last [] all (starts_nil _) j rest
  rw [length] at read
  have ended : Peg Demo.lines t (.terminal 13 .endOfInput) t.length (some (t.length + 1)) := .hit 13 _ _ _ ⟨rfl, rfl⟩
  constructor
  · have behind := Peg.sequence_step 11 _ [] t.length _ _ ended (.sequence_end 11 _)
    exact .labelled 10 "Lines" _ 0 _ (.sequence_step 11 _ _ 0 j _ meaning (.sequence_step 11 _ _ j _ _ read behind))
  · apply mentions_other Demo.counts _ 0 Demo.lines.root 0 _ _ (by decide)
    intro fuel view
    rw [← List.append_nil (List.flatMap _ _)]
    apply mentions_in_order_step Demo.counts _ (.zeroOrMore 12 Demo.line) _ 0 j _ _ []
    · exact mentions_other Demo.counts _ 1 (.zeroOrMore 12 Demo.line) 0 _ _ (by decide)
        (fun fuel _ => mentions fuel fuel) fuel
    apply mentions_in_order_step Demo.counts _ Demo.lineText _ j t.length _ [] []
    · exact plain_mentions t fuel 1 _ j (by simp [Demo.plainRules]) _ read
    exact mentions_in_order_step Demo.counts _ _ [] _ _ _ [] [] (plain_mentions t fuel 1 _ _
      (by simp [Demo.plainRules]) _ ended) (mentions_in_order_nil Demo.counts _ _)

theorem count_calls : Demo.callsBehind (t.chars.toList.idxsOf '\n') = Demo.countCalls t := by
  have starts := congrArg List.tail (starts_behind_feeds 0 0 t.chars.toList)
  rw [← List.map_tail] at starts
  have calls := congrArg (List.map fun i => (⟨Demo.countLine, i, 3⟩ : Call)) starts.symm
  simpa [Demo.callsBehind, Demo.countCalls, Input.lineTable, LineTable.build, Function.comp_def] using calls

end Lines

/-- With the grammar of lines, a parse of any text ends with a match of all of it. It runs the action that counts
lines once for each line feed, in the order of the text, and at no other time: the calls of the action are those at
the place behind each line feed, which is where the next line of the table begins, and there is one fewer of them than
there are lines. -/
theorem lines_counts_line_feeds {ε σ : Type} (input : Input) (l : Listener ε σ) (obliging : ∀ s h, (l s h).2 = none)
    (s : σ) :
    (∃ fuel run t, run.hooks.filter (Hook.about Demo.counts) = (Demo.countCalls input).flatMap Demo.countHooks ∧
      announce l s run.hooks = (t, none) ∧ ∀ more, fuel ≤ more → Demo.lines.runWith more input = some run ∧
        Demo.lines.heardWith more input l s = some (t, .ok ⟨true, input.length + 1, input.length⟩)) ∧
    (Demo.countCalls input).map (·.index) = (input.chars.toList.idxsOf '\n').map (· + 1) ∧
    (Demo.countCalls input).length = input.lineTable.lineCount - 1 := by
  obtain ⟨meaning, mentions⟩ := lines_meaning input
  rw [count_calls] at mentions
  refine ⟨?_, ?_, ?_⟩
  · obtain ⟨fuel, run, noted, ended⟩ := meaning_noted Demo.lines input _ meaning
    obtain ⟨t, told, heard⟩ := noted_heard Demo.lines input run _ fuel noted ended l obliging s
    have hooks := run_mentions Demo.counts Demo.lines input _ _ mentions fuel run (noted fuel (Nat.le_refl fuel))
    exact ⟨fuel, run, t, hooks, told, fun more bound => ⟨noted more bound, heard more bound⟩⟩
  · rw [← count_calls, Demo.callsBehind, List.map_map]
    rfl
  · rw [Demo.countCalls, List.length_map, List.length_tail]
    rfl

theorem two_lines_counted :
    (∀ s h, ((Listener.deaf (ε := Unit)) s h).2 = none) ∧
      (∃ fuel run t,
        run.hooks.filter (Hook.about Demo.counts) =
          [⟨Demo.countLine, 4, 3⟩, ⟨Demo.countLine, 8, 3⟩].flatMap Demo.countHooks ∧
        announce (Listener.deaf (ε := Unit)) () run.hooks = (t, none) ∧
        ∀ more, fuel ≤ more → Demo.lines.runWith more (.ofString "one\ntwo\n") = some run ∧
          Demo.lines.heardWith more (.ofString "one\ntwo\n") (Listener.deaf (ε := Unit)) () =
            some (t, .ok ⟨true, 9, 8⟩)) :=
  ⟨fun _ _ => rfl, (lines_counts_line_feeds (.ofString "one\ntwo\n") Listener.deaf (fun _ _ => rfl) ()).1⟩

end MatchTrace
