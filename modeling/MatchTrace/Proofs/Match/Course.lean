import MatchTrace.Proofs.Match.Adequacy

/-!
What a rule comes to: the endings that its runs can have from a position, whatever hooks they tell and whatever fuel
they take. Of an operator it is put together from what the children come to, and a repetition is what its turns give.
-/

namespace MatchTrace

set_option autoImplicit false

-- What a rule can end with, by the position that it begins at.
abbrev Course := Nat → Except RuleError Verdict → Prop

namespace Course

def attempt (child : Course) (next : Bool → Course) : Course := fun i ending =>
  ∃ first, child i first ∧
    match first with
    | .ok v => next v.matched (v.resume i) ending
    | .error e => ending = .error e

-- A repetition, with `enough` for whether it matches when the child fails at once.
inductive Loop (child : Course) : Bool → Course where
  | error (enough : Bool) (i : Nat) (e : RuleError) : child i (.error e) → Loop child enough i (.error e)
  | fail (enough : Bool) (i j : Nat) : child i (.ok ⟨false, j⟩) → Loop child enough i (.ok ⟨enough, i⟩)
  | still (enough : Bool) (i : Nat) : child i (.ok ⟨true, i⟩) → Loop child enough i (.ok ⟨true, i⟩)
  | step (enough : Bool) (i j : Nat) (ending : Except RuleError Verdict) :
      child i (.ok ⟨true, j⟩) → j ≠ i → Loop child true j ending → Loop child enough i ending

def Single (child : Course) : Prop := ∀ i first second, child i first → child i second → first = second

theorem loop_matches (child : Course) (enough : Bool) (i : Nat) (ending : Except RuleError Verdict)
    (loop : Loop child enough i ending) (always : enough = true) (v : Verdict) (same : ending = .ok v) :
    v.matched = true := by
  induction loop with
  | error => cases same
  | fail enough i j _ =>
      cases same
      exact always
  | still =>
      cases same
      rfl
  | step enough i j ending _ _ _ ih => exact ih rfl same

-- A child that has matched without moving would do so again.
theorem loop_at_rest (child : Course) (single : child.Single) (enough : Bool) (i : Nat) (rest : child i (.ok ⟨true, i⟩))
    (ending : Except RuleError Verdict) : Loop child enough i ending ↔ ending = .ok ⟨true, i⟩ := by
  constructor
  · intro loop
    cases loop with
    | error _ _ e raised => cases single i _ _ rest raised
    | fail _ _ j failed => cases single i _ _ rest failed
    | still => rfl
    | step _ _ j _ moved other =>
        cases single i _ _ rest moved
        exact absurd rfl other
  · rintro rfl
    exact .still enough i rest

theorem loop_turn (child : Course) (single : child.Single) (enough : Bool) (i : Nat)
    (ending : Except RuleError Verdict) :
    Loop child enough i ending ↔
      child.attempt (fun ok j => if ok then Loop child true j else fun e => e = .ok ⟨enough, j⟩) i ending := by
  constructor
  · intro loop
    cases loop with
    | error _ _ e raised => exact ⟨_, raised, rfl⟩
    | fail _ _ j failed => exact ⟨_, failed, rfl⟩
    | still _ _ rest => exact ⟨_, rest, .still true i rest⟩
    | step _ _ j _ moved _ rest => exact ⟨_, moved, rest⟩
  · rintro ⟨e | ⟨_ | _, j⟩, first, rest⟩
    · obtain rfl : ending = .error e := rest
      exact .error enough i e first
    · obtain rfl : ending = .ok ⟨enough, i⟩ := rest
      exact .fail enough i j first
    · by_cases rests : j = i
      · subst rests
        have same := (loop_at_rest child single true j first ending).mp rest
        exact (loop_at_rest child single enough j first ending).mpr same
      · exact .step enough i j ending first rests rest

-- Whether the first failure is enough shows only where no turn has succeeded.
theorem loop_spared (child : Course) (i : Nat) (ending : Except RuleError Verdict) :
    Loop child true i ending ↔ attempt (Loop child false) (fun _ j e => e = .ok ⟨true, j⟩) i ending := by
  constructor
  · intro loop
    cases loop with
    | error _ _ e raised => exact ⟨_, .error false i e raised, rfl⟩
    | fail _ _ j failed => exact ⟨_, .fail false i j failed, rfl⟩
    | still _ _ rest => exact ⟨_, .still false i rest, rfl⟩
    | step _ _ j _ moved other rest =>
        refine ⟨ending, .step false i j ending moved other rest, ?_⟩
        rcases ending with e | ⟨matched, k⟩
        · rfl
        · obtain rfl : matched = true := loop_matches child true j _ rest rfl _ rfl
          rfl
  · rintro ⟨first, loop, onward⟩
    cases loop with
    | error _ _ e raised =>
        obtain rfl : ending = .error e := onward
        exact .error true i e raised
    | fail _ _ j failed =>
        obtain rfl : ending = .ok ⟨true, i⟩ := onward
        exact .fail true i j failed
    | still _ _ rest =>
        obtain rfl : ending = .ok ⟨true, i⟩ := onward
        exact .still true i rest
    | step _ _ j _ moved other rest =>
        rcases first with e | ⟨matched, k⟩
        · obtain rfl : ending = .error e := onward
          exact .step true i j _ moved other rest
        · obtain rfl : matched = true := loop_matches child true j _ rest rfl _ rfl
          obtain rfl : ending = .ok ⟨true, k⟩ := onward
          exact .step true i j _ moved other rest

theorem loop_last (child : Course) (i : Nat) (ending : Except RuleError Verdict) :
    attempt (Loop child true) (fun ok j e => e = .ok ⟨ok, j⟩) i ending ↔ Loop child true i ending := by
  constructor
  · rintro ⟨e | ⟨matched, j⟩, loop, onward⟩
    · obtain rfl : ending = .error e := onward
      exact loop
    · obtain rfl : matched = true := loop_matches child true i _ loop rfl _ rfl
      obtain rfl : ending = .ok ⟨true, j⟩ := onward
      exact loop
  · intro loop
    refine ⟨ending, loop, ?_⟩
    rcases ending with e | ⟨matched, j⟩
    · rfl
    · obtain rfl : matched = true := loop_matches child true i _ loop rfl _ rfl
      rfl

end Course

def Gives (part : Nat → Option Trail) (ending : Except RuleError Verdict) : Prop := ∃ fuel, EndsIn (part fuel) ending

def Grows (part : Nat → Option Trail) : Prop :=
  ∀ less more, less ≤ more → ∀ trail, part less = some trail → part more = some trail

theorem ends_in_longer (part : Nat → Option Trail) (grows : Grows part) (less more : Nat) (bound : less ≤ more)
    (ending : Except RuleError Verdict) (ends : EndsIn (part less) ending) : EndsIn (part more) ending := by
  obtain ⟨hooks, ran⟩ := ends
  exact ⟨hooks, grows less more bound _ ran⟩

theorem gives_conclude (v : Verdict) : Gives (fun _ => Mode.noted.conclude v) = fun ending => ending = .ok v := by
  funext ending
  apply propext
  constructor
  · rintro ⟨_, hooks, same⟩
    cases same
    rfl
  · rintro rfl
    exact ⟨0, [], rfl⟩

theorem gives_attempt (run : Nat → Attempt (Option Trail)) (r : Rule) (i : Nat)
    (next : Nat → Bool → Nat → Option Trail) (child : Grows fun fuel => run fuel r i)
    (rest : ∀ ok j, Grows fun fuel => next fuel ok j) (ending : Except RuleError Verdict) :
    Gives (fun fuel => Mode.noted.attempt (run fuel) r i (next fuel)) ending ↔
      Course.attempt (fun i => Gives fun fuel => run fuel r i) (fun ok j => Gives fun fuel => next fuel ok j) i
        ending := by
  constructor
  · rintro ⟨fuel, ends⟩
    obtain ⟨first, front, onward⟩ := ends_in_cases _ _ ending ends
    refine ⟨first, ⟨fuel, front⟩, ?_⟩
    cases first with
    | error e => exact onward
    | ok v => exact ⟨fuel, onward⟩
  · rintro ⟨e | v, ⟨fuel, front⟩, onward⟩
    · obtain rfl : ending = .error e := onward
      exact ⟨fuel, ends_in_raised _ _ e front⟩
    · obtain ⟨other, back⟩ := onward
      refine ⟨max fuel other, ends_in_then _ _ v ending ?_ ?_⟩
      · exact ends_in_longer _ child _ _ (Nat.le_max_left fuel other) _ front
      · exact ends_in_longer _ (rest _ _) _ _ (Nat.le_max_right fuel other) _ back

namespace Grammar

variable (g : Grammar) (t : Input) (level : Nat)

def course (r : Rule) : Course := fun i => Gives fun fuel => invoke .noted (g.setting t) fuel level r i

end Grammar

section Course

variable (g : Grammar) (t : Input) (level : Nat) (r : Rule)

theorem grows_invoke (i : Nat) : Grows fun fuel => invoke .noted (g.setting t) fuel level r i :=
  fun less more bound => longer_simulation.invoke (g.setting t) (closed_anywhere t) less more bound level r i trivial

theorem grows_fixed (part : Option Trail) : Grows fun _ => part := fun _ _ _ _ ran => ran

theorem course_single : (g.course t level r).Single := by
  rintro i first second ⟨fuel, ends⟩ ⟨other, ends'⟩
  have grows := grows_invoke g t level r i
  exact ends_in_unique _ first second (ends_in_longer _ grows _ _ (Nat.le_max_left fuel other) first ends)
    (ends_in_longer _ grows _ _ (Nat.le_max_right fuel other) second ends')

theorem course_body (i : Nat) (part : Nat → Option Trail)
    (shape : ∀ fuel view,
      body .noted (g.setting t) fuel (invoke .noted (g.setting t) fuel (level + 1)) view r i = part fuel)
    (ending : Except RuleError Verdict) : g.course t level r i ending ↔ Gives part ending := by
  constructor
  · rintro ⟨fuel, ends⟩
    cases fuel with
    | zero =>
        obtain ⟨hooks, ran⟩ := ends
        cases ran
    | succ fuel =>
        have inside := (ends_in_enclose ⟨r, i, level⟩ _ ending).mp ends
        exact ⟨fuel, shape fuel _ ▸ inside⟩
  · rintro ⟨fuel, ends⟩
    refine ⟨fuel + 1, (ends_in_enclose ⟨r, i, level⟩ _ ending).mpr ?_⟩
    rw [shape]
    exact ends

theorem course_attempt (c : Rule) (i : Nat) (next : Bool → Nat → Verdict)
    (shape : ∀ fuel run view, body .noted (g.setting t) fuel run view r i =
      Mode.noted.attempt run c i fun ok j => Mode.noted.conclude (next ok j)) (ending : Except RuleError Verdict) :
    g.course t level r i ending ↔
      (g.course t (level + 1) c).attempt (fun ok j e => e = .ok (next ok j)) i ending := by
  rw [course_body g t level r i _ (fun fuel view => shape fuel _ view),
    gives_attempt (fun fuel => invoke .noted (g.setting t) fuel (level + 1)) c i
      (fun _ ok j => Mode.noted.conclude (next ok j)) (grows_invoke g t (level + 1) c i) fun ok j => grows_fixed _]
  simp only [gives_conclude]
  rfl

theorem loop_of_repeated (fuel count : Nat) (enough : Bool) (i : Nat) (ending : Except RuleError Verdict)
    (ends : EndsIn (Mode.noted.repeated (invoke .noted (g.setting t) fuel level) r count enough i) ending) :
    (g.course t level r).Loop enough i ending := by
  induction count generalizing enough i with
  | zero =>
      obtain ⟨hooks, ran⟩ := ends
      cases ran
  | succ count ih =>
      obtain ⟨first, front, onward⟩ := ends_in_cases _ _ ending ends
      have child : g.course t level r i first := ⟨fuel, front⟩
      rcases first with e | ⟨_ | _, j⟩
      · obtain rfl : ending = .error e := onward
        exact .error enough i e child
      · obtain ⟨more, same⟩ := onward
        cases same
        exact .fail enough i j child
      · simp only [Verdict.resume, if_true] at onward
        by_cases rests : j = i
        · subst rests
          rw [if_pos rfl] at onward
          obtain ⟨more, same⟩ := onward
          cases same
          exact .still enough j child
        · rw [if_neg rests] at onward
          exact .step enough i j ending child rests (ih true j onward)

theorem repeated_of_loop (enough : Bool) (i : Nat) (ending : Except RuleError Verdict)
    (loop : (g.course t level r).Loop enough i ending) :
    Gives (fun fuel => Mode.noted.repeated (invoke .noted (g.setting t) fuel level) r fuel enough i) ending := by
  -- Each turn is given the fuel of the longest one.
  have once (i fuel more : Nat) (bound : fuel ≤ more) (first : Except RuleError Verdict)
      (front : EndsIn (invoke .noted (g.setting t) fuel level r i) first) :
      EndsIn (invoke .noted (g.setting t) more level r i) first :=
    ends_in_longer _ (grows_invoke g t level r i) fuel more bound first front
  induction loop with
  | error enough i e child =>
      obtain ⟨fuel, front⟩ := child
      exact ⟨fuel + 1, ends_in_raised _ _ e (once i fuel _ (by omega) _ front)⟩
  | fail enough i j child =>
      obtain ⟨fuel, front⟩ := child
      exact ⟨fuel + 1, ends_in_then _ _ _ _ (once i fuel _ (by omega) _ front) ⟨[], rfl⟩⟩
  | still enough i child =>
      obtain ⟨fuel, front⟩ := child
      refine ⟨fuel + 1, ends_in_then _ _ _ _ (once i fuel _ (by omega) _ front) ?_⟩
      simp only [Verdict.resume, if_true]
      exact ⟨[], rfl⟩
  | step enough i j ending child moves _ ih =>
      obtain ⟨fuel, front⟩ := child
      obtain ⟨other, back⟩ := ih
      refine ⟨max fuel other + 1, ends_in_then _ _ _ _ (once i fuel _ (by omega) _ front) ?_⟩
      simp only [Verdict.resume, if_true, if_neg moves]
      obtain ⟨hooks, ran⟩ := back
      have longer := longer_simulation.repeated level _ _
        (longer_simulation.invoke (g.setting t) (closed_anywhere t) other (max fuel other + 1) (by omega) level) r other
        (max fuel other) (Nat.le_max_right fuel other) true j trivial
      exact ⟨hooks, longer _ ran⟩

theorem course_repeated (c : Rule) (enough : Bool) (i : Nat)
    (shape : ∀ fuel run view, body .noted (g.setting t) fuel run view r i =
      Mode.noted.repeated run c fuel enough i) (ending : Except RuleError Verdict) :
    g.course t level r i ending ↔ (g.course t (level + 1) c).Loop enough i ending := by
  rw [course_body g t level r i _ (fun fuel view => shape fuel _ view)]
  constructor
  · rintro ⟨fuel, ends⟩
    exact loop_of_repeated g t (level + 1) c fuel fuel enough i ending ends
  · exact repeated_of_loop g t (level + 1) c enough i ending

end Course

section Pair

variable (g : Grammar) (t : Input) (level : Nat) (r : Rule)

theorem in_order_pair (run : Attempt (Option Trail)) (first second : Rule) (i : Nat) :
    Mode.noted.inOrder run [first, second] i = Mode.noted.attempt run first i fun ok j =>
      if ok = true then Mode.noted.attempt run second j fun ok k => Mode.noted.conclude ⟨ok, k⟩
      else Mode.noted.conclude ⟨ok, j⟩ := by
  simp only [Mode.inOrder]
  congr 1
  funext ok j
  cases ok with
  | false => rfl
  | true =>
      simp only [if_true]
      congr 1
      funext ok k
      cases ok <;> rfl

theorem one_of_pair (run : Attempt (Option Trail)) (first second : Rule) (i : Nat) :
    Mode.noted.oneOf run [first, second] i = Mode.noted.attempt run first i fun ok j =>
      if ok = false then Mode.noted.attempt run second j fun ok k => Mode.noted.conclude ⟨ok, k⟩
      else Mode.noted.conclude ⟨ok, j⟩ := by
  simp only [Mode.oneOf]
  congr 1
  funext ok j
  cases ok with
  | true => rfl
  | false =>
      simp only [Bool.false_eq_true, if_false, if_true]
      congr 1
      funext ok k
      cases ok <;> rfl

theorem gives_last (r : Rule) (i : Nat) :
    Gives (fun fuel => Mode.noted.attempt (invoke .noted (g.setting t) fuel level) r i
        fun ok j => Mode.noted.conclude ⟨ok, j⟩) =
      (g.course t level r).attempt (fun ok j e => e = .ok ⟨ok, j⟩) i := by
  funext ending
  rw [gives_attempt (fun fuel => invoke .noted (g.setting t) fuel level) r i (fun _ ok j => Mode.noted.conclude ⟨ok, j⟩)
    (grows_invoke g t level r i) fun ok j => grows_fixed _]
  simp only [gives_conclude]
  rfl

theorem course_pair (first second : Rule) (i : Nat) (go : Bool)
    (shape : ∀ fuel (run : Attempt (Option Trail)) view, body .noted (g.setting t) fuel run view r i =
      Mode.noted.attempt run first i fun ok j =>
        if ok = go then Mode.noted.attempt run second j fun ok k => Mode.noted.conclude ⟨ok, k⟩
        else Mode.noted.conclude ⟨ok, j⟩) (ending : Except RuleError Verdict) :
    g.course t level r i ending ↔
      (g.course t (level + 1) first).attempt (fun ok =>
        if ok = go then (g.course t (level + 1) second).attempt fun ok k e => e = .ok ⟨ok, k⟩
        else fun j e => e = .ok ⟨ok, j⟩) i ending := by
  have rest (ok : Bool) (j : Nat) : Grows fun fuel =>
      if ok = go then Mode.noted.attempt (invoke .noted (g.setting t) fuel (level + 1)) second j fun ok k =>
        Mode.noted.conclude ⟨ok, k⟩
      else Mode.noted.conclude ⟨ok, j⟩ := by
    by_cases goes : ok = go
    · simp only [if_pos goes]
      intro less more bound
      exact longer_simulation.attempt level _ _
        (longer_simulation.invoke (g.setting t) (closed_anywhere t) less more bound (level + 1)) second j trivial _ _
        fun ok k _ trail same => same
    · simp only [if_neg goes]
      exact grows_fixed _
  rw [course_body g t level r i _ (fun fuel view => shape fuel _ view),
    gives_attempt (fun fuel => invoke .noted (g.setting t) fuel (level + 1)) first i _
      (grows_invoke g t (level + 1) first i) rest]
  apply iff_of_eq
  congr 1
  funext ok j
  by_cases goes : ok = go
  · simp only [if_pos goes, gives_last]
  · simp only [if_neg goes, gives_conclude]

end Pair

end MatchTrace
