import MatchTrace.Proofs.Trace.Classifier

/-!
What one more registration changes. A new class stands behind all others in order, so it can only answer for classes
that had no answer, beside itself. A class that is registered again keeps its place, so it answers for those it has
answered for.
-/

namespace MatchTrace

set_option autoImplicit false

namespace Registrations

section Register

variable (entries : Registrations) (c d : RuleClass) (k : Category)

theorem register_new (unknown : c ∉ entries.classes) : entries.register c k = entries ++ [(c, k)] := by
  induction entries with
  | nil => rfl
  | cons e entries ih =>
      rw [classes, List.map_cons, List.mem_cons, not_or] at unknown
      rw [register_cons, if_neg (Ne.symm unknown.1), ih unknown.2]
      rfl

def found (entries : Registrations) (c : RuleClass) : Option Category := (entries.lookup c).or (entries.inherited c)

theorem answer_found : entries.answer d = (entries.found d).elim (.error (.unresolved d.name)) .ok := by
  rw [answer, found]
  cases (entries.lookup d).or (entries.inherited d) <;> rfl

theorem answer_some (j : Category) : entries.answer d = .ok j ↔ entries.found d = some j := by
  rw [answer_found]
  cases entries.found d <;> simp

theorem answer_none : entries.answer d = .error (.unresolved d.name) ↔ entries.found d = none := by
  rw [answer_found]
  cases entries.found d <;> simp

theorem answer_same (others : Registrations) (same : others.found d = entries.found d) :
    others.answer d = entries.answer d := by
  rw [answer_found, answer_found, same]

theorem found_registered : (entries.register c k).found c = some k := by
  rw [found, lookup_register, if_pos rfl, Option.some_or]

theorem inherited_snoc :
    (entries ++ [(c, k)]).inherited d = (entries.inherited d).or (if d.isA c then some k else none) := by
  rw [inherited, inherited, List.find?_append, Option.map_or]
  by_cases above : d.isA c = true
  · simp [above]
  · simp [above]

-- A new class stands behind all others, so it is asked last.
theorem found_new (unknown : c ∉ entries.classes) :
    (d = c ∨ d.isA c = true ∧ entries.found d = none → (entries.register c k).found d = some k) ∧
    (¬ (d = c ∨ d.isA c = true ∧ entries.found d = none) → (entries.register c k).found d = entries.found d) := by
  by_cases same : d = c
  · rw [same, found_registered]
    exact ⟨fun _ => rfl, fun none => absurd (.inl rfl) none⟩
  · have last : (entries.register c k).found d = (entries.found d).or (if d.isA c then some k else none) := by
      rw [found, found, lookup_register, if_neg (Ne.symm same), register_new entries c k unknown, inherited_snoc,
        Option.or_assoc]
    rw [last]
    constructor
    · intro such
      obtain ⟨above, unresolved⟩ := such.resolve_left same
      rw [unresolved, if_pos above, Option.none_or]
    · intro none
      rw [not_or, not_and] at none
      by_cases above : d.isA c = true
      · obtain ⟨j, answered⟩ := Option.ne_none_iff_exists'.mp (none.2 above)
        rw [answered, Option.some_or]
      · rw [if_neg above, Option.or_none]

-- A known class keeps its place, so it answers for those that came to it before.
theorem found_again (known : c ∈ entries.classes) :
    (d = c ∨ entries.lookup d = none ∧ entries.classes.find? d.isA = some c →
      (entries.register c k).found d = some k) ∧
    (¬ (d = c ∨ entries.lookup d = none ∧ entries.classes.find? d.isA = some c) →
      (entries.register c k).found d = entries.found d) := by
  by_cases same : d = c
  · rw [same, found_registered]
    exact ⟨fun _ => rfl, fun none => absurd (.inl rfl) none⟩
  · rw [found, found, lookup_register, if_neg (Ne.symm same), inherited_eq, inherited_eq, classes_register, if_pos known]
    cases own : entries.lookup d with
    | some j => simp [same]
    | none =>
        cases first : entries.classes.find? d.isA with
        | none => simp [same]
        | some a =>
            by_cases here : c = a
            · simp [lookup_register, here]
            · simp [lookup_register, here, Ne.symm here, same]

end Register

end Registrations

namespace Classifier

def Overrides (x y : Classifier) (such : RuleClass → Prop) (k : Category) : Prop :=
  ∀ d, (such d → (y.classify d).1 = .ok k) ∧ (¬ such d → (y.classify d).1 = (x.classify d).1)

def askAll (x : Classifier) (asked : List RuleClass) : Classifier := asked.foldl (fun x c => (x.classify c).2) x

theorem ask_all_agrees (x : Classifier) (log : Registrations) (asked : RuleClass → Prop) (agrees : x.Agrees log asked)
    (classes : List RuleClass) : ∃ asked, (x.askAll classes).Agrees log asked := by
  induction classes generalizing x asked with
  | nil => exact ⟨asked, agrees⟩
  | cons c classes ih => exact ih _ _ (classify_agrees x log asked agrees c)

theorem used_agrees (steps : List Building) (uses : List Use) :
    (used steps uses).Agrees (inForce steps uses) (Act.Asked (Use.line uses).current) := by
  rw [used, (line_replays _ _ uses).1, Building.built_log]
  exact replay_agrees _ _

/-- Registering a class that is not registered changes no answer of another class that was an answer: beside the class
itself, only those that derive from it and had no category get the new one. Registering a class again changes the
answer for it, and for those unregistered classes that it answers for as the first of all above them. It stays so
whatever is asked afterwards. -/
theorem registering_touches_no_other_answer (steps : List Building) (uses : List Use) (c : RuleClass) (k : Category)
    (asked : List RuleClass) :
    let x := used steps uses
    let y := (x.register c k).askAll asked
    let log := inForce steps uses
    ((∀ j, (c, j) ∉ log) →
      (∀ d j, d ≠ c → (x.classify d).1 = .ok j → (y.classify d).1 = .ok j) ∧
      x.Overrides y (fun d => d = c ∨ d.Above c ∧ (x.classify d).1 = .error (.unresolved d.name)) k) ∧
    ((∃ j, (c, j) ∈ log) →
      x.Overrides y (fun d => d = c ∨ (∀ j, (d, j) ∉ log) ∧ Registrations.Earliest log d c) k) := by
  intro x y log
  have agrees := used_agrees steps uses
  obtain ⟨_, later⟩ := ask_all_agrees _ _ _ (register_agrees x log _ agrees c k) asked
  have before (d : RuleClass) : (x.classify d).1 = (Registrations.of log).answer d := by
    rw [classify_answer x log _ agrees d, agrees.entries]
  have after (d : RuleClass) : (y.classify d).1 = ((Registrations.of log).register c k).answer d := by
    rw [classify_answer y _ _ later d, later.entries, Registrations.of_snoc]
  constructor
  · intro fresh
    have unknown : c ∉ (Registrations.of log).classes := by
      rw [Registrations.mem_classes]
      exact not_exists.mpr fresh
    have overrides : x.Overrides y (fun d => d = c ∨ d.Above c ∧ (x.classify d).1 = .error (.unresolved d.name)) k := by
      intro d
      dsimp only
      rw [before, after, Registrations.answer_none, Registrations.answer_some, ← is_a_iff]
      exact (Registrations.found_new _ c d k unknown).imp_right fun same none => Registrations.answer_same _ d _ (same none)
    refine ⟨fun d j other answered => ?_, overrides⟩
    rw [← answered]
    apply (overrides d).2
    intro such
    obtain ⟨-, unresolved⟩ := such.resolve_left other
    rw [answered] at unresolved
    cases unresolved
  · intro again d
    have known : c ∈ (Registrations.of log).classes := (Registrations.mem_classes log c).mpr again
    dsimp only
    rw [before, after, Registrations.answer_some, Registrations.unknown_lookup, ← Registrations.find_earliest]
    exact (Registrations.found_again _ c d k known).imp_right fun same none => Registrations.answer_same _ d _ (same none)

end Classifier

namespace Demo

def keyword : RuleClass := .derived 100 "KeywordMatcher" .string

def stranger : RuleClass := .base 101 "StrangerMatcher"

end Demo

namespace Classifier

-- A keyword keeps the answer it was given when a stranger is registered, and loses it when the class that answered for
-- it is registered again.
theorem keyword_follows_sequence :
    let x := used [.builtIns] [.act (.classify Demo.keyword)]
    (∀ j, (Demo.stranger, j) ∉ inForce [.builtIns] [.act (.classify Demo.keyword)]) ∧
      (x.classify Demo.keyword).1 = .ok .composite ∧
      (((x.register Demo.stranger .action).askAll [Demo.stranger]).classify Demo.keyword).1 = .ok .composite ∧
      (((x.register .sequence .terminal).askAll [Demo.stranger]).classify Demo.keyword).1 = .ok .terminal := by
  intro x
  have fresh : ∀ j, (Demo.stranger, j) ∉ inForce [.builtIns] [.act (.classify Demo.keyword)] := by
    rw [← not_exists, ← Registrations.mem_classes]
    decide
  have answered : (x.classify Demo.keyword).1 = .ok .composite := by decide
  have unregistered : ∀ j, (Demo.keyword, j) ∉ inForce [.builtIns] [.act (.classify Demo.keyword)] := by
    rw [← not_exists, ← Registrations.mem_classes]
    decide
  have first : Registrations.Earliest (inForce [.builtIns] [.act (.classify Demo.keyword)]) Demo.keyword .sequence := by
    rw [← Registrations.find_earliest]
    decide
  have late := registering_touches_no_other_answer [.builtIns] [.act (.classify Demo.keyword)]
  refine ⟨fresh, answered, ?_, ?_⟩
  · exact ((late Demo.stranger .action [Demo.stranger]).1 fresh).1 Demo.keyword .composite (by decide) answered
  · have again := (late .sequence .terminal [Demo.stranger]).2 ⟨.composite, by decide⟩
    exact (again Demo.keyword).1 (.inr ⟨unregistered, first⟩)

end Classifier

end MatchTrace
