import Mathlib.Data.List.Induction
import Mathlib.Data.Set.Card
import Mathlib.Logic.Relation
import MatchTrace.Trace.Classifier

/-!
Registrations against the order they were made in. A class that is registered again keeps its place, so what an
ordered table of them answers can be told from the log alone: by the last mention of a class, and by the first
mention of any class above it.
-/

namespace MatchTrace

set_option autoImplicit false

def RuleClass.Above : RuleClass → RuleClass → Prop := Relation.ReflTransGen fun c d => c.parent? = some d

theorem is_a_iff (c d : RuleClass) : c.isA d = true ↔ c.Above d := by
  induction c with
  | base id name =>
      rw [RuleClass.Above, Relation.ReflTransGen.cases_head_iff]
      simp [RuleClass.isA, RuleClass.lineage, RuleClass.parent?, eq_comm]
  | derived id name parent ih =>
      rw [RuleClass.Above, Relation.ReflTransGen.cases_head_iff]
      simp only [RuleClass.isA, RuleClass.lineage, List.mem_cons, decide_eq_true_eq] at ih ⊢
      rw [ih, eq_comm]
      simp [RuleClass.parent?, RuleClass.Above]

-- The element stands in the list, and all that stand behind it are such.
def Followed {α : Type} (xs : List α) (b : α) (such : α → Prop) : Prop :=
  ∃ before after, xs = before ++ b :: after ∧ ∀ e ∈ after, such e

theorem followed_snoc {α : Type} (xs : List α) (a b : α) (such : α → Prop) :
    Followed (xs ++ [a]) b such ↔ a = b ∨ such a ∧ Followed xs b such := by
  constructor
  · rintro ⟨before, after, split, behind⟩
    rcases List.eq_nil_or_concat after with rfl | ⟨front, last, rfl⟩
    · obtain ⟨-, same⟩ := List.append_inj' split rfl
      exact .inl (List.cons.inj same).1
    · have shorter : xs ++ [a] = (before ++ b :: front) ++ [last] := by simp [split]
      obtain ⟨split', same⟩ := List.append_inj' shorter rfl
      obtain rfl := (List.cons.inj same).1
      exact .inr ⟨behind a (by simp), before, front, split', fun e mem => behind e (by simp [mem])⟩
  · rintro (rfl | ⟨last, before, after, rfl, behind⟩)
    · exact ⟨xs, [], rfl, fun e mem => by cases mem⟩
    · refine ⟨before, after ++ [a], by simp, fun e mem => ?_⟩
      rcases List.mem_append.mp mem with mem | mem
      · exact behind e mem
      · rwa [List.mem_singleton.mp mem]

namespace Registrations

section Entries

variable (entries : Registrations) (c d : RuleClass) (k j : Category)

def classes : List RuleClass := entries.map (·.1)

theorem lookup_cons : lookup ((d, j) :: entries) c = if d = c then some j else entries.lookup c := by
  by_cases here : d = c <;> simp [lookup, here]

theorem register_cons :
    register c k ((d, j) :: entries) = if d = c then (d, k) :: entries else (d, j) :: entries.register c k := rfl

theorem inherited_cons :
    inherited ((d, j) :: entries) c = if c.isA d = true then some j else entries.inherited c := by
  by_cases above : c.isA d = true <;> simp [inherited, above]

theorem lookup_register : (entries.register c k).lookup d = if c = d then some k else entries.lookup d := by
  induction entries with
  | nil => rw [register, lookup_cons]
  | cons e entries ih =>
      obtain ⟨b, j⟩ := e
      rw [register_cons, lookup_cons]
      by_cases here : b = c
      · rw [if_pos here, lookup_cons, here]
        by_cases same : c = d
        · simp only [if_pos same]
        · simp only [if_neg same]
      · rw [if_neg here, lookup_cons, ih]
        by_cases same : c = d
        · have other : ¬ b = d := fun other => here (other.trans same.symm)
          simp only [if_pos same, if_neg other]
        · simp only [if_neg same]

theorem classes_register :
    (entries.register c k).classes = if c ∈ entries.classes then entries.classes else entries.classes ++ [c] := by
  induction entries with
  | nil => rfl
  | cons e entries ih =>
      obtain ⟨b, j⟩ := e
      rw [register_cons]
      by_cases here : b = c
      · simp [classes, here]
      · have other : c ∈ classes ((b, j) :: entries) ↔ c ∈ classes entries := by
          simp [classes, Ne.symm here]
        simp only [if_neg here, other]
        change b :: classes (register c k entries) = _
        rw [ih]
        by_cases known : c ∈ classes entries
        · simp only [if_pos known]
          rfl
        · simp only [if_neg known]
          rfl

theorem lookup_none : entries.lookup c = none ↔ c ∉ entries.classes := by
  simp only [lookup, Option.map_eq_none_iff, List.find?_eq_none, beq_iff_eq, classes, List.mem_map, not_exists, not_and]

theorem inherited_eq : entries.inherited c = (entries.classes.find? c.isA).bind entries.lookup := by
  induction entries with
  | nil => rfl
  | cons e entries ih =>
      obtain ⟨b, j⟩ := e
      rw [inherited_cons, classes, List.map_cons, List.find?_cons]
      cases above : c.isA b with
      | true => simp [lookup_cons]
      | false =>
          simp only [Bool.false_eq_true, if_false, ih]
          apply Option.bind_congr
          intro a found
          have other : ¬ b = a := by
            rintro rfl
            exact absurd (List.find?_some found) (by simp [above])
          rw [lookup_cons, if_neg other]

end Entries

-- The registrations that come of a log: one for each class in it, in the order of their first mention.
def of (log : Registrations) : Registrations := log.foldl (fun known e => known.register e.1 e.2) []

section Log

variable (log : Registrations) (c d : RuleClass) (k j : Category)

theorem of_append (more : Registrations) :
    of (log ++ more) = more.foldl (fun known e => known.register e.1 e.2) (of log) := List.foldl_append

theorem of_snoc : of (log ++ [(d, j)]) = (of log).register d j := of_append log [(d, j)]

theorem classes_nodup : (of log).classes.Nodup := by
  induction log using List.reverseRecOn with
  | nil => exact List.nodup_nil
  | append_singleton log e ih =>
      rw [of_snoc, classes_register]
      by_cases known : e.1 ∈ (of log).classes
      · rwa [if_pos known]
      · rw [if_neg known]
        exact List.nodup_append.mpr ⟨ih, List.nodup_singleton _, by
          intro a mem b last same
          rw [List.mem_singleton.mp last] at same
          exact known (same ▸ mem)⟩

-- The first class of a kind is the same with and without repetitions.
theorem classes_find (p : RuleClass → Bool) : (of log).classes.find? p = (log.map (·.1)).find? p := by
  induction log using List.reverseRecOn with
  | nil => rfl
  | append_singleton log e ih =>
      rw [of_snoc, classes_register, List.map_append, List.find?_append, ← ih]
      by_cases known : e.1 ∈ (of log).classes
      · rw [if_pos known]
        cases found : (of log).classes.find? p with
        | some a => rfl
        | none => simp [List.find?_eq_none.mp found e.1 known]
      · rw [if_neg known, List.find?_append]
        rfl

theorem mem_classes : c ∈ (of log).classes ↔ ∃ k, (c, k) ∈ log := by
  have found := classes_find log (· == c)
  have apart : ∀ xs : List RuleClass, c ∈ xs ↔ xs.find? (· == c) ≠ none := by simp
  rw [apart, found, ← apart]
  simp

def LastOf : Prop := Followed log (c, k) fun e => e.1 ≠ c

theorem lookup_of : (of log).lookup c = some k ↔ LastOf log c k := by
  induction log using List.reverseRecOn with
  | nil => simp [of, lookup, LastOf, Followed]
  | append_singleton log e ih =>
      obtain ⟨d, j⟩ := e
      rw [of_snoc, lookup_register, LastOf, followed_snoc, ← LastOf, ← ih]
      by_cases same : d = c
      · simp [same]
      · simp [same]

def Earliest (a : RuleClass) : Prop :=
  ∃ before k after, log = before ++ (a, k) :: after ∧ c.Above a ∧ ∀ e ∈ before, ¬ c.Above e.1

theorem find_earliest (a : RuleClass) : (of log).classes.find? c.isA = some a ↔ Earliest log c a := by
  rw [classes_find, List.find?_map, Option.map_eq_some_iff]
  constructor
  · rintro ⟨⟨a, k⟩, found, rfl⟩
    obtain ⟨above, before, after, split, others⟩ := List.find?_eq_some_iff_append.mp found
    refine ⟨before, k, after, split, (is_a_iff c a).mp above, fun e mem above => ?_⟩
    have other := others e mem
    simp [(is_a_iff c e.1).mpr above] at other
  · rintro ⟨before, k, after, split, above, others⟩
    refine ⟨(a, k), List.find?_eq_some_iff_append.mpr ⟨(is_a_iff c a).mpr above, before, after, split, ?_⟩, rfl⟩
    intro e mem
    have other := others e mem
    rw [← is_a_iff] at other
    simpa using other

-- What a reference without tables says of a class.
inductive Answers : Except TraceError Category → Prop where
  | own (k : Category) : LastOf log c k → Answers (.ok k)
  | inherited (a : RuleClass) (k : Category) :
      (∀ k, (c, k) ∉ log) → Earliest log c a → LastOf log a k → Answers (.ok k)
  | unresolved : (∀ e ∈ log, ¬ c.Above e.1) → Answers (.error (.unresolved c.name))

def answer (entries : Registrations) (c : RuleClass) : Except TraceError Category :=
  match (entries.lookup c).or (entries.inherited c) with
  | some k => .ok k
  | none => .error (.unresolved c.name)

theorem unknown_lookup : (∀ k, (c, k) ∉ log) ↔ (of log).lookup c = none := by
  rw [lookup_none, mem_classes, not_exists]

theorem inherited_of (k : Category) :
    (of log).inherited c = some k ↔ ∃ a, Earliest log c a ∧ LastOf log a k := by
  rw [inherited_eq, Option.bind_eq_some_iff]
  simp only [find_earliest, lookup_of]

theorem inherited_none : (of log).inherited c = none ↔ ∀ e ∈ log, ¬ c.Above e.1 := by
  have apart : (of log).inherited c = none ↔ ∀ a ∈ (of log).classes, ¬ c.Above a := by
    simp only [inherited, Option.map_eq_none_iff, List.find?_eq_none, is_a_iff, classes, List.forall_mem_map]
  rw [apart]
  constructor
  · intro none e mem
    exact none e.1 ((mem_classes log e.1).mpr ⟨e.2, mem⟩)
  · intro none a mem
    obtain ⟨k, mem⟩ := (mem_classes log a).mp mem
    exact none (a, k) mem

theorem answers_iff (a : Except TraceError Category) : Answers log c a ↔ (of log).answer c = a := by
  constructor
  · intro answers
    cases answers with
    | own k last => rw [answer, (lookup_of log c k).mpr last, Option.some_or]
    | inherited b k unknown earliest last =>
        rw [answer, (unknown_lookup log c).mp unknown, (inherited_of log c k).mpr ⟨b, earliest, last⟩, Option.none_or]
    | unresolved none =>
        have unknown : ∀ k, (c, k) ∉ log := fun k mem => none (c, k) mem .refl
        rw [answer, (unknown_lookup log c).mp unknown, (inherited_none log c).mpr none, Option.none_or]
  · rintro rfl
    rw [answer]
    cases own : (of log).lookup c with
    | some k => exact .own k ((lookup_of log c k).mp own)
    | none =>
        cases above : (of log).inherited c with
        | some k =>
            obtain ⟨b, earliest, last⟩ := (inherited_of log c k).mp above
            exact .inherited b k ((unknown_lookup log c).mpr own) earliest last
        | none => exact .unresolved ((inherited_none log c).mp above)

end Log

theorem length_ncard (entries : Registrations) (distinct : entries.classes.Nodup) (known : Set RuleClass)
    (members : ∀ c, c ∈ entries.classes ↔ c ∈ known) : entries.length = known.ncard := by
  have same : known = (entries.classes.toFinset : Set RuleClass) := by
    ext c
    simp [members]
  rw [same, Set.ncard_coe_finset, List.toFinset_card_of_nodup distinct, classes, List.length_map]

end Registrations

end MatchTrace
