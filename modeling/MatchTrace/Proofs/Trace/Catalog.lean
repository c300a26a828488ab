import Mathlib.Data.List.Induction
import Mathlib.Data.List.Nodup
import MatchTrace.Proofs.Trace.Classifier
import MatchTrace.Trace.Catalog

/-!
The catalog of a run, whatever it is asked and whatever is registered meanwhile. Nodes are numbered in the order in
which they were first resolved with success, and none of them ever loses its number or its descriptor.
-/

namespace MatchTrace

set_option autoImplicit false

theorem erase_dups_snoc (xs : List Nat) (n : Nat) :
    (xs ++ [n]).eraseDups = if n ∈ xs then xs.eraseDups else xs.eraseDups ++ [n] := by
  rw [List.eraseDups_append, List.removeAll]
  by_cases seen : n ∈ xs
  · rw [List.filter_cons_of_neg (by simpa using seen), if_pos seen]
    exact List.append_nil _
  · rw [List.filter_cons_of_pos (by simpa using seen), if_neg seen]
    rfl

theorem erase_dups_nodup (xs : List Nat) : xs.eraseDups.Nodup := by
  induction xs using List.reverseRecOn with
  | nil => exact List.nodup_nil
  | append_singleton xs n ih =>
      rw [erase_dups_snoc]
      by_cases seen : n ∈ xs
      · rwa [if_pos seen]
      · rw [if_neg seen]
        exact List.nodup_append.mpr ⟨ih, List.nodup_singleton n, fun m mem _ last same => by
          cases List.mem_singleton.mp last
          exact seen (List.mem_eraseDups.mp (same ▸ mem))⟩

theorem number_place {α : Type} (number : α → Nat) (xs : List α) (numbers : xs.map number = List.range xs.length)
    (a : α) (mem : a ∈ xs) : xs[number a]? = some a := by
  obtain ⟨i, inside, rfl⟩ := List.mem_iff_getElem.mp mem
  have same : (xs.map number)[i]? = some i := by rw [numbers, List.getElem?_range inside]
  rw [List.getElem?_map, List.getElem?_eq_getElem inside, Option.map_some, Option.some.injEq] at same
  rw [same, List.getElem?_eq_getElem inside]

namespace Catalog

def describe (x : Catalog) (r : Rule) (category : Category) : Descriptor :=
  ⟨x.size, r.ruleClass.name, category, r.label⟩

-- All that can come of resolving a rule: what is answered, and the catalog and the classifier that are left.
inductive Resolves (x : Catalog) (k : Classifier) (r : Rule) :
    Except TraceError Descriptor → Catalog → Classifier → Prop where
  | known (d : Descriptor) : x.get? r = some d → Resolves x k r (.ok d) x k
  | unresolved : x.get? r = none → k.classify r.ruleClass = (.error (.unresolved r.ruleClass.name), k) →
      Resolves x k r (.error (.unresolved r.ruleClass.name)) x k
  | full (category : Category) (k' : Classifier) : x.get? r = none → k.classify r.ruleClass = (.ok category, k') →
      maxId < x.size → Resolves x k r (.error (.tooManyMatchers x.size)) x k'
  | fresh (category : Category) (k' : Classifier) : x.get? r = none → k.classify r.ruleClass = (.ok category, k') →
      x.size ≤ maxId →
      Resolves x k r (.ok (x.describe r category)) ⟨x.rows ++ [(r.id, x.describe r category)]⟩ k'

theorem classify_refused (k k' : Classifier) (c : RuleClass) (e : TraceError)
    (refused : k.classify c = (.error e, k')) : e = .unresolved c.name ∧ k' = k := by
  rw [Classifier.classify] at refused
  split at refused
  · cases refused
  · split at refused
    · cases refused
    · cases refused
      exact ⟨rfl, rfl⟩

theorem resolves (x : Catalog) (k : Classifier) (r : Rule) (answer : Except TraceError Descriptor) (catalog : Catalog)
    (classifier : Classifier) (step : x.resolve k r = (answer, catalog, classifier)) :
    x.Resolves k r answer catalog classifier := by
  rw [resolve] at step
  cases held : x.get? r with
  | some d =>
      rw [held] at step
      cases step
      exact .known d held
  | none =>
      rw [held] at step
      rcases asked : k.classify r.ruleClass with ⟨e | category, k'⟩
      · obtain ⟨rfl, same⟩ := classify_refused k k' r.ruleClass e asked
        rw [asked, same] at step
        cases step
        exact .unresolved held (same ▸ asked)
      · simp only [asked, nextId] at step
        by_cases room : x.size ≤ maxId
        · simp only [if_pos room] at step
          cases step
          exact .fresh category _ held asked room
        · simp only [if_neg room] at step
          cases step
          exact .full category _ held asked (Nat.lt_of_not_le room)

theorem get_mem (x : Catalog) (r : Rule) (d : Descriptor) (held : x.get? r = some d) : d ∈ x.descriptors := by
  obtain ⟨row, found, rfl⟩ := Option.map_eq_some_iff.mp held
  exact List.mem_map.mpr ⟨row, List.mem_of_find?_eq_some found, rfl⟩

theorem get_row (x : Catalog) (distinct : (x.rows.map (·.1)).Nodup) (r : Rule) (d : Descriptor) :
    x.get? r = some d ↔ (r.id, d) ∈ x.rows := by
  constructor
  · intro held
    obtain ⟨⟨n, d⟩, found, rfl⟩ := Option.map_eq_some_iff.mp held
    obtain rfl : n = r.id := by simpa using List.find?_some found
    exact List.mem_of_find?_eq_some found
  · intro mem
    rcases found : x.rows.find? (·.1 == r.id) with _ | ⟨n, e⟩
    · simpa using List.find?_eq_none.mp found _ mem
    · obtain rfl : n = r.id := by simpa using List.find?_some found
      have same := List.inj_on_of_nodup_map distinct (List.mem_of_find?_eq_some found) mem rfl
      rw [get?, found, Option.map_some, (Prod.mk.inj same).2]

theorem get_none (x : Catalog) (r : Rule) : x.get? r = none ↔ r.id ∉ x.rows.map (·.1) := by
  simp only [get?, Option.map_eq_none_iff, List.find?_eq_none, beq_iff_eq, List.mem_map, not_exists, not_and]

structure Numbers (x : Catalog) (log : List (Rule × Descriptor)) : Prop where
  nodes : x.rows.map (·.1) = (log.map (·.1.id)).eraseDups
  ids : x.rows.map (·.2.id) = List.range x.rows.length
  answers : ∀ p ∈ log, (p.1.id, p.2) ∈ x.rows

section Numbers

variable (x : Catalog) (log : List (Rule × Descriptor)) (numbers : x.Numbers log)

theorem numbers_nil : Catalog.Numbers {} [] := ⟨rfl, rfl, fun _ mem => by cases mem⟩

include numbers

theorem numbers_distinct : (x.rows.map (·.1)).Nodup := numbers.nodes ▸ erase_dups_nodup _

theorem numbers_node (n : Nat) : n ∈ log.map (·.1.id) ↔ n ∈ x.rows.map (·.1) := by
  rw [numbers.nodes, List.mem_eraseDups]

theorem numbers_place (row : Nat × Descriptor) (mem : row ∈ x.rows) : x.rows[row.2.id]? = some row :=
  number_place (·.2.id) x.rows numbers.ids row mem

theorem numbers_asked (row : Nat × Descriptor) (mem : row ∈ x.rows) : ∃ p ∈ log, (p.1.id, p.2) = row := by
  obtain ⟨p, asked, same⟩ := List.mem_map.mp ((numbers_node x log numbers row.1).mpr (List.mem_map_of_mem mem))
  exact ⟨p, asked, List.inj_on_of_nodup_map (numbers_distinct x log numbers) (numbers.answers p asked) mem same⟩

theorem known_numbers (r : Rule) (d : Descriptor) (held : x.get? r = some d) : x.Numbers (log ++ [(r, d)]) := by
  have row := (get_row x (numbers_distinct x log numbers) r d).mp held
  refine ⟨?_, numbers.ids, List.forall_mem_append.mpr ⟨numbers.answers, List.forall_mem_singleton.mpr row⟩⟩
  rw [List.map_append, List.map_singleton, erase_dups_snoc,
    if_pos ((numbers_node x log numbers r.id).mpr (List.mem_map_of_mem row)), numbers.nodes]

theorem fresh_numbers (r : Rule) (category : Category) (unknown : x.get? r = none) :
    Catalog.Numbers ⟨x.rows ++ [(r.id, x.describe r category)]⟩ (log ++ [(r, x.describe r category)]) := by
  refine ⟨?_, ?_, List.forall_mem_append.mpr ⟨fun p asked => ?_, List.forall_mem_singleton.mpr ?_⟩⟩
  · have unasked := mt (numbers_node x log numbers r.id).mp ((get_none x r).mp unknown)
    rw [List.map_append, List.map_append, List.map_singleton, List.map_singleton, erase_dups_snoc, if_neg unasked,
      numbers.nodes]
  · rw [List.map_append, numbers.ids, List.length_append, List.length_singleton, List.range_succ]
    rfl
  · exact List.mem_append_left _ (numbers.answers p asked)
  · exact List.mem_append_right _ List.mem_cons_self

end Numbers

inductive Act where
  | resolve (r : Rule)
  | get (r : Rule)
  | classifier (a : Classifier.Act)

-- A catalog in use. The log has what was resolved with success, each rule with the answer to it.
structure Session where
  classifier : Classifier
  catalog : Catalog := {}
  log : List (Rule × Descriptor) := []

namespace Session

def perform (s : Session) : Act → Session
  | .resolve r =>
    match s.catalog.resolve s.classifier r with
    | (.ok d, catalog, classifier) => ⟨classifier, catalog, s.log ++ [(r, d)]⟩
    | (.error _, catalog, classifier) => ⟨classifier, catalog, s.log⟩
  | .get _ => s
  | .classifier a => { s with classifier := a.perform s.classifier }

def after (classifier : Classifier) (history : List Act) : Session := history.foldl perform { classifier }

theorem after_append (classifier : Classifier) (history more : List Act) :
    after classifier (history ++ more) = more.foldl perform (after classifier history) := List.foldl_append

theorem perform_numbers (s : Session) (a : Act) (numbers : s.catalog.Numbers s.log) :
    (s.perform a).catalog.Numbers (s.perform a).log := by
  cases a with
  | resolve r =>
      rcases step : s.catalog.resolve s.classifier r with ⟨answer, catalog, classifier⟩
      simp only [perform, step]
      cases resolves _ _ _ _ _ _ step with
      | known d held => exact known_numbers _ _ numbers r d held
      | unresolved _ _ => exact numbers
      | full _ _ _ _ _ => exact numbers
      | fresh category _ unknown _ _ => exact fresh_numbers _ _ numbers r category unknown
  | get r => exact numbers
  | classifier a => exact numbers

theorem after_numbers (classifier : Classifier) (history : List Act) :
    (after classifier history).catalog.Numbers (after classifier history).log := by
  induction history using List.reverseRecOn with
  | nil => exact numbers_nil
  | append_singleton history a ih =>
      rw [after_append]
      exact perform_numbers _ a ih

theorem perform_rows (s : Session) (a : Act) : s.catalog.rows <+: (s.perform a).catalog.rows := by
  cases a with
  | resolve r =>
      rcases step : s.catalog.resolve s.classifier r with ⟨answer, catalog, classifier⟩
      simp only [perform, step]
      cases resolves _ _ _ _ _ _ step with
      | known _ _ => exact List.prefix_rfl
      | unresolved _ _ => exact List.prefix_rfl
      | full _ _ _ _ _ => exact List.prefix_rfl
      | fresh _ _ _ _ _ => exact List.prefix_append _ _
  | get r => exact List.prefix_rfl
  | classifier a => exact List.prefix_rfl

theorem rows_stay (s : Session) (more : List Act) : s.catalog.rows <+: (more.foldl perform s).catalog.rows := by
  induction more generalizing s with
  | nil => exact List.prefix_rfl
  | cons a more ih => exact (perform_rows s a).trans (ih (s.perform a))

end Session

/-- Whatever a catalog was asked, and whatever was registered meanwhile: row `i` has the number `i` and belongs to the
node that was the `i`-th to be resolved with success, every such answer was the row of its node, and no row is ever
changed. So nodes and numbers determine each other, and just the nodes that were resolved can be looked up. A known
node is resolved to its row without a trace. Any other gets the next number, unless its class has no category or the
numbers are used up; if it is refused for its class, there is no trace of that either. -/
theorem nodes_keep_their_numbers (classifier : Classifier) (history : List Act) :
    let s := Session.after classifier history
    s.catalog.rows.map (·.1) = (s.log.map (·.1.id)).eraseDups ∧
    s.catalog.descriptors.map (·.id) = List.range s.catalog.size ∧
    (∀ p ∈ s.log, s.catalog.rows[p.2.id]? = some (p.1.id, p.2)) ∧
    (∀ more, s.catalog.rows <+: (Session.after classifier (history ++ more)).catalog.rows) ∧
    (∀ p ∈ s.log, ∀ q ∈ s.log, (p.1.id = q.1.id ↔ p.2 = q.2) ∧ (p.1.id = q.1.id ↔ p.2.id = q.2.id)) ∧
    (∀ r d, s.catalog.get? r = some d ↔ ∃ p ∈ s.log, p.1.id = r.id ∧ p.2 = d) ∧
    (∀ r d, s.catalog.get? r = some d →
      s.catalog.resolve s.classifier r = (.ok d, s.catalog, s.classifier)) ∧
    (∀ r d catalog k, s.catalog.get? r = none → s.catalog.resolve s.classifier r = (.ok d, catalog, k) →
      (s.classifier.classify r.ruleClass).1 = .ok d.category ∧ d.className = r.ruleClass.name ∧ d.label = r.label ∧
        d.id = s.catalog.size ∧ catalog.rows = s.catalog.rows ++ [(r.id, d)]) ∧
    (∀ r category, (s.classifier.classify r.ruleClass).1 = .ok category → s.catalog.size ≤ maxId →
      ∃ d, (s.catalog.resolve s.classifier r).1 = .ok d) ∧
    ∀ r name catalog k, s.catalog.resolve s.classifier r = (.error (.unresolved name), catalog, k) →
      s.catalog.get? r = none ∧ catalog = s.catalog ∧ k = s.classifier ∧ name = r.ruleClass.name := by
  intro s
  have numbers : s.catalog.Numbers s.log := Session.after_numbers classifier history
  have place (p : Rule × Descriptor) (asked : p ∈ s.log) : s.catalog.rows[p.2.id]? = some (p.1.id, p.2) :=
    numbers_place _ _ numbers _ (numbers.answers p asked)
  refine ⟨numbers.nodes, ?_, place, ?_, ?_, ?_, ?_, ?_, ?_, ?_⟩
  · rw [descriptors, List.map_map]
    exact numbers.ids
  · intro more
    rw [Session.after_append]
    exact Session.rows_stay s more
  · intro p asked q asked'
    have node : p.2.id = q.2.id → p.1.id = q.1.id := fun same =>
      (Prod.mk.inj (Option.some.inj ((place p asked).symm.trans (same ▸ place q asked')))).1
    have answer : p.1.id = q.1.id → p.2 = q.2 := fun same =>
      (Prod.mk.inj (List.inj_on_of_nodup_map (numbers_distinct _ _ numbers) (numbers.answers p asked)
        (numbers.answers q asked') same)).2
    exact ⟨⟨answer, fun same => node (congrArg Descriptor.id same)⟩,
      ⟨fun same => congrArg Descriptor.id (answer same), node⟩⟩
  · intro r d
    rw [get_row _ (numbers_distinct _ _ numbers)]
    constructor
    · intro mem
      obtain ⟨p, asked, same⟩ := numbers_asked _ _ numbers _ mem
      exact ⟨p, asked, Prod.mk.inj same⟩
    · rintro ⟨p, asked, node, rfl⟩
      exact node ▸ numbers.answers p asked
  · intro r d held
    rw [resolve, held]
  · intro r d catalog k unknown step
    cases resolves _ _ _ _ _ _ step with
    | known _ held => cases unknown.symm.trans held
    | fresh category _ _ asked _ => exact ⟨congrArg Prod.fst asked, rfl, rfl, rfl, rfl⟩
  · intro r category classified room
    rcases step : s.catalog.resolve s.classifier r with ⟨answer, catalog, k⟩
    cases resolves _ _ _ _ _ _ step with
    | known d _ => exact ⟨d, rfl⟩
    | unresolved _ asked => cases classified.symm.trans (congrArg Prod.fst asked)
    | full _ _ _ _ full => exact absurd room (Nat.not_le_of_lt full)
    | fresh category _ _ _ _ => exact ⟨_, rfl⟩
  · intro r name catalog k step
    cases resolves _ _ _ _ _ _ step with
    | unresolved unknown _ => exact ⟨unknown, rfl, rfl, rfl⟩

end Catalog

end MatchTrace
