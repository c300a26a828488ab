import MatchTrace.Proofs.Trace.Registrations

/-!
A classifier against the registrations it was given, in the order they came. Its three tables agree whatever is done
to it, so it answers as a reference would that has no table but the registrations. Clones go their own ways: what
counts for one is the history of the line it comes from.
-/

namespace MatchTrace

set_option autoImplicit false

namespace Classifier

inductive Act where
  | classify (c : RuleClass)
  | register (c : RuleClass) (k : Category)

namespace Act

def perform (x : Classifier) : Act → Classifier
  | .classify c => (x.classify c).2
  | .register c k => x.register c k

def registered? : Act → Option (RuleClass × Category)
  | .classify _ => none
  | .register c k => some (c, k)

def Asked (history : List Act) (c : RuleClass) : Prop := Followed history (.classify c) fun a => a.registered? = none

theorem asked_nil : Asked [] = fun _ => False := by
  funext c
  simp [Asked, Followed]

theorem asked_classify (history : List Act) (c : RuleClass) :
    Asked (history ++ [.classify c]) = fun d => c = d ∨ Asked history d := by
  funext d
  rw [Asked, followed_snoc]
  simp [registered?, Asked]

theorem asked_register (history : List Act) (c : RuleClass) (k : Category) :
    Asked (history ++ [.register c k]) = fun _ => False := by
  funext d
  rw [Asked, followed_snoc]
  simp [registered?]

end Act

-- The three tables hold what the log of registrations says, and what was asked for since the last one.
structure Agrees (x : Classifier) (log : Registrations) (asked : RuleClass → Prop) : Prop where
  entries : x.entries = .of log
  exact : ∀ c, x.exact.lookup c = x.entries.lookup c
  cached : ∀ c k, (c, k) ∈ x.cache ↔ asked c ∧ x.entries.lookup c = none ∧ x.entries.inherited c = some k
  distinct : x.cache.classes.Nodup

section Agrees

variable (x : Classifier) (log : Registrations) (asked : RuleClass → Prop) (agrees : x.Agrees log asked) (c : RuleClass)

theorem build_agrees : (build (.of log)).Agrees log fun _ => False where
  entries := rfl
  exact _ := rfl
  cached c k := by simp [build]
  distinct := List.nodup_nil

include agrees

theorem register_agrees (k : Category) : (x.register c k).Agrees (log ++ [(c, k)]) fun _ => False where
  entries := by rw [Registrations.of_snoc, ← agrees.entries, register]
  exact d := by rw [register, Registrations.lookup_register, Registrations.lookup_cons, agrees.exact]
  cached d j := by simp [register]
  distinct := List.nodup_nil

theorem cached_lookup (k : Category) (found : x.cache.lookup c = some k) :
    (c, k) ∈ x.cache ∧ x.entries.lookup c = none ∧ x.entries.inherited c = some k := by
  obtain ⟨⟨d, k⟩, held, rfl⟩ := Option.map_eq_some_iff.mp found
  obtain rfl : d = c := by simpa using List.find?_some held
  have mem := List.mem_of_find?_eq_some held
  exact ⟨mem, ((agrees.cached d k).mp mem).2⟩

theorem classify_answer : (x.classify c).1 = x.entries.answer c := by
  rw [classify, agrees.exact, Registrations.answer]
  cases own : x.entries.lookup c with
  | some k => rfl
  | none =>
      cases cached : x.cache.lookup c with
      | some k =>
          rw [(x.cached_lookup log asked agrees c k cached).2.2]
          rfl
      | none =>
          cases x.entries.inherited c with
          | some k => rfl
          | none => rfl

-- A class that was asked for leaves no mark if it has a category of its own, or none, or is in the cache already.
theorem marked_agrees (marked : x.entries.lookup c = none → ∀ k, x.entries.inherited c = some k → (c, k) ∈ x.cache) :
    x.Agrees log fun d => c = d ∨ asked d := by
  refine { agrees with cached := fun d j => ⟨fun mem => ?_, ?_⟩ }
  · obtain ⟨before, rest⟩ := (agrees.cached d j).mp mem
    exact ⟨.inr before, rest⟩
  · rintro ⟨rfl | before, own, above⟩
    · exact marked own j above
    · exact (agrees.cached d j).mpr ⟨before, own, above⟩

theorem marking_agrees (k : Category) (own : x.entries.lookup c = none) (above : x.entries.inherited c = some k)
    (fresh : x.cache.lookup c = none) :
    Classifier.Agrees { x with cache := (c, k) :: x.cache } log fun d => c = d ∨ asked d := by
  refine { agrees with cached := fun d j => ?_, distinct := ?_ }
  · rw [List.mem_cons, agrees.cached d j, Prod.mk.injEq]
    constructor
    · rintro (⟨rfl, rfl⟩ | ⟨before, rest⟩)
      · exact ⟨.inl rfl, own, above⟩
      · exact ⟨.inr before, rest⟩
    · rintro ⟨rfl | before, rest⟩
      · exact .inl ⟨rfl, Option.some.inj (rest.2.symm.trans above)⟩
      · exact .inr ⟨before, rest⟩
  · exact List.nodup_cons.mpr ⟨(Registrations.lookup_none _ _).mp fresh, agrees.distinct⟩

theorem classify_agrees : (x.classify c).2.Agrees log fun d => c = d ∨ asked d := by
  simp only [classify, agrees.exact]
  cases own : x.entries.lookup c with
  | some k => exact marked_agrees x log asked agrees c fun none => by simp [own] at none
  | none =>
      cases cached : x.cache.lookup c with
      | some k =>
          obtain ⟨mem, -, known⟩ := x.cached_lookup log asked agrees c k cached
          refine marked_agrees x log asked agrees c fun _ j above => ?_
          obtain rfl := Option.some.inj (known.symm.trans above)
          exact mem
      | none =>
          cases above : x.entries.inherited c with
          | none => exact marked_agrees x log asked agrees c fun _ k other => by simp [above] at other
          | some k => exact marking_agrees x log asked agrees c k own above cached

theorem size_distinct : x.size = {d | ∃ k, (d, k) ∈ log}.ncard := by
  rw [size, agrees.entries]
  exact Registrations.length_ncard _ (Registrations.classes_nodup log) _ (Registrations.mem_classes log)

theorem cached_size_distinct :
    x.cachedSize = {d | (∀ k, (d, k) ∉ log) ∧ asked d ∧ ∃ k, Registrations.Answers log d (.ok k)}.ncard := by
  apply Registrations.length_ncard _ agrees.distinct
  intro d
  simp only [Registrations.classes, List.mem_map, Prod.exists, exists_and_right, exists_eq_right, agrees.cached,
    Set.mem_ofPred_eq, Registrations.unknown_lookup, Registrations.answers_iff, Registrations.answer, ← agrees.entries]
  constructor
  · rintro ⟨k, before, own, above⟩
    refine ⟨own, before, k, ?_⟩
    rw [own, above]
    rfl
  · rintro ⟨own, before, k, answer⟩
    rw [own, Option.none_or] at answer
    cases above : x.entries.inherited d with
    | none => simp [above] at answer
    | some j => exact ⟨j, before, own, rfl⟩

end Agrees

theorem classify_failed (x : Classifier) (c : RuleClass) : (x.classify c).2 = x ∨ ∃ k, (x.classify c).1 = .ok k := by
  simp only [classify]
  split
  · exact .inl rfl
  · split
    · exact .inr ⟨_, rfl⟩
    · exact .inl rfl

theorem replay_agrees (built : Registrations) (history : List Act) :
    (history.foldl Act.perform (build (.of built))).Agrees (built ++ history.filterMap Act.registered?)
      (Act.Asked history) := by
  induction history using List.reverseRecOn with
  | nil =>
      rw [Act.asked_nil, List.filterMap_nil, List.append_nil]
      exact build_agrees built
  | append_singleton history a ih =>
      rw [List.foldl_append, List.filterMap_append]
      cases a with
      | classify c =>
          rw [Act.asked_classify, List.filterMap_cons_none rfl, List.filterMap_nil, List.append_nil]
          exact classify_agrees _ _ _ ih c
      | register c k =>
          rw [Act.asked_register, ← List.append_assoc]
          exact register_agrees _ _ _ ih c k

-- A value in use, and copies of it that were set aside under numbers. The value that was begun with is under all of
-- them at first.
structure Clones (α : Type) where
  current : α
  aside : Nat → α

inductive Use where
  | act (a : Act)
  | keep (place : Nat)
  | restore (place : Nat)

namespace Clones

variable {α : Type} (step : α → Act → α)

def use (x : Clones α) : Use → Clones α
  | .act a => { x with current := step x.current a }
  | .keep place => { x with aside := fun p => if p = place then x.current else x.aside p }
  | .restore place => { x with current := x.aside place }

def run (start : α) (uses : List Use) : Clones α := uses.foldl (use step) ⟨start, fun _ => start⟩

theorem run_snoc (start : α) (uses : List Use) (u : Use) :
    run step start (uses ++ [u]) = (run step start uses).use step u := List.foldl_append

end Clones

def Use.line (uses : List Use) : Clones (List Act) := Clones.run (fun history a => history ++ [a]) [] uses

theorem line_replays {α : Type} (step : α → Act → α) (start : α) (uses : List Use) :
    (Clones.run step start uses).current = (Use.line uses).current.foldl step start ∧
      ∀ place, (Clones.run step start uses).aside place = ((Use.line uses).aside place).foldl step start := by
  induction uses using List.reverseRecOn with
  | nil => exact ⟨rfl, fun _ => rfl⟩
  | append_singleton uses u ih =>
      obtain ⟨current, aside⟩ := ih
      rw [Use.line, Clones.run_snoc, Clones.run_snoc, ← Use.line]
      cases u with
      | act a => exact ⟨by simp [Clones.use, current, List.foldl_append], aside⟩
      | keep place =>
          refine ⟨current, fun p => ?_⟩
          by_cases here : p = place
          · simpa [Clones.use, here] using current
          · simpa [Clones.use, here] using aside p
      | restore place => exact ⟨aside place, aside⟩

inductive Building where
  | builtIns
  | register (c : RuleClass) (k : Category)

namespace Building

def apply (entries : Registrations) : Building → Registrations
  | .builtIns => entries.withBuiltIns
  | .register c k => entries.register c k

def log : Building → Registrations
  | .builtIns => .builtIns
  | .register c k => [(c, k)]

theorem apply_log (entries : Registrations) (b : Building) :
    apply entries b = b.log.foldl (fun known e => known.register e.1 e.2) entries := by
  cases b with
  | builtIns => rw [apply, Registrations.withBuiltIns, log]
  | register c k => rfl

theorem built_log (steps : List Building) : steps.foldl apply [] = .of (steps.flatMap log) := by
  induction steps using List.reverseRecOn with
  | nil => rfl
  | append_singleton steps b ih =>
      rw [List.foldl_append, ih, List.flatMap_append, List.flatMap_singleton, Registrations.of_append, ← apply_log]
      rfl

end Building

def used (steps : List Building) (uses : List Use) : Classifier :=
  (Clones.run Act.perform (build (steps.foldl Building.apply [])) uses).current

def inForce (steps : List Building) (uses : List Use) : Registrations :=
  steps.flatMap Building.log ++ (Use.line uses).current.filterMap Act.registered?

/-- Whatever was registered with the builder, and whatever was classified, registered, set aside and restored since, a
classifier answers as the registrations in force say, and a call that fails changes nothing. Its size is the number of
registered classes. Its cache has those that are not registered and were classified with success since the last
registration on the line of clones. -/
theorem classify_follows_registrations (steps : List Building) (uses : List Use) (c : RuleClass) :
    (∀ answer, Registrations.Answers (inForce steps uses) c answer ↔ ((used steps uses).classify c).1 = answer) ∧
    (((used steps uses).classify c).2 = used steps uses ∨ ∃ k, ((used steps uses).classify c).1 = .ok k) ∧
    (used steps uses).size = {d | ∃ k, (d, k) ∈ inForce steps uses}.ncard ∧
    (used steps uses).cachedSize =
      {d | (∀ k, (d, k) ∉ inForce steps uses) ∧ Act.Asked (Use.line uses).current d ∧
        ∃ k, Registrations.Answers (inForce steps uses) d (.ok k)}.ncard := by
  have agrees : (used steps uses).Agrees (inForce steps uses) (Act.Asked (Use.line uses).current) := by
    rw [used, (line_replays _ _ uses).1, Building.built_log]
    exact replay_agrees _ _
  refine ⟨fun answer => ?_, classify_failed _ c, size_distinct _ _ _ agrees, cached_size_distinct _ _ _ agrees⟩
  rw [Registrations.answers_iff, classify_answer _ _ _ agrees c, agrees.entries]

-- Not the class right above, which is registered as well, but the one that was registered first.
example :
    (builtIn.classify (.derived 100 "KeywordMatcher" .string)).1 = .ok .composite ∧
      (builtIn.classify .string).1 = .ok .terminal := by decide

end Classifier

end MatchTrace
