import Mathlib.Data.List.Nodup
import MatchTrace.Rule.Grammar

/-!
What a grammar keeps alive. The root and the names that were not given up hold their rules, and a rule holds its
children; a proxy holds nothing. The numbers gathered from the roots are those of the rules that are held, so a proxy
stands for the first rule bound to it as long as that is held.
-/

namespace MatchTrace

set_option autoImplicit false

namespace Grammar

inductive Holds (g : Grammar) : Rule → Prop where
  | root : Holds g g.root
  | named (name : String) (r : Rule) : (name, r) ∈ g.rules → name ∉ g.dropped → Holds g r
  | child (r c : Rule) : Holds g r → c ∈ r.children → Holds g c

-- The rules that a grammar was made from, whether they are held or not.
inductive Contains (g : Grammar) : Rule → Prop where
  | root : Contains g g.root
  | named (name : String) (r : Rule) : (name, r) ∈ g.rules → Contains g r
  | bound (b : Binding) : b ∈ g.bindings → Contains g b.target
  | child (r c : Rule) : Contains g r → c ∈ r.children → Contains g c

def Numbered (g : Grammar) : Prop := ∀ r q, g.Contains r → g.Contains q → r.id = q.id → r = q

structure Gathered (g : Grammar) (seen : List Nat) : Prop where
  held : ∀ n ∈ seen, ∃ r, g.Holds r ∧ r.id = n
  down : ∀ r, g.Holds r → r.id ∈ seen → ∀ c ∈ r.children, c.id ∈ seen

end Grammar

theorem contains_held (g : Grammar) (r : Rule) (held : g.Holds r) : g.Contains r := by
  induction held with
  | root => exact .root
  | named name r mem _ => exact .named name r mem
  | child r c _ mem ih => exact .child r c ih mem

theorem gather_eq (seen : List Nat) (r : Rule) :
    r.gather seen = if r.id ∈ seen then seen else r.id :: Rule.gatherAll seen r.children := by
  by_cases known : r.id ∈ seen
  · rw [if_pos known]
    cases r <;> simp_all [Rule.gather, Rule.id]
  · rw [if_neg known]
    cases r <;> simp_all [Rule.gather, Rule.gatherAll, Rule.id, Rule.children]

theorem child_smaller (r c : Rule) (mem : c ∈ r.children) : sizeOf c < sizeOf r := by
  cases r <;> simp only [Rule.children, List.mem_singleton, List.not_mem_nil] at mem
  case sequence id rs | firstOf id rs | custom id ruleClass label rs script =>
    have := List.sizeOf_lt_of_mem mem
    simp only [Rule.sequence.sizeOf_spec, Rule.firstOf.sizeOf_spec, Rule.custom.sizeOf_spec]
    omega
  all_goals
    subst mem
    simp only [Rule.optional.sizeOf_spec, Rule.zeroOrMore.sizeOf_spec, Rule.oneOrMore.sizeOf_spec, Rule.test.sizeOf_spec,
      Rule.testNot.sizeOf_spec, Rule.labelled.sizeOf_spec]
    omega

section Gather

variable (g : Grammar) (numbered : g.Numbered)

theorem gathered_all (rs : List Rule)
    (each : ∀ r ∈ rs, ∀ seen, g.Gathered seen → g.Gathered (r.gather seen) ∧ seen ⊆ r.gather seen ∧ r.id ∈ r.gather seen)
    (seen : List Nat) (gathered : g.Gathered seen) :
    g.Gathered (Rule.gatherAll seen rs) ∧ seen ⊆ Rule.gatherAll seen rs ∧ ∀ r ∈ rs, r.id ∈ Rule.gatherAll seen rs := by
  induction rs generalizing seen with
  | nil => exact ⟨gathered, List.Subset.refl seen, fun r mem => nomatch mem⟩
  | cons r rs ih =>
      obtain ⟨first, more, own⟩ := each r List.mem_cons_self seen gathered
      obtain ⟨rest, further, others⟩ := ih (fun r mem => each r (List.mem_cons_of_mem _ mem)) _ first
      refine ⟨rest, List.Subset.trans more further, ?_⟩
      intro q mem
      rcases List.mem_cons.mp mem with rfl | mem
      · exact further own
      · exact others q mem

include numbered in
theorem gathered_rule (r : Rule) (held : g.Holds r) (seen : List Nat) (gathered : g.Gathered seen) :
    g.Gathered (r.gather seen) ∧ seen ⊆ r.gather seen ∧ r.id ∈ r.gather seen := by
  rw [gather_eq]
  by_cases known : r.id ∈ seen
  · rw [if_pos known]
    exact ⟨gathered, List.Subset.refl seen, known⟩
  · obtain ⟨below, more, children⟩ := gathered_all g r.children
      (fun c mem => gathered_rule c (.child r c held mem)) seen gathered
    rw [if_neg known]
    refine ⟨⟨?_, ?_⟩, fun n mem => List.mem_cons_of_mem _ (more mem), List.mem_cons_self⟩
    · intro n mem
      rcases List.mem_cons.mp mem with rfl | mem
      · exact ⟨r, held, rfl⟩
      · exact below.held n mem
    · intro q heldq mem c child
      rcases List.mem_cons.mp mem with same | mem
      · obtain rfl : q = r := numbered q r (contains_held g q heldq) (contains_held g r held) same
        exact List.mem_cons_of_mem _ (children c child)
      · exact List.mem_cons_of_mem _ (below.down q heldq mem c child)
termination_by sizeOf r
decreasing_by exact child_smaller r c mem

include numbered in
theorem living_gathered :
    g.Gathered g.living ∧ ∀ r ∈ g.held, r.id ∈ g.living := by
  have each (r : Rule) (mem : r ∈ g.held) : g.Holds r := by
    rcases List.mem_cons.mp mem with rfl | mem
    · exact .root
    · obtain ⟨⟨name, _⟩, kept, rfl⟩ := List.mem_map.mp mem
      obtain ⟨mem, notDropped⟩ := List.mem_filter.mp kept
      exact .named name _ mem (by simpa using notDropped)
  have none : g.Gathered [] := ⟨fun n mem => (nomatch mem), fun r _ mem => (nomatch mem)⟩
  obtain ⟨gathered, -, known⟩ :=
    gathered_all g g.held (fun r mem => gathered_rule g numbered r (each r mem)) [] none
  exact ⟨gathered, known⟩

include numbered in
theorem alive_iff_held (r : Rule) (contained : g.Contains r) : g.isAlive r = true ↔ g.Holds r := by
  obtain ⟨gathered, known⟩ := living_gathered g numbered
  rw [Grammar.isAlive, List.contains_iff_mem]
  constructor
  · intro alive
    obtain ⟨q, held, same⟩ := gathered.held r.id alive
    exact numbered q r (contains_held g q held) contained same ▸ held
  · intro held
    clear contained
    induction held with
    | root => exact known _ List.mem_cons_self
    | named name r mem kept =>
        apply known
        exact List.mem_cons_of_mem _ (List.mem_map.mpr ⟨(name, r), List.mem_filter.mpr ⟨mem, by simpa using kept⟩, rfl⟩)
    | child r c held mem ih => exact gathered.down r held ih c mem

end Gather

def Binding.First (bindings : List Binding) (proxy : Nat) (target : Rule) : Prop :=
  ∃ before after, bindings = before ++ ⟨proxy, target⟩ :: after ∧ ∀ b ∈ before, b.proxy ≠ proxy

theorem first_iff (bindings : List Binding) (proxy : Nat) (target : Rule) :
    Binding.First bindings proxy target ↔ Binding.target? bindings proxy = some target := by
  simp only [Binding.target?, Option.map_eq_some_iff, List.find?_eq_some_iff_append]
  constructor
  · rintro ⟨before, after, rfl, others⟩
    exact ⟨⟨proxy, target⟩, ⟨by simp, before, after, rfl, fun b mem => by simpa using others b mem⟩, rfl⟩
  · rintro ⟨⟨_, _⟩, ⟨same, before, after, rfl, others⟩, rfl⟩
    obtain rfl := beq_iff_eq.mp same
    exact ⟨before, after, rfl, fun b mem => by simpa using others b mem⟩

theorem target_iff (g : Grammar) (numbered : g.Numbered) (proxy : Nat) (r : Rule) :
    g.target? proxy = some r ↔ Binding.First g.bindings proxy r ∧ g.Holds r := by
  rw [Grammar.target?, Option.filter_eq_some_iff, first_iff]
  apply and_congr_right
  intro bound
  obtain ⟨b, first, rfl⟩ := Option.map_eq_some_iff.mp bound
  exact alive_iff_held g numbered b.target (.bound b (List.mem_of_find?_eq_some first))

theorem target_none (g : Grammar) (numbered : g.Numbered) (proxy : Nat) :
    g.target? proxy = none ↔ ∀ r, Binding.First g.bindings proxy r → ¬ g.Holds r := by
  rw [Option.eq_none_iff_forall_ne_some]
  simp only [ne_eq, target_iff g numbered, not_and]

section Later

variable (before after : List Binding) (b : Binding)

theorem later_refused (bound : List Nat) (again : b.proxy ∈ bound ∨ ∃ a ∈ before, a.proxy = b.proxy) :
    (Binding.answers bound (before ++ b :: after))[before.length]? = some false := by
  induction before generalizing bound with
  | nil =>
      have known : b.proxy ∈ bound := by simpa using again
      simp [Binding.answers, known]
  | cons a before ih =>
      apply ih
      rcases again with known | ⟨other, mem, same⟩
      · exact .inl (List.mem_cons_of_mem _ known)
      · rcases List.mem_cons.mp mem with rfl | mem
        · exact .inl (List.mem_cons.mpr (.inl same.symm))
        · exact .inr ⟨other, mem, same⟩

theorem later_ignored (again : ∃ a ∈ before, a.proxy = b.proxy) (proxy : Nat) :
    Binding.target? (before ++ b :: after) proxy = Binding.target? (before ++ after) proxy := by
  simp only [Binding.target?, List.find?_append, List.find?_cons]
  by_cases same : b.proxy = proxy
  · obtain ⟨a, mem, other⟩ := again
    have found : (before.find? (·.proxy == proxy)).isSome = true :=
      List.find?_isSome.mpr ⟨a, mem, beq_iff_eq.mpr (other.trans same)⟩
    obtain ⟨first, found⟩ := Option.isSome_iff_exists.mp found
    simp only [found, Option.some_or]
  · simp only [beq_eq_false_iff_ne.mpr same]

end Later

section Check

variable (g : Grammar) (nodes : List Rule)

theorem contains_within (root : g.root ∈ nodes) (named : ∀ p ∈ g.rules, p.2 ∈ nodes)
    (bound : ∀ b ∈ g.bindings, b.target ∈ nodes) (down : ∀ r ∈ nodes, ∀ c ∈ r.children, c ∈ nodes) (r : Rule)
    (contained : g.Contains r) : r ∈ nodes := by
  induction contained with
  | root => exact root
  | named name r mem => exact named (name, r) mem
  | bound b mem => exact bound b mem
  | child r c _ mem ih => exact down r ih c mem

theorem numbered_within (within : ∀ r, g.Contains r → r ∈ nodes) (distinct : (nodes.map (·.id)).Nodup) : g.Numbered :=
  fun r q contained other same => List.inj_on_of_nodup_map distinct (within r contained) (within q other) same

end Check

end MatchTrace
