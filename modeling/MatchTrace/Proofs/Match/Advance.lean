import MatchTrace.Proofs.Match.Words
import MatchTrace.Proofs.Rule.Peg

/-!
How far the built-in rules come. The body of one goes on from where its last success ended and stays inside the text,
but for the one position that the end of input takes; a test comes to an end where it began.
-/

namespace MatchTrace

set_option autoImplicit false

def Rule.IsCustom : Rule → Prop
  | .custom _ _ _ _ _ => True
  | _ => False

def Grammar.BuiltIn (g : Grammar) : Prop := ∀ r, g.Reaches r → ¬ r.IsCustom

-- A relabelled test is run as a test.
def Rule.looksAhead : Rule → Bool
  | .test _ _ | .testNot _ _ => true
  | .labelled _ _ inner => inner.looksAhead
  | _ => false

-- What holds of the parts of a body that moves on in a text. A part is in some state, which tells the place that the
-- body has come to. `child` speaks of an invocation that begins at that place, and `rest` of all that is left of the
-- body, which is to end from `low` to `high`.
structure Mode.Advances {ρ κ : Type} (m : Mode ρ) (top : Nat) (place : κ → Nat) (child : κ → ρ → Prop)
    (rest : Nat → Nat → κ → ρ → Prop) : Prop where
  exhausted : ∀ low high k, rest low high k m.exhausted
  conclude : ∀ low high k (v : Verdict), low ≤ v.index → v.index ≤ high → rest low high k (m.conclude v)
  abort : ∀ low high k e, rest low high k (m.abort e)
  andThen : ∀ low high k part next, child k part →
    (∀ later (v : Verdict), place k ≤ v.index → v.index ≤ top → place later = v.resume (place k) →
      rest low high later (next v)) →
    rest low high k (m.andThen part next)

namespace Mode.Advances

variable {ρ κ : Type} {m : Mode ρ} {top : Nat} {place : κ → Nat} {child : κ → ρ → Prop}
  {rest : Nat → Nat → κ → ρ → Prop} (advances : m.Advances top place child rest) (run : Attempt ρ)

include advances

theorem attempt (low high : Nat) (k : κ) (inside : place k ≤ top) (r : Rule) (next : Bool → Nat → ρ)
    (first : child k (run r (place k)))
    (others : ∀ ok later, place k ≤ place later → place later ≤ top → rest low high later (next ok (place later))) :
    rest low high k (m.attempt run r (place k) next) := by
  apply advances.andThen low high k _ _ first
  intro later v ahead below there
  have moved : place k ≤ place later ∧ place later ≤ top := by
    rw [there, Verdict.resume]
    split
    · exact ⟨ahead, below⟩
    · exact ⟨Nat.le_refl _, inside⟩
  exact there ▸ others v.matched later moved.1 moved.2

theorem in_order (low : Nat) (rs : List Rule) (k : κ) (ahead : low ≤ place k) (inside : place k ≤ top)
    (children : ∀ r ∈ rs, ∀ k, place k ≤ top → child k (run r (place k))) :
    rest low top k (m.inOrder run rs (place k)) := by
  induction rs generalizing k with
  | nil => exact advances.conclude low top k ⟨true, place k⟩ ahead inside
  | cons r rs ih =>
      apply advances.attempt run low top k inside r _ (children r List.mem_cons_self k inside)
      intro ok later moved within
      cases ok with
      | true => exact ih later (Nat.le_trans ahead moved) within fun r mem => children r (List.mem_cons_of_mem _ mem)
      | false => exact advances.conclude low top later ⟨false, place later⟩ (Nat.le_trans ahead moved) within

theorem one_of (low : Nat) (rs : List Rule) (k : κ) (ahead : low ≤ place k) (inside : place k ≤ top)
    (children : ∀ r ∈ rs, ∀ k, place k ≤ top → child k (run r (place k))) :
    rest low top k (m.oneOf run rs (place k)) := by
  induction rs generalizing k with
  | nil => exact advances.conclude low top k ⟨false, place k⟩ ahead inside
  | cons r rs ih =>
      apply advances.attempt run low top k inside r _ (children r List.mem_cons_self k inside)
      intro ok later moved within
      cases ok with
      | true => exact advances.conclude low top later ⟨true, place later⟩ (Nat.le_trans ahead moved) within
      | false => exact ih later (Nat.le_trans ahead moved) within fun r mem => children r (List.mem_cons_of_mem _ mem)

theorem repeated (low : Nat) (r : Rule) (only : ∀ k, place k ≤ top → child k (run r (place k))) (fuel : Nat)
    (enough : Bool) (k : κ) (ahead : low ≤ place k) (inside : place k ≤ top) :
    rest low top k (m.repeated run r fuel enough (place k)) := by
  induction fuel generalizing enough k with
  | zero => exact advances.exhausted low top k
  | succ fuel ih =>
      apply advances.attempt run low top k inside r _ (only k inside)
      intro ok later moved within
      have further := Nat.le_trans ahead moved
      cases ok with
      | false => exact advances.conclude low top later ⟨enough, place later⟩ further within
      | true =>
          simp only [if_true]
          split
          · exact advances.conclude low top later ⟨true, place later⟩ further within
          · exact ih true later further within

end Mode.Advances

theorem advances_body {ρ κ : Type} {m : Mode ρ} {place : κ → Nat} {child : κ → ρ → Prop}
    {rest : Nat → Nat → κ → ρ → Prop} (t : Input) (advances : m.Advances (t.length + 1) place child rest)
    (run : Attempt ρ) (g : Grammar) (builtIn : g.BuiltIn) (fuel : Nat) (view : Nat → View)
    (children : ∀ r, g.Reaches r → ∀ k, place k ≤ t.length + 1 → child k (run r (place k))) (k : κ)
    (inside : place k ≤ t.length + 1) :
    ∀ r, g.Reaches r → rest (place k) (if r.looksAhead then place k else t.length + 1) k
      (body m (g.setting t) fuel run view r (place k))
  | .terminal id terminal, _ => by
      simp only [body]
      cases width : terminal.width (g.setting t).input (place k) with
      | none => exact advances.conclude _ _ k ⟨false, place k⟩ (Nat.le_refl _) inside
      | some n =>
          refine advances.conclude _ _ k ⟨true, place k + n⟩ (Nat.le_add_right _ n) ?_
          exact Nat.le_trans (width_within t (place k) n terminal width) (Nat.max_le.mpr ⟨inside, Nat.le_refl _⟩)
  | .sequence id rs, reached =>
      advances.in_order run _ rs k (Nat.le_refl _) inside fun r mem => children r (.child _ r reached mem)
  | .firstOf id rs, reached =>
      advances.one_of run _ rs k (Nat.le_refl _) inside fun r mem => children r (.child _ r reached mem)
  | .optional id r, reached =>
      advances.attempt run _ _ k inside r _ (children r (.child _ r reached List.mem_cons_self) k inside)
        fun _ later moved within => advances.conclude _ _ later ⟨true, place later⟩ moved within
  | .zeroOrMore id r, reached =>
      advances.repeated run _ r (children r (.child _ r reached List.mem_cons_self)) fuel true k (Nat.le_refl _) inside
  | .oneOrMore id r, reached =>
      advances.repeated run _ r (children r (.child _ r reached List.mem_cons_self)) fuel false k (Nat.le_refl _) inside
  | .test id r, reached =>
      advances.attempt run _ _ k inside r _ (children r (.child _ r reached List.mem_cons_self) k inside)
        fun ok later _ _ => advances.conclude _ _ later ⟨ok, place k⟩ (Nat.le_refl _) (Nat.le_refl _)
  | .testNot id r, reached =>
      advances.attempt run _ _ k inside r _ (children r (.child _ r reached List.mem_cons_self) k inside)
        fun ok later _ _ => advances.conclude _ _ later ⟨!ok, place k⟩ (Nat.le_refl _) (Nat.le_refl _)
  | .action id label verdict, _ => by
      simp only [body]
      cases verdict (view (place k)) with
      | ok matched => exact advances.conclude _ _ k ⟨matched, place k⟩ (Nat.le_refl _) inside
      | error cause => exact advances.abort _ _ k _
  | .proxy id label, reached => by
      simp only [body, Grammar.setting, target_live]
      cases bound : g.target? id with
      | none => exact advances.abort _ _ k _
      | some r =>
          exact advances.attempt run _ _ k inside r _ (children r (.target id label r reached bound) k inside)
            fun ok later moved within => advances.conclude _ _ later ⟨ok, place later⟩ moved within
  | .labelled _ _ inner, reached =>
      advances_body t advances run g builtIn fuel view children k inside inner
        (.child _ inner reached List.mem_cons_self)
  | .custom _ _ _ _ _, reached => (builtIn _ reached trivial).elim

end MatchTrace
