import MatchTrace.Proofs.Match.Pairing

/-!
Two modes of evaluation side by side, of one grammar on one text. What the five operations of two modes keep
between their results, at every nesting level, whole invocations keep. The first side may have less fuel than the
second, so a relation has to hold of a first side that ran out. The indices of a run stay within any
bound that no terminal and no move of a custom body leaves.
-/

namespace MatchTrace

set_option autoImplicit false

structure Closed (within : Nat → Prop) (t : Input) : Prop where
  moves : ∀ (terminal : Terminal) (i n : Nat), within i → terminal.width t i = some n → within (i + n)
  clamped : ∀ i, within (clampIndex i)

theorem closed_anywhere (t : Input) : Closed (fun _ => True) t := ⟨fun _ _ _ _ _ => trivial, fun _ => trivial⟩

-- `R d a b` relates two parts of a run that start with `d` invocations open.
structure Simulation {ρ τ : Type} (m : Mode ρ) (k : Mode τ) (within : Nat → Prop) (R : Nat → ρ → τ → Prop) :
    Prop where
  exhausted : ∀ d b, R d m.exhausted b
  conclude : ∀ d v, within v.index → R d (m.conclude v) (k.conclude v)
  abort : ∀ d e, R d (m.abort e) (k.abort e)
  andThen : ∀ d a b f g, R d a b → (∀ v, within v.index → R d (f v) (g v)) → R d (m.andThen a f) (k.andThen b g)
  enclose : ∀ c f g, within c.index → R (c.level + 1) (f ()) (g ()) → R c.level (m.enclose c f) (k.enclose c g)

namespace Simulation

variable {ρ τ : Type} {m : Mode ρ} {k : Mode τ} {within : Nat → Prop} {R : Nat → ρ → τ → Prop}

def side (within : Nat → Prop) (s : Environment) : Pairing := ⟨s, s, fun i j => j = i ∧ within i, Eq, Eq⟩

theorem side_aligned (s : Environment) (closed : Closed within s.input) : (side within s).Aligned where
  apart := by
    rintro i _ k _ ⟨rfl, _⟩ ⟨rfl, _⟩
    exact Iff.rfl
  width := by
    rintro terminal i _ ⟨rfl, _⟩
    rfl
  moves := by
    rintro terminal i _ n ⟨rfl, _⟩ width
    exact ⟨rfl, closed.moves terminal _ n ‹_› width⟩

theorem side_steady (s : Environment) (closed : Closed within s.input) : (side within s).Steady where
  advanced := by
    rintro i _ n ⟨rfl, _⟩
    exact ⟨rfl, closed.clamped _⟩
  moved n := ⟨rfl, closed.clamped n⟩

theorem side_bodies (s : Environment) (closed : Closed within s.input) (r : Rule) : (side within s).Bodies r r := by
  apply Pairing.bodies_same (side within s) (fun r _ => blind_same r) (fun _ _ _ _ _ _ => side_steady s closed)
    (fun _ _ _ _ => rfl) _ r rfl
  intro id label _
  simp only [side]
  cases Binding.target? s.bindings id with
  | none => exact .none
  | some r => exact .some rfl

theorem couples (sim : Simulation m k within R) (d : Nat) : Couples (fun i j => j = i ∧ within i) m k (R d) where
  exhausted := sim.exhausted d _
  conclude := by
    rintro matched i _ ⟨rfl, here⟩
    exact sim.conclude d _ here
  abort e := sim.abort d e
  andThen a b f g first rest := sim.andThen d a b f g first fun v there => rest v.matched v.index v.index ⟨rfl, there⟩

theorem attempt (sim : Simulation m k within R) (d : Nat) (run : Attempt ρ) (walk : Attempt τ)
    (children : ∀ r i, within i → R d (run r i) (walk r i)) (r : Rule) (i : Nat) (here : within i)
    (f : Bool → Nat → ρ) (g : Bool → Nat → τ) (next : ∀ ok j, within j → R d (f ok j) (g ok j)) :
    R d (m.attempt run r i f) (k.attempt walk r i g) := by
  apply (sim.couples d).attempt run walk r r i i ⟨rfl, here⟩ f g (children r i here)
  rintro ok j _ ⟨rfl, there⟩
  exact next ok _ there

theorem repeated (sim : Simulation m k within R) (d : Nat) (run : Attempt ρ) (walk : Attempt τ)
    (children : ∀ r i, within i → R d (run r i) (walk r i)) (r : Rule) (less more : Nat) (bound : less ≤ more)
    (enough : Bool) (i : Nat) (here : within i) :
    R d (m.repeated run r less enough i) (k.repeated walk r more enough i) := by
  apply (sim.couples d).repeated run walk _ r r _ less more bound (fun _ => sim.exhausted d) enough i i ⟨rfl, here⟩
  · rintro i _ k _ ⟨rfl, _⟩ ⟨rfl, _⟩
    exact Iff.rfl
  · rintro i _ ⟨rfl, there⟩
    exact children r _ there

theorem body (sim : Simulation m k within R) (d : Nat) (run : Attempt ρ) (walk : Attempt τ)
    (children : ∀ r i, within i → R d (run r i) (walk r i)) (s : Environment) (closed : Closed within s.input)
    (view : Nat → View) (less more : Nat) (bound : less ≤ more) (r : Rule) (i : Nat) (here : within i) :
    R d (body m s less run view r i) (MatchTrace.body k s more walk view r i) := by
  apply Couples.body (p := side within s) (sim.couples d) (side_aligned s closed) run walk view view _ _ less more bound
    (fun _ => sim.exhausted d) r r (side_bodies s closed r) i i ⟨rfl, here⟩
  · rintro i _ ⟨rfl, _⟩
    rfl
  · rintro r _ rfl i _ ⟨rfl, there⟩
    exact children r _ there

theorem invoke (sim : Simulation m k within R) (s : Environment) (closed : Closed within s.input) (less more : Nat)
    (bound : less ≤ more) (d : Nat) (r : Rule) (i : Nat) (here : within i) :
    R d (invoke m s less d r i) (MatchTrace.invoke k s more d r i) := by
  induction less generalizing more d r i with
  | zero => exact sim.exhausted d _
  | succ less ih =>
      obtain ⟨more, rfl⟩ : ∃ n, more = n + 1 := ⟨more - 1, by omega⟩
      exact sim.enclose ⟨r, i, d⟩ _ _ here
        (sim.body (d + 1) _ _ (fun r i => ih more (by omega) (d + 1) r i) s closed _ less more (by omega) r i here)

theorem root (sim : Simulation m k (fun _ => True) R) (g : Grammar) (input : Input) (fuel : Nat) :
    R 0 (g.invokeRoot m fuel input) (g.invokeRoot k fuel input) :=
  sim.invoke (g.setting input) (closed_anywhere input) fuel fuel (Nat.le_refl fuel) 0 g.root 0 trivial

end Simulation

end MatchTrace
