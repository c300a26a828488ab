import Mathlib.Data.List.Forall2
import MatchTrace.Match.Eval
import MatchTrace.Proofs.Rule.Peg

/-!
Two evaluations side by side, of rules whose bodies take the same steps and from positions that belong together. What
the operations of two modes keep between their results, whole bodies keep, and so do invocations. The rules, the
texts and what the bodies see may differ, as far as no step depends on it.
-/

namespace MatchTrace

set_option autoImplicit false

inductive Answer.Alike (sees : View → View → Prop) : Answer → Answer → Prop where
  | done : Alike sees .done .done
  | verdict (matched : Bool) : Alike sees (.verdict matched) (.verdict matched)
  | seen (v w : View) : sees v w → Alike sees (.seen v) (.seen w)

def Script.Alike (sees : View → View → Prop) (script other : Script) : Prop :=
  ∀ told told', List.Forall₂ (Answer.Alike sees) told told' → script told = other told'

def Rule.Blind (sees : View → View → Prop) : Rule → Prop
  | .action _ _ verdict => ∀ v w, sees v w → verdict v = verdict w
  | .custom _ _ _ _ script => script.Alike sees script
  | _ => True

theorem alike_after (sees : View → View → Prop) (script other : Script) (alike : script.Alike sees other)
    (a b : Answer) (same : a.Alike sees b) : (script.after a).Alike sees (other.after b) :=
  fun told told' rest => alike (a :: told) (b :: told') (.cons same rest)

theorem blind_same (r : Rule) : r.Blind Eq := by
  cases r with
  | action id label verdict => exact fun v w same => same ▸ rfl
  | custom id ruleClass label children script =>
      intro told told' alike
      suffices same : told = told' from same ▸ rfl
      induction alike with
      | nil => rfl
      | cons first _ ih =>
          cases first with
          | done => rw [ih]
          | verdict matched => rw [ih]
          | seen v w seen => rw [seen, ih]
  | _ => trivial

-- What two modes keep between the parts that they put together, at positions that belong together.
structure Couples (place : Nat → Nat → Prop) {ρ τ : Type} (m : Mode ρ) (k : Mode τ) (R : ρ → τ → Prop) : Prop where
  exhausted : R m.exhausted k.exhausted
  conclude : ∀ matched i j, place i j → R (m.conclude ⟨matched, i⟩) (k.conclude ⟨matched, j⟩)
  abort : ∀ e, R (m.abort e) (k.abort e)
  andThen : ∀ a b f g, R a b → (∀ matched i j, place i j → R (f ⟨matched, i⟩) (g ⟨matched, j⟩)) →
    R (m.andThen a f) (k.andThen b g)

namespace Couples

section Parts

variable {place : Nat → Nat → Prop} {ρ τ : Type} {m : Mode ρ} {k : Mode τ} {R : ρ → τ → Prop}
  (couples : Couples place m k R) (run : Attempt ρ) (walk : Attempt τ) (pair : Rule → Rule → Prop)

include couples

theorem attempt (r q : Rule) (i j : Nat) (here : place i j) (f : Bool → Nat → ρ) (g : Bool → Nat → τ)
    (child : R (run r i) (walk q j)) (next : ∀ ok i j, place i j → R (f ok i) (g ok j)) :
    R (m.attempt run r i f) (k.attempt walk q j g) := by
  apply couples.andThen _ _ _ _ child
  intro matched i' j' there
  cases matched with
  | true => exact next true i' j' there
  | false => exact next false i j here

theorem in_order (rs qs : List Rule) (paired : List.Forall₂ pair rs qs) (i j : Nat) (here : place i j)
    (children : ∀ r q, pair r q → ∀ i j, place i j → R (run r i) (walk q j)) :
    R (m.inOrder run rs i) (k.inOrder walk qs j) := by
  induction paired generalizing i j with
  | nil => exact couples.conclude true i j here
  | cons first _ ih =>
      apply couples.attempt run walk _ _ i j here _ _ (children _ _ first i j here)
      intro ok i' j' there
      cases ok with
      | true => exact ih i' j' there
      | false => exact couples.conclude false i' j' there

theorem one_of (rs qs : List Rule) (paired : List.Forall₂ pair rs qs) (i j : Nat) (here : place i j)
    (children : ∀ r q, pair r q → ∀ i j, place i j → R (run r i) (walk q j)) :
    R (m.oneOf run rs i) (k.oneOf walk qs j) := by
  induction paired generalizing i j with
  | nil => exact couples.conclude false i j here
  | cons first _ ih =>
      apply couples.attempt run walk _ _ i j here _ _ (children _ _ first i j here)
      intro ok i' j' there
      cases ok with
      | true => exact couples.conclude true i' j' there
      | false => exact ih i' j' there

-- The second side may be given more fuel where what has run out is related to everything.
theorem repeated (apart : ∀ i j k l, place i j → place k l → (k = i ↔ l = j)) (r q : Rule)
    (child : ∀ i j, place i j → R (run r i) (walk q j)) (less more : Nat) (bound : less ≤ more)
    (spared : less < more → ∀ b, R m.exhausted b) (enough : Bool) (i j : Nat) (here : place i j) :
    R (m.repeated run r less enough i) (k.repeated walk q more enough j) := by
  induction less generalizing more enough i j with
  | zero =>
      cases more with
      | zero => exact couples.exhausted
      | succ more => exact spared (Nat.zero_lt_succ more) _
  | succ less ih =>
      obtain ⟨more, rfl⟩ : ∃ n, more = n + 1 := ⟨more - 1, by omega⟩
      apply couples.attempt run walk r q i j here _ _ (child i j here)
      intro ok i' j' there
      cases ok with
      | false => exact couples.conclude enough i' j' there
      | true =>
          have together := apart i j i' j' here there
          by_cases still : i' = i
          · simp only [if_true, if_pos still, if_pos (together.mp still)]
            exact couples.conclude true i' j' there
          · simp only [if_true, if_neg still, if_neg fun same => still (together.mpr same)]
            exact ih more (by omega) (fun less => spared (by omega)) true i' j' there

end Parts

end Couples

-- Two sides: their surroundings, the positions that belong together, the views that are alike, and the rules that are
-- tried together.
structure Pairing where
  left : Environment
  right : Environment
  place : Nat → Nat → Prop
  sees : View → View → Prop
  pair : Rule → Rule → Prop

namespace Pairing

-- No position belongs to two others, and every terminal moves alike where positions belong together.
structure Aligned (p : Pairing) : Prop where
  apart : ∀ i j k l, p.place i j → p.place k l → (k = i ↔ l = j)
  width : ∀ (t : Terminal) i j, p.place i j → t.width p.left.input i = t.width p.right.input j
  moves : ∀ (t : Terminal) i j n, p.place i j → t.width p.left.input i = some n → p.place (i + n) (j + n)

-- What custom bodies need besides, as they may move to any position.
structure Steady (p : Pairing) : Prop where
  advanced : ∀ i j n, p.place i j → p.place (clampIndex (i + n)) (clampIndex (j + n))
  moved : ∀ n, p.place (clampIndex n) (clampIndex n)

section Place

variable (p : Pairing) (text : p.right.input = p.left.input) (place : p.place = Eq)

include text place

theorem aligned_in_place : p.Aligned where
  apart := by
    rw [place]
    rintro i _ k _ rfl rfl
    exact Iff.rfl
  width := by
    rw [place, text]
    rintro terminal i _ rfl
    rfl
  moves := by
    rw [place]
    rintro terminal i _ n rfl _
    rfl

omit text in
theorem steady_in_place : p.Steady where
  advanced := by
    rw [place]
    rintro i _ n rfl
    rfl
  moved n := by rw [place]

end Place

-- Rules whose bodies take the same steps, if the rules that they try are paired. Labels on top of a rule are no step.
inductive Bodies (p : Pairing) : Rule → Rule → Prop where
  | terminal (id : Nat) (t : Terminal) : Bodies p (.terminal id t) (.terminal id t)
  | sequence (id : Nat) (rs qs : List Rule) : List.Forall₂ p.pair rs qs → Bodies p (.sequence id rs) (.sequence id qs)
  | firstOf (id : Nat) (rs qs : List Rule) : List.Forall₂ p.pair rs qs → Bodies p (.firstOf id rs) (.firstOf id qs)
  | optional (id : Nat) (r q : Rule) : p.pair r q → Bodies p (.optional id r) (.optional id q)
  | zeroOrMore (id : Nat) (r q : Rule) : p.pair r q → Bodies p (.zeroOrMore id r) (.zeroOrMore id q)
  | oneOrMore (id : Nat) (r q : Rule) : p.pair r q → Bodies p (.oneOrMore id r) (.oneOrMore id q)
  | test (id : Nat) (r q : Rule) : p.pair r q → Bodies p (.test id r) (.test id q)
  | testNot (id : Nat) (r q : Rule) : p.pair r q → Bodies p (.testNot id r) (.testNot id q)
  | action (id : Nat) (label : String) (verdict : View → Except Cause Bool) :
      (∀ v w, p.sees v w → verdict v = verdict w) → Bodies p (.action id label verdict) (.action id label verdict)
  | proxy (id : Nat) (label : String) :
      Option.Rel p.pair (Binding.target? p.left.bindings id) (Binding.target? p.right.bindings id) →
      Bodies p (.proxy id label) (.proxy id label)
  | left (id : Nat) (label : String) (r q : Rule) : Bodies p r q → Bodies p (.labelled id label r) q
  | right (id : Nat) (label : String) (r q : Rule) : Bodies p r q → Bodies p r (.labelled id label q)
  | custom (id : Nat) (ruleClass : RuleClass) (label : String) (rs qs : List Rule) (script : Script) :
      p.Steady → List.Forall₂ p.pair rs qs → script.Alike p.sees script →
      Bodies p (.custom id ruleClass label rs script) (.custom id ruleClass label qs script)

theorem bodies_same (p : Pairing) (blind : ∀ r, p.pair r r → r.Blind p.sees)
    (steady : ∀ id c label rs script, p.pair (.custom id c label rs script) (.custom id c label rs script) → p.Steady)
    (children : ∀ r, p.pair r r → ∀ c ∈ r.children, p.pair c c)
    (targets : ∀ id label, p.pair (.proxy id label) (.proxy id label) →
      Option.Rel p.pair (Binding.target? p.left.bindings id) (Binding.target? p.right.bindings id)) :
    ∀ r, p.pair r r → p.Bodies r r
  | .terminal id terminal, _ => .terminal id terminal
  | .sequence id rs, paired => .sequence id rs rs (List.forall₂_same.mpr (children _ paired))
  | .firstOf id rs, paired => .firstOf id rs rs (List.forall₂_same.mpr (children _ paired))
  | .optional id r, paired => .optional id r r (children _ paired r List.mem_cons_self)
  | .zeroOrMore id r, paired => .zeroOrMore id r r (children _ paired r List.mem_cons_self)
  | .oneOrMore id r, paired => .oneOrMore id r r (children _ paired r List.mem_cons_self)
  | .test id r, paired => .test id r r (children _ paired r List.mem_cons_self)
  | .testNot id r, paired => .testNot id r r (children _ paired r List.mem_cons_self)
  | .action id label verdict, paired => .action id label verdict (blind _ paired)
  | .proxy id label, paired => .proxy id label (targets id label paired)
  | .labelled id label inner, paired =>
      .left id label inner _ (.right id label inner inner
        (bodies_same p blind steady children targets inner (children _ paired inner List.mem_cons_self)))
  | .custom id ruleClass label rs script, paired =>
      .custom id ruleClass label rs rs script (steady id ruleClass label rs script paired)
        (List.forall₂_same.mpr (children _ paired)) (blind _ paired)

end Pairing

namespace Couples

variable {p : Pairing} {ρ τ : Type} {m : Mode ρ} {k : Mode τ} {R : ρ → τ → Prop} (couples : Couples p.place m k R)
  (aligned : p.Aligned) (run : Attempt ρ) (walk : Attempt τ)

include couples

theorem follow (steady : p.Steady) (view view' : Nat → View)
    (seen : ∀ i j, p.place i j → p.sees (view i) (view' j)) (rs qs : List Rule) (paired : List.Forall₂ p.pair rs qs)
    (children : ∀ r q, p.pair r q → ∀ i j, p.place i j → R (run r i) (walk q j)) (less more : Nat)
    (bound : less ≤ more) (spared : less < more → ∀ b, R m.exhausted b) (script other : Script)
    (alike : script.Alike p.sees other) (i j : Nat) (here : p.place i j) :
    R (m.follow run view rs less script i) (k.follow walk view' qs more other j) := by
  induction less generalizing more script other i j with
  | zero =>
      cases more with
      | zero => exact couples.exhausted
      | succ more => exact spared (Nat.zero_lt_succ more) _
  | succ less ih =>
      obtain ⟨more, rfl⟩ : ∃ n, more = n + 1 := ⟨more - 1, by omega⟩
      have later (a b : Answer) (same : a.Alike p.sees b) (i j : Nat) (there : p.place i j) :
          R (m.follow run view rs less (script.after a) i) (k.follow walk view' qs more (other.after b) j) :=
        ih more (by omega) (fun less => spared (by omega)) _ _ (alike_after p.sees script other alike a b same) i j there
      have move : script.next = other.next := alike [] [] .nil
      simp only [Mode.follow, ← move]
      cases script.next with
      | finish matched => exact couples.conclude matched i j here
      | abort error => exact couples.abort error
      | advance count => exact later _ _ .done _ _ (steady.advanced i j count here)
      | moveTo place => exact later _ _ .done _ _ (steady.moved place)
      | look => exact later _ _ (.seen _ _ (seen i j here)) i j here
      | call child =>
          dsimp only
          rcases found : rs[child]? with _ | r
          · rw [List.getElem?_eq_none_iff, paired.length_eq, ← List.getElem?_eq_none_iff] at found
            simp only [found]
            exact later _ _ (.verdict false) i j here
          · obtain ⟨inside, rfl⟩ := List.getElem?_eq_some_iff.mp found
            have inside' : child < qs.length := paired.length_eq ▸ inside
            simp only [List.getElem?_eq_getElem inside']
            apply couples.attempt run walk _ _ i j here _ _ (children _ _ (paired.get inside inside') i j here)
            exact fun ok i' j' there => later _ _ (.verdict ok) i' j' there

include aligned in
theorem body (view view' : Nat → View) (seen : ∀ i j, p.place i j → p.sees (view i) (view' j))
    (children : ∀ r q, p.pair r q → ∀ i j, p.place i j → R (run r i) (walk q j)) (less more : Nat)
    (bound : less ≤ more) (spared : less < more → ∀ b, R m.exhausted b) (r q : Rule) (bodies : p.Bodies r q)
    (i j : Nat) (here : p.place i j) :
    R (body m p.left less run view r i) (MatchTrace.body k p.right more walk view' q j) := by
  induction bodies with
  | terminal id t =>
      simp only [MatchTrace.body, ← aligned.width t i j here]
      cases width : t.width p.left.input i with
      | none => exact couples.conclude false i j here
      | some n => exact couples.conclude true _ _ (aligned.moves t i j n here width)
  | sequence id rs qs paired => exact couples.in_order run walk p.pair rs qs paired i j here children
  | firstOf id rs qs paired => exact couples.one_of run walk p.pair rs qs paired i j here children
  | optional id r q paired =>
      apply couples.attempt run walk r q i j here _ _ (children r q paired i j here)
      exact fun _ i' j' there => couples.conclude true i' j' there
  | zeroOrMore id r q paired =>
      exact couples.repeated run walk aligned.apart r q (children r q paired) less more bound spared true i j here
  | oneOrMore id r q paired =>
      exact couples.repeated run walk aligned.apart r q (children r q paired) less more bound spared false i j here
  | test id r q paired =>
      apply couples.attempt run walk r q i j here _ _ (children r q paired i j here)
      exact fun ok _ _ _ => couples.conclude ok i j here
  | testNot id r q paired =>
      apply couples.attempt run walk r q i j here _ _ (children r q paired i j here)
      exact fun ok _ _ _ => couples.conclude (!ok) i j here
  | action id label verdict blind =>
      simp only [MatchTrace.body, ← blind _ _ (seen i j here)]
      cases verdict (view i) with
      | ok matched => exact couples.conclude matched i j here
      | error cause => exact couples.abort _
  | proxy id label targets =>
      simp only [MatchTrace.body]
      generalize Binding.target? p.left.bindings id = bound, Binding.target? p.right.bindings id = bound' at targets ⊢
      cases targets with
      | none => exact couples.abort _
      | some paired =>
          apply couples.attempt run walk _ _ i j here _ _ (children _ _ paired i j here)
          exact fun ok i' j' there => couples.conclude ok i' j' there
  | left id label r q _ ih => exact ih
  | right id label r q _ ih => exact ih
  | custom id ruleClass label rs qs script steady paired blind =>
      exact couples.follow run walk steady view view' seen rs qs paired children less more bound spared script script
        blind i j here

end Couples

namespace Pairing

structure Invokes (p : Pairing) (level : Nat → Nat → Prop) {ρ τ : Type} (m : Mode ρ) (k : Mode τ)
    (R : ρ → τ → Prop) : Prop where
  bodies : ∀ r q, p.pair r q → p.Bodies r q
  deeper : ∀ d e, level d e → level (d + 1) (e + 1)
  seen : ∀ r q i j d e, p.pair r q → p.place i j → level d e →
    p.sees ⟨p.left.input, i, d, r.label, r.ruleClass⟩ ⟨p.right.input, j, e, q.label, q.ruleClass⟩
  enclose : ∀ r q i j d e f g, p.pair r q → p.place i j → level d e → R (f ()) (g ()) →
    R (m.enclose ⟨r, i, d⟩ f) (k.enclose ⟨q, j, e⟩ g)

theorem Invokes.invoke {p : Pairing} {level : Nat → Nat → Prop} {ρ τ : Type} {m : Mode ρ} {k : Mode τ}
    {R : ρ → τ → Prop} (invokes : p.Invokes level m k R) (couples : Couples p.place m k R) (aligned : p.Aligned)
    (fuel d e : Nat) (depth : level d e) (r q : Rule) (paired : p.pair r q) (i j : Nat) (here : p.place i j) :
    R (invoke m p.left fuel d r i) (MatchTrace.invoke k p.right fuel e q j) := by
  induction fuel generalizing d e r q i j with
  | zero => exact couples.exhausted
  | succ fuel ih =>
      apply invokes.enclose r q i j d e _ _ paired here depth
      apply couples.body aligned _ _ _ _ (fun i j there => invokes.seen r q i j d e paired there depth) _ fuel fuel
        (Nat.le_refl fuel) (fun less => absurd less (Nat.lt_irrefl fuel)) r q (invokes.bodies r q paired) i j here
      exact fun r q paired i j there => ih (d + 1) (e + 1) (invokes.deeper d e depth) r q paired i j there

end Pairing

section Mirror

def Pairing.mirror (s s' : Environment) : Pairing := ⟨s, s', Eq, Eq, Eq⟩

variable (s s' : Environment)

theorem mirror_bodies (targets : ∀ id, Binding.target? s.bindings id = Binding.target? s'.bindings id) (r : Rule) :
    (Pairing.mirror s s').Bodies r r := by
  apply Pairing.bodies_same (Pairing.mirror s s') (fun r _ => blind_same r)
    (fun _ _ _ _ _ _ => Pairing.steady_in_place _ rfl) (fun _ _ _ _ => rfl) _ r rfl
  intro id label _
  simp only [Pairing.mirror, targets]
  cases Binding.target? s'.bindings id with
  | none => exact .none
  | some r => exact .some rfl

theorem equal_couples {ρ : Type} (m : Mode ρ) : Couples Eq m m Eq where
  exhausted := rfl
  conclude := by
    rintro matched i _ rfl
    rfl
  abort _ := rfl
  andThen := by
    rintro a _ f g rfl same
    exact congrArg (m.andThen a) (funext fun v => same v.matched v.index v.index rfl)

theorem mirror_invokes (targets : ∀ id, Binding.target? s.bindings id = Binding.target? s'.bindings id)
    (text : s.input = s'.input) {ρ : Type} (m : Mode ρ) : (Pairing.mirror s s').Invokes Eq m m Eq where
  bodies := by
    rintro r _ rfl
    exact mirror_bodies s s' targets r
  deeper := by
    rintro d _ rfl
    rfl
  seen := by
    rintro r _ i _ d _ rfl rfl rfl
    simp only [Pairing.mirror, text]
  enclose := by
    rintro r _ i _ d _ f g rfl rfl rfl same
    exact congrArg (m.enclose ⟨r, i, d⟩) (funext fun _ => same)

theorem invoke_targets (targets : ∀ id, Binding.target? s.bindings id = Binding.target? s'.bindings id)
    (text : s.input = s'.input) {ρ : Type} (m : Mode ρ) (fuel level : Nat) (r : Rule) (i : Nat) :
    invoke m s fuel level r i = invoke m s' fuel level r i :=
  (mirror_invokes s s' targets text m).invoke (equal_couples m) (Pairing.aligned_in_place _ text.symm rfl) fuel
    level level rfl r r rfl i i rfl

end Mirror

namespace Grammar

inductive Leads (g : Grammar) (top : Rule) : Rule → Prop where
  | here : Leads g top top
  | child (r c : Rule) : Leads g top r → c ∈ r.children → Leads g top c
  | target (id : Nat) (label : String) (r : Rule) :
      Leads g top (.proxy id label) → g.target? id = some r → Leads g top r

def pairing (g : Grammar) (top : Rule) (t t' : Input) (place : Nat → Nat → Prop) (sees : View → View → Prop) :
    Pairing where
  left := g.setting t
  right := g.setting t'
  place := place
  sees := sees
  pair r q := q = r ∧ g.Leads top r

end Grammar

theorem leads_within (g : Grammar) (nodes : List Rule) (top : Rule) (here : top ∈ nodes)
    (down : ∀ r ∈ nodes, ∀ c ∈ r.children, c ∈ nodes)
    (across : ∀ id label r, .proxy id label ∈ nodes → g.target? id = some r → r ∈ nodes) (r : Rule)
    (reached : g.Leads top r) : r ∈ nodes := by
  induction reached with
  | here => exact here
  | child r c _ mem ih => exact down r ih c mem
  | target id label r _ bound ih => exact across id label r ih bound

section Same

variable (g : Grammar) (top : Rule) (t t' : Input) (place : Nat → Nat → Prop) (sees : View → View → Prop)

theorem pairing_bodies (blind : ∀ r, g.Leads top r → r.Blind sees)
    (steady : ∀ id c label rs script, g.Leads top (.custom id c label rs script) →
      (g.pairing top t t' place sees).Steady) (r : Rule) (reached : g.Leads top r) :
    (g.pairing top t t' place sees).Bodies r r := by
  apply Pairing.bodies_same (g.pairing top t t' place sees) (fun r paired => blind r paired.2)
    (fun id c label rs script paired => steady id c label rs script paired.2) _ _ r ⟨rfl, reached⟩
  · exact fun r paired c mem => ⟨rfl, .child r c paired.2 mem⟩
  · rintro id label ⟨-, reached⟩
    simp only [Grammar.pairing, Grammar.setting, target_live]
    cases bound : g.target? id with
    | none => exact .none
    | some r => exact .some ⟨rfl, .target id label r reached bound⟩

end Same

end MatchTrace
