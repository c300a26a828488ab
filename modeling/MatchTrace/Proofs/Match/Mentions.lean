import MatchTrace.Proofs.Match.OpenCalls

/-!
What the hooks of a run say about rules of one kind. A run is followed along the meaning of its rules, which tells
where each part of it ends. A rule that reaches none of the kind adds nothing.
-/

namespace MatchTrace

set_option autoImplicit false

def Hook.about (kind : Rule → Bool) : Hook → Bool
  | .beforeMatch c | .matchSuccess c | .matchFailure c => kind c.rule
  | .beforeParse _ _ | .afterParse _ => false

section Mentions

variable (kind : Rule → Bool)

theorem about_opening (c : Call) : Hook.about kind (.beforeMatch c) = kind c.rule := rfl

theorem about_closing (v : Verdict) (c : Call) : Hook.about kind (v.closing c) = kind c.rule := by
  rcases v with ⟨_ | _, index⟩ <;> rfl

theorem about_enclose (trail : Trail) (c : Call) :
    (trail.enclose c).hooks.filter (Hook.about kind) =
      if kind c.rule then .beforeMatch c :: (trail.hooks.filter (Hook.about kind) ++ trail.closing c)
      else trail.hooks.filter (Hook.about kind) := by
  rcases trail with ⟨hooks, e | v⟩
  · cases here : kind c.rule <;> simp [Trail.enclose, Trail.closing, about_opening, here]
  · cases here : kind c.rule <;> simp [Trail.enclose, Trail.closing, about_opening, about_closing, here]

def Mentions (e : Option Nat) (hooks : List Hook) (part : Option Trail) : Prop :=
  ∀ trail, part = some trail →
    ∃ v, trail.ending = .ok v ∧ v.end? = e ∧ trail.hooks.filter (Hook.about kind) = hooks

theorem mentions_exhausted (e : Option Nat) (hooks : List Hook) : Mentions kind e hooks none :=
  fun _ eq => nomatch eq

theorem mentions_conclude (v : Verdict) : Mentions kind v.end? [] (Mode.noted.conclude v) := by
  intro trail eq
  cases eq
  exact ⟨v, rfl, rfl, rfl⟩

section Parts

variable (run : Attempt (Option Trail)) (r : Rule) (rs : List Rule) (i j : Nat) (e f : Option Nat) (hs ks : List Hook)

theorem mentions_attempt (next : Bool → Nat → Option Trail) (child : Mentions kind e hs (run r i))
    (rest : Mentions kind f ks (next e.isSome (e.getD i))) :
    Mentions kind f (hs ++ ks) (Mode.noted.attempt run r i next) := by
  intro trail eq
  obtain ⟨first, ran, eq⟩ := Option.bind_eq_some_iff.mp eq
  obtain ⟨v, ended, rfl, rfl⟩ := child first ran
  simp only [Trail.andThen, ended, matched_eq, resume_eq] at eq
  obtain ⟨second, went, rfl⟩ := Option.map_eq_some_iff.mp eq
  obtain ⟨w, ended', rfl, rfl⟩ := rest second went
  exact ⟨w, ended', rfl, List.filter_append first.hooks second.hooks⟩

theorem mentions_in_order_nil : Mentions kind (some i) [] (Mode.noted.inOrder run [] i) :=
  mentions_conclude kind ⟨true, i⟩

theorem mentions_in_order_step (first : Mentions kind (some j) hs (run r i))
    (rest : Mentions kind e ks (Mode.noted.inOrder run rs j)) :
    Mentions kind e (hs ++ ks) (Mode.noted.inOrder run (r :: rs) i) :=
  mentions_attempt kind run r i (some j) e hs ks _ first rest

theorem mentions_in_order_fail (first : Mentions kind none hs (run r i)) :
    Mentions kind none hs (Mode.noted.inOrder run (r :: rs) i) := by
  have stops := mentions_attempt kind run r i none none hs [] (fun ok j =>
    if ok then Mode.noted.inOrder run rs j else Mode.noted.fail j) first (mentions_conclude kind ⟨false, i⟩)
  rwa [List.append_nil] at stops

theorem mentions_many_end (fuel : Nat) (child : Mentions kind none hs (run r i)) :
    Mentions kind (some i) hs (Mode.noted.repeated run r fuel true i) := by
  cases fuel with
  | zero => exact mentions_exhausted kind _ _
  | succ fuel =>
      have stops := mentions_attempt kind run r i none (some i) hs [] (fun ok j =>
        if ok then if j = i then Mode.noted.succeed j else Mode.noted.repeated run r fuel true j
        else Mode.noted.conclude ⟨true, j⟩) child (mentions_conclude kind ⟨true, i⟩)
      rwa [List.append_nil] at stops

theorem mentions_many_step (fuel : Nat) (child : Mentions kind (some j) hs (run r i)) (forward : i < j)
    (rest : ∀ fuel, Mentions kind e ks (Mode.noted.repeated run r fuel true j)) :
    Mentions kind e (hs ++ ks) (Mode.noted.repeated run r fuel true i) := by
  cases fuel with
  | zero => exact mentions_exhausted kind _ _
  | succ fuel =>
      apply mentions_attempt kind run r i (some j) e hs ks _ child
      simp only [Option.isSome_some, if_true, Option.getD_some, if_neg (Nat.ne_of_gt forward)]
      exact rest fuel

end Parts

section Invocations

variable (s : Environment) (level : Nat) (r : Rule) (i : Nat) (e : Option Nat) (hs : List Hook)

theorem mentions_other (other : kind r = false)
    (inside : ∀ fuel view, Mentions kind e hs (body .noted s fuel (invoke .noted s fuel (level + 1)) view r i))
    (fuel : Nat) : Mentions kind e hs (invoke .noted s fuel level r i) := by
  cases fuel with
  | zero => exact mentions_exhausted kind e hs
  | succ fuel =>
      intro trail eq
      obtain ⟨inner, ran, rfl⟩ := Option.map_eq_some_iff.mp eq
      obtain ⟨v, ended, means, rfl⟩ := inside fuel _ inner ran
      refine ⟨v, ended, means, ?_⟩
      rw [about_enclose, other]
      rfl

theorem mentions_kind (j : Nat) (here : kind r = true)
    (inside : ∀ fuel view, Mentions kind (some j) hs (body .noted s fuel (invoke .noted s fuel (level + 1)) view r i))
    (fuel : Nat) : Mentions kind (some j) (.beforeMatch ⟨r, i, level⟩ :: (hs ++ [.matchSuccess ⟨r, j, level⟩]))
      (invoke .noted s fuel level r i) := by
  cases fuel with
  | zero => exact mentions_exhausted kind _ _
  | succ fuel =>
      intro trail eq
      obtain ⟨inner, ran, rfl⟩ := Option.map_eq_some_iff.mp eq
      obtain ⟨⟨matched, index⟩, ended, means, rfl⟩ := inside fuel _ inner ran
      cases matched with
      | false => cases means
      | true =>
          cases means
          refine ⟨⟨true, index⟩, ended, rfl, ?_⟩
          rw [about_enclose, here, Trail.closing, ended]
          rfl

end Invocations

def Silent (part : Option Trail) : Prop := ∀ trail, part = some trail → trail.hooks.filter (Hook.about kind) = []

theorem silent_keeps : Mode.noted.Keeps (Silent kind) where
  exhausted _ eq := nomatch eq
  conclude v trail eq := by
    cases eq
    rfl
  andThen part next first rest := by
    intro whole eq
    obtain ⟨trail, rfl, eq⟩ := Option.bind_eq_some_iff.mp eq
    have quiet := first trail rfl
    rcases trail with ⟨hooks, e | v⟩
    · cases eq
      exact quiet
    · obtain ⟨second, ran, rfl⟩ := Option.map_eq_some_iff.mp eq
      exact (List.filter_append _ _).trans (List.append_eq_nil_iff.mpr ⟨quiet, rest v second ran⟩)

theorem silent_invoke (g : Grammar) (t : Input) (nodes : List Rule) (other : ∀ r ∈ nodes, kind r = false)
    (closed : ∀ r ∈ nodes, ∀ c ∈ g.callees r, c ∈ nodes) (fuel level : Nat) (r : Rule) (i : Nat) (mem : r ∈ nodes) :
    Silent kind (invoke .noted (g.setting t) fuel level r i) := by
  induction fuel generalizing level r i with
  | zero => exact (silent_keeps kind).exhausted
  | succ fuel ih =>
      intro trail eq
      obtain ⟨inner, ran, rfl⟩ := Option.map_eq_some_iff.mp eq
      have inside := (silent_keeps kind).body (invoke .noted (g.setting t) fuel (level + 1)) g t fuel
        (fun j => ⟨t, j, level, r.label, r.ruleClass⟩) r i (fun c mem' j => ih (level + 1) c j (closed r mem c mem'))
        (fun e _ trail eq => by cases eq; rfl) inner ran
      rw [about_enclose, other r mem]
      exact inside

theorem meaning_ends (g : Grammar) (t : Input) (r : Rule) (i : Nat) (e : Option Nat) (meaning : Peg g t r i e)
    (fuel level : Nat) : Meant (· = e) (invoke .noted (g.setting t) fuel level r i) := by
  intro trail ran
  obtain ⟨enough, settled⟩ := settled_invoke g t r i e (peg_settles g t r i e meaning)
  obtain ⟨hooks, v, ran', means⟩ := settled (max enough fuel) (Nat.le_max_left enough fuel) level
  have longer := longer_simulation.invoke (g.setting t) (closed_anywhere t) fuel (max enough fuel)
    (Nat.le_max_right enough fuel) level r i trivial trail ran
  rw [ran'] at longer
  cases longer
  exact ⟨v, rfl, means⟩

theorem mentions_nothing (g : Grammar) (t : Input) (nodes : List Rule) (other : ∀ r ∈ nodes, kind r = false)
    (closed : ∀ r ∈ nodes, ∀ c ∈ g.callees r, c ∈ nodes) (fuel level : Nat) (r : Rule) (i : Nat) (mem : r ∈ nodes)
    (e : Option Nat) (meaning : Peg g t r i e) : Mentions kind e [] (invoke .noted (g.setting t) fuel level r i) := by
  intro trail ran
  obtain ⟨v, ended, means⟩ := meaning_ends g t r i e meaning fuel level trail ran
  exact ⟨v, ended, means, silent_invoke kind g t nodes other closed fuel level r i mem trail ran⟩

theorem run_mentions (g : Grammar) (input : Input) (e : Option Nat) (hooks : List Hook)
    (root : ∀ fuel, Mentions kind e hooks (g.invokeRoot .noted fuel input)) (fuel : Nat) (run : Run)
    (noted : g.runWith fuel input = some run) : run.hooks.filter (Hook.about kind) = hooks := by
  obtain ⟨trail, ran, rfl⟩ := Option.map_eq_some_iff.mp noted
  obtain ⟨v, ended, -, rfl⟩ := root fuel trail ran
  simp [Trail.toRun, ended, Except.map, lastHooks, Hook.about]

end Mentions

end MatchTrace
