import MatchTrace.Match.Heard
import MatchTrace.Match.Run
import MatchTrace.Proofs.Match.Simulation

/-!
A run that is heard and the same run noted down. If the noted run ends, a listener is told its hooks
one by one until it fails, and otherwise the run ends as it was noted. A run that no listener stops
can be noted down.
-/

namespace MatchTrace

set_option autoImplicit false

variable {ε σ α β : Type}

theorem announce_heard (l : Listener ε σ) (s t : σ) (h : Hook) (hs : List Hook) (step : l s h = (t, none)) :
    announce l s (h :: hs) = announce l t hs := by
  rw [announce, step]

theorem announce_refused (l : Listener ε σ) (s t : σ) (h : Hook) (hs : List Hook) (e : ε) (step : l s h = (t, some e)) :
    announce l s (h :: hs) = (t, some e) := by
  rw [announce, step]

theorem announce_append (l : Listener ε σ) (s : σ) (hs ks : List Hook) :
    announce l s (hs ++ ks) =
      match announce l s hs with
      | (t, none) => announce l t ks
      | (t, some e) => (t, some e) := by
  induction hs generalizing s with
  | nil => rfl
  | cons h hs ih =>
      simp only [List.cons_append, announce]
      rcases l s h with ⟨t, _ | e⟩
      · exact ih t
      · rfl

theorem announce_cons (l : Listener ε σ) (s t : σ) (h : Hook) (hs : List Hook)
    (told : announce l s (h :: hs) = (t, none)) : ∃ u, l s h = (u, none) ∧ announce l u hs = (t, none) := by
  simp only [announce] at told
  rcases step : l s h with ⟨u, _ | e⟩
  · exact ⟨u, rfl, by simpa only [step] using told⟩
  · simp only [step] at told
    cases told

theorem announce_parts (l : Listener ε σ) (s t : σ) (hs ks : List Hook) (told : announce l s (hs ++ ks) = (t, none)) :
    ∃ u, announce l s hs = (u, none) ∧ announce l u ks = (t, none) := by
  rw [announce_append] at told
  rcases first : announce l s hs with ⟨u, _ | e⟩
  · exact ⟨u, rfl, by simpa only [first] using told⟩
  · simp only [first] at told
    cases told

theorem announce_first {τ : Type} (a : Listener ε σ) (b : Listener ε τ) (s t : σ × τ) (hs : List Hook)
    (told : announce (Listener.both a b) s hs = (t, none)) : announce a s.1 hs = (t.1, none) := by
  induction hs generalizing s with
  | nil =>
      cases told
      rfl
  | cons h hs ih =>
      obtain ⟨u, step, told⟩ := announce_cons (Listener.both a b) s t h hs told
      rcases first : a s.1 h with ⟨v, _ | e⟩
      · simp only [Listener.both, first, Prod.mk.injEq] at step
        obtain ⟨rfl, -⟩ := step
        simpa only [announce, first] using ih _ told
      · simp [Listener.both, first] at step

theorem announce_beside {τ : Type} (a : Listener ε σ) (b : Listener ε τ) (s : σ × τ) (last : τ) (hs : List Hook)
    (willing : announce b s.2 hs = (last, none)) :
    (announce (Listener.both a b) s hs).1.1 = (announce a s.1 hs).1 ∧
      (announce (Listener.both a b) s hs).2 = (announce a s.1 hs).2 := by
  induction hs generalizing s with
  | nil => exact ⟨rfl, rfl⟩
  | cons h hs ih =>
      obtain ⟨u, second, willing⟩ := announce_cons b s.2 last h hs willing
      rcases first : a s.1 h with ⟨v, _ | e⟩
      · have step : Listener.both a b s h = ((v, u), none) := by simp [Listener.both, first, second]
        rw [announce_heard _ s _ h hs step, announce_heard a s.1 v h hs first]
        exact ih (v, u) willing
      · have step : Listener.both a b s h = ((v, u), some e) := by simp [Listener.both, first, second]
        rw [announce_refused _ s _ h hs e step, announce_refused a s.1 v h hs e first]
        exact ⟨rfl, rfl⟩

theorem announce_map {ε' : Type} (l : Listener ε σ) (f : ε → ε') (s : σ) (hs : List Hook) :
    announce (fun s h => ((l s h).1, (l s h).2.map f)) s hs = ((announce l s hs).1, (announce l s hs).2.map f) := by
  induction hs generalizing s with
  | nil => rfl
  | cons h hs ih =>
      rcases step : l s h with ⟨v, _ | e⟩
      · rw [announce_heard _ s v h hs (by simp [step]), announce_heard l s v h hs step]
        exact ih v
      · rw [announce_refused _ s v h hs (f e) (by simp [step]), announce_refused l s v h hs e step]
        rfl

theorem announce_mapped {ε' : Type} (l : Listener ε σ) (f : ε → ε') (s t : σ) (hs : List Hook)
    (told : announce (fun s h => ((l s h).1, (l s h).2.map f)) s hs = (t, none)) : announce l s hs = (t, none) := by
  induction hs generalizing s with
  | nil =>
      cases told
      rfl
  | cons h hs ih =>
      obtain ⟨u, step, told⟩ := announce_cons _ s t h hs told
      rcases answer : l s h with ⟨v, _ | e⟩
      · simp only [answer, Prod.mk.injEq] at step
        obtain ⟨rfl, -⟩ := step
        simpa only [announce, answer] using ih _ told
      · simp [answer] at step

theorem announce_obliging (l : Listener ε σ) (obliging : ∀ s h, (l s h).2 = none) (hooks : List Hook) (s : σ) :
    ∃ t, announce l s hooks = (t, none) := by
  induction hooks generalizing s with
  | nil => exact ⟨s, rfl⟩
  | cons h hs ih =>
      have agreed := obliging s h
      rcases told : l s h with ⟨t, _ | e⟩
      · simpa only [announce, told] using ih t
      · rw [told] at agreed
        cases agreed

def relay (l : Listener ε σ) (hooks : List Hook) (ending : Except RuleError α) (s : σ) :
    σ × Except (RunError ε) α :=
  match announce l s hooks with
  | (t, none) => (t, ending.mapError .rule)
  | (t, some e) => (t, .error (.listener e))

theorem relay_then (l : Listener ε σ) (part : Heard ε σ α) (next : α → Heard ε σ β) (hs ks : List Hook)
    (x : α) (ending : Except RuleError β) (s : σ) (first : part s = some (relay l hs (.ok x) s))
    (second : ∀ t, next x t = some (relay l ks ending t)) :
    part.andThen next s = some (relay l (hs ++ ks) ending s) := by
  simp only [Heard.andThen, first, relay, announce_append]
  rcases announce l s hs with ⟨t, _ | e⟩
  · exact second t
  · rfl

theorem relay_stop (l : Listener ε σ) (part : Heard ε σ α) (next : α → Heard ε σ β) (hs : List Hook)
    (e : RuleError) (s : σ) (first : part s = some (relay l hs (.error e) s)) :
    part.andThen next s = some (relay l hs (.error e) s) := by
  simp only [Heard.andThen, first, relay]
  rcases announce l s hs with ⟨t, _ | _⟩ <;> rfl

theorem tell_then (l : Listener ε σ) (h : Hook) (next : Heard ε σ α) (ks : List Hook)
    (ending : Except RuleError α) (s : σ) (rest : ∀ t, next t = some (relay l ks ending t)) :
    (Heard.tell l h).andThen (fun _ => next) s = some (relay l (h :: ks) ending s) := by
  simp only [Heard.andThen, Heard.tell, relay, announce]
  rcases l s h with ⟨t, _ | e⟩
  · exact rest t
  · rfl

def Relayed (l : Listener ε σ) (_ : Nat) (noted : Option Trail) (heard : Heard ε σ Verdict) : Prop :=
  ∀ t, noted = some t → ∀ s, heard s = some (relay l t.hooks t.ending s)

theorem relayed_and_then (l : Listener ε σ) (d : Nat) (noted : Option Trail) (heard : Heard ε σ Verdict)
    (f : Verdict → Option Trail) (g : Verdict → Heard ε σ Verdict) (part : Relayed l d noted heard)
    (next : ∀ v, Relayed l d (f v) (g v)) :
    Relayed l d (Mode.noted.andThen noted f) (heard.andThen g) := by
  intro whole eq s
  obtain ⟨t, rfl, eq⟩ := Option.bind_eq_some_iff.mp eq
  rcases t with ⟨hs, _ | v⟩
  · cases eq
    exact relay_stop l heard g hs _ s (part _ rfl s)
  · obtain ⟨u, rest, rfl⟩ := Option.map_eq_some_iff.mp eq
    exact relay_then l heard g hs u.hooks v u.ending s (part _ rfl s) (next v u rest)

theorem relayed_enclose (l : Listener ε σ) (c : Call) (f : Unit → Option Trail)
    (g : Unit → Heard ε σ Verdict) (part : Relayed l (c.level + 1) (f ()) (g ())) :
    Relayed l c.level (Mode.noted.enclose c f) ((Mode.heard l).enclose c g) := by
  intro whole eq s
  obtain ⟨t, inner, rfl⟩ := Option.map_eq_some_iff.mp eq
  rcases t with ⟨hs, e | v⟩
  · simp only [Trail.enclose, Trail.closing, List.append_nil]
    exact tell_then l _ _ _ _ s fun u => relay_stop l (g ()) _ hs e u (part _ inner u)
  · exact tell_then l _ _ _ _ s fun u => relay_then l (g ()) _ hs [v.closing c] v (.ok v) u (part _ inner u)
      fun w => tell_then l _ _ _ _ w fun _ => rfl

theorem relayed_simulation (l : Listener ε σ) : Simulation Mode.noted (Mode.heard l) (fun _ => True) (Relayed l) where
  exhausted _ _ t eq := nomatch eq
  conclude _ _ _ t eq _ := by cases eq; rfl
  abort _ _ t eq _ := by cases eq; rfl
  andThen d a b f g part next := relayed_and_then l d a b f g part fun v => next v trivial
  enclose c f g _ := relayed_enclose l c f g

def Failed (l : Listener ε σ) (ending : Except (RunError ε) α) : Prop :=
  ∃ e s h, ending = .error (.listener e) ∧ (l s h).2 = some e

def Recorded (l : Listener ε σ) (_ : Nat) (heard : Heard ε σ Verdict) (noted : Option Trail) : Prop :=
  ∀ s t ending, heard s = some (t, ending) →
    Failed l ending ∨ ∃ trail, noted = some trail ∧ trail.ending.mapError .rule = ending

theorem tell_cases (l : Listener ε σ) (h : Hook) (next : Unit → Heard ε σ α) (s t : σ)
    (ending : Except (RunError ε) α) (heard : (Heard.tell l h).andThen next s = some (t, ending)) :
    Failed l ending ∨ ∃ u, next () u = some (t, ending) := by
  simp only [Heard.andThen, Heard.tell] at heard
  rcases answer : l s h with ⟨u, _ | e⟩
  · simp only [answer] at heard
    exact .inr ⟨u, heard⟩
  · simp only [answer, Option.some.injEq, Prod.mk.injEq] at heard
    exact .inl ⟨e, s, h, heard.2.symm, congrArg Prod.snd answer⟩

theorem heard_then_cases (part : Heard ε σ α) (next : α → Heard ε σ β) (s t : σ)
    (ending : Except (RunError ε) β) (heard : part.andThen next s = some (t, ending)) :
    (∃ e, part s = some (t, .error e) ∧ ending = .error e) ∨
      ∃ u x, part s = some (u, .ok x) ∧ next x u = some (t, ending) := by
  simp only [Heard.andThen] at heard
  rcases eq : part s with _ | ⟨u, e | x⟩
  · simp [eq] at heard
  · simp only [eq, Option.some.injEq, Prod.mk.injEq] at heard
    obtain ⟨rfl, rfl⟩ := heard
    exact .inl ⟨e, rfl, rfl⟩
  · simp only [eq] at heard
    exact .inr ⟨u, x, rfl, heard⟩

theorem map_error_ok (ending : Except RuleError α) (x : α)
    (eq : ending.mapError (RunError.rule (ε := ε)) = .ok x) : ending = .ok x := by
  cases ending with
  | ok y => exact congrArg Except.ok (Except.ok.inj eq)
  | error e => cases eq

theorem recorded_and_then (l : Listener ε σ) (d : Nat) (heard : Heard ε σ Verdict) (noted : Option Trail)
    (g : Verdict → Heard ε σ Verdict) (f : Verdict → Option Trail) (part : Recorded l d heard noted)
    (next : ∀ v, Recorded l d (g v) (f v)) :
    Recorded l d (heard.andThen g) (Mode.noted.andThen noted f) := by
  intro s t ending eq
  rcases heard_then_cases heard g s t ending eq with ⟨e, first, rfl⟩ | ⟨u, v, first, rest⟩
  · rcases part s t _ first with failed | ⟨trail, rfl, same⟩
    · obtain ⟨e, u, h, failed, told⟩ := failed
      exact .inl ⟨e, u, h, by cases failed; rfl, told⟩
    · rcases trail with ⟨hs, e | v⟩
      · exact .inr ⟨⟨hs, .error e⟩, rfl, by cases same; rfl⟩
      · cases same
  · rcases part s u _ first with ⟨_, _, _, failed, _⟩ | ⟨trail, rfl, same⟩
    · cases failed
    · rcases next v u t ending rest with failed | ⟨after, noted, same'⟩
      · exact .inl failed
      · refine .inr ⟨trail.followedBy after, ?_, same'⟩
        simp only [Mode.noted, Option.bind_some, Trail.andThen, map_error_ok _ _ same, noted, Option.map_some]

theorem recorded_enclose (l : Listener ε σ) (c : Call) (g : Unit → Heard ε σ Verdict)
    (f : Unit → Option Trail) (part : Recorded l (c.level + 1) (g ()) (f ())) :
    Recorded l c.level ((Mode.heard l).enclose c g) (Mode.noted.enclose c f) := by
  intro s t ending eq
  rcases tell_cases l _ _ s t ending eq with failed | ⟨u, eq⟩
  · exact .inl failed
  rcases heard_then_cases (g ()) _ u t ending eq with ⟨e, first, rfl⟩ | ⟨w, v, first, rest⟩
  · rcases part u t _ first with ⟨e, w, h, failed, told⟩ | ⟨trail, noted, same⟩
    · exact .inl ⟨e, w, h, by cases failed; rfl, told⟩
    · refine .inr ⟨trail.enclose c, by simp only [Mode.noted, noted, Option.map_some], ?_⟩
      rcases trail with ⟨hs, e | v⟩
      · cases same; rfl
      · cases same
  · rcases tell_cases l _ _ w t ending rest with failed | ⟨x, given⟩
    · exact .inl failed
    · rcases part u w _ first with ⟨_, _, _, failed, _⟩ | ⟨trail, noted, same⟩
      · cases failed
      · refine .inr ⟨trail.enclose c, by simp only [Mode.noted, noted, Option.map_some], ?_⟩
        cases given
        exact same

theorem recorded_simulation (l : Listener ε σ) : Simulation (Mode.heard l) Mode.noted (fun _ => True) (Recorded l) where
  exhausted _ _ s t ending eq := nomatch eq
  conclude _ v _ s t ending eq := .inr ⟨.quiet (.ok v), rfl, by cases eq; rfl⟩
  abort _ e s t ending eq := .inr ⟨.quiet (.error e), rfl, by cases eq; rfl⟩
  andThen d a b f g part next := recorded_and_then l d a b f g part fun v => next v trivial
  enclose c f g _ := recorded_enclose l c f g

theorem heard_of_noted (fuel : Nat) (g : Grammar) (input : Input) (run : Run)
    (noted : g.runWith fuel input = some run) (l : Listener ε σ) (s : σ) :
    g.heardWith fuel input l s = some (relay l run.hooks run.outcome s) := by
  obtain ⟨t, trail, rfl⟩ := Option.map_eq_some_iff.mp noted
  have inner := (relayed_simulation l).root g input fuel t trail
  rcases t with ⟨hs, e | v⟩
  · simp only [Trail.toRun, Except.map, lastHooks, List.append_nil]
    exact tell_then l _ _ _ _ s fun u => relay_stop l (g.invokeRoot (.heard l) fuel input) _ hs e u (inner u)
  · exact tell_then l _ _ _ _ s fun u => relay_then l (g.invokeRoot (.heard l) fuel input) _ hs [_] v _ u (inner u)
      fun w => tell_then l _ _ _ _ w fun _ => rfl

theorem noted_of_heard (fuel : Nat) (g : Grammar) (input : Input) (l : Listener ε σ) (s t : σ)
    (outcome : Except (RunError ε) ParseResult) (heard : g.heardWith fuel input l s = some (t, outcome)) :
    Failed l outcome ∨ ∃ run, g.runWith fuel input = some run ∧ run.outcome.mapError .rule = outcome := by
  have inner := (recorded_simulation l).root g input fuel
  rcases tell_cases l _ _ s t outcome heard with failed | ⟨u, heard⟩
  · exact .inl failed
  rcases heard_then_cases (g.invokeRoot (.heard l) fuel input) _ u t outcome heard with
    ⟨e, first, rfl⟩ | ⟨w, v, first, rest⟩
  · rcases inner u t _ first with ⟨e, w, h, failed, told⟩ | ⟨trail, noted, same⟩
    · exact .inl ⟨e, w, h, by cases failed; rfl, told⟩
    · refine .inr ⟨trail.toRun g.root input, congrArg (Option.map _) noted, ?_⟩
      rcases trail with ⟨hs, e | v⟩
      · cases same; rfl
      · cases same
  · rcases tell_cases l _ _ w t outcome rest with failed | ⟨x, given⟩
    · exact .inl failed
    · rcases inner u w _ first with ⟨_, _, _, failed, _⟩ | ⟨trail, noted, same⟩
      · cases failed
      · refine .inr ⟨trail.toRun g.root input, congrArg (Option.map _) noted, ?_⟩
        cases given
        simp only [Trail.toRun, map_error_ok _ _ same]
        rfl

section Obliging

variable (l : Listener ε σ) (obliging : ∀ s h, (l s h).2 = none)

include obliging

theorem obliging_invoke (env : Environment) (fuel level : Nat) (r : Rule) (i : Nat) (s : σ) :
    invoke (.heard l) env fuel level r i s = (invoke .noted env fuel level r i).map fun trail =>
      ((announce l s trail.hooks).1, trail.ending.mapError .rule) := by
  have closed := closed_anywhere env.input
  cases noted : invoke .noted env fuel level r i with
  | some trail =>
      have heard := (relayed_simulation l).invoke env closed fuel fuel (Nat.le_refl fuel) level r i trivial trail noted s
      obtain ⟨t, told⟩ := announce_obliging l obliging trail.hooks s
      rw [heard, relay, Option.map_some, told]
  | none =>
      rcases heard : invoke (.heard l) env fuel level r i s with _ | ⟨t, ending⟩
      · rfl
      · have recorded := (recorded_simulation l).invoke env closed fuel fuel (Nat.le_refl fuel) level r i trivial
        rcases recorded s t ending heard with ⟨_, u, h, _, told⟩ | ⟨trail, ran, _⟩
        · rw [obliging] at told
          cases told
        · rw [noted] at ran
          cases ran

theorem obliging_heard (fuel : Nat) (g : Grammar) (input : Input) (s : σ) :
    g.heardWith fuel input l s = (g.runWith fuel input).map fun run =>
      ((announce l s run.hooks).1, run.outcome.mapError .rule) := by
  cases noted : g.runWith fuel input with
  | some run =>
      obtain ⟨t, told⟩ := announce_obliging l obliging run.hooks s
      rw [heard_of_noted fuel g input run noted, relay, Option.map_some, told]
  | none =>
      rcases heard : g.heardWith fuel input l s with _ | ⟨t, outcome⟩
      · rfl
      · rcases noted_of_heard fuel g input l s t outcome heard with ⟨_, u, h, _, told⟩ | ⟨run, ran, _⟩
        · rw [obliging] at told
          cases told
        · rw [noted] at ran
          cases ran

theorem obliging_run (fuel : Nat) (g : Grammar) (input : Input) (s t : σ) (outcome : Except (RunError ε) ParseResult)
    (heard : g.heardWith fuel input l s = some (t, outcome)) :
    ∃ run, g.runWith fuel input = some run ∧ announce l s run.hooks = (t, none) ∧
      run.outcome.mapError .rule = outcome := by
  rw [obliging_heard l obliging] at heard
  obtain ⟨run, noted, same⟩ := Option.map_eq_some_iff.mp heard
  obtain ⟨u, told⟩ := announce_obliging l obliging run.hooks s
  rw [told] at same
  cases same
  exact ⟨run, noted, told, rfl⟩

end Obliging

theorem heard_announced (fuel : Nat) (g : Grammar) (input : Input) (l : Listener ε σ) (s t : σ) (result : ParseResult)
    (heard : g.heardWith fuel input l s = some (t, .ok result)) :
    ∃ run, g.runWith fuel input = some run ∧ run.outcome = .ok result ∧ announce l s run.hooks = (t, none) := by
  rcases noted_of_heard fuel g input _ s t _ heard with ⟨_, _, _, failed, _⟩ | ⟨run, noted, same⟩
  · cases failed
  · have ended := map_error_ok _ _ same
    rw [heard_of_noted fuel g input run noted] at heard
    rcases told : announce l s run.hooks with ⟨u, _ | e⟩
    · simp only [relay, told, ended, Option.some.injEq, Prod.mk.injEq] at heard
      exact ⟨run, noted, ended, by rw [told, heard.1]⟩
    · simp [relay, told] at heard

def RunError.failure? : RunError ε → Option ε
  | .rule _ => none
  | .listener e => some e

def listenerFailure? : Except (RunError ε) α → Option ε
  | .ok _ => none
  | .error e => e.failure?

-- A part that was heard to its end told the listener hooks of which `P` holds, one by one.
def Told (l : Listener ε σ) (P : Hook → Prop) (part : Heard ε σ α) : Prop :=
  ∀ s t ending, part s = some (t, ending) →
    ∃ hooks, (∀ h ∈ hooks, P h) ∧ announce l s hooks = (t, listenerFailure? ending)

section Told

variable (l : Listener ε σ) (P : Hook → Prop)

theorem told_give (x : α) : Told l P (Heard.give x) := by
  intro s t ending heard
  cases heard
  exact ⟨[], fun _ mem => absurd mem List.not_mem_nil, rfl⟩

theorem told_stop (e : RuleError) : Told l P (Heard.stop (.rule e) : Heard ε σ α) := by
  intro s t ending heard
  cases heard
  exact ⟨[], fun _ mem => absurd mem List.not_mem_nil, rfl⟩

theorem tell_announced (h : Hook) (s t : σ) (ending : Except (RunError ε) Unit)
    (heard : Heard.tell l h s = some (t, ending)) : announce l s [h] = (t, listenerFailure? ending) := by
  rcases step : l s h with ⟨u, _ | e⟩
  · simp only [Heard.tell, step] at heard
    cases heard
    exact announce_heard l s t h [] step
  · simp only [Heard.tell, step] at heard
    cases heard
    exact announce_refused l s t h [] e step

theorem told_tell (h : Hook) (holds : P h) : Told l P (Heard.tell l h) := by
  intro s t ending heard
  exact ⟨[h], List.forall_mem_singleton.mpr holds, tell_announced l h s t ending heard⟩

theorem then_assoc {γ : Type} (part : Heard ε σ α) (next : α → Heard ε σ β) (last : β → Heard ε σ γ) :
    (part.andThen next).andThen last = part.andThen fun x => (next x).andThen last := by
  funext s
  simp only [Heard.andThen]
  rcases part s with _ | ⟨t, _ | x⟩ <;> rfl

theorem told_then (part : Heard ε σ α) (next : α → Heard ε σ β) (first : Told l P part)
    (rest : ∀ x, Told l P (next x)) : Told l P (part.andThen next) := by
  intro s t ending heard
  rcases heard_then_cases part next s t ending heard with ⟨e, front, rfl⟩ | ⟨u, x, front, back⟩
  · exact first s t _ front
  · obtain ⟨hooks, holds, told⟩ := first s u _ front
    obtain ⟨others, holds', told'⟩ := rest x u t ending back
    refine ⟨hooks ++ others, List.forall_mem_append.mpr ⟨holds, holds'⟩, ?_⟩
    rw [announce_append, told]
    exact told'

theorem told_simulation (opens : ∀ c, P (.beforeMatch c)) (closes : ∀ (v : Verdict) c, P (v.closing c)) :
    Simulation (Mode.heard l) (Mode.heard l) (fun _ => True) fun _ part _ => Told l P part where
  exhausted _ _ _ _ _ heard := nomatch heard
  conclude _ v _ := told_give l P v
  abort _ e := told_stop l P e
  andThen _ part _ next _ first rest := told_then l P part next first fun v => rest v trivial
  enclose c _ _ _ inside :=
    told_then l P _ _ (told_tell l P _ (opens c)) fun _ => told_then l P _ _ inside fun v =>
      told_then l P _ _ (told_tell l P _ (closes v c)) fun _ => told_give l P v

theorem heard_told (starts : ∀ c input, P (.beforeParse c input)) (opens : ∀ c, P (.beforeMatch c))
    (closes : ∀ (v : Verdict) c, P (v.closing c)) (fuel : Nat) (g : Grammar) (input : Input) (s t : σ)
    (outcome : Except (RunError ε) ParseResult) (heard : g.heardWith fuel input l s = some (t, outcome)) :
    ∃ hooks, (∀ h ∈ hooks.dropLast, P h) ∧ announce l s hooks = (t, listenerFailure? outcome) := by
  have inside := told_then l P _ _ (told_tell l P (.beforeParse ⟨g.root, 0, 0⟩ input) (starts _ _)) fun _ =>
    (told_simulation l P opens closes).root g input fuel
  rw [Grammar.heardWith, ← then_assoc] at heard
  rcases heard_then_cases _ _ s t outcome heard with ⟨e, front, rfl⟩ | ⟨u, v, front, back⟩
  · obtain ⟨hooks, holds, told⟩ := inside s t _ front
    exact ⟨hooks, fun h mem => holds h (List.dropLast_subset _ mem), told⟩
  · obtain ⟨hooks, holds, told⟩ := inside s u _ front
    refine ⟨hooks ++ [.afterParse (v.result input.length)], by rwa [List.dropLast_concat], ?_⟩
    rw [announce_append, told]
    rcases heard_then_cases _ _ u t outcome back with ⟨e, last, rfl⟩ | ⟨w, _, last, given⟩
    · exact tell_announced l _ u t _ last
    · cases given
      exact tell_announced l _ u t _ last

end Told

end MatchTrace
