/-!
Chains of steps that may fail: what it says of each step that the chain came to an end.
-/

namespace MatchTrace

set_option autoImplicit false

variable {ε α β : Type}

theorem bind_ok (x : Except ε α) (f : α → Except ε β) (y : β) (ran : (x >>= f) = .ok y) :
    ∃ a, x = .ok a ∧ f a = .ok y := by
  cases x with
  | error e => cases ran
  | ok a => exact ⟨a, rfl, ran⟩

theorem bind_ok_iff (x : Except ε α) (f : α → Except ε β) (y : β) :
    (x >>= f) = .ok y ↔ ∃ a, x = .ok a ∧ f a = .ok y := by
  refine ⟨bind_ok x f y, ?_⟩
  rintro ⟨a, rfl, ran⟩
  exact ran

theorem bind_error_iff (x : Except ε α) (f : α → Except ε β) (e : ε) :
    (x >>= f) = .error e ↔ x = .error e ∨ ∃ a, x = .ok a ∧ f a = .error e := by
  cases x with
  | error first =>
      constructor
      · rintro ⟨⟩
        exact .inl rfl
      · rintro (same | ⟨_, none, _⟩)
        · cases same
          rfl
        · cases none
  | ok a =>
      refine ⟨fun failed => .inr ⟨a, rfl, failed⟩, ?_⟩
      rintro (none | ⟨_, same, failed⟩)
      · cases none
      · cases same
        exact failed

theorem bind_pure_ok_iff (x : Except ε α) (g : α → β) (y : β) :
    (x >>= fun a => pure (g a)) = .ok y ↔ ∃ a, x = .ok a ∧ y = g a := by
  rw [bind_ok_iff]
  refine exists_congr fun a => and_congr_right' ?_
  exact ⟨fun same => (Except.ok.inj same).symm, fun same => congrArg Except.ok same.symm⟩

theorem bind_pure_error_iff (x : Except ε α) (g : α → β) (e : ε) :
    (x >>= fun a => pure (g a)) = .error e ↔ x = .error e := by
  rw [bind_error_iff, or_iff_left]
  rintro ⟨_, _, none⟩
  cases none

theorem guard_ok (p : Prop) [Decidable p] (e : ε) (x : Except ε α) (y : α)
    (passed : (if p then throw e else x) = .ok y) : ¬ p ∧ x = .ok y := by
  by_cases refused : p
  · rw [if_pos refused] at passed
    cases passed
  · rw [if_neg refused] at passed
    exact ⟨refused, passed⟩

theorem map_m_pure {m : Type → Type} [Monad m] [LawfulMonad m] (f : α → m β) (g : α → β) (xs : List α)
    (each : ∀ x ∈ xs, f x = pure (g x)) : xs.mapM f = pure (xs.map g) := by
  induction xs with
  | nil => rfl
  | cons x xs ih =>
      rw [List.mapM_cons, each x List.mem_cons_self, ih fun y mem => each y (List.mem_cons_of_mem x mem)]
      simp

theorem map_m_some_iff (f : α → Option β) (xs : List α) (ys : List β) : xs.mapM f = some ys ↔ xs.map f = ys.map some := by
  induction xs generalizing ys with
  | nil => cases ys <;> simp
  | cons x xs ih =>
      rw [List.mapM_cons, List.map_cons]
      cases f x with
      | none => cases ys <;> simp
      | some y =>
          cases ys with
          | nil => simp [Option.bind_eq_some_iff]
          | cons z zs => simp [← ih zs, Option.bind_eq_some_iff, and_assoc, and_comm]

theorem map_m_ok_iff (f : α → Except ε β) (xs : List α) (ys : List β) : xs.mapM f = .ok ys ↔ xs.map f = ys.map .ok := by
  induction xs generalizing ys with
  | nil =>
      rw [List.mapM_nil, List.map_nil, eq_comm (b := List.map _ _), List.map_eq_nil_iff]
      exact ⟨fun same => (Except.ok.inj same).symm, fun none => none ▸ rfl⟩
  | cons x xs ih =>
      rw [List.mapM_cons, bind_ok_iff, List.map_cons]
      constructor
      · rintro ⟨y, first, ran⟩
        obtain ⟨zs, others, same⟩ := (bind_ok_iff _ _ _).mp ran
        cases same
        rw [first, (ih zs).mp others, List.map_cons]
      · intro same
        cases ys with
        | nil => cases same
        | cons y ys =>
            obtain ⟨first, others⟩ := List.cons.inj same
            exact ⟨y, first, (bind_ok_iff _ _ _).mpr ⟨ys, (ih ys).mpr others, rfl⟩⟩

theorem map_m_error_iff (f : α → Except ε β) (xs : List α) (e : ε) :
    xs.mapM f = .error e ↔
      ∃ before x after, xs = before ++ x :: after ∧ (∀ y ∈ before, ∃ z, f y = .ok z) ∧ f x = .error e := by
  induction xs with
  | nil =>
      refine iff_of_false (fun failed => nomatch failed) ?_
      rintro ⟨before, x, after, none, -⟩
      cases before <;> cases none
  | cons x xs ih =>
      rw [List.mapM_cons, bind_error_iff]
      constructor
      · rintro (failed | ⟨z, first, failed⟩)
        · exact ⟨[], x, xs, rfl, List.forall_mem_nil _, failed⟩
        · obtain failed | ⟨_, _, ⟨⟩⟩ := (bind_error_iff _ _ _).mp failed
          obtain ⟨before, y, after, rfl, sound, failed⟩ := ih.mp failed
          exact ⟨x :: before, y, after, rfl, List.forall_mem_cons.mpr ⟨⟨z, first⟩, sound⟩, failed⟩
      · rintro ⟨before, y, after, same, sound, failed⟩
        cases before with
        | nil =>
            cases same
            exact .inl failed
        | cons _ before =>
            obtain ⟨rfl, rfl⟩ := List.cons.inj same
            obtain ⟨⟨z, first⟩, sound⟩ := List.forall_mem_cons.mp sound
            refine .inr ⟨z, first, (bind_error_iff _ _ _).mpr (.inl ?_)⟩
            exact ih.mpr ⟨before, y, after, rfl, sound, failed⟩

theorem map_m_numbered (f : Nat → Except ε β) (g : α → β) (xs : List α) (start : Nat)
    (each : ∀ i x, xs[i]? = some x → f (start + i) = .ok (g x)) :
    (List.range' start xs.length).mapM f = .ok (xs.map g) := by
  induction xs generalizing start with
  | nil => rfl
  | cons x xs ih =>
      have first := each 0 x rfl
      have others := ih (start + 1) fun i y found => by
        rw [Nat.add_assoc, Nat.add_comm 1 i]
        exact each (i + 1) y found
      rw [Nat.add_zero] at first
      rw [List.length_cons, List.range'_succ, List.mapM_cons, first, others]
      rfl

end MatchTrace
