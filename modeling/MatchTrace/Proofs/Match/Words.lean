import MatchTrace.Match.Run
import MatchTrace.Proofs.Match.Simulation
import MatchTrace.Text.Decimal

/-!
The indices of a run. A terminal ends at most one past the text and a custom body moves by words only,
so every index that a run tells is a 64-bit word.
-/

namespace MatchTrace

set_option autoImplicit false

theorem char_at_within (t : Input) (i : Nat) (c : Char) (here : t.charAt i = some c) : i < t.length :=
  (Array.getElem?_eq_some_iff.mp here).1

theorem has_at_within (t : Input) (i : Nat) (cs : List Char) (here : t.hasAt i cs = true) :
    i + cs.length ≤ t.length := by
  induction cs generalizing i with
  | nil => simpa [Input.hasAt] using here
  | cons c cs ih =>
      simp only [Input.hasAt, Bool.and_eq_true] at here
      have rest := ih (i + 1) here.2
      rw [List.length_cons]
      omega

theorem char_width_within (t : Input) (i n : Nat) (accepts : Char → Bool)
    (width : Terminal.charWidth t i accepts = some n) : i + n ≤ t.length := by
  rw [Terminal.charWidth] at width
  cases here : t.charAt i with
  | none => simp [here] at width
  | some c =>
      have inside := char_at_within t i c here
      simp only [here, Option.ite_none_right_eq_some, Option.some.injEq] at width
      omega

theorem width_within (t : Input) (i n : Nat) (terminal : Terminal) (width : terminal.width t i = some n) :
    i + n ≤ max i (t.length + 1) := by
  have short (within : i + n ≤ t.length) : i + n ≤ max i (t.length + 1) := by omega
  cases terminal with
  | ch c => exact short (char_width_within t i n _ width)
  | ignoreCase lower upper => exact short (char_width_within t i n _ width)
  | range low high => exact short (char_width_within t i n _ width)
  | anyOf chars => exact short (char_width_within t i n _ width)
  | nothing => cases width
  | empty =>
      cases width
      exact Nat.le_max_left _ _
  | endOfInput =>
      simp only [Terminal.width, Option.ite_none_right_eq_some, Option.some.injEq] at width
      omega
  | any =>
      simp only [Terminal.width, Option.ite_none_right_eq_some, Option.some.injEq] at width
      omega
  | string cs =>
      simp only [Terminal.width, Option.ite_none_right_eq_some, Option.some.injEq] at width
      exact short (width.2 ▸ has_at_within t i cs width.1)
  | firstOfStrings alternatives =>
      obtain ⟨cs, found, rfl⟩ := Option.map_eq_some_iff.mp width
      exact short (has_at_within t i cs (List.find?_some found))

theorem closed_words (t : Input) (room : t.length < Decimal.maxWord) : Closed (· ≤ Decimal.maxWord) t where
  moves terminal i n here width := by
    have within := width_within t i n terminal width
    omega
  clamped i := Nat.min_le_right i _

def Hook.AtWord : Hook → Prop
  | .beforeMatch c | .matchSuccess c | .matchFailure c => c.index ≤ Decimal.maxWord
  | .afterParse _ => True
  | .beforeParse _ _ => False

theorem closing_at_word (v : Verdict) (c : Call) (here : v.index ≤ Decimal.maxWord) : (v.closing c).AtWord := by
  rcases v with ⟨_ | _, index⟩
  · exact here
  · exact here

def Worded (_ : Nat) (noted _ : Option Trail) : Prop :=
  ∀ t, noted = some t → (∀ h ∈ t.hooks, h.AtWord) ∧ ∀ v, t.ending = .ok v → v.index ≤ Decimal.maxWord

theorem worded_simulation : Simulation Mode.noted Mode.noted (· ≤ Decimal.maxWord) Worded where
  exhausted _ _ t eq := nomatch eq
  conclude _ v here t eq := by
    cases eq
    refine ⟨by simp [Trail.quiet], ?_⟩
    rintro w same
    cases same
    exact here
  abort _ e t eq := by
    cases eq
    exact ⟨by simp [Trail.quiet], fun _ same => nomatch same⟩
  andThen d noted _ f _ part next := by
    intro whole eq
    obtain ⟨t, rfl, eq⟩ := Option.bind_eq_some_iff.mp eq
    obtain ⟨first, there⟩ := part t rfl
    rcases t with ⟨hs, e | v⟩
    · cases eq
      exact ⟨first, fun _ same => nomatch same⟩
    · obtain ⟨u, rest, rfl⟩ := Option.map_eq_some_iff.mp eq
      obtain ⟨second, last⟩ := next v (there v rfl) u rest
      exact ⟨fun h mem => (List.mem_append.mp mem).elim (first h) (second h), last⟩
  enclose c f _ here part := by
    intro whole eq
    obtain ⟨t, inner, rfl⟩ := Option.map_eq_some_iff.mp eq
    obtain ⟨within, there⟩ := part t inner
    refine ⟨fun h mem => ?_, there⟩
    rcases List.mem_cons.mp mem with rfl | mem
    · exact here
    rcases List.mem_append.mp mem with mem | mem
    · exact within h mem
    · rcases t with ⟨hs, e | v⟩
      · cases mem
      · rw [List.mem_singleton.mp mem]
        exact closing_at_word v c (there v rfl)

theorem run_words (fuel : Nat) (g : Grammar) (input : Input) (run : Run) (room : input.length < Decimal.maxWord)
    (noted : g.runWith fuel input = some run) :
    ∃ hooks, run.hooks = .beforeParse ⟨g.root, 0, 0⟩ input :: hooks ∧ ∀ h ∈ hooks, h.AtWord := by
  obtain ⟨t, trail, rfl⟩ := Option.map_eq_some_iff.mp noted
  obtain ⟨worded, -⟩ := worded_simulation.invoke (g.setting input) (closed_words input room) fuel fuel
    (Nat.le_refl fuel) 0 g.root 0 (Nat.zero_le _) t trail
  refine ⟨_, rfl, fun h mem => ?_⟩
  rcases List.mem_append.mp mem with mem | mem
  · exact worded h mem
  · rcases t with ⟨hs, e | v⟩
    · cases mem
    · rw [List.mem_singleton.mp mem]
      trivial

end MatchTrace
