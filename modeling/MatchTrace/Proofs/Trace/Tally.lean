import MatchTrace.Proofs.Match.Nesting
import MatchTrace.Proofs.Text.LineTable
import MatchTrace.Proofs.Trace.Nesting
import MatchTrace.Text.Units

/-!
What a recorder counts. Matchers are numbered in the order in which enters name them, every event names one of
them, and the lines are those of the text.
-/

namespace MatchTrace

set_option autoImplicit false

theorem wide_units (cs : List Char) : unitCount cs = cs.length + cs.countP fun c => 0xFFFF < c.toNat := by
  induction cs with
  | nil => rfl
  | cons c cs ih =>
      rw [unitCount, List.map_cons, List.foldr_cons]
      change unitWidth c + unitCount cs = _
      rw [ih, List.length_cons, List.countP_cons, unitWidth]
      by_cases wide : 0xFFFF < c.toNat
      · rw [if_neg (by omega), if_pos (decide_eq_true wide)]
        omega
      · rw [if_pos (by omega), if_neg (by simpa using wide)]
        omega

theorem seen_known (xs : List Nat) (count n : Nat) (seen : xs.eraseDups = List.range count) (known : n < count) :
    (xs ++ [n]).eraseDups = List.range count := by
  have old : n ∈ xs := List.mem_eraseDups.mp (seen ▸ List.mem_range.mpr known)
  rw [erase_dups_snoc, if_pos old, seen]

theorem seen_fresh (xs : List Nat) (count : Nat) (seen : xs.eraseDups = List.range count) :
    (xs ++ [count]).eraseDups = List.range (count + 1) := by
  have fresh : count ∉ xs := by
    intro old
    have below := List.mem_range.mp (seen ▸ List.mem_eraseDups.mpr old)
    exact Nat.lt_irrefl count below
  rw [erase_dups_snoc, if_neg fresh, seen, List.range_succ]

theorem resolve_cases (x : Catalog) (k : Classifier) (r : Rule) (d : Descriptor) (catalog : Catalog)
    (classifier : Classifier) (resolved : x.resolve k r = (.ok d, catalog, classifier)) :
    (catalog = x ∧ d ∈ x.descriptors) ∨ (catalog.descriptors = x.descriptors ++ [d] ∧ d.id = x.size) := by
  cases Catalog.resolves _ _ _ _ _ _ resolved with
  | known _ held => exact .inl ⟨rfl, Catalog.get_mem x r d held⟩
  | fresh _ _ _ _ _ => exact .inr ⟨List.map_append, rfl⟩

def Message.named? : Message → Option Nat
  | .event e => if e.phase = .enter then some e.matcher.id else none
  | .finish => none

namespace Recorder

def named (x : Recorder) : List Nat := x.sent.filterMap Message.named?

structure Tallied (lines : Nat) (x : Recorder) : Prop where
  lines : ∀ n, x.lineCount = some n → n = lines
  ids : x.catalog.descriptors.map (·.id) = List.range x.catalog.descriptors.length
  calls : ∀ call ∈ x.openCalls, call.matcher ∈ x.catalog.descriptors
  events : ∀ e, .event e ∈ x.outbox → e.matcher ∈ x.catalog.descriptors
  seen : x.named.eraseDups = List.range x.catalog.descriptors.length

theorem named_sent (x t : Recorder) (m : Message) (grown : t.outbox = m :: x.outbox) :
    t.named = x.named ++ m.named?.toList := by
  rw [named, named, sent, sent, grown, List.reverse_cons, List.filterMap_append, List.filterMap_cons]
  cases m.named? <;> rfl

theorem id_below (ds : List Descriptor) (ids : ds.map (·.id) = List.range ds.length) (d : Descriptor) (mem : d ∈ ds) :
    d.id < ds.length := by
  have listed : d.id ∈ ds.map (·.id) := List.mem_map_of_mem mem
  rw [ids] at listed
  exact List.mem_range.mp listed

theorem enter_tallied (lines : Nat) (x t : Recorder) (now : Nat) (c : Call) (tallied : x.Tallied lines)
    (step : x.enter now c = (t, none)) : t.Tallied lines := by
  rcases enter_cases x t now c none step with
    ⟨-, -, refused⟩ | ⟨-, _, _, _, -, -, refused⟩ | ⟨level, matcher, catalog, classifier, resolved, sent⟩
  · cases refused
  · cases refused
  have same := send_sent _ t _ sent.symm
  have grown : t.outbox = .event (x.enterEvent now c matcher) :: x.outbox := by rw [same]; rfl
  have counted : t.lineCount = x.lineCount := by rw [same]; rfl
  have opened : t.openCalls = x.newCall now c matcher :: x.openCalls := by rw [same]; rfl
  have kept : t.catalog = catalog := by rw [same]; rfl
  have name : (Message.event (x.enterEvent now c matcher)).named? = some matcher.id := rfl
  have seen := named_sent x t _ grown
  rw [name] at seen
  rcases resolve_cases x.catalog x.classifier c.rule matcher catalog classifier resolved with
    ⟨rfl, mem⟩ | ⟨rows, fresh⟩
  · refine ⟨counted ▸ tallied.lines, kept ▸ tallied.ids, ?_, ?_, ?_⟩
    · rw [opened, kept]
      exact List.forall_mem_cons.mpr ⟨mem, tallied.calls⟩
    · rw [grown, kept]
      intro e listed
      rcases List.mem_cons.mp listed with same | listed
      · cases same
        exact mem
      · exact tallied.events e listed
    · rw [seen, kept]
      exact seen_known _ _ matcher.id tallied.seen (id_below _ tallied.ids matcher mem)
  · have length : catalog.descriptors.length = x.catalog.descriptors.length + 1 := by
      rw [rows, List.length_append]
      rfl
    have size : x.catalog.size = x.catalog.descriptors.length := (List.length_map _).symm
    have stays (d : Descriptor) (mem : d ∈ x.catalog.descriptors) : d ∈ catalog.descriptors :=
      rows ▸ List.mem_append_left _ mem
    have last : matcher ∈ catalog.descriptors := rows ▸ List.mem_append_right _ List.mem_cons_self
    refine ⟨counted ▸ tallied.lines, ?_, ?_, ?_, ?_⟩
    · rw [kept, length, rows, List.map_append, tallied.ids, List.range_succ, List.map_cons, fresh, size]
      rfl
    · rw [opened, kept]
      exact List.forall_mem_cons.mpr ⟨last, fun call mem => stays _ (tallied.calls call mem)⟩
    · rw [grown, kept]
      intro e listed
      rcases List.mem_cons.mp listed with same | listed
      · cases same
        exact last
      · exact stays _ (tallied.events e listed)
    · rw [seen, kept, length, fresh, size]
      exact seen_fresh _ _ tallied.seen

theorem exit_tallied (lines : Nat) (x t : Recorder) (now : Nat) (success : Bool) (c : Call) (tallied : x.Tallied lines)
    (step : x.exit now success c = (t, none)) : t.Tallied lines := by
  rcases exit_cases x t now success c none step with ⟨-, -, refused⟩ | ⟨call, openCalls, calls, level, sent⟩
  · cases refused
  obtain rfl := send_sent _ t _ sent.symm
  have opened := tallied.calls
  rw [calls] at opened
  have name : (Message.event (x.exitEvent now success c call)).named? = none := by
    cases success <;> rfl
  refine ⟨tallied.lines, tallied.ids, fun other mem => opened other (List.mem_cons_of_mem _ mem), ?_, ?_⟩
  · intro e listed
    rcases List.mem_cons.mp listed with same | listed
    · cases same
      exact opened call List.mem_cons_self
    · exact tallied.events e listed
  · rw [named_sent x _ _ rfl, name]
    exact (congrArg List.eraseDups (List.append_nil _)).trans tallied.seen

theorem finish_tallied (lines : Nat) (x t : Recorder) (result : ParseResult) (tallied : x.Tallied lines)
    (step : x.finish result = (t, none)) : t.Tallied lines := by
  rcases sent : { x with result := some result }.send .finish with ⟨y, answer⟩
  simp only [finish, sent, Prod.mk.injEq] at step
  obtain ⟨rfl, rfl⟩ := step
  obtain rfl := send_sent _ y _ sent
  refine ⟨tallied.lines, tallied.ids, tallied.calls, ?_, ?_⟩
  · intro e listed
    rcases List.mem_cons.mp listed with same | listed
    · cases same
    · exact tallied.events e listed
  · rw [named_sent x _ .finish rfl]
    exact (congrArg List.eraseDups (List.append_nil _)).trans tallied.seen

def Begins (input : Input) : Hook → Prop
  | .beforeParse _ text => text = input
  | _ => True

theorem listen_tallied (clock : Nat → Clock) (input : Input) (x t : Recorder) (h : Hook) (begins : Begins input h)
    (tallied : x.Tallied input.lineTable.lineCount) (step : listen clock x h = (t, none)) :
    t.Tallied input.lineTable.lineCount := by
  have reading : { x with readings := x.readings + 1 }.Tallied input.lineTable.lineCount := { tallied with }
  cases h with
  | beforeParse c text =>
      cases step
      cases begins
      refine ⟨?_, tallied.ids, (fun _ mem => by cases mem), tallied.events, tallied.seen⟩
      intro n counted
      simp only [start] at counted
      split at counted
      · exact (Option.some.inj counted).symm
      · exact tallied.lines n counted
  | beforeMatch c => exact enter_tallied _ _ t _ c reading step
  | matchSuccess c => exact exit_tallied _ _ t _ true c reading step
  | matchFailure c => exact exit_tallied _ _ t _ false c reading step
  | afterParse result => exact finish_tallied _ _ t result reading step

theorem announce_tallied (clock : Nat → Clock) (input : Input) (hooks : List Hook) (x t : Recorder)
    (begins : ∀ h ∈ hooks, Begins input h) (tallied : x.Tallied input.lineTable.lineCount)
    (told : announce (listen clock) x hooks = (t, none)) : t.Tallied input.lineTable.lineCount := by
  induction hooks generalizing x with
  | nil =>
      cases told
      exact tallied
  | cons h hs ih =>
      obtain ⟨y, step, told⟩ := announce_cons (listen clock) x t h hs told
      exact ih y (fun k mem => begins k (List.mem_cons_of_mem h mem))
        (listen_tallied clock input x y h (begins h List.mem_cons_self) tallied step) told

theorem parse_tallied (fuel : Nat) (g : Grammar) (input : Input) (clock : Nat → Clock) (classifier : Classifier)
    (countsLines : Bool) (t : Recorder) (run : Run) (result : ParseResult) (noted : g.runWith fuel input = some run)
    (ended : run.outcome = .ok result)
    (told : announce (listen clock) { classifier, countsLines } run.hooks = (t, none)) :
    t.Tallied input.lineTable.lineCount := by
  obtain ⟨v, inner, -, balanced, hooks⟩ := root_hooks fuel g input run result noted ended
  refine announce_tallied clock input run.hooks _ t ?_ ?_ told
  · rw [hooks]
    intro h mem
    rcases List.mem_cons.mp mem with rfl | mem
    · exact rfl
    rcases List.mem_append.mp mem with mem | mem
    · refine balanced_each (Begins input) (fun _ => trivial) ?_ 0 _ (balanced_call ⟨g.root, 0, 0⟩ v inner balanced) h mem
      rintro ⟨_ | _, index⟩ c
      · exact trivial
      · exact trivial
    · cases List.mem_singleton.mp mem
      exact trivial
  · exact ⟨(fun _ counted => by cases counted), rfl, (fun _ mem => by cases mem), (fun _ mem => by cases mem), rfl⟩

end Recorder

end MatchTrace
