import MatchTrace.Proofs.Trace.Nesting

/-!
The call tree of a run: every invocation with those inside it, one after the other. The recorder numbers the
calls as they are entered, and tells a row of each as it is left, so what it sends is a walk over the tree.
-/

namespace MatchTrace

set_option autoImplicit false

structure CallPoint where
  phase : Phase
  nodeId : Nat
  parentId : Int
  level : Nat
  matcherId : Nat
  startOffset : Nat
  offset : Nat
deriving DecidableEq

def Event.point (e : Event) : CallPoint :=
  ⟨e.phase, e.nodeId, e.parentId, e.level, e.matcher.id, e.startOffset, e.offset⟩

def FinishedCall.timeless (r : FinishedCall) : FinishedCall := { r with elapsedNanos := 0 }

def FinishedCall.opening (r : FinishedCall) : CallPoint :=
  ⟨.enter, r.id, r.parentId, r.level, r.matcherId, r.startOffset, r.startOffset⟩

def FinishedCall.closing (r : FinishedCall) : CallPoint :=
  ⟨if r.success then .success else .failure, r.id, r.parentId, r.level, r.matcherId, r.startOffset, r.endOffset⟩

-- Calls that follow each other, each with the calls inside it. Numbers, parents and levels follow from the
-- place of a call.
inductive CallForest where
  | nil
  | call (matcherId startOffset endOffset : Nat) (success : Bool) (inner rest : CallForest)

namespace CallForest

def size : CallForest → Nat
  | nil => 0
  | call _ _ _ _ inner rest => 1 + inner.size + rest.size

def append : CallForest → CallForest → CallForest
  | nil, after => after
  | call m s e ok inner rest, after => call m s e ok inner (rest.append after)

def points : CallForest → Int → Nat → Nat → List CallPoint
  | nil, _, _, _ => []
  | call m s e ok inner rest, parent, level, first =>
    let row : FinishedCall := ⟨parent, first, level, ok, m, s, e, 0⟩
    row.opening :: (inner.points first (level + 1) (first + 1) ++
      row.closing :: rest.points parent level (first + (1 + inner.size)))

def rows : CallForest → Int → Nat → Nat → List FinishedCall
  | nil, _, _, _ => []
  | call m s e ok inner rest, parent, level, first =>
    inner.rows first (level + 1) (first + 1) ++
      ⟨parent, first, level, ok, m, s, e, 0⟩ :: rest.rows parent level (first + (1 + inner.size))

def All (P : Nat → Nat → Bool → Prop) : CallForest → Prop
  | nil => True
  | call _ s e ok inner rest => P s e ok ∧ inner.All P ∧ rest.All P

theorem size_append (f g : CallForest) : (f.append g).size = f.size + g.size := by
  induction f with
  | nil => simp only [append, size, Nat.zero_add]
  | call m s e ok inner rest _ ih =>
      simp only [append, size, ih]
      omega

theorem points_append (f g : CallForest) (parent : Int) (level first : Nat) :
    (f.append g).points parent level first =
      f.points parent level first ++ g.points parent level (first + f.size) := by
  induction f generalizing first with
  | nil => rfl
  | call m s e ok inner rest _ ih =>
      simp only [append, points, size, ih, List.cons_append, List.append_assoc, Nat.add_assoc]

theorem rows_append (f g : CallForest) (parent : Int) (level first : Nat) :
    (f.append g).rows parent level first = f.rows parent level first ++ g.rows parent level (first + f.size) := by
  induction f generalizing first with
  | nil => rfl
  | call m s e ok inner rest _ ih =>
      simp only [append, rows, size, ih, List.cons_append, List.append_assoc, Nat.add_assoc]

theorem all_append (P : Nat → Nat → Bool → Prop) (f g : CallForest) (first : f.All P) (second : g.All P) :
    (f.append g).All P := by
  induction f with
  | nil => exact second
  | call m s e ok inner rest _ ih => exact ⟨first.1, first.2.1, ih first.2.2⟩

theorem points_length (f : CallForest) (parent : Int) (level first : Nat) :
    (f.points parent level first).length = 2 * f.size := by
  induction f generalizing parent level first with
  | nil => rfl
  | call m s e ok inner rest innerIH restIH =>
      simp only [points, size, List.length_cons, List.length_append, innerIH, restIH]
      omega

theorem rows_length (f : CallForest) (parent : Int) (level first : Nat) :
    (f.rows parent level first).length = f.size := by
  induction f generalizing parent level first with
  | nil => rfl
  | call m s e ok inner rest innerIH restIH =>
      simp only [rows, size, List.length_cons, List.length_append, innerIH, restIH]
      omega

theorem rows_all (P : Nat → Nat → Bool → Prop) (f : CallForest) (all : f.All P) (parent : Int) (level first : Nat) :
    ∀ r ∈ f.rows parent level first, P r.startOffset r.endOffset r.success := by
  induction f generalizing parent level first with
  | nil => intro r mem; cases mem
  | call m s e ok inner rest innerIH restIH =>
      obtain ⟨here, inside, after⟩ := all
      intro r mem
      rcases List.mem_append.mp mem with mem | mem
      · exact innerIH inside _ _ _ r mem
      rcases List.mem_cons.mp mem with rfl | mem
      · exact here
      · exact restIH after _ _ _ r mem

theorem rows_within (f : CallForest) (parent : Int) (level first : Nat) :
    ∀ r ∈ f.rows parent level first, first ≤ r.id ∧ r.id < first + f.size ∧
      (r.parentId = parent ∨ (first : Int) ≤ r.parentId ∧ r.parentId < r.id) := by
  induction f generalizing parent level first with
  | nil => intro r mem; cases mem
  | call m s e ok inner rest innerIH restIH =>
      intro r mem
      rw [size]
      rcases List.mem_append.mp mem with mem | mem
      · have inside := innerIH first (level + 1) (first + 1) r mem
        omega
      rcases List.mem_cons.mp mem with rfl | mem
      · exact ⟨Nat.le_refl first, by dsimp only; omega, .inl rfl⟩
      · have after := restIH parent level (first + (1 + inner.size)) r mem
        omega

theorem rows_ids (f : CallForest) (parent : Int) (level first : Nat) :
    ((f.rows parent level first).map (·.id)).Perm (List.range' first f.size) := by
  induction f generalizing parent level first with
  | nil => exact .nil
  | call m s e ok inner rest innerIH restIH =>
      have inside := innerIH first (level + 1) (first + 1)
      have after := restIH parent level (first + (1 + inner.size))
      have split : List.range' first (1 + inner.size + rest.size) =
          first :: (List.range' (first + 1) inner.size ++ List.range' (first + (1 + inner.size)) rest.size) := by
        rw [Nat.add_assoc, Nat.add_comm 1, List.range'_succ, ← List.range'_append_1]
        simp only [Nat.add_assoc]
      rw [rows, size, List.map_append, List.map_cons, split]
      exact List.perm_middle.trans ((inside.append after).cons first)

example : ((call 0 0 2 true (call 1 0 1 true .nil (call 1 1 1 false .nil .nil)) .nil).rows rootParent 0 0).map (·.id) =
    [1, 2, 0] := rfl

theorem split_cases (before after front back : List FinishedCall) (middle r : FinishedCall)
    (same : before ++ middle :: after = front ++ r :: back) :
    (∃ rest, before = front ++ r :: rest ∧ back = rest ++ middle :: after) ∨ r = middle ∧ back = after ∨
      ∃ rest, after = rest ++ r :: back := by
  rcases List.append_eq_append_iff.mp same with ⟨rest, rfl, shape⟩ | ⟨rest, rfl, shape⟩
  · cases rest with
    | nil =>
        obtain ⟨rfl, rfl⟩ := List.cons.inj shape
        exact .inr (.inl ⟨rfl, rfl⟩)
    | cons x xs => exact .inr (.inr ⟨xs, (List.cons.inj shape).2⟩)
  · cases rest with
    | nil =>
        obtain ⟨rfl, rfl⟩ := List.cons.inj shape
        exact .inr (.inl ⟨rfl, rfl⟩)
    | cons x xs =>
        obtain ⟨rfl, rfl⟩ := List.cons.inj shape
        exact .inl ⟨xs, rfl, rfl⟩

theorem rows_parents (f : CallForest) (parent : Int) (level first : Nat) (front back : List FinishedCall)
    (r : FinishedCall) (shape : f.rows parent level first = front ++ r :: back) :
    (r.parentId = parent ∧ r.level = level) ∨
      ∃ q ∈ back, (q.id : Int) = r.parentId ∧ q.id < r.id ∧ r.level = q.level + 1 := by
  induction f generalizing parent level first front back with
  | nil => simp [rows] at shape
  | call m s e ok inner rest innerIH restIH =>
      rw [rows] at shape
      rcases split_cases _ _ front back _ r shape with ⟨others, inside, rfl⟩ | ⟨rfl, -⟩ | ⟨others, after⟩
      · right
        have mem : r ∈ inner.rows first (level + 1) (first + 1) := inside ▸ List.mem_append_right _ List.mem_cons_self
        have later := (rows_within inner first (level + 1) (first + 1) r mem).1
        rcases innerIH first (level + 1) (first + 1) front others inside with ⟨direct, deeper⟩ | ⟨q, below, holds⟩
        · exact ⟨_, List.mem_append_right _ List.mem_cons_self, direct.symm, later, deeper⟩
        · exact ⟨q, List.mem_append_left _ below, holds⟩
      · exact .inl ⟨rfl, rfl⟩
      · exact restIH parent level (first + (1 + inner.size)) others back after

end CallForest

namespace Recorder

structure Tells (x t : Recorder) (events : List Event) (forest : CallForest) : Prop where
  sent : t.outbox = (events.map Message.event).reverse ++ x.outbox
  calls : t.openCalls = x.openCalls
  length : t.inputLength = x.inputLength
  number : t.nextNode = x.nextNode + forest.size
  points : events.map Event.point = forest.points (parentOf x.openCalls) x.depth x.nextNode
  rows : (events.filterMap Event.finishedCall?).map FinishedCall.timeless =
    forest.rows (parentOf x.openCalls) x.depth x.nextNode

def Places (P : Call → Verdict → Prop) (length start stop : Nat) (success : Bool) : Prop :=
  ∃ (c : Call) (v : Verdict), P c v ∧ start = min c.index length ∧ stop = exitOffset length v.index v.matched ∧
    success = v.matched

theorem tells_nothing (x : Recorder) : x.Tells x [] .nil := ⟨rfl, rfl, rfl, rfl, rfl, rfl⟩

theorem tells_append (x y t : Recorder) (es fs : List Event) (f g : CallForest) (first : x.Tells y es f)
    (second : y.Tells t fs g) : x.Tells t (es ++ fs) (f.append g) := by
  have depth : y.depth = x.depth := congrArg List.length first.calls
  refine ⟨?_, second.calls.trans first.calls, second.length.trans first.length, ?_, ?_, ?_⟩
  · rw [second.sent, first.sent, List.map_append, List.reverse_append, List.append_assoc]
  · rw [second.number, first.number, CallForest.size_append, Nat.add_assoc]
  · rw [List.map_append, CallForest.points_append, first.points, second.points, first.calls, depth, first.number]
  · rw [List.filterMap_append, List.map_append, CallForest.rows_append, first.rows, second.rows, first.calls, depth,
      first.number]

theorem opening_state (clock : Nat → Clock) (x t : Recorder) (c : Call)
    (step : listen clock x (.beforeMatch c) = (t, none)) :
    c.level = x.depth ∧ ∃ matcher catalog classifier,
      x.catalog.resolve x.classifier c.rule = (.ok matcher, catalog, classifier) ∧
      t = { { x with readings := x.readings + 1 }.entered (clock x.readings).nanos c matcher catalog classifier with
        outbox := .event (x.enterEvent (clock x.readings).nanos c matcher) :: x.outbox } := by
  rcases enter_cases _ t _ c none step with
    ⟨-, -, refused⟩ | ⟨-, _, _, _, -, -, refused⟩ | ⟨level, matcher, catalog, classifier, resolved, sent⟩
  · cases refused
  · cases refused
  · exact ⟨level, matcher, catalog, classifier, resolved, send_sent _ t _ sent.symm⟩

theorem closing_state (clock : Nat → Clock) (x t : Recorder) (c : Call) (v : Verdict)
    (step : listen clock x (v.closing c) = (t, none)) :
    ∃ call openCalls, x.openCalls = call :: openCalls ∧ c.level = openCalls.length ∧
      t = { x with
        readings := x.readings + 1, openCalls
        outbox := .event (x.exitEvent (clock x.readings).nanos v.matched { c with index := v.index } call) :: x.outbox } := by
  rw [listen_closing] at step
  rcases exit_cases _ t _ _ _ none step with ⟨-, -, refused⟩ | ⟨call, openCalls, calls, level, sent⟩
  · cases refused
  · exact ⟨call, openCalls, calls, level, send_sent _ t _ sent.symm⟩

theorem exit_row (x : Recorder) (now : Nat) (success : Bool) (c : Call) (call : OpenCall) :
    (x.exitEvent now success c call).finishedCall?.map FinishedCall.timeless =
      some ⟨call.parentId, call.nodeId, c.level, success, call.matcher.id, call.startOffset,
        exitOffset x.inputLength c.index success, 0⟩ := by
  cases success <;> rfl

theorem finish_number (clock : Nat → Clock) (x t : Recorder) (result : ParseResult)
    (step : listen clock x (.afterParse result) = (t, none)) : t.nextNode = x.nextNode := by
  rcases sent : { x with readings := x.readings + 1, result := some result }.send .finish with ⟨y, answer⟩
  simp only [listen, react, finish, sent, Prod.mk.injEq] at step
  obtain ⟨rfl, rfl⟩ := step
  change y.nextNode = x.nextNode
  rw [send_sent _ y _ sent]

theorem call_tells (clock : Nat → Clock) (x y z t : Recorder) (c : Call) (v : Verdict) (es : List Event)
    (inner : CallForest) (enter : listen clock x (.beforeMatch c) = (y, none)) (within : y.Tells z es inner)
    (exit : listen clock z (v.closing c) = (t, none)) :
    ∃ (m : Nat) (first last : Event), x.Tells t (first :: (es ++ [last]))
      (.call m (min c.index x.inputLength) (exitOffset x.inputLength v.index v.matched) v.matched inner .nil) := by
  obtain ⟨level, matcher, catalog, classifier, -, rfl⟩ := opening_state clock x y c enter
  obtain ⟨call, openCalls, calls, outer, rfl⟩ := closing_state clock z t c v exit
  obtain ⟨rfl, rfl⟩ := List.cons.inj (calls.symm.trans within.calls)
  have size : z.inputLength = x.inputLength := within.length
  have number : z.nextNode = x.nextNode + 1 + inner.size := within.number
  let row : FinishedCall := ⟨parentOf x.openCalls, x.nextNode, x.depth, v.matched, matcher.id, min c.index x.inputLength,
    exitOffset x.inputLength v.index v.matched, 0⟩
  let first := x.enterEvent (clock x.readings).nanos c matcher
  let last := z.exitEvent (clock z.readings).nanos v.matched { c with index := v.index }
    (x.newCall (clock x.readings).nanos c matcher)
  have head : first.point = row.opening := by simp only [first, row, Event.point, enterEvent, level, FinishedCall.opening]
  have tail : last.point = row.closing := by
    simp only [last, row, Event.point, exitEvent, newCall, level, size, FinishedCall.closing]
  have left : last.finishedCall?.map FinishedCall.timeless = some row := by
    rw [exit_row]
    simp only [row, newCall, level, size]
  refine ⟨matcher.id, first, last, ⟨?_, rfl, size, ?_, ?_, ?_⟩⟩
  · simp only [within.sent, List.map_cons, List.map_append, List.map_nil, List.reverse_cons, List.reverse_append,
      List.reverse_nil, List.nil_append, List.append_assoc, List.singleton_append]
    rfl
  · simp only [CallForest.size, number]
    omega
  · have inside : es.map Event.point = inner.points x.nextNode (x.depth + 1) (x.nextNode + 1) := within.points
    simp only [List.map_cons, List.map_append, List.map_nil, head, tail, inside, CallForest.points]
    rfl
  · have inside : (es.filterMap Event.finishedCall?).map FinishedCall.timeless =
        inner.rows x.nextNode (x.depth + 1) (x.nextNode + 1) := within.rows
    obtain ⟨told, ended, same⟩ := Option.map_eq_some_iff.mp left
    have opened : first.finishedCall? = none := rfl
    simp only [List.filterMap_cons, List.filterMap_append, List.filterMap_nil, List.map_append, List.map_cons,
      List.map_nil, opened, ended, same, inside, CallForest.rows]
    rfl

theorem enclosed_tells (clock : Nat → Clock) (P : Call → Verdict → Prop) (level : Nat) (hooks : List Hook)
    (enclosed : Enclosed P level hooks) (x t : Recorder) (told : announce (listen clock) x hooks = (t, none)) :
    ∃ events forest, x.Tells t events forest ∧ forest.All (Places P x.inputLength) := by
  induction enclosed generalizing x t with
  | nil =>
      cases told
      exact ⟨[], .nil, tells_nothing x, trivial⟩
  | call c v inner rest holds _ _ innerIH restIH =>
      obtain ⟨y, enter, told⟩ := announce_cons (listen clock) x t _ _ told
      obtain ⟨z, within, told⟩ := announce_parts (listen clock) y t inner _ told
      obtain ⟨w, exit, told⟩ := announce_cons (listen clock) z t _ _ told
      obtain ⟨es, inside, tellsIn, placesIn⟩ := innerIH y z within
      obtain ⟨m, first, last, tells⟩ := call_tells clock x y z w c v es inside enter tellsIn exit
      obtain ⟨fs, after, tellsRest, placesRest⟩ := restIH w t told
      have same : y.inputLength = x.inputLength := by
        obtain ⟨-, _, _, _, -, rfl⟩ := opening_state clock x y c enter
        rfl
      rw [same] at placesIn
      rw [tells.length] at placesRest
      refine ⟨_, _, tells_append x w t _ fs _ after tells tellsRest, ?_⟩
      exact CallForest.all_append _ _ _ ⟨⟨c, v, holds, rfl, rfl, rfl⟩, placesIn, trivial⟩ placesRest

theorem parse_tells (clock : Nat → Clock) (P : Call → Verdict → Prop) (root : Call) (input : Input)
    (result : ParseResult) (v : Verdict) (inner : List Hook) (holds : P root v) (enclosed : Enclosed P (root.level + 1) inner)
    (x t : Recorder) (fresh : x.outbox = [])
    (told : announce (listen clock) x (.beforeParse root input ::
      ((.beforeMatch root :: (inner ++ [v.closing root])) ++ [.afterParse result])) = (t, none)) :
    ∃ (events : List Event) (m : Nat) (inside : CallForest),
      let tree : CallForest := .call m (min root.index input.length) (exitOffset input.length v.index v.matched) v.matched
        inside .nil
      t.sent = events.map .event ++ [.finish] ∧ t.nextNode = tree.size ∧
      events.map Event.point = tree.points rootParent 0 0 ∧
      (events.filterMap Event.finishedCall?).map FinishedCall.timeless = tree.rows rootParent 0 0 ∧
      tree.All (Places P input.length) := by
  obtain ⟨y, start, told⟩ := announce_cons (listen clock) x t _ _ told
  obtain ⟨z, told, after⟩ := announce_parts (listen clock) y t _ _ told
  obtain ⟨t', after, rest⟩ := announce_cons (listen clock) z t _ _ after
  cases rest
  cases start
  obtain ⟨a, enter, told⟩ := announce_cons (listen clock) _ z _ _ told
  obtain ⟨b, within, told⟩ := announce_parts (listen clock) a z inner _ told
  obtain ⟨c, exit, rest⟩ := announce_cons (listen clock) b z _ _ told
  cases rest
  obtain ⟨es, inside, tellsIn, placesIn⟩ := enclosed_tells clock P _ inner enclosed a b within
  obtain ⟨m, first, last, tells⟩ := call_tells clock _ a b z root v es inside enter tellsIn exit
  have same : a.inputLength = input.length := by
    obtain ⟨-, _, _, _, -, rfl⟩ := opening_state clock _ a root enter
    rfl
  rw [same] at placesIn
  have number : t.nextNode = z.nextNode := finish_number clock z t result after
  refine ⟨_, m, inside, ?_, ?_, tells.points, tells.rows, ⟨root, v, holds, rfl, rfl, rfl⟩, placesIn, trivial⟩
  · rw [Recorder.sent, finish_sent clock _ t result after, tells.sent]
    simp [Recorder.start, fresh]
  · exact number.trans (tells.number.trans (Nat.zero_add _))

end Recorder

end MatchTrace
