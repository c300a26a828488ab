import MatchTrace.Proofs.Trace.Forest

/-!
The call tree of a run, read from either table. Rows of calls stand in the order in which these are left, and
numbers follow the order in which they are entered; with the number of the parent in each row, the two orders
leave one tree only. Entries of events do not say where a call began, but the entry of its enter does.
-/

namespace MatchTrace

set_option autoImplicit false

namespace FinishedCall

def childrenOf (table : List FinishedCall) (parent : Int) : List FinishedCall :=
  (table.filter fun r => r.parentId == parent).mergeSort fun r q => decide (r.id ≤ q.id)

def retoldBelow (table : List FinishedCall) : Nat → Int → List CallPoint
  | 0, _ => []
  | depth + 1, parent =>
    (childrenOf table parent).flatMap fun r => r.opening :: (retoldBelow table depth r.id ++ [r.closing])

def retold (table : List FinishedCall) : List CallPoint := retoldBelow table table.length rootParent

theorem children_timeless (table : List FinishedCall) (parent : Int) :
    childrenOf (table.map timeless) parent = (childrenOf table parent).map timeless := by
  rw [childrenOf, childrenOf, List.filter_map]
  symm
  apply List.map_mergeSort
  intro r _ q _
  rfl

theorem retold_timeless (table : List FinishedCall) : retold (table.map timeless) = retold table := by
  have below (depth : Nat) (parent : Int) :
      retoldBelow (table.map timeless) depth parent = retoldBelow table depth parent := by
    induction depth generalizing parent with
    | zero => rfl
    | succ depth ih =>
        rw [retoldBelow, retoldBelow, children_timeless, List.flatMap_map]
        congr 1
        funext r
        exact congrArg (fun inside => r.opening :: (inside ++ [r.closing])) (ih r.id)
  rw [retold, retold, List.length_map]
  exact below _ _

end FinishedCall

namespace CallForest

def tops : CallForest → Int → Nat → Nat → List FinishedCall
  | nil, _, _, _ => []
  | call m s e ok inner rest, parent, level, first =>
    ⟨parent, first, level, ok, m, s, e, 0⟩ :: rest.tops parent level (first + (1 + inner.size))

theorem tops_within (f : CallForest) (parent : Int) (level first : Nat) :
    ∀ r ∈ f.tops parent level first, first ≤ r.id := by
  induction f generalizing first with
  | nil => intro r mem; cases mem
  | call m s e ok inner rest _ ih =>
      intro r mem
      rcases List.mem_cons.mp mem with rfl | mem
      · exact Nat.le_refl first
      · have after := ih (first + (1 + inner.size)) r mem
        omega

theorem tops_sorted (f : CallForest) (parent : Int) (level first : Nat) :
    (f.tops parent level first).Pairwise fun r q => decide (r.id ≤ q.id) = true := by
  induction f generalizing first with
  | nil => exact .nil
  | call m s e ok inner rest _ ih =>
      refine .cons (fun r mem => ?_) (ih _)
      have after := tops_within rest parent level (first + (1 + inner.size)) r mem
      exact decide_eq_true (by dsimp only; omega)

theorem rows_elsewhere (f : CallForest) (parent other : Int) (level first : Nat) (apart : other ≠ parent)
    (outside : other < first ∨ first + f.size ≤ other) :
    (f.rows parent level first).filter (fun r => r.parentId == other) = [] := by
  rw [List.filter_eq_nil_iff]
  intro r mem same
  have within := rows_within f parent level first r mem
  rw [beq_iff_eq] at same
  omega

theorem rows_tops (f : CallForest) (parent : Int) (level first : Nat) (below : parent < first) :
    (f.rows parent level first).filter (fun r => r.parentId == parent) = f.tops parent level first := by
  induction f generalizing first with
  | nil => rfl
  | call m s e ok inner rest _ ih =>
      have inside := rows_elsewhere inner first parent (level + 1) (first + 1) (by omega) (by omega)
      have after := ih (first + (1 + inner.size)) (by omega)
      rw [rows, tops, List.filter_append, inside, List.filter_cons_of_pos (by exact beq_self_eq_true parent), after,
        List.nil_append]

section Call

variable (m s e : Nat) (ok : Bool) (inner rest : CallForest) (parent : Int) (level first : Nat) (below : parent < first)

include below

theorem rows_inside (q : Nat) (low : first ≤ q) (high : q < first + 1 + inner.size) :
    ((call m s e ok inner rest).rows parent level first).filter (fun r => r.parentId == (q : Int)) =
      (inner.rows first (level + 1) (first + 1)).filter (fun r => r.parentId == (q : Int)) := by
  have after := rows_elsewhere rest parent q level (first + (1 + inner.size)) (by omega) (by omega)
  have apart : ¬ (parent == (q : Int)) = true := by
    rw [beq_iff_eq]
    omega
  rw [rows, List.filter_append, List.filter_cons_of_neg (by exact apart), after, List.append_nil]

theorem rows_after (q : Nat) (low : first + (1 + inner.size) ≤ q) :
    ((call m s e ok inner rest).rows parent level first).filter (fun r => r.parentId == (q : Int)) =
      (rest.rows parent level (first + (1 + inner.size))).filter (fun r => r.parentId == (q : Int)) := by
  have inside := rows_elsewhere inner first q (level + 1) (first + 1) (by omega) (by omega)
  have apart : ¬ (parent == (q : Int)) = true := by
    rw [beq_iff_eq]
    omega
  rw [rows, List.filter_append, List.filter_cons_of_neg (by exact apart), inside, List.nil_append]

end Call

theorem size_zero (f : CallForest) (none : f.size = 0) : f = nil := by
  cases f with
  | nil => rfl
  | call m s e ok inner rest =>
      rw [size] at none
      omega

-- A part of a table that holds a forest: whatever else is there, the walk finds the calls of the forest.
theorem retold_tops (table : List FinishedCall) (f : CallForest) (parent : Int) (level first depth : Nat)
    (below : parent < first) (deep : f.size ≤ depth + 1)
    (whole : ∀ q : Nat, first ≤ q → q < first + f.size →
      table.filter (fun r => r.parentId == (q : Int)) =
        (f.rows parent level first).filter (fun r => r.parentId == (q : Int))) :
    (f.tops parent level first).flatMap (fun r => r.opening :: (FinishedCall.retoldBelow table depth r.id ++ [r.closing])) =
      f.points parent level first := by
  induction f generalizing parent level first depth with
  | nil => rfl
  | call m s e ok inner rest innerIH restIH =>
      rw [size] at deep whole
      have after := restIH parent level (first + (1 + inner.size)) depth (by omega) (by omega) fun q low high =>
        (whole q (by omega) (by omega)).trans (rows_after m s e ok inner rest parent level first below q low)
      have inside : FinishedCall.retoldBelow table depth first = inner.points first (level + 1) (first + 1) := by
        cases depth with
        | zero =>
            rw [size_zero inner (by omega)]
            rfl
        | succ depth =>
            have children : FinishedCall.childrenOf table first = inner.tops first (level + 1) (first + 1) := by
              rw [FinishedCall.childrenOf, whole first (Nat.le_refl first) (by omega),
                rows_inside m s e ok inner rest parent level first below first (Nat.le_refl first) (by omega),
                rows_tops inner first (level + 1) (first + 1) (by omega)]
              exact List.mergeSort_of_pairwise (tops_sorted inner first (level + 1) (first + 1))
            rw [FinishedCall.retoldBelow, children]
            exact innerIH first (level + 1) (first + 1) depth (by omega) (by omega) fun q low high =>
              (whole q (by omega) (by omega)).trans
                (rows_inside m s e ok inner rest parent level first below q (by omega) high)
      rw [tops, List.flatMap_cons, inside, after, points, List.cons_append, List.append_assoc, List.singleton_append]

theorem retold_rows (f : CallForest) : FinishedCall.retold (f.rows rootParent 0 0) = f.points rootParent 0 0 := by
  rw [FinishedCall.retold, rows_length]
  cases count : f.size with
  | zero =>
      rw [size_zero f count]
      rfl
  | succ depth =>
      have children : FinishedCall.childrenOf (f.rows rootParent 0 0) rootParent = f.tops rootParent 0 0 := by
        rw [FinishedCall.childrenOf, rows_tops f rootParent 0 0 (by decide)]
        exact List.mergeSort_of_pairwise (tops_sorted f rootParent 0 0)
      rw [FinishedCall.retoldBelow, children]
      exact retold_tops _ f rootParent 0 0 depth (by decide) (by omega) fun _ _ _ => rfl

end CallForest

def CallPoint.finished? (x : CallPoint) : Option FinishedCall :=
  if x.phase.isExit then
    some ⟨x.parentId, x.nodeId, x.level, x.phase == .success, x.matcherId, x.startOffset, x.offset, 0⟩
  else none

def CallPoint.opens (nodeId : Nat) (x : CallPoint) : Bool := x.phase == .enter && x.nodeId == nodeId

namespace EventEntry

def startOf (entries : List EventEntry) (nodeId : Nat) : Nat :=
  ((entries.find? fun r => r.phase == .enter && r.nodeId == nodeId).map (·.offset)).getD 0

def points (entries : List EventEntry) : List CallPoint :=
  entries.map fun r => ⟨r.phase, r.nodeId, r.parentId, r.level, r.matcherId, startOf entries r.nodeId, r.offset⟩

def finishedCalls (entries : List EventEntry) : List FinishedCall := (points entries).filterMap CallPoint.finished?

end EventEntry

namespace CallForest

theorem closing_finished (r : FinishedCall) : r.closing.finished? = some r.timeless := by
  rcases r with ⟨_, _, _, success, _, _, _, _⟩
  cases success <;> rfl

theorem points_finished (f : CallForest) (parent : Int) (level first : Nat) :
    (f.points parent level first).filterMap CallPoint.finished? = f.rows parent level first := by
  induction f generalizing parent level first with
  | nil => rfl
  | call m s e ok inner rest innerIH restIH =>
      have opened (r : FinishedCall) : r.opening.finished? = none := rfl
      simp only [points, rows, List.filterMap_cons, List.filterMap_append, opened, closing_finished, innerIH, restIH]
      rfl

theorem points_within (f : CallForest) (parent : Int) (level first : Nat) :
    ∀ x ∈ f.points parent level first, first ≤ x.nodeId ∧ x.nodeId < first + f.size := by
  induction f generalizing parent level first with
  | nil => intro x mem; cases mem
  | call m s e ok inner rest innerIH restIH =>
      intro x mem
      rw [size]
      rcases List.mem_cons.mp mem with rfl | mem
      · exact ⟨Nat.le_refl first, by dsimp only [FinishedCall.opening]; omega⟩
      rcases List.mem_append.mp mem with mem | mem
      · have inside := innerIH first (level + 1) (first + 1) x mem
        omega
      rcases List.mem_cons.mp mem with rfl | mem
      · exact ⟨Nat.le_refl first, by dsimp only [FinishedCall.closing]; omega⟩
      · have after := restIH parent level (first + (1 + inner.size)) x mem
        omega

theorem closing_opens (r : FinishedCall) (nodeId : Nat) : r.closing.opens nodeId = false := by
  rcases r with ⟨_, _, _, success, _, _, _, _⟩
  cases success <;> rfl

theorem points_start (f : CallForest) (parent : Int) (level first : Nat) :
    ∀ x ∈ f.points parent level first,
      ((f.points parent level first).find? (CallPoint.opens x.nodeId)).map (·.offset) = some x.startOffset := by
  induction f generalizing parent level first with
  | nil => intro x mem; cases mem
  | call m s e ok inner rest innerIH restIH =>
      intro x mem
      let row : FinishedCall := ⟨parent, first, level, ok, m, s, e, 0⟩
      have here : row.opening.opens first = true := by simp [CallPoint.opens, row, FinishedCall.opening]
      have later (n : Nat) (after : first < n) : row.opening.opens n = false := by
        simp only [CallPoint.opens, row, FinishedCall.opening, beq_self_eq_true, Bool.true_and, beq_eq_false_iff_ne]
        omega
      rw [points]
      rcases List.mem_cons.mp mem with rfl | mem
      · exact congrArg (Option.map CallPoint.offset) (List.find?_cons_of_pos here)
      rcases List.mem_append.mp mem with mem | mem
      · have inside := points_within inner first (level + 1) (first + 1) x mem
        have found := innerIH first (level + 1) (first + 1) x mem
        rw [List.find?_cons_of_neg (by rw [later x.nodeId (by omega)]; exact Bool.false_ne_true), List.find?_append,
          Option.map_or, found, Option.some_or]
      rcases List.mem_cons.mp mem with rfl | mem
      · exact congrArg (Option.map CallPoint.offset) (List.find?_cons_of_pos here)
      · have after := points_within rest parent level (first + (1 + inner.size)) x mem
        have found := restIH parent level (first + (1 + inner.size)) x mem
        have inside : (inner.points first (level + 1) (first + 1)).find? (CallPoint.opens x.nodeId) = none := by
          rw [List.find?_eq_none]
          intro y mem opens
          have within := points_within inner first (level + 1) (first + 1) y mem
          simp only [CallPoint.opens, Bool.and_eq_true, beq_iff_eq] at opens
          omega
        rw [List.find?_cons_of_neg (by rw [later x.nodeId (by omega)]; exact Bool.false_ne_true), List.find?_append,
          inside, Option.none_or,
          List.find?_cons_of_neg (by rw [closing_opens]; exact Bool.false_ne_true), found]

end CallForest

theorem entries_points (events : List Event) (f : CallForest) (parent : Int) (level first : Nat)
    (told : events.map Event.point = f.points parent level first) :
    EventEntry.points (events.map Event.entry) = f.points parent level first := by
  have start (nodeId : Nat) : EventEntry.startOf (events.map Event.entry) nodeId =
      (((f.points parent level first).find? (CallPoint.opens nodeId)).map (·.offset)).getD 0 := by
    rw [← told, EventEntry.startOf, List.find?_map, List.find?_map, Option.map_map, Option.map_map]
    rfl
  have same : EventEntry.points (events.map Event.entry) = (events.map Event.point).map fun x =>
      { x with startOffset := (((f.points parent level first).find? (CallPoint.opens x.nodeId)).map (·.offset)).getD 0 } := by
    simp only [EventEntry.points, start, List.map_map]
    rfl
  rw [same, told]
  refine (List.map_congr_left fun x mem => ?_).trans (List.map_id _)
  rw [CallForest.points_start f parent level first x mem]
  rfl

end MatchTrace
