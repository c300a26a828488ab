import MatchTrace.Proofs.Store.Beside

/-!
A node that comes to the place a path names. It comes to the same place whether or not a run has files
of its own beside the path, for none of them has the last name of the path.
-/

namespace MatchTrace

set_option autoImplicit false

theorem drop_idle_solid (keep : Nat) (before : List (List Char)) (last : List Char) (room : keep ≤ before.length)
    (proper : Path.isIdle last = false) : Path.dropIdle keep (before ++ [last]) = before ++ [last] := by
  rw [Path.dropIdle, List.take_append_of_le_length room, List.drop_append_of_le_length room, List.reverse_append,
    List.reverse_singleton, List.singleton_append, List.dropWhile_cons_of_neg (by simp [proper]), List.reverse_cons,
    List.reverse_reverse, ← List.append_assoc, List.take_append_drop]

theorem body_steps (path : String) : (Path.body path).1 = Store.steps path := by
  rw [Path.body, Store.steps]
  by_cases absolute : Path.isAbsolute path = true
  · cases chars : path.toList with
    | nil => simp [Path.isAbsolute, chars] at absolute
    | cons c cs =>
        obtain rfl : c = '/' := by simpa [Path.isAbsolute, chars] using absolute
        simp [absolute, Path.splitSlashes]
  · simp [absolute]

namespace Store

theorem target_file_name (s : Store) (path : String) (loc dir : Location) (before : List (List Char))
    (last : List Char) (targets : Targets s path loc before last dir) :
    Path.fileName? path = some (String.ofList last) := by
  have names : Path.names path = before ++ [last] := by
    have shape := targets.names
    rw [← body_steps] at shape
    unfold Path.names
    dsimp only
    rw [shape]
    apply drop_idle_solid _ before last _ targets.proper
    -- A dot in front is kept, and it is not the last name.
    cases before with
    | nil =>
        have solid : ¬ last = ['.'] := fun dot => by simpa [dot, Path.isIdle] using targets.proper
        by_cases absolute : Path.isAbsolute path = true
        · simp [Path.body, absolute]
        · have front : Path.splitSlashes path.toList = [last] := by simpa [Path.body, absolute] using shape
          simp [Path.body, absolute, front, solid]
    | cons name names =>
        have small : (Path.body path).2 ≤ 1 := by
          rw [Path.body]
          split
          · exact Nat.zero_le 1
          · dsimp only
            split
            · exact Nat.le_refl 1
            · exact Nat.zero_le 1
        exact Nat.le_trans small (Nat.succ_le_succ (Nat.zero_le _))
  simp [Path.fileName?, names, targets.down, targets.proper]

section Beside

variable (path : String) (own : List Location) (s u : Store) (beside : Beside (Path.fileName? path) own s u)

include beside

theorem beside_target (loc : Location) (found : s.target path = .ok loc) :
    loc ∉ own ∧ u.target path = .ok loc := by
  obtain ⟨free, before, last, dir, targets⟩ := target_cases s path loc found
  have other : loc ∉ own := by
    intro mem
    apply beside.unspoken loc mem
    rw [targets.location, List.getLast?_concat, target_file_name s path loc dir before last targets]
  refine ⟨other, target_of u path loc dir before last ?_ ((beside.same loc other).trans free)⟩
  exact targets_keep s u (beside_keeps _ own s u beside) path loc dir before last targets

theorem target_beside (loc : Location) (found : u.target path = .ok loc) : s.target path = .ok loc := by
  obtain ⟨free, before, last, dir, targets⟩ := target_cases u path loc found
  have other : loc ∉ own := by
    intro mem
    obtain ⟨content, file⟩ := beside.present loc mem
    rw [free] at file
    cases file
  refine target_of s path loc dir before last ?_ ((beside.same loc other).symm.trans free)
  exact targets_keep u s (keeps_beside _ own s u beside) path loc dir before last targets

end Beside

theorem beside_put (spoken : Option String) (own : List Location) (s u : Store) (beside : Beside spoken own s u)
    (loc : Location) (node : Node) (named : loc ≠ []) (other : loc ∉ own) :
    Beside spoken own (s.put loc node) (u.put loc node) := by
  have elsewhere (l : Location) (mem : l ∈ own) : l ≠ loc := fun here => other (here ▸ mem)
  refine ⟨beside.current, ?_, beside.unspoken, ?_, ?_⟩
  · intro l mem
    rw [node_put s loc node l named, if_neg (elsewhere l mem)]
    exact beside.absent l mem
  · intro l mem
    rw [node_put u loc node l named, if_neg (elsewhere l mem)]
    exact beside.present l mem
  · intro l outside
    rw [node_put u loc node l named, node_put s loc node l named, beside.same l outside]

-- Somebody makes a node where the path names nothing yet; nothing happens if there is no such
-- place.
def welcome (path : String) (arrival : Option Node) (s : Store) : Store :=
  match arrival, s.target path with
  | some node, .ok loc => s.put loc node
  | _, _ => s

theorem beside_welcome (path : String) (arrival : Option Node) (own : List Location) (s u : Store)
    (beside : Beside (Path.fileName? path) own s u) :
    Beside (Path.fileName? path) own (s.welcome path arrival) (u.welcome path arrival) := by
  cases arrival with
  | none => exact beside
  | some node =>
      unfold welcome
      cases found : s.target path with
      | ok loc =>
          obtain ⟨other, same⟩ := beside_target path own s u beside loc found
          obtain ⟨_, before, last, dir, targets⟩ := target_cases s path loc found
          rw [same]
          exact beside_put _ own s u beside loc node (targets_named s path loc dir before last targets) other
      | error e =>
          cases theirs : u.target path with
          | ok loc =>
              rw [target_beside path own s u beside loc theirs] at found
              cases found
          | error _ => exact beside

theorem targets_unique (s t : Store) (path : String) (loc place dir room : Location) (before front : List (List Char))
    (last name : List Char) (keeps : Keeps s t) (targets : Targets s path loc before last dir)
    (again : Targets t path place front name room) : place = loc := by
  have kept := targets_keep s t keeps path loc dir before last targets
  obtain ⟨rfl, same⟩ := List.append_inj' (kept.names.symm.trans again.names) rfl
  cases same
  have followed := kept.followed.symm.trans again.followed
  cases followed
  rw [kept.location, again.location]

theorem put_keeps (s : Store) (loc : Location) (node : Node) (named : loc ≠ []) (free : s.node? loc = none) :
    Keeps s (s.put loc node) := by
  refine ⟨fun l isDir => ?_, rfl⟩
  rw [node_put s loc node l named, if_neg]
  · exact isDir
  · rintro rfl
    rw [free] at isDir
    cases isDir

theorem welcome_nothing (path : String) (arrival : Option Node) (s : Store) (loc : Location)
    (found : (s.welcome path arrival).target path = .ok loc) : s.welcome path arrival = s := by
  cases arrival with
  | none => rfl
  | some node =>
      unfold welcome at found ⊢
      cases target : s.target path with
      | error e => rfl
      | ok place =>
          rw [target] at found
          obtain ⟨free, before, last, dir, targets⟩ := target_cases s path place target
          obtain ⟨vacant, front, name, room, again⟩ := target_cases _ path loc found
          have named := targets_named s path place dir before last targets
          obtain rfl := targets_unique s _ path place loc dir room before front last name
            (put_keeps s place node named free) targets again
          dsimp only at vacant
          rw [node_put s loc node loc named, if_pos rfl] at vacant
          cases vacant

theorem beside_move (path : String) (temp : Location) (content : Content) (s u t : Store)
    (beside : Beside (Path.fileName? path) [temp] s u) (file : u.node? temp = some (.file content))
    (moved : u.moveFresh temp path = .ok t) :
    ∃ place, s.target path = .ok place ∧
      ∀ l, t.node? l = if l = place then some (.file content) else s.node? l := by
  obtain ⟨node, place, found, target, rfl⟩ := move_fresh_cases u t temp path moved
  cases found.symm.trans file
  refine ⟨place, target_beside path [temp] s u beside place target, fun l => ?_⟩
  rw [move_fresh_node u _ temp place path content file target rfl l]
  by_cases here : l = place
  · rw [if_pos here, if_pos here]
  · rw [if_neg here, if_neg here]
    by_cases own : l = temp
    · rw [if_pos own, own, beside.absent temp List.mem_cons_self]
    · rw [if_neg own]
      exact beside.same l (by simpa using own)

end Store

end MatchTrace
