import MatchTrace.Proofs.Except
import MatchTrace.Store.Basic

/-!
What the operations of a store change, and what they leave as it was. Paths are followed the same way
in two stores that have the same directories on the way.
-/

namespace MatchTrace.Store

set_option autoImplicit false

def without (s : Store) (loc : Location) : Store := { s with nodes := s.nodes.filter (·.1 != loc) }

theorem node_root (s : Store) : s.node? [] = some .dir := rfl

theorem node_named (s : Store) (l : Location) (named : l ≠ []) :
    s.node? l = (s.nodes.find? (·.1 == l)).map (·.2) := by
  cases l with
  | nil => exact absurd rfl named
  | cons name names => rfl

theorem find_without (nodes : List (Location × Node)) (loc l : Location) :
    (nodes.filter (·.1 != loc)).find? (·.1 == l) = if l = loc then none else nodes.find? (·.1 == l) := by
  rw [List.find?_filter]
  by_cases same : l = loc
  · rw [if_pos same, List.find?_eq_none]
    intro e _ both
    simp only [decide_eq_true_eq, bne_iff_ne, beq_iff_eq] at both
    exact both.1 (both.2.trans same)
  · rw [if_neg same]
    congr 1
    funext e
    by_cases here : e.1 = l
    · simp [here, same]
    · simp [here]

theorem node_without (s : Store) (loc l : Location) (named : l ≠ []) :
    (s.without loc).node? l = if l = loc then none else s.node? l := by
  rw [node_named _ l named, node_named s l named, without, find_without]
  by_cases same : l = loc
  · rw [if_pos same, if_pos same]
    rfl
  · rw [if_neg same, if_neg same]

theorem node_put (s : Store) (loc : Location) (node : Node) (l : Location) (named : loc ≠ []) :
    (s.put loc node).node? l = if l = loc then some node else s.node? l := by
  by_cases root : l = []
  · rw [if_neg (root ▸ named.symm), root]
    rfl
  rw [node_named _ l root, node_named s l root, put, List.find?_append, find_without]
  by_cases same : l = loc
  · simp [same]
  · simp [same, Ne.symm same]

theorem node_refill (s : Store) (loc : Location) (content : Content) (l : Location) (named : l ≠ []) :
    (s.refill loc content).node? l = if l = loc then (s.node? l).map fun _ => .file content else s.node? l := by
  rw [node_named _ l named, node_named s l named, refill, List.find?_map]
  have key : ((fun e : Location × Node => e.1 == l) ∘
      fun e => if e.1 == loc then (e.1, Node.file content) else e) = fun e => e.1 == l := by
    funext e
    by_cases here : e.1 = loc <;> simp [here]
  rw [key]
  cases found : s.nodes.find? (·.1 == l) with
  | none => simp
  | some e =>
      have here : e.1 = l := by simpa using List.find?_some found
      by_cases same : l = loc
      · simp [here, same]
      · simp [here, same]

theorem remove_eq (s : Store) (loc : Location) :
    s.remove loc = match s.node? loc with
      | some (.file _) => (.ok (), s.without loc)
      | some .dir => (.error .isDirectory, s)
      | none => (.error .notFound, s) := rfl

theorem is_dir_iff (s : Store) (loc : Location) : s.isDir loc = .ok () ↔ s.node? loc = some .dir := by
  rw [isDir]
  split
  · next same => simp [same]
  · next same => simp [same]
  · next same => simp [same]

theorem enter_ok (s : Store) (loc next : Location) (name : List Char) (entered : s.enter loc name = .ok next) :
    s.node? loc = some .dir ∧
      ((Path.isIdle name = true ∧ next = loc) ∨
        (Path.isIdle name = false ∧ name = ['.', '.'] ∧ next = loc.dropLast) ∨
        (Path.isIdle name = false ∧ name ≠ ['.', '.'] ∧ ¬ maxName < byteLength name ∧
          next = loc ++ [String.ofList name] ∧ (s.node? next).isSome = true)) := by
  rw [enter] at entered
  cases dir : s.isDir loc with
  | error e =>
      rw [dir] at entered
      cases entered
  | ok _ =>
      refine ⟨(is_dir_iff s loc).mp dir, ?_⟩
      simp only [dir, bind, Except.bind] at entered
      by_cases idle : Path.isIdle name = true
      · rw [if_pos idle] at entered
        cases entered
        exact .inl ⟨idle, rfl⟩
      · rw [if_neg idle] at entered
        by_cases up : name = ['.', '.']
        · rw [if_pos up] at entered
          cases entered
          exact .inr (.inl ⟨Bool.eq_false_iff.mpr idle, up, rfl⟩)
        · rw [if_neg up] at entered
          by_cases long : maxName < byteLength name
          · rw [if_pos long] at entered
            cases entered
          · rw [if_neg long] at entered
            cases found : s.node? (loc ++ [String.ofList name]) with
            | none =>
                simp only [found] at entered
                cases entered
            | some node =>
                simp only [found] at entered
                cases entered
                exact .inr (.inr ⟨Bool.eq_false_iff.mpr idle, up, long, rfl, by rw [found]; rfl⟩)

theorem enter_of (s : Store) (loc : Location) (name : List Char) (dir : s.node? loc = some .dir)
    (proper : Path.isIdle name = false) (down : name ≠ ['.', '.']) (short : ¬ maxName < byteLength name)
    (there : (s.node? (loc ++ [String.ofList name])).isSome = true) :
    s.enter loc name = .ok (loc ++ [String.ofList name]) := by
  obtain ⟨node, found⟩ := Option.isSome_iff_exists.mp there
  rw [enter, (is_dir_iff s loc).mpr dir]
  simp only [bind, Except.bind, proper, Bool.false_eq_true, if_false, down, short, found]
  rfl

structure Keeps (s u : Store) : Prop where
  dirs : ∀ l, s.node? l = some .dir → u.node? l = some .dir
  current : u.current = s.current

theorem follow_cons (s : Store) (loc dir : Location) (name : List Char) (names : List (List Char)) :
    s.follow loc (name :: names) = .ok dir ↔ ∃ next, s.enter loc name = .ok next ∧ s.follow next names = .ok dir := by
  rw [follow]
  cases s.enter loc name with
  | error e => simp [bind, Except.bind]
  | ok next => simp [bind, Except.bind]

theorem follow_append (s : Store) (loc dir : Location) (names : List (List Char)) (last : List Char) :
    s.follow loc (names ++ [last]) = .ok dir ↔ ∃ next, s.follow loc names = .ok next ∧ s.enter next last = .ok dir := by
  induction names generalizing loc with
  | nil =>
      rw [List.nil_append, follow_cons]
      simp [follow]
  | cons name names ih =>
      simp only [List.cons_append, follow_cons, ih]
      constructor
      · rintro ⟨a, first, b, rest, last⟩
        exact ⟨b, ⟨a, first, rest⟩, last⟩
      · rintro ⟨b, ⟨a, first, rest⟩, last⟩
        exact ⟨a, first, b, rest, last⟩

theorem follow_keeps (s u : Store) (keeps : Keeps s u) (loc dir : Location) (names : List (List Char))
    (followed : s.follow loc names = .ok dir) (isDir : s.node? dir = some .dir) :
    u.follow loc names = .ok dir ∧ s.node? loc = some .dir := by
  induction names generalizing loc with
  | nil =>
      cases followed
      exact ⟨rfl, isDir⟩
  | cons name names ih =>
      obtain ⟨next, entered, rest⟩ := (follow_cons s loc dir name names).mp followed
      obtain ⟨after, open_⟩ := ih next rest
      obtain ⟨here, step⟩ := enter_ok s loc next name entered
      refine ⟨(follow_cons u loc dir name names).mpr ⟨next, ?_, after⟩, here⟩
      rcases step with ⟨idle, rfl⟩ | ⟨proper, rfl, rfl⟩ | ⟨proper, down, short, rfl, _⟩
      · simp only [enter, (is_dir_iff u next).mpr (keeps.dirs next here), bind, Except.bind, idle, if_true]
        rfl
      · simp only [enter, (is_dir_iff u loc).mpr (keeps.dirs loc here), bind, Except.bind, proper, if_true]
        rfl
      · exact enter_of u loc name (keeps.dirs loc here) proper down short (by rw [keeps.dirs _ open_]; rfl)

-- What the names of a path have to be for a new file to take its last one.
structure Targets (s : Store) (path : String) (loc : Location) (before : List (List Char)) (last : List Char)
    (dir : Location) : Prop where
  legal : checkPath path = .ok ()
  names : steps path = before ++ [last]
  followed : s.follow (s.origin path) before = .ok dir
  isDir : s.node? dir = some .dir
  proper : Path.isIdle last = false
  down : last ≠ ['.', '.']
  short : ¬ maxName < byteLength last
  location : loc = dir ++ [String.ofList last]

theorem target_cases (s : Store) (path : String) (loc : Location) (found : s.target path = .ok loc) :
    s.node? loc = none ∧ ∃ before last dir, Targets s path loc before last dir := by
  obtain ⟨_, legal, found⟩ := bind_ok _ _ _ found
  dsimp only at found
  split at found
  · cases found
  · next last back shape =>
      obtain ⟨dir, followed, found⟩ := bind_ok _ _ _ found
      obtain ⟨_, isDir, found⟩ := bind_ok _ _ _ found
      obtain ⟨proper, found⟩ := guard_ok _ _ _ _ found
      obtain ⟨short, found⟩ := guard_ok _ _ _ _ found
      obtain ⟨free, found⟩ := guard_ok _ _ _ _ found
      obtain ⟨ended, found⟩ := guard_ok _ _ _ _ found
      cases found
      obtain ⟨single, double⟩ := not_or.mp proper
      -- Nothing was dropped: the path does not end in a slash.
      have names : (steps path).reverse = last :: back := by
        cases reversed : (steps path).reverse with
        | nil =>
            rw [reversed] at shape
            cases shape
        | cons name names =>
            rw [reversed, List.dropWhile_cons_of_neg (by simpa [reversed] using ended)] at shape
            exact shape
      refine ⟨by simpa using free, back.reverse, last, dir, legal, ?_, followed, (is_dir_iff s dir).mp isDir, ?_,
        double, short, rfl⟩
      · rw [← List.reverse_reverse (steps path), names, List.reverse_cons]
      · rw [names] at ended
        simpa [Path.isIdle, single] using ended

theorem target_of (s : Store) (path : String) (loc dir : Location) (before : List (List Char)) (last : List Char)
    (targets : Targets s path loc before last dir) (free : s.node? loc = none) : s.target path = .ok loc := by
  have solid : ¬ last = [] ∧ ¬ last = ['.'] := by simpa [Path.isIdle] using targets.proper
  have names : (steps path).reverse = last :: before.reverse := by rw [targets.names]; simp
  have location := targets.location
  subst location
  rw [target, targets.legal]
  simp [bind, Except.bind, names, solid.1, solid.2, targets.followed, (is_dir_iff s dir).mpr targets.isDir,
    targets.down, targets.short, free]
  rfl

theorem targets_keep (s u : Store) (keeps : Keeps s u) (path : String) (loc dir : Location)
    (before : List (List Char)) (last : List Char) (targets : Targets s path loc before last dir) :
    Targets u path loc before last dir := by
  have origin : u.origin path = s.origin path := by rw [origin, origin, keeps.current]
  exact { targets with
    followed := origin ▸ (follow_keeps s u keeps _ dir before targets.followed targets.isDir).1
    isDir := keeps.dirs dir targets.isDir }

theorem locate_target (s : Store) (path : String) (loc dir : Location) (before : List (List Char)) (last : List Char)
    (targets : Targets s path loc before last dir) (there : (s.node? loc).isSome = true) : s.locate path = .ok loc := by
  have location := targets.location
  subst location
  rw [locate, targets.legal, targets.names]
  exact (follow_append s _ _ before last).mpr ⟨dir, targets.followed,
    enter_of s dir last targets.isDir targets.proper targets.down targets.short there⟩

theorem targets_named (s : Store) (path : String) (loc dir : Location) (before : List (List Char)) (last : List Char)
    (targets : Targets s path loc before last dir) : loc ≠ [] := by
  rw [targets.location]
  simp

theorem move_fresh_cases (s t : Store) (source : Location) (path : String) (moved : s.moveFresh source path = .ok t) :
    ∃ node loc, s.node? source = some node ∧ s.target path = .ok loc ∧ t = (s.without source).put loc node := by
  rw [moveFresh] at moved
  cases found : s.node? source with
  | none =>
      rw [found] at moved
      cases moved
  | some node =>
      rw [found] at moved
      obtain ⟨loc, target, moved⟩ := bind_ok _ _ _ moved
      cases moved
      exact ⟨node, loc, rfl, target, rfl⟩

theorem move_fresh_node (s t : Store) (source loc : Location) (path : String) (content : Content)
    (file : s.node? source = some (.file content)) (target : s.target path = .ok loc)
    (moved : t = (s.without source).put loc (.file content)) (l : Location) :
    t.node? l = if l = loc then some (.file content) else if l = source then none else s.node? l := by
  obtain ⟨_, before, last, dir, targets⟩ := target_cases s path loc target
  rw [moved, node_put _ loc _ l (targets_named s path loc dir before last targets)]
  by_cases root : l = []
  · have inside : source ≠ [] := by
      rintro rfl
      cases file
    rw [root, if_neg inside.symm]
    rfl
  · rw [node_without s source l root]

theorem read_moved (s t : Store) (source : Location) (path : String) (content : Content)
    (file : s.node? source = some (.file content)) (moved : s.moveFresh source path = .ok t) :
    t.read path = .ok (.file content) := by
  obtain ⟨node, loc, found, target, rfl⟩ := move_fresh_cases s t source path moved
  obtain rfl : node = .file content := Option.some.inj (found.symm.trans file)
  obtain ⟨free, before, last, dir, targets⟩ := target_cases s path loc target
  have nodes := move_fresh_node s _ source loc path content file target rfl
  have keeps : Keeps s ((s.without source).put loc (.file content)) := by
    refine ⟨fun l isDir => ?_, rfl⟩
    rw [nodes, if_neg, if_neg]
    · exact isDir
    · rintro rfl
      rw [file] at isDir
      cases isDir
    · rintro rfl
      rw [free] at isDir
      cases isDir
  have here : ((s.without source).put loc (.file content)).node? loc = some (.file content) := by
    rw [nodes, if_pos rfl]
  rw [read, locate_target _ path loc dir before last (targets_keep s _ keeps path loc dir before last targets)
    (by rw [here]; rfl)]
  simp only [bind, Except.bind, here]
  rfl

theorem create_temp_cases (s t : Store) (dir suffix : String) (spokenFor : Option String) (temp : Location)
    (created : s.createTemp dir suffix spokenFor = .ok (temp, t)) :
    ∃ place, s.node? place = some .dir ∧ temp = place ++ [s.freshName place suffix spokenFor] ∧
      t = s.put temp (.file (.bytes ByteArray.empty)) := by
  obtain ⟨_, _, created⟩ := bind_ok _ _ _ created
  obtain ⟨place, _, created⟩ := bind_ok _ _ _ created
  obtain ⟨_, isDir, created⟩ := bind_ok _ _ _ created
  cases created
  exact ⟨place, (is_dir_iff s place).mp isDir, rfl, rfl⟩

theorem node_remove (s : Store) (loc l : Location) (there : ((s.remove loc).2.node? l).isSome = true) :
    (s.remove loc).2.node? l = s.node? l := by
  cases l with
  | nil => rfl
  | cons name names =>
      rw [remove_eq] at there ⊢
      cases found : s.node? loc with
      | none => rfl
      | some node =>
          cases node with
          | dir => rfl
          | file content =>
              simp only [found] at there ⊢
              rw [node_without s loc _ (List.cons_ne_nil name names)] at there ⊢
              split at there
              · cases there
              · next other => rw [if_neg other]

end MatchTrace.Store
