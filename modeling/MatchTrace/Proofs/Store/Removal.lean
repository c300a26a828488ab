import MatchTrace.Proofs.Store.Beside

/-!
Files that are removed, or that have vanished before. What hinders the removal of one file does not depend on the
others, and where only one file has vanished, everything else goes on as if it were there.
-/

namespace MatchTrace

set_option autoImplicit false

namespace Store

def hindrance? (s : Store) (loc : Location) : Option IoError :=
  match s.node? loc with
  | some (.file _) => none
  | some .dir => some .isDirectory
  | none => some .notFound

def unremoved (s : Store) (files : List Location) : List IoError := files.filterMap s.hindrance?

section Remove

variable (s u : Store) (loc l : Location)

theorem remove_answer :
    (s.remove loc).1 = match s.hindrance? loc with
      | none => .ok ()
      | some e => .error e := by
  rw [remove_eq, hindrance?]
  cases s.node? loc with
  | none => rfl
  | some node => cases node <;> rfl

theorem with_removal (f : Failure) :
    f.withRemoval (s.remove loc).1 = { f with suppressed := f.suppressed ++ s.unremoved [loc] } := by
  rw [remove_answer, unremoved]
  cases hindered : s.hindrance? loc with
  | none => simp [Failure.withRemoval, hindered]
  | some e => simp [Failure.withRemoval, hindered]

theorem remove_dir (isDir : s.node? loc = some .dir) : (s.remove loc).2 = s := by
  rw [remove_eq, isDir]

theorem remove_file (file : s.node? loc ≠ some .dir) : (s.remove loc).2 = s.without loc := by
  rw [remove_eq]
  cases found : s.node? loc with
  | some node =>
      cases node with
      | dir => exact absurd found file
      | file content => rfl
  | none =>
      have named : loc ≠ [] := by
        rintro rfl
        cases found
      rw [node_named s loc named, Option.map_eq_none_iff, List.find?_eq_none] at found
      have kept : s.nodes.filter (·.1 != loc) = s.nodes := List.filter_eq_self.mpr fun e mem => by simpa using found e mem
      change s = { s with nodes := s.nodes.filter (·.1 != loc) }
      rw [kept]

theorem node_remove_other (other : l ≠ loc) : (s.remove loc).2.node? l = s.node? l := by
  by_cases isDir : s.node? loc = some .dir
  · rw [remove_dir s loc isDir]
  · rw [remove_file s loc isDir]
    by_cases root : l = []
    · rw [root]
      rfl
    · rw [node_without s loc l root, if_neg other]

theorem unremoved_cons (files : List Location) :
    s.unremoved (loc :: files) = s.unremoved [loc] ++ s.unremoved files :=
  List.filterMap_append (l := [loc])

theorem unremoved_same (same : u.node? loc = s.node? loc) : u.unremoved [loc] = s.unremoved [loc] := by
  have hindered : u.hindrance? loc = s.hindrance? loc := by
    rw [hindrance?, hindrance?, same]
  simp only [unremoved, List.filterMap_cons, List.filterMap_nil, hindered]

end Remove

-- The same store, but for a file at one place that one of them may have and the other not.
def SameBut (loc : Location) (s u : Store) : Prop := (s.remove loc).2 = (u.remove loc).2

section SameBut

variable (loc : Location) (s u : Store)

theorem same_but_iff :
    SameBut loc s u ↔
      s = u ∨ s.node? loc ≠ some .dir ∧ u.node? loc ≠ some .dir ∧ s.without loc = u.without loc := by
  have bare (v w : Store) (isDir : v.node? loc = some .dir) (file : w.node? loc ≠ some .dir) : v ≠ w.without loc := by
    rintro rfl
    have named : loc ≠ [] := by
      rintro rfl
      exact file rfl
    rw [node_without w loc loc named, if_pos rfl] at isDir
    cases isDir
  constructor
  · intro same
    by_cases left : s.node? loc = some .dir
    · by_cases right : u.node? loc = some .dir
      · rw [SameBut, remove_dir s loc left, remove_dir u loc right] at same
        exact .inl same
      · rw [SameBut, remove_dir s loc left, remove_file u loc right] at same
        exact absurd same (bare s u left right)
    · by_cases right : u.node? loc = some .dir
      · rw [SameBut, remove_file s loc left, remove_dir u loc right] at same
        exact absurd same.symm (bare u s right left)
      · rw [SameBut, remove_file s loc left, remove_file u loc right] at same
        exact .inr ⟨left, right, same⟩
  · rintro (rfl | ⟨left, right, same⟩)
    · rfl
    · rw [SameBut, remove_file s loc left, remove_file u loc right, same]

theorem same_but_vanished : SameBut loc s (s.remove loc).2 := by
  by_cases isDir : s.node? loc = some .dir
  · rw [remove_dir s loc isDir]
    rfl
  · rw [remove_file s loc isDir, same_but_iff]
    have named : loc ≠ [] := by
      rintro rfl
      exact isDir rfl
    refine .inr ⟨isDir, by rw [node_without s loc loc named, if_pos rfl]; nofun, ?_⟩
    simp only [without, List.filter_filter, Bool.and_self]

theorem without_put (l : Location) (node : Node) (other : l ≠ loc) :
    (s.put l node).without loc = (s.without loc).put l node := by
  simp only [put, without, List.filter_append, List.filter_filter, Bool.and_comm, List.filter_cons, List.filter_nil,
    bne_iff_ne, ne_eq, other, not_false_eq_true, if_true]

theorem without_refill (l : Location) (content : Content) :
    (s.refill l content).without loc = (s.without loc).refill l content := by
  simp only [refill, without, List.filter_map]
  have key : ((fun e : Location × Node => e.1 != loc) ∘
      fun e => if e.1 == l then (e.1, Node.file content) else e) = fun e => e.1 != loc := by
    funext e
    by_cases here : e.1 = l <;> simp [here]
  rw [key]

section Same

variable (same : SameBut loc s u)

include same

theorem same_but_node (l : Location) (other : l ≠ loc) : u.node? l = s.node? l := by
  rw [← node_remove_other s loc l other, ← node_remove_other u loc l other, same]

theorem same_but_keeps : Keeps s u := by
  obtain rfl | ⟨file, -, others⟩ := (same_but_iff loc s u).mp same
  · exact ⟨fun _ => id, rfl⟩
  · refine ⟨fun l isDir => ?_, (congrArg Store.current others).symm⟩
    rw [same_but_node loc s u same l, isDir]
    rintro rfl
    exact file isDir

theorem same_but_put (l : Location) (node : Node) (named : l ≠ []) (other : l ≠ loc) :
    SameBut loc (s.put l node) (u.put l node) := by
  obtain rfl | ⟨left, right, others⟩ := (same_but_iff loc s u).mp same
  · rfl
  · rw [same_but_iff, node_put s l node loc named, node_put u l node loc named, if_neg other.symm, if_neg other.symm,
      without_put loc s l node other, without_put loc u l node other, others]
    exact .inr ⟨left, right, rfl⟩

theorem same_but_refill (l : Location) (content : Content) : SameBut loc (s.refill l content) (u.refill l content) := by
  have filled (v : Store) (file : v.node? loc ≠ some .dir) : (v.refill l content).node? loc ≠ some .dir := by
    have named : loc ≠ [] := by
      rintro rfl
      exact file rfl
    rw [node_refill v l content loc named]
    by_cases here : loc = l
    · rw [if_pos here]
      cases v.node? loc <;> nofun
    · rwa [if_neg here]
  obtain rfl | ⟨left, right, others⟩ := (same_but_iff loc s u).mp same
  · rfl
  · rw [same_but_iff, without_refill, without_refill, others]
    exact .inr ⟨filled s left, filled u right, rfl⟩

end Same

end SameBut

section Fresh

variable (s u : Store) (dir : Location) (suffix : String) (spoken : Option String)

theorem fresh_name_first (count : Nat) (enough : s.nodes.length + 2 ≤ count) :
    ((List.range count).find? fun n => (s.node? (dir ++ [tempName n suffix])).isNone &&
      spoken != some (tempName n suffix)).map (tempName · suffix) = some (s.freshName dir suffix spoken) := by
  obtain ⟨name, mem, good⟩ := fresh_candidate s dir suffix spoken
  have front : List.range (s.nodes.length + 2) <+: List.range count := by
    rw [← Nat.min_eq_left enough, ← List.take_range]
    exact List.take_prefix _ _
  rw [freshName, List.find?_map]
  rw [List.mem_map] at mem
  obtain ⟨n, mem, rfl⟩ := mem
  cases first : (List.range (s.nodes.length + 2)).find? ((fun name => (s.node? (dir ++ [name])).isNone &&
      spoken != some name) ∘ (tempName · suffix)) with
  | none => exact absurd good (List.find?_eq_none.mp first n mem)
  | some m =>
      have found := front.find?_eq_some first
      simp only [Function.comp_def] at found
      rw [found]
      rfl

theorem fresh_name_temp : ∃ n, s.freshName dir suffix spoken = tempName n suffix := by
  obtain ⟨n, -, same⟩ := Option.map_eq_some_iff.mp (fresh_name_first s dir suffix spoken _ (Nat.le_refl _))
  exact ⟨n, same.symm⟩

theorem fresh_name_same (same : ∀ n, u.node? (dir ++ [tempName n suffix]) = s.node? (dir ++ [tempName n suffix])) :
    u.freshName dir suffix spoken = s.freshName dir suffix spoken := by
  have left := fresh_name_first s dir suffix spoken (max s.nodes.length u.nodes.length + 2) (by omega)
  have right := fresh_name_first u dir suffix spoken (max s.nodes.length u.nodes.length + 2) (by omega)
  simp only [same] at right
  exact Option.some.inj (right.symm.trans left)

end Fresh

theorem temp_names_apart (a b : Nat) (suffix other : String) (left : ¬ suffix.toList <:+ other.toList)
    (right : ¬ other.toList <:+ suffix.toList) : tempName a suffix ≠ tempName b other := by
  intro same
  have ends (n : Nat) (suffix : String) : suffix.toList <:+ (tempName n suffix).toList := by
    rw [tempName, String.toList_append]
    exact List.suffix_append _ _
  have ended := ends b other
  rw [← same] at ended
  exact (List.suffix_or_suffix_of_suffix (ends a suffix) ended).elim left right

theorem same_but_create (s u v : Store) (loc temp : Location) (same : SameBut loc s u) (dir suffix : String)
    (spoken : Option String) (apart : ∀ place n, loc ≠ place ++ [tempName n suffix])
    (created : s.createTemp dir suffix spoken = .ok (temp, v)) :
    ∃ w, u.createTemp dir suffix spoken = .ok (temp, w) ∧ SameBut loc v w := by
  obtain ⟨place, rfl, rfl, again⟩ := create_temp_alike s u (same_but_keeps loc s u same) dir suffix spoken temp v created
  have name : u.freshName place suffix spoken = s.freshName place suffix spoken :=
    fresh_name_same s u place suffix spoken fun n => same_but_node loc s u same _ (apart place n).symm
  obtain ⟨n, fresh⟩ := fresh_name_temp s place suffix spoken
  rw [name, fresh] at again
  rw [fresh]
  exact ⟨_, again, same_but_put loc s u same _ _ (by simp) (apart place n).symm⟩

end Store

end MatchTrace
