import MatchTrace.Proofs.Store.Basic
import MatchTrace.Proofs.Text.Decimal

/-!
A store with some files beside those of others: a fresh name is taken by nobody and is not the one
that is spoken for, so files under fresh names come and go and nobody else's files notice.
-/

namespace MatchTrace.Store

set_option autoImplicit false

theorem pushn_chars (s : String) (c : Char) (n : Nat) : (s.pushn c n).toList = s.toList ++ List.replicate n c := by
  induction n with
  | zero => simp [String.pushn_eq_repeat_push, Nat.repeat]
  | succ n ih =>
      rw [String.pushn_eq_repeat_push] at ih ⊢
      rw [Nat.repeat, String.toList_push, ih, List.append_assoc, ← List.replicate_succ']

theorem temp_name_injective (suffix : String) (a b : Nat) (same : tempName a suffix = tempName b suffix) : a = b := by
  have chars := congrArg String.toList same
  simp only [tempName, String.toList_append, pushn_chars, List.append_assoc, List.append_cancel_left_eq] at chars
  rw [← List.append_assoc, ← List.append_assoc, List.append_cancel_right_eq] at chars
  have values := congrArg (Nat.ofDigitChars 10 · 0) chars
  simpa [Nat.ofDigitChars_append, Nat.ofDigitChars_replicate_zero, Decimal.nat_chars] using values

-- More names than there are nodes, and one more for the name that is spoken for.
theorem fresh_candidate (s : Store) (dir : Location) (suffix : String) (spokenFor : Option String) :
    ∃ name ∈ (List.range (s.nodes.length + 2)).map (tempName · suffix),
      ((s.node? (dir ++ [name])).isNone && spokenFor != some name) = true := by
  refine Classical.byContradiction fun none => ?_
  have taken : (List.range (s.nodes.length + 2)).map (tempName · suffix) ⊆
      s.nodes.map (fun e => e.1.getLast?.getD "") ++ spokenFor.toList := by
    intro name mem
    refine Classical.byContradiction fun absent => ?_
    rw [List.mem_append, not_or] at absent
    refine none ⟨name, mem, ?_⟩
    have free : s.node? (dir ++ [name]) = Option.none := by
      rw [node_named s _ (by simp), Option.map_eq_none_iff, List.find?_eq_none]
      intro e inside here
      refine absent.1 (List.mem_map.mpr ⟨e, inside, ?_⟩)
      rw [beq_iff_eq.mp here]
      simp
    have unspoken : spokenFor ≠ some name := by
      rintro rfl
      exact absent.2 (by simp)
    simp [free, unspoken]
  have distinct : ((List.range (s.nodes.length + 2)).map (tempName · suffix)).Nodup :=
    List.Pairwise.map _ (fun a b differ same => differ (temp_name_injective suffix a b same)) List.nodup_range
  have bound := distinct.length_le_of_subset taken
  have single : spokenFor.toList.length ≤ 1 := by cases spokenFor <;> simp
  simp only [List.length_map, List.length_range, List.length_append] at bound
  omega

theorem fresh_name_free (s : Store) (dir : Location) (suffix : String) (spokenFor : Option String) :
    s.node? (dir ++ [s.freshName dir suffix spokenFor]) = none ∧
      spokenFor ≠ some (s.freshName dir suffix spokenFor) := by
  obtain ⟨name, mem, good⟩ := fresh_candidate s dir suffix spokenFor
  rw [freshName]
  cases found : ((List.range (s.nodes.length + 2)).map (tempName · suffix)).find? fun name =>
      (s.node? (dir ++ [name])).isNone && spokenFor != some name with
  | none => exact absurd good (List.find?_eq_none.mp found name mem)
  | some first =>
      have chosen := List.find?_some found
      simpa using chosen

theorem create_temp_alike (s u : Store) (keeps : Keeps s u) (dir suffix : String) (spoken : Option String)
    (temp : Location) (t : Store) (created : s.createTemp dir suffix spoken = .ok (temp, t)) :
    ∃ place, temp = place ++ [s.freshName place suffix spoken] ∧ t = s.put temp (.file (.bytes ByteArray.empty)) ∧
      u.createTemp dir suffix spoken = .ok (place ++ [u.freshName place suffix spoken],
        u.put (place ++ [u.freshName place suffix spoken]) (.file (.bytes ByteArray.empty))) := by
  obtain ⟨_, long, created⟩ := bind_ok _ _ _ created
  obtain ⟨place, located, created⟩ := bind_ok _ _ _ created
  obtain ⟨_, isDir, created⟩ := bind_ok _ _ _ created
  obtain ⟨_, legal, followed⟩ := bind_ok _ _ _ located
  cases created
  rw [is_dir_iff] at isDir
  have absolute : u.absolute dir = s.absolute dir := by rw [Store.absolute, Store.absolute, keeps.current]
  have origin : u.origin (s.absolute dir) = s.origin (s.absolute dir) := by
    rw [Store.origin, Store.origin, keeps.current]
  refine ⟨place, rfl, rfl, ?_⟩
  rw [createTemp, absolute, long, locate, legal, origin]
  simp only [bind, Except.bind, (follow_keeps s u keeps _ place _ followed isDir).1,
    (is_dir_iff u place).mpr (keeps.dirs place isDir)]
  rfl

theorem create_temp_keeps (s u : Store) (keeps : Keeps s u) (dir suffix : String) (spoken : Option String)
    (r : Location × Store) (created : s.createTemp dir suffix spoken = .ok r) :
    ∃ r', u.createTemp dir suffix spoken = .ok r' := by
  obtain ⟨_, -, -, again⟩ := create_temp_alike s u keeps dir suffix spoken r.1 r.2 created
  exact ⟨_, again⟩

structure Beside (spoken : Option String) (own : List Location) (s u : Store) : Prop where
  current : u.current = s.current
  absent : ∀ l ∈ own, s.node? l = none
  unspoken : ∀ l ∈ own, l.getLast? ≠ spoken
  present : ∀ l ∈ own, ∃ content, u.node? l = some (.file content)
  same : ∀ l, l ∉ own → u.node? l = s.node? l

theorem beside_perm (spoken : Option String) (own others : List Location) (s u : Store)
    (beside : Beside spoken own s u) (perm : own.Perm others) : Beside spoken others s u :=
  ⟨beside.current, fun l mem => beside.absent l (perm.mem_iff.mpr mem),
    fun l mem => beside.unspoken l (perm.mem_iff.mpr mem), fun l mem => beside.present l (perm.mem_iff.mpr mem),
    fun l outside => beside.same l fun mem => outside (perm.mem_iff.mp mem)⟩

section Beside

variable (spoken : Option String) (own : List Location) (s u : Store) (beside : Beside spoken own s u)

theorem beside_refl : Beside spoken [] s s :=
  ⟨rfl, by simp, by simp, by simp, fun _ _ => rfl⟩

include beside

theorem beside_keeps : Keeps s u := by
  refine ⟨fun l isDir => ?_, beside.current⟩
  rw [beside.same l, isDir]
  intro mem
  rw [beside.absent l mem] at isDir
  cases isDir

theorem keeps_beside : Keeps u s := by
  refine ⟨fun l isDir => ?_, beside.current.symm⟩
  rw [← beside.same l, isDir]
  intro mem
  obtain ⟨content, file⟩ := beside.present l mem
  rw [file] at isDir
  cases isDir

theorem beside_create (t : Store) (dir suffix : String) (loc : Location)
    (created : u.createTemp dir suffix spoken = .ok (loc, t)) : loc ∉ own ∧ Beside spoken (loc :: own) s t := by
  obtain ⟨place, _, named, rfl⟩ := create_temp_cases u t dir suffix spoken loc created
  obtain ⟨free, unspoken⟩ := fresh_name_free u place suffix spoken
  rw [← named] at free
  have inside : loc ≠ [] := by
    rw [named]
    simp
  have other : loc ∉ own := by
    intro mem
    obtain ⟨content, file⟩ := beside.present loc mem
    rw [free] at file
    cases file
  refine ⟨other, beside.current, ?_, ?_, ?_, ?_⟩
  · intro l mem
    rcases List.mem_cons.mp mem with rfl | mem
    · exact (beside.same l other).symm.trans free
    · exact beside.absent l mem
  · intro l mem
    rcases List.mem_cons.mp mem with rfl | mem
    · rw [named, List.getLast?_concat]
      exact unspoken.symm
    · exact beside.unspoken l mem
  · intro l mem
    rw [node_put u loc _ l inside]
    by_cases here : l = loc
    · exact ⟨_, if_pos here⟩
    · rw [if_neg here]
      exact beside.present l ((List.mem_cons.mp mem).resolve_left here)
  · intro l outside
    rw [List.mem_cons, not_or] at outside
    rw [node_put u loc _ l inside, if_neg outside.1]
    exact beside.same l outside.2

theorem own_named (loc : Location) (mem : loc ∈ own) : loc ≠ [] := by
  rintro rfl
  have absent := beside.absent [] mem
  rw [node_root] at absent
  cases absent

theorem beside_refill (loc : Location) (mem : loc ∈ own) (content : Content) :
    (u.refill loc content).node? loc = some (.file content) ∧ Beside spoken own s (u.refill loc content) := by
  obtain ⟨old, file⟩ := beside.present loc mem
  have nodes (l : Location) : (u.refill loc content).node? l = if l = loc then some (.file content) else u.node? l := by
    by_cases root : l = []
    · have inside := own_named spoken own s u beside loc mem
      rw [root, if_neg inside.symm]
      rfl
    · rw [node_refill u loc content l root]
      by_cases here : l = loc
      · rw [if_pos here, if_pos here, here, file, Option.map_some]
      · rw [if_neg here, if_neg here]
  refine ⟨by rw [nodes, if_pos rfl], beside.current, beside.absent, beside.unspoken, ?_, ?_⟩
  · intro l owned
    rw [nodes]
    by_cases here : l = loc
    · exact ⟨content, if_pos here⟩
    · rw [if_neg here]
      exact beside.present l owned
  · intro l outside
    rw [nodes, if_neg (fun here : l = loc => outside (here ▸ mem))]
    exact beside.same l outside

end Beside

theorem beside_remove (spoken : Option String) (loc : Location) (own : List Location) (s u : Store)
    (beside : Beside spoken (loc :: own) s u) (other : loc ∉ own) :
    (u.remove loc).1 = .ok () ∧ Beside spoken own s (u.remove loc).2 ∧
      ∀ l ∈ own, (u.remove loc).2.node? l = u.node? l := by
  obtain ⟨content, file⟩ := beside.present loc List.mem_cons_self
  have nodes (l : Location) (inside : l ≠ []) : (u.without loc).node? l = if l = loc then none else u.node? l :=
    node_without u loc l inside
  have owned (l : Location) (mem : l ∈ own) : (u.without loc).node? l = u.node? l := by
    rw [nodes l (own_named spoken (loc :: own) s u beside l (List.mem_cons_of_mem loc mem)),
      if_neg (fun here : l = loc => other (here ▸ mem))]
  rw [remove_eq, file]
  refine ⟨rfl, ⟨beside.current, fun l mem => beside.absent l (List.mem_cons_of_mem loc mem),
    fun l mem => beside.unspoken l (List.mem_cons_of_mem loc mem), ?_, ?_⟩, owned⟩
  · intro l mem
    rw [owned l mem]
    exact beside.present l (List.mem_cons_of_mem loc mem)
  · intro l outside
    by_cases root : l = []
    · rw [root]
      rfl
    · rw [nodes l root]
      by_cases here : l = loc
      · rw [if_pos here, here, beside.absent loc List.mem_cons_self]
      · rw [if_neg here]
        exact beside.same l fun mem => (List.mem_cons.mp mem).elim here outside

end MatchTrace.Store
