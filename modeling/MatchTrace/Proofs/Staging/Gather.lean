import MatchTrace.Staging.Gather

/-!
What was put comes out in order, wherever the buffer cuts it.
-/

namespace MatchTrace.Gather

set_option autoImplicit false

def chars (g : Gather) : List Char := (g.stored.reverse.map String.toList).flatten ++ g.waiting.reverse.flatten

def Counted (g : Gather) : Prop := g.waitingBytes = byteCount g.waiting.reverse.flatten

theorem byte_count_append (a b : List Char) : byteCount (a ++ b) = byteCount a + byteCount b := by
  induction a with
  | nil => exact (Nat.zero_add _).symm
  | cons c cs ih =>
      simp only [byteCount, List.cons_append, List.map_cons, List.foldr_cons] at ih ⊢
      omega

theorem byte_count_zero (piece : List Char) (none : byteCount piece = 0) : piece = [] := by
  cases piece with
  | nil => rfl
  | cons c cs =>
      have := Char.utf8Size_pos c
      simp only [byteCount, List.map_cons, List.foldr_cons] at none
      omega

theorem text_chars (g : Gather) (empty : g.waiting = []) : g.text.toList = g.chars := by
  rw [text, String.toList_join, chars, empty, List.reverse_nil, List.flatten_nil, List.append_nil, List.flatMap_def]

theorem store_cases (g h : Gather) (pieces : List (List Char)) (bytes : Nat) (stored : g.store pieces bytes = .ok h) :
    h.stored = String.ofList pieces.reverse.flatten :: g.stored ∧ h.waiting = g.waiting ∧
      h.waitingBytes = g.waitingBytes := by
  rw [store] at stored
  cases room : g.room with
  | none =>
      simp only [room, Except.ok.injEq] at stored
      subst stored
      exact ⟨rfl, rfl, rfl⟩
  | some bound =>
      simp only [room] at stored
      split at stored
      · cases stored
        exact ⟨rfl, rfl, rfl⟩
      · cases stored

theorem flush_chars (g h : Gather) (flushed : g.flush = .ok h) : h.chars = g.chars ∧ h.waiting = [] ∧ Counted h := by
  rw [flush] at flushed
  split at flushed
  · next k stored =>
      cases flushed
      obtain ⟨chunks, _⟩ := store_cases g k g.waiting g.waitingBytes stored
      refine ⟨?_, rfl, rfl⟩
      rw [chars, chunks, chars]
      simp
  · cases flushed

theorem make_place_chars (g h : Gather) (bytes : Nat) (counted : Counted g) (made : g.makePlace bytes = .ok h) :
    h.chars = g.chars ∧ Counted h ∧ (capacity ≤ bytes → h.waiting.reverse.flatten = []) := by
  rw [makePlace] at made
  split at made
  · obtain ⟨same, empty, counted⟩ := flush_chars g h made
    exact ⟨same, counted, fun _ => by rw [empty]; rfl⟩
  · next fits =>
      cases made
      refine ⟨rfl, counted, fun large => byte_count_zero _ ?_⟩
      rw [← counted]
      omega

theorem put_chars (g h : Gather) (piece : List Char) (counted : Counted g) (put : g.put piece = .ok h) :
    h.chars = g.chars ++ piece ∧ Counted h := by
  rw [Gather.put] at put
  split at put
  · cases put
  · next k made =>
      obtain ⟨same, counted, empty⟩ := make_place_chars g k _ counted made
      split at put
      · next large =>
          obtain ⟨chunks, waiting, bytes⟩ := store_cases k h [piece] _ put
          refine ⟨?_, by rw [Counted, waiting, bytes, counted]⟩
          rw [← same, chars, chunks, waiting, chars, empty large]
          simp
      · cases put
        refine ⟨by rw [← same, chars, chars]; simp, ?_⟩
        rw [Counted, counted, List.reverse_cons, List.flatten_append, byte_count_append, List.flatten_singleton]

theorem put_all_chars (g h : Gather) (pieces : List (List Char)) (counted : Counted g)
    (put : g.putAll pieces = .ok h) : h.chars = g.chars ++ pieces.flatten ∧ Counted h := by
  induction pieces generalizing g with
  | nil =>
      cases put
      exact ⟨(List.append_nil _).symm, counted⟩
  | cons piece pieces ih =>
      rw [putAll] at put
      split at put
      · next k first =>
          obtain ⟨one, counted⟩ := put_chars g k piece counted first
          obtain ⟨rest, counted⟩ := ih k counted put
          exact ⟨by rw [rest, one, List.flatten_cons, List.append_assoc], counted⟩
      · cases put

end MatchTrace.Gather
