import MatchTrace.Archive.TracedRun
import MatchTrace.Proofs.Archive.Publish
import MatchTrace.Proofs.Store.Arrival

/-!
What a traced run leaves in the store. Each part of it either goes on with files of its own beside those
of others or removes them, so in the end there is nothing new but the archive, and that only if the run
came to a result.
-/

namespace MatchTrace

set_option autoImplicit false

theorem beside_nothing (spoken : Option String) (s u : Store) (beside : Store.Beside spoken [] s u) (l : Location) :
    u.node? l = s.node? l :=
  beside.same l List.not_mem_nil

theorem beside_last (spoken : Option String) (own : Location) (s u : Store) (beside : Store.Beside spoken [own] s u) :
    Store.Beside spoken [] s (u.remove own).2 :=
  (Store.beside_remove spoken own [] s u beside List.not_mem_nil).2.1

namespace StagedTable

theorem create_ok (s t : Store) (layout : Layout) (dir : String) (spokenFor : Option String) (staging : Location)
    (created : create s layout dir spokenFor = .ok (staging, t)) :
    s.createTemp dir layout.stagingSuffix spokenFor = .ok (staging, t) := by
  unfold create at created
  split at created
  · next made =>
      cases created
      exact made
  · cases created

section Clean

variable (spoken : Option String) (others u : Store) (staging : Location)
    (beside : Store.Beside spoken [staging] others u)

include beside

theorem finish_clean (r : Except Stop Table) (t : Store) (answer : Except TraceError StagedTable)
    (finished : finish u staging r = (answer, t)) :
    match answer with
    | .ok staged => r = .ok staged.table ∧ staged.location = staging ∧ Store.Beside spoken [staging] others t
    | .error _ => (∃ stop, r = .error stop) ∧ Store.Beside spoken [] others t := by
  unfold finish at finished
  split at finished
  · cases finished
    exact ⟨rfl, rfl, (Store.beside_refill spoken [staging] others u beside staging List.mem_cons_self _).2⟩
  · cases finished
    exact ⟨⟨_, rfl⟩, beside_last spoken staging others u beside⟩
  · cases finished
    exact ⟨⟨_, rfl⟩, beside_last spoken staging others u beside⟩

theorem abort_clean (r : Except Stop Table) : Store.Beside spoken [] others (abort u staging r).2 := by
  rcases finished : finish u staging r with ⟨answer, t⟩
  have clean := finish_clean spoken others u staging beside r t answer finished
  unfold abort
  rw [finished]
  cases answer with
  | ok staged =>
      obtain ⟨-, same, clean⟩ := clean
      change Store.Beside spoken [] others (t.remove staged.location).2
      rw [same]
      exact beside_last spoken staging others t clean
  | error e => cases e <;> exact clean.2

end Clean

end StagedTable

namespace ArchiveDraft

-- The store that a publication is told to leave alone: a node may come to the place of the archive
-- when its temporary file is there.
def undisturbed (faults : Faults) (assembling : Option Node) (d : ArchiveDraft) (s : Store) : Store :=
  match d.createTemp faults s with
  | .ok _ => s.welcome d.target assembling
  | .error _ => s

-- Nothing is left but the archive, at a place that was free, and that only on success.
def Leaves {ε α : Type} (d : ArchiveDraft) (others t : Store) : Except ε α → Prop
  | .ok _ => ∃ place, others.target d.target = .ok place ∧
      ∀ l, t.node? l = if l = place then some (.file (.archive d.container)) else others.node? l
  | .error _ => ∀ l, t.node? l = others.node? l

theorem create_temp_keeps (faults : Faults) (d : ArchiveDraft) (s u : Store) (keeps : Store.Keeps s u)
    (r : Location × Store) (created : d.createTemp faults s = .ok r) : ∃ r', d.createTemp faults u = .ok r' := by
  rw [createTemp] at created ⊢
  split at created
  · cases created
  · exact Store.create_temp_keeps s u keeps _ _ _ r created

theorem move_clean (faults : Faults) (d : ArchiveDraft) (others u : Store) (temp : Location) (container : Container)
    (beside : Store.Beside (Path.fileName? d.target) [temp] others u)
    (file : u.node? temp = some (.file (.archive container))) (t : Store)
    (moved : d.moveIntoPlace faults temp u = .ok t) :
    ∃ place, others.target d.target = .ok place ∧
      ∀ l, t.node? l = if l = place then some (.file (.archive container)) else others.node? l :=
  Store.beside_move d.target temp (.archive container) others u t beside file
    (d.move_into_place_ok faults u t temp moved)

theorem undisturbed_beside (faults : Faults) (assembling : Option Node) (d : ArchiveDraft) (s u : Store)
    (own : List Location) (beside : Store.Beside (Path.fileName? d.target) own s u) :
    d.undisturbed faults assembling s =
      match d.createTemp faults u with
      | .ok _ => s.welcome d.target assembling
      | .error _ => s := by
  rw [undisturbed]
  cases theirs : d.createTemp faults s with
  | ok r =>
      obtain ⟨r', ours⟩ := d.create_temp_keeps faults s u (Store.beside_keeps _ own s u beside) r theirs
      rw [ours]
  | error e =>
      cases ours : d.createTemp faults u with
      | ok r =>
          obtain ⟨r', made⟩ := d.create_temp_keeps faults u s (Store.keeps_beside _ own s u beside) r ours
          rw [theirs] at made
          cases made
      | error e => rfl

theorem unstage_clean (spoken : Option String) (temp staging : Location) (others u : Store)
    (beside : Store.Beside spoken [temp, staging] others u) (fresh : temp ∉ [staging]) :
    Store.Beside spoken [temp] others (u.remove staging).2 ∧ (u.remove staging).2.node? temp = u.node? temp := by
  have swapped := Store.beside_perm spoken _ _ others u beside (List.Perm.swap staging temp [])
  obtain ⟨-, rest, kept⟩ := Store.beside_remove spoken staging [temp] others u swapped (by simpa [eq_comm] using fresh)
  exact ⟨rest, kept temp List.mem_cons_self⟩

theorem publish_clean (faults : Faults) (assembling : Option Node) (d : ArchiveDraft) (others u t : Store)
    (outcome : Except TraceError String)
    (beside : Store.Beside (Path.fileName? d.target) [d.staged.location] others u)
    (published : d.publish faults (Store.welcome d.target assembling) u = (outcome, t)) :
    d.Leaves (d.undisturbed faults assembling others) t outcome := by
  rw [d.undisturbed_beside faults assembling others u _ beside]
  unfold publish at published
  cases made : d.createTemp faults u with
  | error cause =>
      rw [made] at published
      cases published
      exact beside_nothing _ others _ (beside_last _ _ others u beside)
  | ok made' =>
      obtain ⟨temp, created⟩ := made'
      rw [made] at published
      dsimp only at published ⊢
      obtain ⟨fresh, beside⟩ := Store.beside_create _ _ others u beside created _ _ temp
        (d.create_temp_ok faults u created temp made)
      have arrived := Store.beside_welcome d.target assembling _ others created beside
      generalize others.welcome d.target assembling = others at arrived ⊢
      generalize created.welcome d.target assembling = u at arrived published
      cases assembled : d.assemble faults with
      | error failure =>
          simp only [assembled] at published
          cases published
          exact beside_nothing _ others _
            (beside_last _ temp others _ (unstage_clean _ temp _ others u arrived fresh).1)
      | ok container =>
          obtain rfl := d.check_ok faults container assembled
          simp only [assembled] at published
          obtain ⟨file, filled⟩ := Store.beside_refill _ _ others u arrived temp List.mem_cons_self
            (.archive d.container)
          obtain ⟨alone, kept⟩ := unstage_clean _ temp _ others _ filled fresh
          split at published
          · next moved =>
              cases published
              exact d.move_clean faults others _ temp _ alone (kept.trans file) t moved
          · cases published
            exact beside_nothing _ others _ (beside_last _ temp others _ alone)
          · cases published
            exact beside_nothing _ others _ (beside_last _ temp others _ alone)

end ArchiveDraft

end MatchTrace
