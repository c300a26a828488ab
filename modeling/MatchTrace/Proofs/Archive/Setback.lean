import Mathlib.Data.List.Nodup
import MatchTrace.Proofs.Archive.Publish
import MatchTrace.Proofs.Staging.Operations
import MatchTrace.Proofs.Store.Removal

/-!
What storage may refuse to a publication, and what is told of it: the step, the cause, and every removal of a temporary
file that failed too. Each step that fails leaves other files to be removed. That the staging file has vanished is no
error of its own.
-/

namespace MatchTrace

set_option autoImplicit false

open Operation

structure Setback where
  step : Step
  cause : IoError
  left : List Location
  store : Store

def Setback.failure (b : Setback) : Failure := ⟨b.step, b.cause, b.store.unremoved b.left⟩

theorem discard_bare (s : Store) (loc : Location) (step : Step) (cause : IoError) :
    StagedTable.discard s loc ⟨step, cause, []⟩ = ((⟨step, cause, [loc], s⟩ : Setback).failure, (s.remove loc).2) :=
  congrArg (·, (s.remove loc).2) (Store.with_removal s loc ⟨step, cause, []⟩)

theorem discard_both (s : Store) (temp staging : Location) (step : Step) (cause : IoError) (other : temp ≠ staging) :
    (StagedTable.discard (s.remove staging).2 temp ⟨step, cause, []⟩).1.withRemoval (s.remove staging).1 =
      (⟨step, cause, [temp, staging], s⟩ : Setback).failure := by
  rw [discard_bare, Store.with_removal]
  have same := Store.unremoved_same s (s.remove staging).2 temp (Store.node_remove_other s staging temp other)
  simp only [Setback.failure, same, Store.unremoved_cons s temp [staging]]

namespace ArchiveDraft

def operations (faults : Faults) (d : ArchiveDraft) : List (Operation Unit) :=
  asking faults .writeInput 0 .ok :: ((List.range d.matchers.length).map (asking faults .writeMatchers · .ok) ++
    [.copyTable, .writeSummary, .finishArchive, .syncArchive].map (asking faults · 0 .ok))

theorem run_check (faults : Faults) (step : Step) (n : Nat) (xs : List (Operation Unit)) :
    run (asking faults step n .ok :: xs) () = (faults.check step n >>= fun _ => run xs ()) := by
  simp only [run, asking, Faults.check]
  cases faults step n <;> rfl

theorem run_checks (faults : Faults) (step : Step) (numbers : List Nat) (xs : List (Operation Unit)) :
    run (numbers.map (asking faults step · .ok) ++ xs) () =
      (numbers.forM (faults.check step) >>= fun _ => run xs ()) := by
  induction numbers with
  | nil => rfl
  | cons n numbers ih =>
      rw [List.map_cons, List.cons_append, run_check, ih, ← bind_assoc]
      rfl

theorem assemble_operations (faults : Faults) (d : ArchiveDraft) :
    d.assemble faults = (run (d.operations faults) () >>= fun _ => pure d.container) := by
  rw [operations, run_check, run_checks, assemble]
  simp only [List.map_cons, List.map_nil, run_check, bind_assoc]
  rfl

theorem assemble_failed (faults : Faults) (d : ArchiveDraft) (f : Failure) :
    d.assemble faults = .error f ↔
      ∃ step cause, FailsAt (d.operations faults) () step cause ∧ f = ⟨step, cause, []⟩ := by
  rw [assemble_operations, bind_pure_error_iff, run_error_iff]

-- What storage may refuse to a publication. That something is at the target's place is told otherwise.
inductive Meets (faults : Faults) (meanwhile : Store → Store) (d : ArchiveDraft) (s : Store) : Setback → Prop where
  | create (cause : IoError) :
      d.createTemp faults s = .error cause → Meets faults meanwhile d s ⟨.createArchive, cause, [d.staged.location], s⟩
  | assemble (temp : Location) (t : Store) (step : Step) (cause : IoError) :
      d.createTemp faults s = .ok (temp, t) → FailsAt (d.operations faults) () step cause →
      Meets faults meanwhile d s ⟨step, cause, [temp, d.staged.location], meanwhile t⟩
  | move (temp : Location) (t : Store) (cause : IoError) :
      d.createTemp faults s = .ok (temp, t) → (∀ step cause, ¬ FailsAt (d.operations faults) () step cause) →
      d.moveIntoPlace faults temp (((meanwhile t).refill temp (.archive d.container)).remove d.staged.location).2 =
        .error cause → cause ≠ .exists →
      Meets faults meanwhile d s
        ⟨.publish, cause, [temp, d.staged.location], (meanwhile t).refill temp (.archive d.container)⟩

section Publish

variable (faults : Faults) (meanwhile : Store → Store) (d : ArchiveDraft) (s t : Store) (temp : Location)

theorem publish_create (cause : IoError) (refused : d.createTemp faults s = .error cause) :
    d.publish faults meanwhile s =
      (.error (.io (⟨.createArchive, cause, [d.staged.location], s⟩ : Setback).failure),
        (s.remove d.staged.location).2) := by
  simp only [publish, refused, discard_bare]

variable (created : d.createTemp faults s = .ok (temp, t))

include created

theorem publish_assemble (step : Step) (cause : IoError) (other : temp ≠ d.staged.location)
    (failed : d.assemble faults = .error ⟨step, cause, []⟩) :
    (d.publish faults meanwhile s).1 =
      .error (.io (⟨step, cause, [temp, d.staged.location], meanwhile t⟩ : Setback).failure) := by
  simp only [publish, created, failed, discard_both _ _ _ _ _ other]

theorem publish_move (other : temp ≠ d.staged.location) (assembled : d.assemble faults = .ok d.container) :
    let filled := (meanwhile t).refill temp (.archive d.container)
    d.publish faults meanwhile s =
      match d.moveIntoPlace faults temp (filled.remove d.staged.location).2 with
      | .ok u => (.ok d.target, u)
      | .error .exists => (.error (.archiveExists d.target), ((filled.remove d.staged.location).2.remove temp).2)
      | .error cause =>
        (.error (.io (⟨.publish, cause, [temp, d.staged.location], filled⟩ : Setback).failure),
          ((filled.remove d.staged.location).2.remove temp).2) := by
  simp only [publish, created, assembled, ← discard_both _ _ _ _ _ other]
  rfl

end Publish

section Apart

variable (faults : Faults) (meanwhile : Store → Store) (d : ArchiveDraft) (s : Store)
  (apart : ∀ place n, d.staged.location ≠ place ++ [Store.tempName n archiveSuffix])

include apart

theorem create_apart (temp : Location) (t : Store) (created : d.createTemp faults s = .ok (temp, t)) :
    temp ≠ d.staged.location := by
  obtain ⟨place, -, rfl, -⟩ := Store.create_temp_cases s t _ _ _ temp (create_temp_ok faults d s t temp created)
  obtain ⟨n, fresh⟩ := Store.fresh_name_temp s place archiveSuffix (Path.fileName? d.target)
  rw [fresh]
  exact (apart place n).symm

theorem meets_publish (b : Setback) (meets : d.Meets faults meanwhile s b) :
    b.left.Nodup ∧ (d.publish faults meanwhile s).1 = .error (.io b.failure) := by
  cases meets with
  | create cause refused =>
      rw [publish_create faults meanwhile d s cause refused]
      exact ⟨List.nodup_singleton _, rfl⟩
  | assemble temp t step cause created failed =>
      have other := create_apart faults d s apart temp t created
      have stopped := (assemble_failed faults d ⟨step, cause, []⟩).mpr ⟨step, cause, failed, rfl⟩
      rw [publish_assemble faults meanwhile d s t temp created step cause other stopped]
      exact ⟨List.nodup_cons.mpr ⟨by simpa using other, List.nodup_singleton _⟩, rfl⟩
  | move temp t cause created sound refused taken =>
      have other := create_apart faults d s apart temp t created
      have assembled : d.assemble faults = .ok d.container := by
        cases outcome : d.assemble faults with
        | ok c => rw [check_ok faults d c outcome]
        | error f =>
            obtain ⟨step, cause, failed, -⟩ := (assemble_failed faults d f).mp outcome
            exact absurd failed (sound step cause)
      refine ⟨List.nodup_cons.mpr ⟨by simpa using other, List.nodup_singleton _⟩, ?_⟩
      rw [publish_move faults meanwhile d s t temp created other assembled, refused]
      cases cause with
      | «exists» => exact absurd rfl taken
      | _ => rfl

theorem publish_meets (failure : Failure) (failed : (d.publish faults meanwhile s).1 = .error (.io failure)) :
    ∃ b, d.Meets faults meanwhile s b ∧ failure = b.failure := by
  cases created : d.createTemp faults s with
  | error cause =>
      rw [publish_create faults meanwhile d s cause created] at failed
      cases failed
      exact ⟨_, .create cause created, rfl⟩
  | ok made =>
      obtain ⟨temp, t⟩ := made
      have other := create_apart faults d s apart temp t created
      cases outcome : d.assemble faults with
      | error f =>
          obtain ⟨step, cause, stopped, rfl⟩ := (assemble_failed faults d f).mp outcome
          rw [publish_assemble faults meanwhile d s t temp created step cause other outcome] at failed
          cases failed
          exact ⟨_, .assemble temp t step cause created stopped, rfl⟩
      | ok c =>
          obtain rfl := check_ok faults d c outcome
          have sound (step : Step) (cause : IoError) : ¬ FailsAt (d.operations faults) () step cause := by
            intro stopped
            rw [(assemble_failed faults d ⟨step, cause, []⟩).mpr ⟨step, cause, stopped, rfl⟩] at outcome
            cases outcome
          rw [publish_move faults meanwhile d s t temp created other outcome] at failed
          split at failed
          · cases failed
          · cases failed
          · next cause taken refused =>
              cases failed
              exact ⟨_, .move temp t cause created sound refused taken, rfl⟩

theorem create_same_but (u v : Store) (temp : Location) (same : Store.SameBut d.staged.location s u)
    (created : d.createTemp faults s = .ok (temp, v)) :
    ∃ w, d.createTemp faults u = .ok (temp, w) ∧ Store.SameBut d.staged.location v w := by
  rw [createTemp] at created ⊢
  split at created
  · cases created
  · exact Store.same_but_create s u v _ temp same _ _ _ apart created

theorem publish_same_but (others : Store → Store) (u t : Store) (same : Store.SameBut d.staged.location s u)
    (alike : ∀ v w, Store.SameBut d.staged.location v w → Store.SameBut d.staged.location (meanwhile v) (others w))
    (outcome : Except TraceError String) (sound : ∀ failure, outcome ≠ .error (.io failure))
    (published : d.publish faults meanwhile s = (outcome, t)) : d.publish faults others u = (outcome, t) := by
  cases created : d.createTemp faults s with
  | error cause =>
      rw [publish_create faults meanwhile d s cause created] at published
      cases published
      exact absurd rfl (sound _)
  | ok made =>
      obtain ⟨temp, v⟩ := made
      have other := create_apart faults d s apart temp v created
      obtain ⟨w, again, same⟩ := create_same_but faults d s apart u v temp same created
      cases assembled : d.assemble faults with
      | error f =>
          obtain ⟨step, cause, -, rfl⟩ := (assemble_failed faults d f).mp assembled
          have failed := publish_assemble faults meanwhile d s v temp created step cause other assembled
          rw [published] at failed
          exact absurd failed (sound _)
      | ok c =>
          obtain rfl := check_ok faults d c assembled
          have filled := Store.same_but_refill _ _ _ (alike v w same) temp (.archive d.container)
          rw [publish_move faults meanwhile d s v temp created other assembled, filled] at published
          rw [publish_move faults others d u w temp again other assembled, ← published]
          split
          · rfl
          · rfl
          · next cause taken refused =>
              rw [refused] at published
              cases cause with
              | «exists» => exact absurd rfl taken
              | _ =>
                  cases published
                  exact absurd rfl (sound _)

end Apart

end ArchiveDraft

end MatchTrace
