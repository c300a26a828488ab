import MatchTrace.Proofs.Staging.Limit
import MatchTrace.Proofs.Store.Basic
import MatchTrace.Staging.File

/-!
The file of a staged table when its writer has come to an end: it holds the whole table, or it is gone.
-/

namespace MatchTrace

set_option autoImplicit false

namespace StagedTable

section Finish

variable (s : Store) (staging : Location) (old : Content) (there : s.node? staging = some (.file old))

include there

theorem staging_named : staging ≠ [] := by
  rintro rfl
  cases there

theorem node_filled (content : Content) (l : Location) :
    (s.refill staging content).node? l = if l = staging then some (.file content) else s.node? l := by
  by_cases named : l = []
  · rw [named, if_neg (staging_named s staging old there).symm]
    rfl
  · rw [Store.node_refill s staging content l named]
    by_cases same : l = staging
    · rw [if_pos same, if_pos same, same, there]
      rfl
    · rw [if_neg same, if_neg same]

theorem node_removed (l : Location) :
    (s.remove staging).2.node? l = if l = staging then none else s.node? l := by
  rw [Store.remove_eq, there]
  by_cases named : l = []
  · rw [named, if_neg (staging_named s staging old there).symm]
    rfl
  · exact Store.node_without s staging l named

theorem finish_failed (f : Failure) :
    finish s staging (.error (.failed f)) = (.error (.io f), (s.remove staging).2) := by
  have removed : (s.remove staging).1 = .ok () := by
    rw [Store.remove_eq, there]
  rw [finish, discard]
  rcases gone : s.remove staging with ⟨answer, t⟩
  rw [gone] at removed
  cases removed
  rfl

end Finish

end StagedTable

theorem take_unfinished (faults : Faults) (p : Progress) (e : Event) (unfinished : ∀ t, p ≠ .finished t) :
    ∀ t, p.take faults (.event e) ≠ .finished t := by
  intro t same
  cases p with
  | finished u => exact unfinished u rfl
  | failed f => cases same
  | running w =>
      rw [Progress.take] at same
      cases added : w.add faults e with
      | ok x =>
          rw [added] at same
          cases same
      | error f =>
          rw [added] at same
          cases same

theorem take_all_unfinished (faults : Faults) (p : Progress) (sent : List Message) (endless : .finish ∉ sent)
    (unfinished : ∀ t, p ≠ .finished t) : ∀ t, p.takeAll faults sent ≠ .finished t := by
  induction sent generalizing p with
  | nil => exact unfinished
  | cons m ms ih =>
      cases m with
      | finish => exact absurd List.mem_cons_self endless
      | event e =>
          exact ih _ (fun mem => endless (List.mem_cons_of_mem _ mem)) (take_unfinished faults p e unfinished)

theorem start_unfinished (faults : Faults) (layout : Layout) (limit : Option Nat) (t : Table) :
    Progress.start faults layout limit ≠ .finished t := by
  intro same
  rw [Progress.start] at same
  cases made : TableDraft.start faults layout limit with
  | ok w =>
      rw [made] at same
      cases same
  | error f =>
      rw [made] at same
      cases same

-- Without an end mark, a writer that has not failed is still at work when the messages run out.
theorem endless_abandoned (faults : Faults) (layout : Layout) (limit : Option Nat) (sent : List Message)
    (endless : .finish ∉ sent) (sound : ∀ f, (Progress.start faults layout limit).takeAll faults sent ≠ .failed f) :
    Table.ofMessages faults layout limit sent = .error .abandoned := by
  have unfinished := take_all_unfinished faults _ sent endless (start_unfinished faults layout limit)
  rw [Table.ofMessages]
  cases took : (Progress.start faults layout limit).takeAll faults sent with
  | running w => rfl
  | finished t => exact absurd took (unfinished t)
  | failed f => exact absurd took (sound f)

/-- A table comes to its end exactly if it is not longer than the bound. Then the staging file holds what
the events say, and nothing of what was sent after the end; otherwise the writer reports the bound, and the
staging file is gone. It is gone too if the messages run out without an end, which is reported unless a
write failed before. -/
theorem staged_table_keeps_bound (layout : Layout) (limit : Option Nat) (events : List Event) (rest : List Message)
    (s : Store) (staging : Location) (old : Content) (there : s.node? staging = some (.file old)) :
    let text := layout.tableText events
    let written := StagedTable.finish s staging
      (Table.ofMessages .none layout limit (events.map .event ++ .finish :: rest))
    ((∃ staged, written.1 = .ok staged) ↔ ∀ bound ∈ limit, text.utf8ByteSize ≤ bound) ∧
    (∀ staged, written.1 = .ok staged →
      staged = ⟨staging, ⟨layout, text, events.length, events.countP (·.phase = .enter)⟩⟩ ∧
      ∀ l, written.2.node? l = if l = staging then some (.file (.ofText text)) else s.node? l) ∧
    (∀ bound ∈ limit, bound < text.utf8ByteSize →
      (∃ f, written.1 = .error (.io f) ∧ f.cause = .overLimit ∧ f.suppressed = []) ∧
      ∀ l, written.2.node? l = if l = staging then none else s.node? l) ∧
    ∀ faults sent, .finish ∉ sent → (∀ f, (Progress.start faults layout limit).takeAll faults sent ≠ .failed f) →
      let closed := StagedTable.finish s staging (Table.ofMessages faults layout limit sent)
      closed.1 = .error .writerClosed ∧ ∀ l, closed.2.node? l = if l = staging then none else s.node? l := by
  intro text written
  have removed := StagedTable.node_removed s staging old there
  have abandoned (faults : Faults) (sent : List Message) (endless : .finish ∉ sent)
      (sound : ∀ f, (Progress.start faults layout limit).takeAll faults sent ≠ .failed f) :
      let closed := StagedTable.finish s staging (Table.ofMessages faults layout limit sent)
      closed.1 = .error .writerClosed ∧ ∀ l, closed.2.node? l = if l = staging then none else s.node? l := by
    rw [endless_abandoned faults layout limit sent endless sound]
    exact ⟨rfl, removed⟩
  have limited := table_limit layout limit events rest
  cases outcome : Table.ofMessages .none layout limit (events.map .event ++ .finish :: rest) with
  | ok t =>
      rw [outcome] at limited
      obtain ⟨rfl, fits⟩ := limited
      have same : written = (.ok ⟨staging, _⟩, s.refill staging (.ofText text)) :=
        congrArg (StagedTable.finish s staging) outcome
      rw [same]
      refine ⟨⟨fun _ => fits, fun _ => ⟨_, rfl⟩⟩, ?_, ?_, abandoned⟩
      · rintro staged ⟨⟩
        exact ⟨rfl, StagedTable.node_filled s staging old there _⟩
      · intro bound bounded less
        exact absurd (fits bound bounded) (Nat.not_le_of_lt less)
  | error stop =>
      rw [outcome] at limited
      obtain ⟨f, rfl, stopped, bound, bounded, less⟩ := limited
      have same : written = (.error (.io f), (s.remove staging).2) :=
        (congrArg (StagedTable.finish s staging) outcome).trans (StagedTable.finish_failed s staging old there f)
      rw [same]
      refine ⟨⟨?_, ?_⟩, ?_, ?_, abandoned⟩
      · rintro ⟨staged, ⟨⟩⟩
      · intro fits
        exact absurd (fits bound bounded) (Nat.not_le_of_lt less)
      · rintro staged ⟨⟩
      · intro _ _ _
        exact ⟨⟨f, rfl, stopped.cause, stopped.suppressed⟩, removed⟩

namespace Demo

def shortCall : List Event :=
  let matcher : Descriptor := ⟨0, "CharMatcher", .terminal, "'a'"⟩
  [⟨.enter, 0, rootParent, 0, matcher, 0, 0, 10, none⟩, ⟨.success, 0, rootParent, 0, matcher, 0, 1, 30, some 20⟩]

def stagingStore : Store := { nodes := [(["staged"], .file (.bytes ByteArray.empty))] }

end Demo

-- One row of eighteen bytes, with just enough room, with too little, and without an end.
theorem short_table_keeps_bound :
    Demo.stagingStore.node? ["staged"] = some (.file (.bytes ByteArray.empty)) ∧
    (∃ staged, (StagedTable.finish Demo.stagingStore ["staged"]
      (Table.ofMessages .none .nodes (some 18) (Demo.shortCall.map .event ++ [.finish, .finish]))).1 = .ok staged) ∧
    (∃ f, (StagedTable.finish Demo.stagingStore ["staged"]
      (Table.ofMessages .none .nodes (some 17) (Demo.shortCall.map .event ++ [.finish, .finish]))).1 =
        .error (.io f) ∧ f.cause = .overLimit) ∧
    (StagedTable.finish Demo.stagingStore ["staged"]
      (Table.ofMessages .none .nodes (some 18) (Demo.shortCall.map .event))).1 = .error .writerClosed := by
  have there : Demo.stagingStore.node? ["staged"] = some (.file (.bytes ByteArray.empty)) := rfl
  have size : (Layout.nodes.tableText Demo.shortCall).utf8ByteSize = 18 := by decide +kernel
  have ample := staged_table_keeps_bound .nodes (some 18) Demo.shortCall [.finish] _ _ _ there
  have scarce := staged_table_keeps_bound .nodes (some 17) Demo.shortCall [.finish] _ _ _ there
  refine ⟨there, ?_, ?_, ?_⟩
  · apply ample.1.mpr
    rintro _ ⟨⟩
    exact Nat.le_of_eq size
  · obtain ⟨f, failed, cause, -⟩ := (scarce.2.2.1 17 rfl (by rw [size]; decide)).1
    exact ⟨f, failed, cause⟩
  · have endless : Message.finish ∉ Demo.shortCall.map .event := by decide
    exact (ample.2.2.2 .none _ endless fun f failed => by cases failed).1

end MatchTrace
