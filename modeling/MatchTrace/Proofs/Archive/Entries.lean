import Mathlib.Data.List.Nodup
import MatchTrace.Proofs.Archive.Rows

/-!
Entries of an archive, found by their names. No name is listed twice, so it does not matter in which order the entries stand,
or what stands beside them.
-/

namespace MatchTrace

set_option autoImplicit false

variable {α : Type}

namespace Zip

theorem name_of_put (e : Entry) (entries : List Entry) (name : String) (mem : name ∈ (putEntry e entries).map (·.name)) :
    name = e.name ∨ name ∈ entries.map (·.name) := by
  induction entries with
  | nil => exact .inl (List.mem_singleton.mp mem)
  | cons f rest ih =>
      rw [putEntry] at mem
      by_cases same : f.name = e.name
      · rw [if_pos same, List.map_cons, List.mem_cons] at mem
        exact mem.imp_right (List.mem_cons_of_mem _)
      · rw [if_neg same, List.map_cons, List.mem_cons] at mem
        rcases mem with rfl | later
        · exact .inr List.mem_cons_self
        · exact (ih later).imp_right (List.mem_cons_of_mem _)

theorem put_distinct (e : Entry) (entries : List Entry) (distinct : (entries.map (·.name)).Nodup) :
    ((putEntry e entries).map (·.name)).Nodup := by
  induction entries with
  | nil => exact List.nodup_singleton _
  | cons f rest ih =>
      obtain ⟨fresh, others⟩ := List.nodup_cons.mp distinct
      rw [putEntry]
      by_cases same : f.name = e.name
      · rw [if_pos same, List.map_cons, ← same]
        exact distinct
      · rw [if_neg same, List.map_cons]
        refine List.nodup_cons.mpr ⟨fun mem => ?_, ih others⟩
        exact (name_of_put e rest f.name mem).elim same fresh

theorem read_distinct (bytes : ByteArray) (entries : List Entry) (read : read? bytes = some entries) :
    (entries.map (·.name)).Nodup := by
  obtain ⟨lines, -, rfl⟩ := Option.map_eq_some_iff.mp read
  suffices all : ∀ found : List Entry, (found.map (·.name)).Nodup →
      ((lines.foldl (fun found line => putEntry ⟨line.name, body bytes line⟩ found) found).map (·.name)).Nodup from
    all [] List.nodup_nil
  clear read
  induction lines with
  | nil => exact fun found distinct => distinct
  | cons line lines ih => exact fun found distinct => ih _ (put_distinct _ found distinct)

end Zip

theorem bytes_listed (b : ByteArray) (entries : List Zip.Entry) (listed : (Content.bytes b).entries? = .ok entries) :
    Zip.read? b = some entries := by
  unfold Content.entries? at listed
  cases read : Zip.read? b with
  | none =>
      simp only [read] at listed
      cases listed
  | some found =>
      simp only [read] at listed
      cases listed
      rfl

-- An archive that is kept unpacked is the only one that could list a name twice.
theorem entries_distinct (content : Content) (entries : List Zip.Entry) (listed : content.entries? = .ok entries)
    (kept : ∀ c, content = .archive c → (c.entries.map (·.1)).Nodup) : (entries.map (·.name)).Nodup := by
  cases content with
  | bytes b => exact Zip.read_distinct b entries (bytes_listed b entries listed)
  | archive c =>
      cases listed
      rw [List.map_map]
      exact kept c rfl

namespace Archive

variable (entries : List Zip.Entry) (name : String)

inductive Lost : TraceError → Prop where
  | missing : (∀ e ∈ entries, e.name ≠ name) → Lost (.malformed name "entry missing")
  | unopenable (cause : IoError) : ⟨name, .unopenable cause⟩ ∈ entries → Lost (.io ⟨.openEntry name, cause, []⟩)
  | unreadable (cause : IoError) : ⟨name, .unreadable cause⟩ ∈ entries → Lost (.io ⟨.readEntry name, cause, []⟩)

def Tells (reads : String → α → Prop) (x : α) : Prop := ∃ text, ⟨name, .text text⟩ ∈ entries ∧ reads text x

-- What is said of the entry if it cannot be had, or if it can but its text is no good for the reasons that `bad` tells of it.
inductive Blames (bad : String → String → Prop) : TraceError → Prop where
  | lost (e : TraceError) : Lost entries name e → Blames bad e
  | malformed (text reason : String) : ⟨name, .text text⟩ ∈ entries → bad text reason → Blames bad (.malformed name reason)

variable (distinct : (entries.map (·.name)).Nodup)
include distinct

theorem found_iff (e : Zip.Entry) : entries.find? (·.name == name) = some e ↔ e ∈ entries ∧ e.name = name := by
  constructor
  · intro found
    exact ⟨List.mem_of_find?_eq_some found, by simpa using List.find?_some found⟩
  · rintro ⟨mem, rfl⟩
    have present : (entries.find? (·.name == e.name)).isSome := List.find?_isSome.mpr ⟨e, mem, beq_self_eq_true e.name⟩
    obtain ⟨f, found⟩ := Option.isSome_iff_exists.mp present
    have same : f.name = e.name := by simpa using List.find?_some found
    rw [found, List.inj_on_of_nodup_map distinct (List.mem_of_find?_eq_some found) mem same]

theorem read_entry_ok_iff (text : String) : readEntry entries name = .ok text ↔ ⟨name, .text text⟩ ∈ entries := by
  have found := found_iff entries name distinct ⟨name, .text text⟩
  rw [and_iff_left rfl] at found
  rw [← found, readEntry]
  cases entry : entries.find? (·.name == name) with
  | none => exact iff_of_false (fun none => nomatch none) (fun none => nomatch none)
  | some e =>
      have named : e.name = name := ((found_iff entries name distinct e).mp entry).2
      obtain ⟨_, body⟩ := e
      subst named
      cases body <;> simp

theorem read_entry_error_iff (e : TraceError) : readEntry entries name = .error e ↔ Lost entries name e := by
  constructor
  · intro failed
    rw [readEntry] at failed
    cases entry : entries.find? (·.name == name) with
    | none =>
        rw [entry] at failed
        cases failed
        exact .missing fun f mem => by simpa using List.find?_eq_none.mp entry f mem
    | some f =>
        rw [entry] at failed
        obtain ⟨mem, rfl⟩ := (found_iff entries name distinct f).mp entry
        obtain ⟨_, body⟩ := f
        cases body with
        | text text => cases failed
        | unopenable cause =>
            cases failed
            exact .unopenable cause mem
        | unreadable cause =>
            cases failed
            exact .unreadable cause mem
  · intro lost
    rw [readEntry]
    cases lost with
    | missing absent => rw [List.find?_eq_none.mpr fun f mem => by simpa using absent f mem]
    | unopenable cause mem => rw [(found_iff entries name distinct _).mpr ⟨mem, rfl⟩]
    | unreadable cause mem => rw [(found_iff entries name distinct _).mpr ⟨mem, rfl⟩]

variable (decode : String → Except TraceError α)

theorem entry_ok_iff (reads : String → α → Prop) (sound : ∀ text x, decode text = .ok x ↔ reads text x) (x : α) :
    (readEntry entries name >>= decode) = .ok x ↔ Tells entries name reads x := by
  simp only [bind_ok_iff, read_entry_ok_iff entries name distinct, sound, Tells]

theorem entry_error_iff (bad : String → String → Prop)
    (faults : ∀ text e, decode text = .error e ↔ ∃ reason, bad text reason ∧ e = .malformed name reason) (e : TraceError) :
    (readEntry entries name >>= decode) = .error e ↔ Blames entries name bad e := by
  rw [bind_error_iff, read_entry_error_iff entries name distinct]
  constructor
  · rintro (lost | ⟨text, held, failed⟩)
    · exact .lost e lost
    · obtain ⟨reason, fault, rfl⟩ := (faults text e).mp failed
      exact .malformed text reason ((read_entry_ok_iff entries name distinct text).mp held) fault
  · intro blamed
    cases blamed with
    | lost _ lost => exact .inl lost
    | malformed text reason mem fault =>
        exact .inr ⟨text, (read_entry_ok_iff entries name distinct text).mpr mem, (faults text _).mpr ⟨reason, fault, rfl⟩⟩

end Archive

end MatchTrace
