import Mathlib

/-!
# Computations that may fail

A computation in two parts succeeds exactly if both parts do, and one that maps a list exactly if
it succeeds for each entry. It fails with the error of the first entry that fails.
-/

namespace ScriptMachine

/-- A computation in two parts succeeds exactly if both parts do. -/
theorem bind_eq_ok {ε α β : Type} {first : Except ε α} {second : α → Except ε β} {result : β} :
    first >>= second = .ok result ↔ ∃ value, first = .ok value ∧ second value = .ok result := by
  cases first with
  | error reason => simp [bind, Except.bind]
  | ok value => simp [bind, Except.bind]

/-- All entries are mapped if each one is. -/
theorem mapM_eq_ok {ε α β : Type} {f : α → Except ε β} {entries : List α} {results : List β} :
    entries.mapM f = .ok results ↔
      List.Forall₂ (fun entry result => f entry = .ok result) entries results := by
  induction entries generalizing results with
  | nil =>
    rw [List.forall₂_nil_left_iff]
    exact ⟨fun done => (Except.ok.inj done).symm, fun nothing => nothing ▸ rfl⟩
  | cons entry rest ih =>
    rw [List.mapM_cons, bind_eq_ok, List.forall₂_cons_left_iff]
    constructor
    · rintro ⟨first, found, done⟩
      obtain ⟨others, mapped, done⟩ := bind_eq_ok.1 done
      cases done
      exact ⟨first, others, found, ih.1 mapped, rfl⟩
    · rintro ⟨first, others, found, mapped, rfl⟩
      exact ⟨first, found, bind_eq_ok.2 ⟨others, ih.2 mapped, rfl⟩⟩

/-- Mapping fails with the error of the first entry that fails. -/
theorem mapM_eq_error {ε α β : Type} {f : α → Except ε β} {entries : List α} {error : ε} :
    entries.mapM f = .error error ↔ ∃ earlier entry later, entries = earlier ++ entry :: later ∧
      f entry = .error error ∧ ∀ passed ∈ earlier, ∃ result, f passed = .ok result := by
  induction entries with
  | nil =>
    refine ⟨fun failed => (by cases failed), ?_⟩
    rintro ⟨earlier, entry, later, split, _⟩
    simp at split
  | cons first rest ih =>
    rw [List.mapM_cons]
    cases found : f first with
    | error reason =>
      constructor
      · intro failed
        cases failed
        exact ⟨[], first, rest, rfl, found, by simp⟩
      · rintro ⟨earlier, entry, later, split, failed, passes⟩
        obtain _ | ⟨_, _⟩ := earlier
        · cases split
          cases found.symm.trans failed
          rfl
        · cases split
          obtain ⟨result, passed⟩ := passes first List.mem_cons_self
          cases found.symm.trans passed
    | ok result =>
      have rest_fails : (do let results ← rest.mapM f; pure (result :: results)) =
          Except.error error ↔ rest.mapM f = .error error := by
        cases rest.mapM f with
        | error reason => exact Iff.rfl
        | ok results => exact ⟨fun failed => (by cases failed), fun failed => by cases failed⟩
      refine rest_fails.trans (ih.trans ?_)
      constructor
      · rintro ⟨earlier, entry, later, rfl, failed, passes⟩
        refine ⟨first :: earlier, entry, later, rfl, failed, fun passed listed => ?_⟩
        rcases List.mem_cons.1 listed with rfl | listed
        · exact ⟨result, found⟩
        · exact passes passed listed
      · rintro ⟨earlier, entry, later, split, failed, passes⟩
        obtain _ | ⟨_, earlier⟩ := earlier
        · cases split
          cases found.symm.trans failed
        · cases split
          exact ⟨earlier, entry, later, rfl, failed,
            fun passed listed => passes passed (List.mem_cons_of_mem _ listed)⟩

/-- Mapping succeeds if no entry fails. -/
theorem exists_mapM_eq_ok_iff {ε α β : Type} {f : α → Except ε β} {entries : List α} :
    (∃ results, entries.mapM f = .ok results) ↔
      ∀ entry ∈ entries, ∃ result, f entry = .ok result := by
  constructor
  · rintro ⟨results, mapped⟩ entry listed
    obtain ⟨position, inside, rfl⟩ := List.getElem_of_mem listed
    have each := mapM_eq_ok.1 mapped
    exact ⟨_, each.get inside (each.length_eq ▸ inside)⟩
  · intro passes
    cases mapped : entries.mapM f with
    | ok results => exact ⟨results, rfl⟩
    | error error =>
      obtain ⟨earlier, entry, later, rfl, failed, _⟩ := mapM_eq_error.1 mapped
      obtain ⟨result, passed⟩ := passes entry (by simp)
      cases failed.symm.trans passed

end ScriptMachine
