/-
What a reader finds in the fields of a record.

An object has a field, or it lacks it (`Has`, `Lacks`), and an array has the field at its
place. For each kind of field there is one statement: it is read exactly if what stands
there can be read, or if nothing stands there and the record can do without. These are
equivalences, so they serve both who writes a record and who asks what a record that was
read has said. Nothing is assumed of the order of the keys, and a key that stands twice is
read by no one.
-/
import SymbolQuery.Proofs.ObjectKeys
import SymbolQuery.Proofs.SymbolTrees

set_option autoImplicit false

namespace SymbolQuery.Json

variable {fields : List (String × Json)} {name : String} {v : Json}

/-! ## Fields under a key -/

/-- What stands under some names depends on which keys are among them. -/
theorem occurrences_congr {names names' : List String}
    (h : ∀ f ∈ fields, names.contains f.1 = names'.contains f.1) (i : Nat) :
    occurrences names i fields = occurrences names' i fields := by
  induction fields generalizing i with
  | nil => rfl
  | cons field rest ih =>
    obtain ⟨hfield, hrest⟩ := List.forall_mem_cons.mp h
    rw [occurrences, occurrences, hfield, ih hrest]

theorem occurrences_eq_nil_iff {i : Nat} :
    occurrences [name] i fields = [] ↔ ∀ f ∈ fields, f.1 ≠ name := by
  induction fields generalizing i with
  | nil => simp [occurrences]
  | cons field rest ih =>
    obtain ⟨k, w⟩ := field
    rw [occurrences, List.forall_mem_cons, ← ih (i := i + 1)]
    by_cases hk : k = name <;> simp [hk]

theorem lacks_iff : Lacks fields name ↔ ∀ f ∈ fields, f.1 ≠ name := occurrences_eq_nil_iff

/-- A second name for a field changes nothing where no key has it. -/
theorem occurrences_pair_of_lacks {other : String} (h : Lacks fields other) (i : Nat) :
    occurrences [name, other] i fields = occurrences [name] i fields
      ∧ occurrences [other, name] i fields = occurrences [name] i fields := by
  have hother : ∀ f ∈ fields, f.1 ≠ other := lacks_iff.mp h
  constructor <;>
  · refine occurrences_congr (fun f hf => ?_) i
    have := hother f hf
    simp [this]

theorem Lacks.lookup_eq (h : Lacks fields name) : fields.lookup name = none := by
  have hkeys := lacks_iff.mp h
  cases hlookup : fields.lookup name with
  | none => rfl
  | some w => exact absurd rfl (hkeys _ (mem_of_lookup hlookup))

theorem lookup_of_occurrences {i j : Nat} (h : occurrences [name] i fields = [(j, v)]) :
    fields.lookup name = some v := by
  induction fields generalizing i with
  | nil => cases h
  | cons field rest ih =>
    obtain ⟨k, w⟩ := field
    rw [occurrences] at h
    by_cases hk : name = k
    · rw [if_pos (by simp [hk])] at h
      obtain ⟨⟨_, rfl⟩, _⟩ := List.cons_eq_cons.mp h
      rw [hk]
      exact List.lookup_cons_self
    · rw [if_neg (by simpa using Ne.symm hk)] at h
      rw [List.lookup_cons, beq_false_of_ne hk]
      exact ih h

theorem Has.lookup_eq (h : Has fields name v) : fields.lookup name = some v :=
  have ⟨_, hfield⟩ := h
  lookup_of_occurrences hfield

theorem Has.not_lacks (h : Has fields name v) : ¬ Lacks fields name := by
  intro hlacks
  have hsome := h.lookup_eq
  rw [hlacks.lookup_eq] at hsome
  cases hsome

/-! ## Fields of a record -/

section

variable {α : Type} {type : RecordType} {items : List Json} {index : Nat} {names : List String}
  {read : Json → Decoded α} {absent short : Option α} {a : α}

/-- A field of an object. -/
theorem fieldWith_named_iff :
    (fieldWith type (.named fields) index [name] read absent short).result = .ok a
      ↔ (Lacks fields name ∧ absent = some a) ∨ ∃ v, Has fields name v ∧ read v = .ok a := by
  unfold Lacks Has
  match h : occurrences [name] 0 fields with
  | [] => cases absent <;> simp [fieldWith, h]
  | [(i, v)] =>
    simp only [fieldWith, h]
    cases hread : read v <;> simp [Except.mapError, hread]
  | (i, v) :: (j, w) :: rest =>
    -- a key that stands twice is a fault whatever stands there
    simp only [fieldWith, h]
    cases read v <;> simp

theorem required_named_iff :
    (required type (.named fields) index name read).result = .ok a
      ↔ ∃ v, Has fields name v ∧ read v = .ok a := by
  simp [required, fieldWith_named_iff]

theorem defaulted_named_iff {value : α} :
    (defaulted type (.named fields) index name read value).result = .ok a
      ↔ (Lacks fields name ∧ value = a) ∨ ∃ v, Has fields name v ∧ read v = .ok a := by
  simp [defaulted, fieldWith_named_iff]

/-- The value that the fields of a record are read from. -/
def Source.json : Source → Json
  | .named fields => .obj fields
  | .listed items => .arr items

/-- What a record has for a field: what stands under its key, or at its place. -/
def Source.part (s : Source) (index : Nat) (name : String) : Option Json :=
  match s with
  | .named fields => fields.lookup name
  | .listed items => items[index]?

/-- Items are read if each is. -/
theorem readAll_eq_ok {as : List α} :
    readAll read items = .ok as ↔ List.Forall₂ (fun v a => read v = .ok a) items as := by
  induction items generalizing as with
  | nil => simp [readAll, eq_comm]
  | cons v rest ih =>
    rw [readAll, List.forall₂_cons_left_iff]
    cases hread : read v with
    | error _ => simp
    | ok a =>
      cases hrest : readAll read rest with
      | error _ => simp [← ih, hrest]
      | ok bs => simp [← ih, hrest, eq_comm]

theorem readAll_isOk_iff :
    (∃ as, readAll read items = .ok as) ↔ ∀ v ∈ items, ∃ a, read v = .ok a := by
  induction items with
  | nil => simp [readAll]
  | cons v rest ih =>
    rw [List.forall_mem_cons, ← ih, readAll]
    cases read v with
    | error _ => simp
    | ok a => cases readAll read rest <;> simp

end

end SymbolQuery.Json
