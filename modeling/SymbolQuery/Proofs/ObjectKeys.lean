/-
Values that were read have each key of an object once.

The fields of an object are put in one by one, each at its place in the order of the keys
or over the one that had its key before. So they stand in strict order whatever the text
said, and a field that is found under a key is the only one of that key: a record reads
what looking for the key finds.
-/
import Mathlib.Data.String.Basic
import SymbolQuery.Json.Parser
import SymbolQuery.Proofs.MessageForm

set_option autoImplicit false

namespace SymbolQuery.Json

/-! ## Fields in order -/

/-- The fields of an object stand in the order of their keys, each key once. -/
def Ordered (fields : List (String × Json)) : Prop := fields.Pairwise fun f g => f.1 < g.1

/-- The fields of every object in a value stand in order. -/
inductive Tidy : Json → Prop
  | plain {v : Json} (h : v.depth = 0) : Tidy v
  | arr {items : List Json} (h : ∀ v ∈ items, Tidy v) : Tidy (.arr items)
  | obj {fields : List (String × Json)} (horder : Ordered fields)
      (hvalues : ∀ f ∈ fields, Tidy f.2) : Tidy (.obj fields)

theorem Tidy.ordered {fields : List (String × Json)} (h : Tidy (.obj fields)) :
    Ordered fields := by
  cases h with
  | plain h => cases h
  | obj horder _ => exact horder

theorem Tidy.values {fields : List (String × Json)} (h : Tidy (.obj fields)) :
    ∀ f ∈ fields, Tidy f.2 := by
  cases h with
  | plain h => cases h
  | obj _ hvalues => exact hvalues

/-- Putting a field in adds it, and no other. -/
theorem mem_insertField {key : String} {value : Json} {fields : List (String × Json)}
    {f : String × Json} (h : f ∈ insertField key value fields) : f = (key, value) ∨ f ∈ fields := by
  induction fields with
  | nil => exact Or.inl (List.mem_singleton.mp h)
  | cons field rest ih =>
    obtain ⟨k, v⟩ := field
    rw [insertField] at h
    split at h
    · exact List.mem_cons.mp h
    · split at h
      · rcases List.mem_cons.mp h with h | h
        · exact Or.inl h
        · exact Or.inr (List.mem_cons_of_mem _ h)
      · rcases List.mem_cons.mp h with h | h
        · exact Or.inr (List.mem_cons.mpr (Or.inl h))
        · exact (ih h).imp_right (List.mem_cons_of_mem _)

/-- A field that is put in stands at its place. -/
theorem ordered_insertField (key : String) (value : Json) {fields : List (String × Json)}
    (h : Ordered fields) : Ordered (insertField key value fields) := by
  induction fields with
  | nil => exact List.pairwise_singleton _ _
  | cons field rest ih =>
    obtain ⟨k, v⟩ := field
    obtain ⟨hfirst, hrest⟩ := List.pairwise_cons.mp h
    rw [insertField]
    split
    · next hbefore =>
      refine List.pairwise_cons.mpr ⟨fun g hg => ?_, h⟩
      rcases List.mem_cons.mp hg with rfl | hg
      · exact hbefore
      · exact hbefore.trans (hfirst g hg)
    · next hbefore =>
      split
      · next heq =>
        subst heq
        exact List.pairwise_cons.mpr ⟨hfirst, hrest⟩
      · next hne =>
        have hafter : k < key := lt_of_le_of_ne (not_lt.mp hbefore) (Ne.symm hne)
        refine List.pairwise_cons.mpr ⟨fun g hg => ?_, ih hrest⟩
        rcases mem_insertField hg with rfl | hg
        · exact hafter
        · exact hfirst g hg

/-! ## What a parser reads -/

/-- A word stands for a value that is not nested. -/
theorem plain_of_readWord {v w : Json} {word s rest : List Char} (hv : v.depth = 0)
    (h : readWord v word s = .ok (w, rest)) : w.depth = 0 := by
  induction word generalizing s with
  | nil =>
    cases h
    exact hv
  | cons c word ih =>
    cases s with
    | nil => cases h
    | cons d s =>
      rw [readWord] at h
      split at h
      · exact ih h
      · cases h

theorem plain_of_realOf {negative : Bool} {significand : Nat} {exponent : Int}
    {s rest : List Char} {v : Json} (h : realOf negative significand exponent s = .ok (v, rest)) :
    v.depth = 0 := by
  unfold realOf at h
  split at h
  · cases h
    rfl
  · cases h

theorem plain_of_readExponent {negative : Bool} {significand : Nat} {start : Int}
    {s rest : List Char} {v : Json}
    (h : readExponent negative significand start s = .ok (v, rest)) : v.depth = 0 := by
  unfold readExponent at h
  dsimp only at h
  -- every way through it fails or ends with a real number
  repeat' split at h
  all_goals first
    | exact plain_of_realOf h
    | cases h

theorem plain_of_readScaled {negative : Bool} {significand : Nat} {exponent : Int}
    {s rest : List Char} {v : Json}
    (h : readScaled negative significand exponent s = .ok (v, rest)) : v.depth = 0 := by
  unfold readScaled at h
  split at h
  · exact plain_of_readExponent h
  · exact plain_of_readExponent h
  · exact plain_of_realOf h

/-- A number is not nested, with or without a point and an exponent. -/
theorem plain_of_readNumber {negative : Bool} {s rest : List Char} {v : Json}
    (h : readNumber negative s = .ok (v, rest)) : v.depth = 0 := by
  unfold readNumber at h
  dsimp only at h
  repeat' split at h
  all_goals first
    | exact plain_of_readScaled h
    | exact plain_of_realOf h
    | (cases h; done)
    | (cases h; rfl)

/-- A step that is followed by another has gone well where both have. -/
theorem exists_of_bind {ε α β : Type} {x : Except ε α} {f : α → Except ε β} {b : β}
    (h : (x >>= f) = .ok b) : ∃ a, x = .ok a ∧ f a = .ok b := by
  cases x with
  | error e => cases h
  | ok a => exact ⟨a, rfl, h⟩

mutual

/-- **What is read is tidy.** -/
theorem tidy_of_readValue {fuel depth : Nat} {s rest : List Char} {v : Json}
    (h : readValue fuel depth s = .ok (v, rest)) : Tidy v := by
  match fuel with
  | 0 =>
    rw [readValue] at h
    cases h
  | fuel + 1 =>
    rw [readValue] at h
    split at h
    · cases h
    -- one kind of value after the other
    split at h
    · exact .plain (plain_of_readWord rfl h)
    split at h
    · exact .plain (plain_of_readWord rfl h)
    split at h
    · exact .plain (plain_of_readWord rfl h)
    split at h
    · exact .plain (plain_of_readNumber h)
    split at h
    · exact .plain (plain_of_readNumber h)
    split at h
    · obtain ⟨⟨t, more⟩, _, h⟩ := exists_of_bind h
      cases h
      exact .plain rfl
    split at h
    · split at h
      · cases h
      · exact tidy_of_readItems (fun _ hw => by cases hw) h
    split at h
    · split at h
      · cases h
      · exact tidy_of_readFields .nil (fun _ hf => by cases hf) h
    cases h

/-- Items are collected as they come. -/
theorem tidy_of_readItems {fuel depth : Nat} {first : Bool} {done : List Json}
    {s rest : List Char} {v : Json} (hdone : ∀ w ∈ done, Tidy w)
    (h : readItems fuel depth first done s = .ok (v, rest)) : Tidy v := by
  match fuel with
  | 0 =>
    rw [readItems] at h
    cases h
  | fuel + 1 =>
    rw [readItems] at h
    split at h
    · cases h
    split at h
    · cases h
      exact .arr fun w hw => hdone w (List.mem_reverse.mp hw)
    split at h
    · obtain ⟨⟨w, more⟩, hread, h⟩ := exists_of_bind h
      exact tidy_of_readItems (List.forall_mem_cons.mpr ⟨tidy_of_readValue hread, hdone⟩) h
    split at h
    · split at h
      · cases h
      · cases h
      · obtain ⟨⟨w, more⟩, hread, h⟩ := exists_of_bind h
        exact tidy_of_readItems (List.forall_mem_cons.mpr ⟨tidy_of_readValue hread, hdone⟩) h
    cases h

/-- Fields are collected in the order of their keys, not in that of the text. -/
theorem tidy_of_readFields {fuel depth : Nat} {first : Bool} {done : List (String × Json)}
    {s rest : List Char} {v : Json} (horder : Ordered done) (hvalues : ∀ f ∈ done, Tidy f.2)
    (h : readFields fuel depth first done s = .ok (v, rest)) : Tidy v := by
  match fuel with
  | 0 =>
    rw [readFields] at h
    cases h
  | fuel + 1 =>
    rw [readFields] at h
    split at h
    · cases h
    split at h
    · cases h
      exact .obj horder hvalues
    split at h
    · split at h
      · exact tidy_of_readField horder hvalues h
      · cases h
    split at h
    · split at h
      · cases h
      split at h
      · exact tidy_of_readField horder hvalues h
      split at h <;> cases h
    cases h

theorem tidy_of_readField {fuel depth : Nat} {done : List (String × Json)}
    {s rest : List Char} {v : Json} (horder : Ordered done) (hvalues : ∀ f ∈ done, Tidy f.2)
    (h : readField fuel depth done s = .ok (v, rest)) : Tidy v := by
  match fuel with
  | 0 =>
    rw [readField] at h
    cases h
  | fuel + 1 =>
    rw [readField] at h
    obtain ⟨⟨key, more⟩, _, h⟩ := exists_of_bind h
    dsimp only at h
    split at h
    · cases h
    split at h
    · -- the field is put among those that were read before
      obtain ⟨⟨w, more⟩, hread, h⟩ := exists_of_bind h
      refine tidy_of_readFields (ordered_insertField key w horder) (fun f hf => ?_) h
      rcases mem_insertField hf with rfl | hf
      · exact tidy_of_readValue hread
      · exact hvalues f hf
    cases h

end

/-- **The fields of a text that was read stand in order**, each key once. -/
theorem tidy_of_parse {s : List Char} {v : Json} (h : parseChars s = .ok v) : Tidy v := by
  obtain ⟨⟨w, rest⟩, hread, h⟩ := exists_of_bind h
  dsimp only at h
  split at h
  · cases h
    exact tidy_of_readValue hread
  · cases h

/-! ## Plain values -/

theorem asText_eq_ok {v : Json} {s : String} : asText v = .ok s ↔ v = .str s := by
  cases v <;> simp [asText]

/-- An integer is read from a number without a point, within its bounds. -/
theorem asIntIn_eq_ok {low high : Int} {type : String} {v : Json} {i : Int} :
    asIntIn low high type v = .ok i ↔ v = .ofInt i ∧ low ≤ i ∧ i ≤ high := by
  cases v with
  | num n =>
    cases n with
    | int j =>
      unfold asIntIn ofInt
      by_cases hj : low ≤ j ∧ j ≤ high
      · simp only [hj, and_self, if_true, Except.ok.injEq, num.injEq, Number.int.injEq]
        exact ⟨fun h => ⟨h, h ▸ hj⟩, And.left⟩
      · simp only [hj, if_false, reduceCtorEq, num.injEq, Number.int.injEq, false_iff]
        exact fun h => hj (h.1 ▸ h.2)
    | real _ => simp [asIntIn, ofInt]
  | null | bool _ | str _ | arr _ | obj _ => simp [asIntIn, ofInt]

theorem asNatIn_eq_ok {high : Nat} {type : String} {v : Json} {n : Nat} :
    asNatIn high type v = .ok n ↔ v = .ofNat n ∧ n ≤ high := by
  constructor
  · intro h
    unfold asNatIn at h
    cases hint : asIntIn 0 high type v with
    | error _ =>
      rw [hint] at h
      cases h
    | ok j =>
      rw [hint] at h
      cases h
      obtain ⟨rfl, hlow, hhigh⟩ := asIntIn_eq_ok.mp hint
      obtain ⟨m, rfl⟩ := Int.eq_ofNat_of_zero_le hlow
      exact ⟨rfl, Int.ofNat_le.mp hhigh⟩
  · rintro ⟨rfl, h⟩
    have hint : asIntIn 0 high type (.ofNat n) = .ok n :=
      asIntIn_eq_ok.mpr ⟨rfl, Int.natCast_nonneg n, Int.ofNat_le.mpr h⟩
    rw [asNatIn, hint]
    rfl

/-- Any value is read where it may be absent; null is none. -/
theorem getD_asOption_asValue (o : Option Json) :
    (o.map (asOption asValue)).getD (.ok none) = .ok (o.bind nonNull) := by
  cases o with
  | none => rfl
  | some v => exact asOption_asValue v

/-- Where a value may be absent, null can stand for it. -/
theorem exists_asOption {α : Type} {read : Json → Decoded α} {o : Option Json} :
    (∃ a, (o.map (asOption read)).getD (.ok none) = .ok a)
      ↔ ∀ v, o = some v → v = .null ∨ ∃ a, read v = .ok a := by
  cases o with
  | none => simp
  | some v =>
    cases v with
    | null => simp [asOption]
    | bool _ | num _ | str _ | arr _ | obj _ =>
      simp only [Option.map_some, Option.getD_some, asOption, Option.some.injEq,
        forall_eq', reduceCtorEq, false_or]
      generalize read _ = result
      cases result <;> simp [Except.map]

/-! ## A record by its keys -/

theorem get?_eq_some {name : String} {v w : Json} (h : v.get? name = some w) :
    ∃ fields, v = .obj fields ∧ fields.lookup name = some w := by
  cases v with
  | obj fields => exact ⟨fields, rfl, h⟩
  | null | bool _ | num _ | str _ | arr _ => cases h

/-- What is found under a key of a tidy value is tidy. -/
theorem Tidy.get? {name : String} {v w : Json} (hv : Tidy v) (h : v.get? name = some w) :
    Tidy w := by
  obtain ⟨fields, rfl, hlookup⟩ := get?_eq_some h
  exact hv.values _ (mem_of_lookup hlookup)

/-- Where looking finds nothing a record finds nothing either. -/
theorem occurrences_of_lookup_none {name : String} {fields : List (String × Json)}
    (h : fields.lookup name = none) (i : Nat) : occurrences [name] i fields = [] := by
  induction fields generalizing i with
  | nil => rfl
  | cons field rest ih =>
    obtain ⟨k, v⟩ := field
    by_cases hk : name = k
    · subst hk
      rw [List.lookup_cons_self] at h
      cases h
    · rw [List.lookup_cons, beq_false_of_ne hk] at h
      rw [occurrences, if_neg (by simpa using Ne.symm hk)]
      exact ih h (i + 1)

/-- The field that is found under a key is the only one of that key. -/
theorem occurrences_of_lookup {name : String} {fields : List (String × Json)} {w : Json}
    (horder : Ordered fields) (h : fields.lookup name = some w) (i : Nat) :
    ∃ j, occurrences [name] i fields = [(j, w)] := by
  induction fields generalizing i with
  | nil => cases h
  | cons field rest ih =>
    obtain ⟨k, v⟩ := field
    obtain ⟨hfirst, hrest⟩ := List.pairwise_cons.mp horder
    by_cases hk : name = k
    · subst hk
      rw [List.lookup_cons_self] at h
      cases h
      have hnone : rest.lookup name = none := by
        cases hlookup : rest.lookup name with
        | none => rfl
        | some w' =>
          -- a second one would stand behind the first, and so under a larger key
          exact absurd (hfirst _ (mem_of_lookup hlookup)) (lt_irrefl name)
      rw [occurrences, if_pos (by simp), occurrences_of_lookup_none hnone]
      exact ⟨i, rfl⟩
    · rw [List.lookup_cons, beq_false_of_ne hk] at h
      rw [occurrences, if_neg (by simpa using Ne.symm hk)]
      exact ih hrest h (i + 1)

section

variable {α β : Type}

theorem Fields.seq_eq_ok {f : Fields (α → β)} {x : Fields α} {b : β} :
    (f <*> x).result = .ok b ↔ ∃ g a, f.result = .ok g ∧ x.result = .ok a ∧ g a = b := by
  change (Fields.seq f x).result = .ok b ↔ _
  unfold Fields.seq
  cases f.result <;> cases x.result <;> simp

theorem Fields.map_eq_ok {g : α → β} {x : Fields α} {b : β} :
    (g <$> x).result = .ok b ↔ ∃ a, x.result = .ok a ∧ g a = b := by
  change (Fields.seq (Fields.pure g) x).result = .ok b ↔ _
  unfold Fields.seq Fields.pure
  cases x.result <;> simp

theorem Fields.toDecoded_eq_ok {x : Fields α} {a : α} :
    x.toDecoded = .ok a ↔ x.result = .ok a := by
  unfold Fields.toDecoded
  cases x.result <;> simp [Except.mapError]

theorem readRecord_obj_eq_ok {type : RecordType} {record : Source → Fields α}
    {fields : List (String × Json)} {a : α} :
    readRecord type record (.obj fields) = .ok a ↔ (record (.named fields)).result = .ok a :=
  Fields.toDecoded_eq_ok

/-- A record that is listed may not have more items than fields. -/
theorem readRecord_arr_eq_ok {type : RecordType} {record : Source → Fields α}
    {items : List Json} {a : α} :
    readRecord type record (.arr items) = .ok a
      ↔ (record (.listed items)).result = .ok a ∧ items.length ≤ type.size := by
  rw [← Fields.toDecoded_eq_ok]
  unfold readRecord
  dsimp only
  cases (record (.listed items)).toDecoded with
  | error _ => simp
  | ok b =>
    by_cases hsize : items.length ≤ type.size <;> simp [hsize]

variable {type : RecordType} {fields : List (String × Json)} {index : Nat} {name : String}
  {read : Json → Decoded α}

/-- A required field is read from what is found under its key. -/
theorem required_eq_ok (horder : Ordered fields) {a : α} :
    (required type (.named fields) index name read).result = .ok a
      ↔ ∃ v, fields.lookup name = some v ∧ read v = .ok a := by
  cases h : fields.lookup name with
  | none =>
    simp [required, fieldWith, occurrences_of_lookup_none h 0]
  | some v =>
    obtain ⟨i, hfield⟩ := occurrences_of_lookup horder h 0
    simp only [required, fieldWith, hfield, Option.some.injEq, exists_eq_left']
    cases read v <;> simp [Except.mapError]

/-- An optional field is read from what is found under its key, if anything is. -/
theorem optional_eq_ok (horder : Ordered fields) {a : Option α} :
    (optional type (.named fields) index name read).result = .ok a
      ↔ ((fields.lookup name).map (asOption read)).getD (.ok none) = .ok a := by
  cases h : fields.lookup name with
  | none =>
    simp [optional, fieldWith, occurrences_of_lookup_none h 0]
  | some v =>
    obtain ⟨i, hfield⟩ := occurrences_of_lookup horder h 0
    simp only [optional, fieldWith, hfield, Option.map_some, Option.getD_some]
    cases asOption read v <;> simp [Except.mapError]

/-- A field that an array must spell out is read from the item at its place. -/
theorem fieldWith_listed_eq_ok {items : List Json} {names : List String} {absent : Option α}
    {a : α} :
    (fieldWith type (.listed items) index names read absent none).result = .ok a
      ↔ ∃ v, items[index]? = some v ∧ read v = .ok a := by
  cases h : items[index]? with
  | none => simp [fieldWith, h]
  | some v =>
    simp only [fieldWith, h, Option.some.injEq, exists_eq_left']
    cases read v <;> simp [Except.mapError]

end

end SymbolQuery.Json
