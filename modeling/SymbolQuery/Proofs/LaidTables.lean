/-
One table laid over another, key by key.

What stands under a path of keys afterwards is told by the table on top as far as it goes. A
value of its own that is no table wins; where it has a table, this is laid over the one below,
or wins over whatever else is there; and where it names nothing, what is below stays. Each is
an induction on the path, for values laid over an optional value below, since inside a table
there may be nothing below.

The entries of a table are laid over the other one after the other, which is the same as all
at once because each key stands once.
-/
import Mathlib.Data.List.Nodup
import SymbolQuery.Proofs.DistinctKeys

set_option autoImplicit false

namespace SymbolQuery.Toml

/-! ## Looking up and putting in -/

theorem lookup_append_of_not_mem {key : String} {front : List (String × Toml)}
    (h : key ∉ keys front) (entries : List (String × Toml)) :
    (front ++ entries).lookup key = entries.lookup key := by
  rw [List.lookup_append, lookup_of_not_mem h, Option.none_or]

theorem lookup_insert_self (key : String) (v : Toml) (entries : List (String × Toml)) :
    (insert key v entries).lookup key = some v := by
  induction entries with
  | nil => exact List.lookup_cons_self
  | cons e rest ih =>
    rw [insert]
    split
    · exact List.lookup_cons_self
    · next hk => rw [List.lookup_cons, beq_false_of_ne (Ne.symm hk), ih]

theorem lookup_insert_of_ne {key other : String} (h : other ≠ key) (v : Toml)
    (entries : List (String × Toml)) :
    (insert key v entries).lookup other = entries.lookup other := by
  induction entries with
  | nil => rw [insert, List.lookup_cons, beq_false_of_ne h]
  | cons e rest ih =>
    rw [insert]
    split
    · next hk => rw [List.lookup_cons, List.lookup_cons, hk, beq_false_of_ne h]
    · rw [List.lookup_cons, List.lookup_cons, ih]

/-- A value under a new key is put at the end. -/
theorem insert_append {key : String} {front : List (String × Toml)} (h : key ∉ keys front)
    (v : Toml) (entries : List (String × Toml)) :
    insert key v (front ++ entries) = front ++ insert key v entries := by
  induction front with
  | nil => rfl
  | cons e front ih =>
    obtain ⟨hne, hfront⟩ := not_or.mp (mt List.mem_cons.mpr h)
    rw [List.cons_append, insert, if_neg (Ne.symm hne), ih hfront, List.cons_append]

/-! ## One key of a table that is laid over another -/

theorem laidOver_none (v : Toml) : laidOver none v = v := by
  cases v <;> rfl

theorem laidOver_of_plain {v : Toml} (h : v.isTable = false) (below : Option Toml) :
    laidOver below v = v := by
  cases v with
  | table => cases h
  | _ => rfl

/-- Over a table another one is laid key by key; over anything else it is put as it is. -/
theorem table_or_replaced (below : Option Toml) :
    (∃ others, below = some (.table others))
      ∨ (∀ v, laidOver below v = v)
        ∧ ∀ key rest, below.bind (path? (key :: rest)) = none := by
  cases below with
  | none => exact .inr ⟨laidOver_none, fun _ _ => rfl⟩
  | some b =>
    cases b with
    | table others => exact .inl ⟨others, rfl⟩
    | _ => exact .inr ⟨fun v => by cases v <;> rfl, fun _ _ => rfl⟩

/-- **One key**: what the table on top has there is laid over what is below; what it does not
name stays. -/
theorem lookup_overlay {entries : List (String × Toml)} (h : (keys entries).Nodup) (key : String)
    (below : List (String × Toml)) :
    (overlay below entries).lookup key
      = match entries.lookup key with
        | some v => some (laidOver (below.lookup key) v)
        | none => below.lookup key := by
  induction entries generalizing below with
  | nil => rfl
  | cons e rest ih =>
    obtain ⟨k, v⟩ := e
    obtain ⟨hk, hrest⟩ := List.nodup_cons.mp h
    rw [overlay, ih hrest]
    by_cases hkey : key = k
    · subst hkey
      rw [List.lookup_cons_self, lookup_of_not_mem hk]
      exact lookup_insert_self key _ below
    · rw [List.lookup_cons, beq_false_of_ne hkey, lookup_insert_of_ne hkey]

theorem path?_laidOver_cons {entries : List (String × Toml)} (h : (keys entries).Nodup)
    (key : String) (rest : List String) (others : List (String × Toml)) :
    path? (key :: rest) (laidOver (some (.table others)) (.table entries))
      = (match entries.lookup key with
        | some v => some (laidOver (others.lookup key) v)
        | none => others.lookup key).bind (path? rest) :=
  congrArg (Option.bind · (path? rest)) (lookup_overlay h key others)

/-! ## Empty tables, and a table over itself -/

theorem not_mem_keys_front {front rest : List (String × Toml)} {e : String × Toml}
    (h : (keys (front ++ e :: rest)).Nodup) : e.1 ∉ keys front := by
  intro hmem
  rw [keys, List.map_append] at h
  exact List.disjoint_of_nodup_append h hmem List.mem_cons_self

/-- Entries under new keys are put behind the others. -/
theorem overlay_append {below entries : List (String × Toml)}
    (h : (keys (below ++ entries)).Nodup) : overlay below entries = below ++ entries := by
  induction entries generalizing below with
  | nil => rw [overlay, List.append_nil]
  | cons e rest ih =>
    have hk := not_mem_keys_front h
    have hinsert := insert_append hk e.2 []
    rw [List.append_nil] at hinsert
    rw [List.append_cons] at h ⊢
    rw [overlay, lookup_of_not_mem hk, laidOver_none, hinsert]
    exact ih h

/-- Entries that are there already change nothing. -/
theorem overlay_again {front entries : List (String × Toml)}
    (hkeys : (keys (front ++ entries)).Nodup)
    (hvalues : ∀ e ∈ entries, laidOver (some e.2) e.2 = e.2) :
    overlay (front ++ entries) entries = front ++ entries := by
  induction entries generalizing front with
  | nil => rw [overlay]
  | cons e rest ih =>
    obtain ⟨hv, hrest⟩ := List.forall_mem_cons.mp hvalues
    have hk := not_mem_keys_front hkeys
    rw [overlay, lookup_append_of_not_mem hk, List.lookup_cons_self, hv, insert_append hk, insert,
      if_pos rfl]
    rw [List.append_cons] at hkeys ⊢
    exact ih hkeys hrest

/-- A value laid over itself is itself. -/
theorem laidOver_self {v : Toml} (h : KeysOnce v) : laidOver (some v) v = v := by
  induction h with
  | plain h => exact laidOver_of_plain h _
  | @table entries hkeys _ ih =>
    have hagain : overlay ([] ++ entries) entries = [] ++ entries := overlay_again hkeys ih
    exact congrArg Toml.table hagain

/-! ## Paths -/

/-- The way along a path stays in tables and then comes to a key that is missing. -/
inductive Misses : List String → Toml → Prop
  | here {key : String} {rest : List String} {entries : List (String × Toml)}
      (h : entries.lookup key = none) : Misses (key :: rest) (.table entries)
  | further {key : String} {rest : List String} {entries : List (String × Toml)} {v : Toml}
      (h : entries.lookup key = some v) (hrest : Misses rest v) :
    Misses (key :: rest) (.table entries)

variable {upper : Toml} {path : List String} {v : Toml}

/-- **A path that the value on top has**: what stands there is laid over what is below. -/
theorem path?_laidOver (h : KeysOnce upper) (hpath : path? path upper = some v)
    (below : Option Toml) :
    path? path (laidOver below upper) = some (laidOver (below.bind (path? path)) v) := by
  induction path generalizing upper below with
  | nil =>
    cases hpath
    cases below <;> rfl
  | cons key rest ih =>
    cases upper with
    | table entries =>
      obtain ⟨w, hw, hrest⟩ := Option.bind_eq_some_iff.mp hpath
      obtain ⟨others, rfl⟩ | ⟨hreplaced, hbelow⟩ := table_or_replaced below
      · rw [path?_laidOver_cons h.keys, hw]
        exact ih (h.values _ (mem_of_lookup hw)) hrest (others.lookup key)
      · -- what is below is no table, and there is nothing along the path
        rw [hreplaced, hbelow, laidOver_none]
        exact hpath
    | _ => cases hpath

/-- **A path that the value on top misses** leads to what is below. -/
theorem path?_laidOver_of_misses (h : KeysOnce upper) (hmisses : Misses path upper)
    (below : Option Toml) :
    path? path (laidOver below upper) = below.bind (path? path) := by
  induction hmisses generalizing below with
  | @here key rest entries hkey =>
    obtain ⟨others, rfl⟩ | ⟨hreplaced, hbelow⟩ := table_or_replaced below
    · rw [path?_laidOver_cons h.keys, hkey]
      rfl
    · rw [hreplaced, hbelow, path?, hkey]
      rfl
  | @further key rest entries w hkey _ ih =>
    have hw := h.values _ (mem_of_lookup hkey)
    obtain ⟨others, rfl⟩ | ⟨hreplaced, hbelow⟩ := table_or_replaced below
    · rw [path?_laidOver_cons h.keys, hkey]
      exact ih hw (others.lookup key)
    · -- nothing is below; on top the path still misses, which is the case of nothing further on
      have hnothing := ih hw none
      rw [laidOver_none] at hnothing
      rw [hreplaced, hbelow, path?, hkey]
      exact hnothing

/-- **Nothing else is there**: what is no table comes from the value on top, or from below if the
value on top misses the path. -/
theorem path?_of_laidOver (h : KeysOnce upper) (hv : v.isTable = false) (below : Option Toml)
    (hpath : path? path (laidOver below upper) = some v) :
    path? path upper = some v ∨ Misses path upper ∧ below.bind (path? path) = some v := by
  induction path generalizing upper below with
  | nil =>
    cases upper with
    | table entries =>
      -- over a table or not, a table stays one
      cases hpath
      cases below with
      | none => cases hv
      | some b => cases b <;> cases hv
    | _ => exact .inl hpath
  | cons key rest ih =>
    cases upper with
    | table entries =>
      obtain ⟨others, rfl⟩ | ⟨hreplaced, -⟩ := table_or_replaced below
      · rw [path?_laidOver_cons h.keys] at hpath
        cases hkey : entries.lookup key with
        | none =>
          rw [hkey] at hpath
          exact .inr ⟨.here hkey, hpath⟩
        | some w =>
          rw [hkey] at hpath
          have hw := h.values _ (mem_of_lookup hkey)
          refine (ih hw (others.lookup key) hpath).imp ?_ (And.imp_left (.further hkey))
          intro hrest
          rw [path?, hkey]
          exact hrest
      · rw [hreplaced] at hpath
        exact .inl hpath
    | _ => cases hpath

/-! ## The whole -/

/-- **A table laid over another, key by key.** Where the table on top has a value that is no table,
the path leads to it; so it does where only one of the two has a table, and where both have one,
they are laid over each other. A path that the table on top misses leads to what is below. Every
value that is no table comes from one of the two, from the one below only if the other one misses
its path. Laid over the empty table, or the empty one over it, a table is as it was, and over
itself too. -/
theorem overlay_by_keys (base upper : List (String × Toml)) (h : KeysOnce (.table upper)) :
    (∀ path v, path? path (.table upper) = some v → v.isTable = false →
        path? path (.table (overlay base upper)) = some v)
      ∧ (∀ path v, path? path (.table base) = some v → Misses path (.table upper) →
        path? path (.table (overlay base upper)) = some v)
      ∧ (∀ path v, path? path (.table (overlay base upper)) = some v → v.isTable = false →
        path? path (.table upper) = some v
          ∨ Misses path (.table upper) ∧ path? path (.table base) = some v)
      ∧ (∀ path v w, path? path (.table base) = some v → path? path (.table upper) = some w →
        v.isTable ≠ w.isTable → path? path (.table (overlay base upper)) = some w)
      ∧ (∀ path others entries, path? path (.table base) = some (.table others) →
        path? path (.table upper) = some (.table entries) →
        path? path (.table (overlay base upper)) = some (.table (overlay others entries)))
      ∧ overlay base [] = base ∧ overlay [] upper = upper ∧ overlay upper upper = upper := by
  have hpath : ∀ path v, path? path (.table upper) = some v →
      path? path (.table (overlay base upper))
        = some (laidOver (path? path (.table base)) v) := by
    intro path v hv
    exact path?_laidOver h hv (some (.table base))
  refine ⟨?_, ?_, ?_, ?_, ?_, rfl, overlay_append h.keys, ?_⟩
  · intro path v hv hplain
    rw [hpath path v hv, laidOver_of_plain hplain]
  · intro path v hv hmisses
    exact (path?_laidOver_of_misses h hmisses (some (.table base))).trans hv
  · intro path v hv hplain
    exact path?_of_laidOver h hplain (some (.table base)) hv
  · intro path v w hv hw hconflict
    rw [hpath path w hw, hv]
    cases hplain : w.isTable with
    | false => rw [laidOver_of_plain hplain]
    | true =>
      -- then the value below is no table, and is replaced
      obtain ⟨others, hothers⟩ | ⟨hreplaced, -⟩ := table_or_replaced (some v)
      · cases hothers
        exact absurd hplain.symm hconflict
      · rw [hreplaced]
  · intro path others entries hothers hentries
    rw [hpath path _ hentries, hothers]
    rfl
  · exact Toml.table.inj (laidOver_self h)

/-- The settings of a project over those of the user: a section keeps what the project does not
name, and a section takes the place of a number. -/
theorem overlay_by_keys_settings :
    let base : List (String × Toml) :=
      [("timeouts", .table [("references", .int 45000), ("hover", .int 3000)]),
        ("lsp", .table [("servers", .int 1)])]
    let upper : List (String × Toml) :=
      [("timeouts", .table [("hover", .int 1000)]), ("lsp", .table [("servers", .table [])])]
    parse "timeouts.hover=1000\n[lsp.servers]" = some upper
      ∧ KeysOnce (.table upper)
      ∧ path? ["timeouts", "references"] (.table (overlay base upper)) = some (.int 45000)
      ∧ path? ["timeouts", "hover"] (.table (overlay base upper)) = some (.int 1000)
      ∧ path? ["lsp", "servers"] (.table (overlay base upper)) = some (.table [])
      ∧ overlay [] upper = upper ∧ overlay upper upper = upper := by
  intro base upper
  have hparse : parse "timeouts.hover=1000\n[lsp.servers]" = some upper := by decide +kernel
  have hkeys : KeysOnce (.table upper) := keysOnce_of_parse hparse
  obtain ⟨hvalue, hmissed, -, hconflict, -, -, hempty, hself⟩ := overlay_by_keys base upper hkeys
  refine ⟨hparse, hkeys, ?_, ?_, ?_, hempty, hself⟩
  · exact hmissed _ _ rfl (.further rfl (.here rfl))
  · exact hvalue _ _ rfl rfl
  · exact hconflict _ (.int 1) _ rfl rfl (by decide)

end SymbolQuery.Toml
