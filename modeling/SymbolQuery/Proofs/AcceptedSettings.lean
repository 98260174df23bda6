/-
What accepted settings guarantee of tables.

Settings are read from the tables of two files, one laid over the other, then variables
count more than both, and the rules are checked last. So whatever the rules forbid is not
in settings that are accepted, wherever it came from, and nothing else is refused once
the tables and the variables are read.

The rules are what tables need. With limits that obey them a table made of any rows shows
at least one, and it is marked, with a notice behind the rows, exactly if some are
hidden. A sample is the delicate case: it is taken of more rows than the ceiling, and
only because it is never larger than the ceiling it always leaves some out.
-/
import SymbolQuery.Config.Store
import SymbolQuery.Proofs.TableEdits

set_option autoImplicit false

namespace SymbolQuery

/-! ## Rules -/

/-- Limits that obey the rules. -/
structure OutputLimits.Usable (o : OutputLimits) : Prop where
  maxRows : 1 ≤ o.maxRows
  sampleSize : 1 ≤ o.sampleSize
  sampleSize_le : o.sampleSize ≤ o.samplingCeiling
  fieldCharCap : 1 ≤ o.fieldCharCap

namespace Config

/-- No rule is broken exactly if the limits obey them all. -/
theorem broken?_eq_none_iff (c : Config) : c.broken? = none ↔ c.output.Usable := by
  unfold broken?
  constructor
  · intro h
    split at h
    · cases h
    split at h
    · cases h
    split at h
    · cases h
    split at h
    · cases h
    -- no rule was met, so its opposite holds of each limit
    · exact ⟨by omega, by omega, by omega, by omega⟩
  · rintro ⟨hrows, hsample, hceiling, hcap⟩
    rw [if_neg (by omega), if_neg (by omega), if_neg (by omega), if_neg (by omega)]

theorem checked_eq_ok_iff (c c' : Config) : c.checked = .ok c' ↔ c = c' ∧ c'.output.Usable := by
  unfold checked
  rw [← broken?_eq_none_iff]
  cases hbroken : c.broken? with
  | some fault =>
    constructor
    · rintro ⟨⟩
    · rintro ⟨rfl, h⟩
      rw [hbroken] at h
      cases h
  | none =>
    constructor
    · rintro ⟨⟩
      exact ⟨rfl, hbroken⟩
    · rintro ⟨rfl, -⟩
      rfl

/-- **The rules are checked last.** Settings are accepted exactly if they are read from the tables,
with what variables say, and obey the rules in the end. -/
theorem load_eq_ok_iff (user project : List (String × Toml)) (o : Overrides) (c : Config) :
    load user project o = .ok c
      ↔ ∃ read, ofTable (Toml.overlay user project) = .ok read ∧ read.override o = .ok c
        ∧ c.output.Usable := by
  unfold load
  cases hread : ofTable (Toml.overlay user project) with
  | error fault =>
    constructor
    · rintro ⟨⟩
    · rintro ⟨_, ⟨⟩, _⟩
  | ok read =>
    -- the tables are read; what variables say is put in before the rules are looked at
    change (read.override o >>= checked) = .ok c ↔ _
    cases hoverride : read.override o with
    | error fault =>
      constructor
      · rintro ⟨⟩
      · rintro ⟨read', hread', hoverride', -⟩
        obtain rfl := Except.ok.inj hread'
        rw [hoverride] at hoverride'
        cases hoverride'
    | ok c' =>
      change c'.checked = .ok c ↔ _
      rw [checked_eq_ok_iff]
      constructor
      · rintro ⟨rfl, h⟩
        exact ⟨read, rfl, hoverride, h⟩
      · rintro ⟨read', hread', hoverride', h⟩
        obtain rfl := Except.ok.inj hread'
        rw [hoverride] at hoverride'
        exact ⟨Except.ok.inj hoverride', h⟩

/-- Where nothing is set, the settings that hold then are accepted. -/
example : load [] [] {} = .ok {} := by
  decide +kernel

end Config

/-- Settings that are read from files come from two tables. -/
theorem ConfigStore.exists_load {s : ConfigStore} {ofUserOnly : Bool} {c : Config}
    (h : s.load ofUserOnly = .ok c) :
    ∃ user project, Config.load user project s.overrides = .ok c := by
  unfold ConfigStore.load at h
  cases huser : s.table true with
  | error fault =>
    rw [huser] at h
    cases h
  | ok user =>
    rw [huser] at h
    cases ofUserOnly with
    | true => exact ⟨user, [], h⟩
    | false =>
      cases hproject : s.table false with
      | error fault =>
        rw [hproject] at h
        cases h
      | ok project =>
        rw [hproject] at h
        exact ⟨user, project, h⟩

namespace Table

/-! ## What is shown -/

/-- A table shows the first so many of the rows that it was made of. It is marked, with a notice
behind the rows, exactly if these are not all of them. -/
structure ShowsFirst (o : OutputLimits) (given : List Row) (shown : Nat) (t : Table) : Prop where
  truncated_iff : t.truncated = true ↔ shown < given.length
  whole : ¬ shown < given.length → t.rows = given.map (encodeRow o.fieldCharCap)
  part : shown < given.length → ∃ notice, IsNotice given.length shown notice
    ∧ t.rows = (given.take shown).map (encodeRow o.fieldCharCap) ++ [notice]

variable {o : OutputLimits}

theorem showsFirst_encodeBounded (o : OutputLimits) (kind : TableKind) (rows : List Row) :
    ShowsFirst o rows (visibleRows o rows.length false) (encodeBounded o kind rows) := by
  rw [visibleRows_unsampled]
  by_cases hfits : rows.length ≤ o.maxRows
  · rw [encodeBounded_of_le hfits, Nat.min_eq_left hfits]
    refine ⟨?_, fun _ => rfl, fun hless => absurd hless (Nat.lt_irrefl _)⟩
    exact iff_of_false Bool.false_ne_true (Nat.lt_irrefl _)
  · have hcut : o.maxRows < rows.length := Nat.not_le.mp hfits
    rw [encodeBounded_of_lt hcut, Nat.min_eq_right hcut.le]
    exact ⟨iff_of_true rfl hcut, fun hnot => absurd hcut hnot, fun _ => ⟨_, .hidden, rfl⟩⟩

/-- A sample that is no larger than the ceiling is smaller than what it is taken of. -/
theorem showsFirst_encodeSampled (h : o.sampleSize ≤ o.samplingCeiling) (kind : TableKind)
    (rows : List Row) :
    ShowsFirst o rows (visibleRows o rows.length true) (encodeSampled o kind rows) := by
  by_cases hceiling : rows.length ≤ o.samplingCeiling
  · rw [encodeSampled_of_le hceiling, visibleRows_of_le hceiling]
    exact showsFirst_encodeBounded o kind rows
  · have hmany : o.samplingCeiling < rows.length := Nat.not_le.mp hceiling
    rw [encodeSampled_of_lt hmany, visibleRows_of_lt hmany]
    -- here the ceiling stands between the sample and the rows
    have hless : min o.sampleSize rows.length < rows.length := by omega
    exact ⟨iff_of_true rfl hless, fun hnot => absurd hless hnot, fun _ => ⟨_, .sample, rfl⟩⟩

/-- Usable limits show something of whatever there is. -/
theorem visibleRows_pos (h : o.Usable) {total : Nat} (htotal : 0 < total) (sampled : Bool) :
    0 < visibleRows o total sampled := by
  obtain ⟨hrows, hsample, -, -⟩ := h
  unfold visibleRows
  split
  · exact Nat.lt_min.mpr ⟨hsample, htotal⟩
  · exact Nat.lt_min.mpr ⟨htotal, hrows⟩

end Table

/-! ## Settings and tables -/

/-- **Accepted settings are safe.** Settings are accepted exactly if they are read from the tables
of the user and of the project with what variables say, and their limits obey the rules after that.
So the limits that a store gives obey them. And with limits that obey the rules, a table that is
made of rows, bounded or sampled, shows at least the first of them. It is marked, with a notice
behind its rows, exactly if it does not show all of them. -/
theorem accepted_settings_show_rows (c : Config) :
    (∀ user project overrides, Config.load user project overrides = .ok c
      ↔ ∃ read, Config.ofTable (Toml.overlay user project) = .ok read
        ∧ read.override overrides = .ok c ∧ c.output.Usable)
    ∧ (∀ (s : ConfigStore) ofUserOnly, s.load ofUserOnly = .ok c → c.output.Usable)
    ∧ (c.output.Usable → ∀ (kind : TableKind) (rows : List Row), rows ≠ [] →
      (∃ shown, 1 ≤ shown
        ∧ (Table.encodeBounded c.output kind rows).ShowsFirst c.output rows shown)
      ∧ ∃ shown, 1 ≤ shown
        ∧ (Table.encodeSampled c.output kind rows).ShowsFirst c.output rows shown) := by
  refine ⟨?_, ?_, ?_⟩
  · intro user project overrides
    exact Config.load_eq_ok_iff user project overrides c
  · intro s ofUserOnly h
    obtain ⟨user, project, hload⟩ := ConfigStore.exists_load h
    obtain ⟨read, -, -, husable⟩ := (Config.load_eq_ok_iff user project _ c).mp hload
    exact husable
  · intro husable kind rows hrows
    have hpositive : 0 < rows.length := List.length_pos_of_ne_nil hrows
    refine ⟨⟨_, Table.visibleRows_pos husable hpositive false, ?_⟩,
      ⟨_, Table.visibleRows_pos husable hpositive true, ?_⟩⟩
    · exact Table.showsFirst_encodeBounded c.output kind rows
    · exact Table.showsFirst_encodeSampled husable.sampleSize_le kind rows

/-- A variable takes the limit for rows to one, and of three rows one is shown, or two as a sample.
A variable that takes the ceiling below the size of a sample makes the same tables unusable. -/
theorem accepted_settings_show_rows_variables :
    let user : List (String × Toml) :=
      [("output", .table [("max_rows", .int 3), ("sample_size", .int 2),
        ("sampling_ceiling", .int 2)])]
    let c : Config := { output := ⟨1, 2, 2, 200⟩ }
    let rows : List Row := [["a"], ["b"], ["c"]]
    Config.load user [] { maxRows := some " 1 " } = .ok c
      ∧ (Table.encodeBounded c.output .hover rows).rows
        = ["a | EOL", "2 rows truncated out of 3 total | EOL"]
      ∧ (∃ shown, 1 ≤ shown
        ∧ (Table.encodeSampled c.output .hover rows).ShowsFirst c.output rows shown)
      ∧ ∀ c', Config.load user [] { samplingCeiling := some "1" } ≠ .ok c' := by
  intro user c rows
  have hread : Config.ofTable (Toml.overlay user []) = .ok { output := ⟨3, 2, 2, 200⟩ } := by
    decide +kernel
  have husable : c.output.Usable := ⟨by decide, by decide, by decide, by decide⟩
  have hshows := (accepted_settings_show_rows c).2.2 husable .hover rows (List.cons_ne_nil _ _)
  refine ⟨?_, by decide +kernel, hshows.2, ?_⟩
  · apply ((accepted_settings_show_rows c).1 _ _ _).mpr
    exact ⟨_, hread, by decide +kernel, husable⟩
  · intro c' h
    obtain ⟨read, hread', hoverride, husable'⟩ :=
      ((accepted_settings_show_rows c').1 _ _ _).mp h
    obtain rfl := Except.ok.inj (hread.symm.trans hread')
    have hlow : Config.override { output := ⟨3, 2, 2, 200⟩ } { samplingCeiling := some "1" }
        = .ok { output := ⟨3, 1, 2, 200⟩ } := by
      decide +kernel
    obtain rfl := Except.ok.inj (hlow.symm.trans hoverride)
    exact absurd husable'.sampleSize_le (by decide)

end SymbolQuery
