/-
Symbols that are written as text and read back.

Each level of symbols nests the text of a forest two deeper, once for the array of the symbols
and once for the object of each, and the ranges in a symbol take two more. So the limit on the
nesting of a text allows for 62 levels of symbols, in a text of their own as well as in the
message of an answer, which has one level more around them. As values, forests come back from
any depth (`WrittenAs.reread`); beyond 62 levels it is their text that is refused, and so is a
message with it.
-/
import SymbolQuery.Proofs.NestedText
import SymbolQuery.Proofs.SymbolTrees

set_option autoImplicit false

namespace SymbolQuery

open Json

theorem Position.integral_toJson {p : Position} (h : p.Fits) : p.toJson.Integral := by
  have hfits : ∀ n : Nat, n ≤ Text.max32 → IsInteger n := by
    intro n hn
    rw [Text.max32] at hn
    exact ⟨by omega, by omega⟩
  exact ⟨hfits _ h.1, hfits _ h.2, trivial⟩

theorem Range.integral_toJson {r : Range} (h : r.Fits) : r.toJson.Integral :=
  ⟨Position.integral_toJson h.1, Position.integral_toJson h.2, trivial⟩

theorem Range.depth_toJson (r : Range) : r.toJson.depth = 2 := rfl

namespace Symbol

/-! ## Levels of symbols -/

mutual

/-- How many symbols stand inside each other in a tree. -/
def levels : Symbol → Nat
  | ⟨_, _, _, _, _, children⟩ => levelsOf children + 1

/-- How many symbols stand inside each other in a forest. -/
def levelsOf : List Symbol → Nat
  | [] => 0
  | s :: rest => max s.levels (levelsOf rest)

end

mutual

/-- What is written for a symbol is nested twice as deep as the symbol has levels, and once more. -/
theorem depth_toJson : ∀ s : Symbol, s.toJson.depth = 2 * s.levels + 1
  | ⟨name, kind, range, selectionRange, detail, []⟩ => by
    cases detail <;> rfl
  | ⟨name, kind, range, selectionRange, detail, c :: rest⟩ => by
    have hinside := depthItems_toJsonList (c :: rest) (List.cons_ne_nil c rest)
    rw [toJson, levels]
    cases detail <;>
      simp only [field?, Option.map_none, Option.map_some, List.append_nil, List.cons_append,
        List.nil_append, depth, depthFields, SymbolKind.toJson, ofNat, Range.depth_toJson,
        hinside] <;>
      omega

theorem depthItems_toJsonList : ∀ forest : List Symbol, forest ≠ [] →
    depthItems (toJsonList forest) = 2 * levelsOf forest + 1
  | [], h => absurd rfl h
  | [s], _ => by
    simp only [toJsonList, depthItems, depth_toJson s, levelsOf, Nat.max_zero]
  | s :: c :: rest, _ => by
    rw [toJsonList, depthItems, depth_toJson s, levelsOf,
      depthItems_toJsonList (c :: rest) (List.cons_ne_nil c rest)]
    omega

end

/-- The text of a forest is nested no deeper than the limit up to 62 levels, with one level around
it or without. -/
theorem depth_forest_le_iff (forest : List Symbol) {around : Nat} (h : around ≤ 1) :
    (arr (toJsonList forest)).depth + around ≤ 127 ↔ levelsOf forest ≤ 62 := by
  have hdepth : (arr (toJsonList forest)).depth = depthItems (toJsonList forest) + 1 := rfl
  rw [hdepth]
  cases forest with
  | nil =>
    change 0 + 1 + around ≤ 127 ↔ 0 ≤ 62
    omega
  | cons s rest =>
    rw [depthItems_toJsonList (s :: rest) (List.cons_ne_nil s rest)]
    omega

/-! ## Numbers in symbols -/

mutual

/-- The numbers in a symbol are integers. -/
theorem integral_toJson : ∀ s : Symbol, s.Fits → s.toJson.Integral
  | ⟨name, kind, range, selectionRange, detail, children⟩, h => by
    obtain ⟨hrange, hselection, hchildren⟩ := h
    have hkind : IsInteger kind.code := by
      have hcode := kind.code_le
      rw [Text.max32] at hcode
      exact ⟨by omega, by omega⟩
    have hbefore : ∀ fields, IntegralFields fields → IntegralFields
        ([("name", .str name), ("kind", kind.toJson), ("range", range.toJson),
          ("selectionRange", selectionRange.toJson)] ++ fields) := fun fields h =>
      ⟨trivial, hkind, Range.integral_toJson hrange, Range.integral_toJson hselection, h⟩
    have hinside := integralItems_toJsonList children hchildren
    rw [toJson.eq_def]
    dsimp only
    rw [List.append_assoc]
    refine hbefore _ ?_
    cases detail <;> cases children
    · trivial
    · exact ⟨hinside, trivial⟩
    · exact ⟨trivial, trivial⟩
    · exact ⟨trivial, hinside, trivial⟩

theorem integralItems_toJsonList : ∀ forest : List Symbol, (∀ s ∈ forest, s.Fits) →
    IntegralItems (toJsonList forest)
  | [], _ => trivial
  | s :: rest, h => by
    obtain ⟨hs, hrest⟩ := List.forall_mem_cons.mp h
    exact ⟨integral_toJson s hs, integralItems_toJsonList rest hrest⟩

end

/-! ## Texts -/

/-- The text of a forest. -/
def text (forest : List Symbol) : String := (arr (toJsonList forest)).compact

/-- The text of a message that answers a request with a forest. -/
def answerText (id : Rpc.Id) (forest : List Symbol) : String :=
  (Rpc.Response.success id (arr (toJsonList forest))).toJson.compact

variable {forest : List Symbol}

/-- **The text of a forest is read up to 62 levels**, and else refused. -/
theorem parse_text (hfits : ∀ s ∈ forest, s.Fits) :
    (levelsOf forest ≤ 62 → Json.parse (text forest) = .ok (arr (toJsonList forest)).canonical)
      ∧ (62 < levelsOf forest → ∃ rest, Json.parse (text forest) = failAt .tooDeep rest) := by
  have hlevels := depth_forest_le_iff forest (Nat.zero_le 1)
  obtain ⟨hread, hrefused⟩ := parse_compact (v := arr (toJsonList forest))
    (integralItems_toJsonList forest hfits)
  exact ⟨fun h => hread (by omega), fun h => hrefused (by omega)⟩

/-- **The message of an answer is read up to 62 levels** as well, and else refused. -/
theorem parse_answerText (hfits : ∀ s ∈ forest, s.Fits) {id : Rpc.Id} (hid : id.Fits) :
    (levelsOf forest ≤ 62 → Rpc.Message.parseChars (answerText id forest).toList
        = .ok (.response
            { id := some id, result := some (arr (toJsonList forest)).canonical }))
      ∧ (62 < levelsOf forest → ∃ rest, Rpc.Message.parseChars (answerText id forest).toList
        = .error (.notJson (answerText id forest).toList ⟨.tooDeep, rest, true⟩)) := by
  have hlevels := depth_forest_le_iff forest (Nat.le_refl 1)
  have hdepth : (Rpc.Response.success id (arr (toJsonList forest))).toJson.depth
      = (arr (toJsonList forest)).depth + 1 := by
    have hinside : depthFields [("jsonrpc", .str "2.0"), ("id", id.toJson),
        ("result", arr (toJsonList forest))] = (arr (toJsonList forest)).depth := by
      cases id <;> simp [depthFields, depth, Rpc.Id.toJson, ofNat]
    exact congrArg (· + 1) hinside
  have hintegral : (Rpc.Response.success id (arr (toJsonList forest))).toJson.Integral := by
    refine ⟨trivial, ?_, integralItems_toJsonList forest hfits, trivial⟩
    cases id with
    | text s => trivial
    | number n => exact ⟨by omega, Int.ofNat_le.mpr hid⟩
  obtain ⟨hread, hrefused⟩ := parse_compact hintegral
  constructor
  · intro h
    have hparse : Json.parseChars (answerText id forest).toList
        = .ok (Rpc.Response.success id (arr (toJsonList forest))).toJson.canonical :=
      hread (by omega)
    rw [Rpc.Message.parseChars, hparse]
    exact Rpc.Message.ofJson_success hid _
  · intro h
    obtain ⟨rest, hrest⟩ := hrefused (by omega)
    have hparse : Json.parseChars (answerText id forest).toList = failAt .tooDeep rest := hrest
    refine ⟨rest, ?_⟩
    rw [Rpc.Message.parseChars, hparse]
    rfl

/-! ## Forests -/

/-- **Forests survive the wire up to 62 levels.** From the value that is written for a forest it is
read back, however deep it is: by the reader of symbols as it was, and as an answer as nested
symbols that mean it without its empty details, so that a walk through them shows the same. Such a
value is read from the text of the forest, and from the message of an answer with it, if at most 62
symbols stand inside each other. The text of a deeper forest is refused, and the message too. -/
theorem forest_survives (forest : List Symbol) (hfits : ∀ s ∈ forest, s.Fits) :
    (∀ v, WrittenAs forest v → RereadFrom forest v)
      ∧ (levelsOf forest ≤ 62 →
        (∃ v, Json.parse (text forest) = .ok v ∧ RereadFrom forest v)
        ∧ ∀ id : Rpc.Id, id.Fits → ∃ v,
          Rpc.Message.parseChars (answerText id forest).toList
              = .ok (.response { id := some id, result := some v })
            ∧ RereadFrom forest v)
      ∧ (62 < levelsOf forest →
        (∃ rest, Json.parse (text forest) = failAt .tooDeep rest)
        ∧ ∀ id : Rpc.Id, id.Fits → ∃ rest,
          Rpc.Message.parseChars (answerText id forest).toList
            = .error (.notJson (answerText id forest).toList ⟨.tooDeep, rest, true⟩)) := by
  have hordered : RereadFrom forest (arr (toJsonList forest)).canonical :=
    WrittenAs.ordered.reread hfits
  refine ⟨fun v hv => hv.reread hfits, fun h => ⟨?_, fun id hid => ?_⟩,
    fun h => ⟨?_, fun id hid => ?_⟩⟩
  · exact ⟨_, (parse_text hfits).1 h, hordered⟩
  · exact ⟨_, (parse_answerText hfits hid).1 h, hordered⟩
  · exact (parse_text hfits).2 h
  · exact (parse_answerText hfits hid).2 h

/-- Two symbols in another one, with details that are empty and one that is not, and the largest
coordinates there are: read from the message of an answer only the one detail is left. -/
theorem forest_survives_details :
    let far : Range := .point ⟨4294967295, 4294967295⟩
    let inner (detail : Option String) : Symbol := ⟨"x", .constant, far, .zero, detail, []⟩
    let outer (detail : Option String) (details : List (Option String)) : Symbol :=
      ⟨"m", .module, .zero, far, detail, details.map inner⟩
    let forest := [outer (some "") [some "", some "d"]]
    ∃ v, Rpc.Message.parseChars (answerText (.number 1) forest).toList
        = .ok (.response { id := some (.number 1), result := some v })
      ∧ asList ofJson v = .ok forest
      ∧ ∃ items, Answer.Symbols.ofJson v = .ok (.nested items)
          ∧ (Answer.Symbols.nested items).toForest = [outer none [none, some "d"]] := by
  intro far inner outer forest
  have hfar : (Range.point ⟨4294967295, 4294967295⟩).Fits := by decide
  have hzero : Range.zero.Fits := by decide
  have hinner : ∀ s ∈ [some "", some "d"].map inner, s.Fits := by
    intro s hs
    obtain ⟨detail, _, rfl⟩ := List.mem_map.mp hs
    exact .mk hfar hzero (List.forall_mem_nil _)
  have houter : ∀ s ∈ forest, s.Fits := List.forall_mem_singleton.mpr (.mk hzero hfar hinner)
  have hlevels : levelsOf forest ≤ 62 := by decide
  have hid : (Rpc.Id.number 1).Fits := show 1 ≤ Text.max64 by decide
  obtain ⟨-, hwire, -⟩ := forest_survives forest houter
  obtain ⟨v, hparse, hsymbols, items, hanswer, hforest, -⟩ := (hwire hlevels).2 (.number 1) hid
  exact ⟨v, hparse, hsymbols, items, hanswer, hforest.trans (by rfl)⟩

/-- So many symbols, each alone in the one before. -/
def chain : Nat → List Symbol
  | 0 => []
  | n + 1 => [⟨"x", .function, .zero, .zero, none, chain n⟩]

theorem levelsOf_chain (n : Nat) : levelsOf (chain n) = n := by
  induction n with
  | zero => rfl
  | succ n ih => simp only [chain, levelsOf, levels, ih, Nat.max_zero]

theorem fits_chain (n : Nat) : ∀ s ∈ chain n, s.Fits := by
  have hzero : Range.zero.Fits := by decide
  induction n with
  | zero => exact List.forall_mem_nil _
  | succ n ih => exact List.forall_mem_singleton.mpr (.mk hzero hzero ih)

/-- **Not every forest survives as text**: that of 63 symbols inside each other is read back neither
alone nor as an answer. -/
theorem forest_refused :
    (∀ s ∈ chain 63, s.Fits)
      ∧ (∀ v, Json.parse (text (chain 63)) ≠ .ok v)
      ∧ ∀ m, Rpc.Message.parseChars (answerText (.number 1) (chain 63)).toList ≠ .ok m := by
  have hdeep : 62 < levelsOf (chain 63) := by
    rw [levelsOf_chain]
    decide
  have hid : (Rpc.Id.number 1).Fits := show 1 ≤ Text.max64 by decide
  refine ⟨fits_chain 63, fun v h => ?_, fun m h => ?_⟩
  · obtain ⟨rest, hrefused⟩ := (parse_text (fits_chain 63)).2 hdeep
    rw [hrefused] at h
    cases h
  · obtain ⟨rest, hrefused⟩ := (parse_answerText (fits_chain 63) hid).2 hdeep
    rw [hrefused] at h
    cases h

end Symbol

end SymbolQuery
