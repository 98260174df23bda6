/-
Symbols that are written as JSON and read back.

Two readers read the object of a symbol: that of symbols themselves, and that of the
answers of servers, in which a kind is any number, the symbols inside may be missing and
an empty detail says nothing. What an object says does not depend on the order of its
keys (`Carries`), and both readers find the symbol that an object carries, however deep it
is nested. So a forest comes back from the values that are written for it, with the keys of
their objects in the order of the record or in their own order; and as an answer it comes back
without its empty details (`plain`), which no one who walks it sees. How deep a forest may be to
come back from its text is another matter, and of `SymbolTexts`.
-/
import Mathlib.Data.List.Forall2
import SymbolQuery.Answer.Symbols
import SymbolQuery.Proofs.MessageForm

set_option autoImplicit false

namespace SymbolQuery

namespace Json

/-! ## Fields of objects -/

/-- An object has a field once, with this value. -/
def Has (fields : List (String × Json)) (name : String) (v : Json) : Prop :=
  ∃ i, occurrences [name] 0 fields = [(i, v)]

/-- An object has no field of this name. -/
def Lacks (fields : List (String × Json)) (name : String) : Prop :=
  occurrences [name] 0 fields = []

section

variable {α : Type} {type : RecordType} {fields : List (String × Json)} {index : Nat}
  {name : String} {read : Json → Decoded α}

theorem required_of_has {v : Json} {a : α} (h : Has fields name v) (hread : read v = .ok a) :
    required type (.named fields) index name read = .pure a :=
  have ⟨_, hfield⟩ := h
  required_named hfield hread

theorem optionalTail_of_has {v : Json} {a : Option α} (h : Has fields name v)
    (hread : asOption read v = .ok a) :
    optionalTail type (.named fields) index [name] read = .pure a := by
  obtain ⟨i, hfield⟩ := h
  simp only [optionalTail, fieldWith, hfield, hread]
  rfl

theorem optionalTail_of_lacks (h : Lacks fields name) :
    optionalTail type (.named fields) index [name] read = .pure none := by
  simp only [optionalTail, fieldWith, show occurrences [name] 0 fields = [] from h]
  rfl

theorem defaulted_of_has {v : Json} {a value : α} (h : Has fields name v) (hread : read v = .ok a) :
    defaulted type (.named fields) index name read value = .pure a := by
  obtain ⟨i, hfield⟩ := h
  simp only [defaulted, fieldWith, hfield, hread]
  rfl

theorem defaulted_of_lacks {value : α} (h : Lacks fields name) :
    defaulted type (.named fields) index name read value = .pure value := by
  simp only [defaulted, fieldWith, show occurrences [name] 0 fields = [] from h]
  rfl

end

/-- An optional text that is left out where there is none. -/
def HasText (fields : List (String × Json)) (name : String) : Option String → Prop
  | some s => Has fields name (.str s)
  | none => Lacks fields name

theorem optionalTail_text {type : RecordType} {fields : List (String × Json)} {index : Nat}
    {name : String} {o : Option String} (h : HasText fields name o) :
    optionalTail type (.named fields) index [name] asText = .pure o := by
  cases o with
  | none => exact optionalTail_of_lacks h
  | some s => exact optionalTail_of_has h rfl

theorem depth_le_of_mem_occurrences {names : List String} {i j : Nat} {v : Json}
    {fields : List (String × Json)} (h : (j, v) ∈ occurrences names i fields) :
    v.depth ≤ depthFields fields := by
  induction fields generalizing i with
  | nil => cases h
  | cons field rest ih =>
    obtain ⟨k, w⟩ := field
    rw [occurrences] at h
    rw [depthFields]
    split at h
    · obtain ⟨⟩ | ⟨_, h⟩ := h
      · exact Nat.le_max_left _ _
      · exact Nat.le_trans (ih h) (Nat.le_max_right _ _)
    · exact Nat.le_trans (ih h) (Nat.le_max_right _ _)

theorem Has.depth_le {fields : List (String × Json)} {name : String} {v : Json}
    (h : Has fields name v) : v.depth ≤ depthFields fields := by
  obtain ⟨i, hfield⟩ := h
  exact depth_le_of_mem_occurrences (hfield ▸ List.mem_singleton_self _)

theorem depth_le_of_mem {v : Json} {items : List Json} (h : v ∈ items) :
    v.depth ≤ depthItems items := by
  induction items with
  | nil => cases h
  | cons w items ih =>
    rw [depthItems]
    obtain ⟨⟩ | ⟨_, h⟩ := h
    · exact Nat.le_max_left _ _
    · exact Nat.le_trans (ih h) (Nat.le_max_right _ _)

/-- Items that are read one by one are read together. -/
theorem readAll_of_forall₂ {α β γ : Type} (read : Json → Decoded α) {R : β → Json → Prop}
    {f : α → γ} {g : β → γ} {bs : List β} {items : List Json} (h : List.Forall₂ R bs items)
    (hread : ∀ b ∈ bs, ∀ v ∈ items, R b v → ∃ a, read v = .ok a ∧ f a = g b) :
    ∃ as, readAll read items = .ok as ∧ as.map f = bs.map g := by
  induction h with
  | nil => exact ⟨[], rfl, rfl⟩
  | @cons b v bs items hitem _ ih =>
    obtain ⟨a, ha, hfa⟩ := hread b List.mem_cons_self v List.mem_cons_self hitem
    obtain ⟨as, has, hfas⟩ := ih fun b' hb' v' hv' =>
      hread b' (List.mem_cons_of_mem b hb') v' (List.mem_cons_of_mem v hv')
    refine ⟨a :: as, ?_, ?_⟩
    · rw [readAll, ha, has]
    · rw [List.map_cons, List.map_cons, hfa, hfas]

theorem asU32_ofNat {n : Nat} (h : n ≤ Text.max32) : asU32 (.ofNat n) = .ok n := by
  have hn : (0 : Int) ≤ n ∧ (n : Int) ≤ (4294967295 : Nat) := by
    unfold Text.max32 at h
    omega
  rw [asU32, asNatIn, ofNat, asIntIn, if_pos hn]
  rfl

end Json

open Json

/-! ## Positions and kinds -/

theorem Position.ofJson_of_has {p : Position} (h : p.Fits) {fields : List (String × Json)}
    (hline : Has fields "line" (.ofNat p.line))
    (hcharacter : Has fields "character" (.ofNat p.character)) :
    Position.ofJson (.obj fields) = .ok p := by
  unfold Position.ofJson readRecord
  dsimp only
  rw [required_of_has hline (asU32_ofNat h.1), required_of_has hcharacter (asU32_ofNat h.2)]
  rfl

theorem Position.ofJson_toJson {p : Position} (h : p.Fits) : Position.ofJson p.toJson = .ok p :=
  Position.ofJson_of_has h ⟨0, rfl⟩ ⟨1, rfl⟩

theorem Position.ofJson_canonical {p : Position} (h : p.Fits) :
    Position.ofJson p.toJson.canonical = .ok p := by
  have hcanonical : p.toJson.canonical
      = .obj [("character", .ofNat p.character), ("line", .ofNat p.line)] := by
    simp only [toJson, Json.ofNat, canonical, orderFields, canonicalFields, insertField,
      List.foldl_cons, List.foldl_nil, String.reduceLT, ↓reduceIte]
  rw [hcanonical]
  exact Position.ofJson_of_has h ⟨1, rfl⟩ ⟨0, rfl⟩

theorem Range.ofJson_of_has {r : Range} {fields : List (String × Json)} {start stop : Json}
    (hstart : Has fields "start" start) (hread : Position.ofJson start = .ok r.start)
    (hstop : Has fields "end" stop) (hread' : Position.ofJson stop = .ok r.stop) :
    Range.ofJson (.obj fields) = .ok r := by
  unfold Range.ofJson readRecord
  dsimp only
  rw [required_of_has hstart hread, required_of_has hstop hread']
  rfl

theorem Range.ofJson_toJson {r : Range} (h : r.Fits) : Range.ofJson r.toJson = .ok r :=
  Range.ofJson_of_has ⟨0, rfl⟩ (Position.ofJson_toJson h.1) ⟨1, rfl⟩ (Position.ofJson_toJson h.2)

theorem Range.ofJson_canonical {r : Range} (h : r.Fits) :
    Range.ofJson r.toJson.canonical = .ok r := by
  have hcanonical : r.toJson.canonical
      = .obj [("end", r.stop.toJson.canonical), ("start", r.start.toJson.canonical)] := by
    simp only [toJson, canonical, orderFields, canonicalFields, insertField,
      List.foldl_cons, List.foldl_nil, String.reduceLT, ↓reduceIte]
  rw [hcanonical]
  exact Range.ofJson_of_has ⟨1, rfl⟩ (Position.ofJson_canonical h.1) ⟨0, rfl⟩
    (Position.ofJson_canonical h.2)

namespace SymbolKind

theorem code_le (k : SymbolKind) : k.code ≤ Text.max32 := by cases k <;> decide

theorem ofJson_toJson (k : SymbolKind) : ofJson k.toJson = .ok k := by
  rw [ofJson, toJson, asU32_ofNat k.code_le]
  exact congrArg Except.ok (ofCode_code k)

end SymbolKind

theorem Answer.DocumentSymbol.toSymbols_eq_map (ds : List Answer.DocumentSymbol) :
    Answer.DocumentSymbol.toSymbols ds = ds.map Answer.DocumentSymbol.toSymbol := by
  induction ds with
  | nil => rfl
  | cons d rest ih => rw [toSymbols, ih, List.map_cons]

namespace Symbol

/-! ## Symbols in objects -/

/-- A property of symbols that goes from those inside a symbol to the symbol holds of all. -/
theorem induct {motive : Symbol → Prop}
    (h : ∀ name kind range selectionRange detail children, (∀ c ∈ children, motive c) →
      motive ⟨name, kind, range, selectionRange, detail, children⟩) (s : Symbol) : motive s := by
  refine @Symbol.rec motive (fun l => ∀ c ∈ l, motive c) h ?_ ?_ s
  · exact List.forall_mem_nil _
  · exact fun s rest hs hrest => List.forall_mem_cons.mpr ⟨hs, hrest⟩

/-- All coordinates in the symbol have 32 bits. -/
inductive Fits : Symbol → Prop
  | mk {s : Symbol} (range : s.range.Fits) (selectionRange : s.selectionRange.Fits)
      (children : ∀ c ∈ s.children, Fits c) : Fits s

/-- **The value carries the symbol**: it is an object with each field of the symbol once, in any
order, and a field for its detail or for the symbols inside it may be missing if there is none. -/
inductive Carries : Json → Symbol → Prop
  | mk {fields : List (String × Json)} {s : Symbol} {range selectionRange : Json}
      {items : List Json} (hname : Has fields "name" (.str s.name))
      (hkind : Has fields "kind" s.kind.toJson) (hrange : Has fields "range" range)
      (hreadRange : Range.ofJson range = .ok s.range)
      (hselection : Has fields "selectionRange" selectionRange)
      (hreadSelection : Range.ofJson selectionRange = .ok s.selectionRange)
      (hdetail : HasText fields "detail" s.detail)
      (hitems : Has fields "children" (.arr items) ∨ items = [] ∧ Lacks fields "children")
      (hchildren : List.Forall₂ (fun s v => Carries v s) s.children items) :
      Carries (.obj fields) s

variable {s : Symbol} {v : Json} {levels : Nat}

/-- The values of the symbols inside are less deep than that of the symbol. -/
theorem depth_lt_of_items {fields : List (String × Json)} {items : List Json}
    (hdepth : (Json.obj fields).depth < levels + 1)
    (hitems : Has fields "children" (.arr items) ∨ items = [] ∧ Lacks fields "children") :
    ∀ v ∈ items, v.depth < levels := by
  obtain hitems | ⟨rfl, -⟩ := hitems
  · intro v hv
    have hle := depth_le_of_mem hv
    have hfield : depthItems items + 1 ≤ depthFields fields := hitems.depth_le
    have hdepth : depthFields fields + 1 < levels + 1 := hdepth
    omega
  · exact List.forall_mem_nil _

/-- **A symbol is read from a value that carries it.** -/
theorem ofJsonUpTo_of_carries (h : Carries v s) (hdepth : v.depth < levels) :
    ofJsonUpTo levels v = .ok s := by
  induction s using induct generalizing v levels with
  | h name kind range selectionRange detail children ih =>
    cases levels with
    | zero => exact absurd hdepth (Nat.not_lt_zero _)
    | succ levels =>
      cases h with
      | @mk fields _ vrange vselection items hname hkind hrange hreadRange hselection
          hreadSelection hdetail hitems hchildren =>
        -- the symbols inside are one level deeper, and for them there is one level less
        obtain ⟨as, hread, has⟩ := readAll_of_forall₂ (ofJsonUpTo levels) (f := id)
          (g := id) hchildren fun c hc w hw hcarries =>
            ⟨c, ih c hc hcarries (depth_lt_of_items hdepth hitems w hw), rfl⟩
        rw [List.map_id, List.map_id] at has
        have hinside : defaulted record (.named fields) 5 "children"
            (asList (ofJsonUpTo levels)) [] = .pure children := by
          subst has
          obtain hitems | ⟨rfl, hlacks⟩ := hitems
          · exact defaulted_of_has hitems hread
          · cases hread
            exact defaulted_of_lacks hlacks
        unfold ofJsonUpTo readRecord
        dsimp only
        rw [required_of_has hname (asText_str name), required_of_has hkind kind.ofJson_toJson,
          required_of_has hrange hreadRange, required_of_has hselection hreadSelection,
          optionalTail_text hdetail, hinside]
        rfl

/-! ## Symbols without empty details -/

mutual

/-- The symbol without the empty details in it. -/
def plain : Symbol → Symbol
  | ⟨name, kind, range, selectionRange, detail, children⟩ =>
    ⟨name, kind, range, selectionRange, detail.filter fun d => !d.isEmpty, plainForest children⟩

/-- The forest without the empty details in it. -/
def plainForest : List Symbol → List Symbol
  | [] => []
  | s :: rest => plain s :: plainForest rest

end

@[simp] theorem plain_name (s : Symbol) : s.plain.name = s.name := by cases s; rfl

@[simp] theorem plain_kind (s : Symbol) : s.plain.kind = s.kind := by cases s; rfl

@[simp] theorem plain_range (s : Symbol) : s.plain.range = s.range := by cases s; rfl

@[simp] theorem plain_selectionRange (s : Symbol) : s.plain.selectionRange = s.selectionRange := by
  cases s; rfl

theorem plainForest_eq_map (forest : List Symbol) : plainForest forest = forest.map plain := by
  induction forest with
  | nil => rfl
  | cons s rest ih => rw [plainForest, ih, List.map_cons]

/-- An entry of a walk without empty details. -/
def plainEntry (e : Symbol × Option Symbol) : Symbol × Option Symbol := (e.1.plain, e.2.map plain)

mutual

theorem walkTree_plain (parent : Option Symbol) (s : Symbol) :
    walkTree (parent.map plain) s.plain = (walkTree parent s).map plainEntry := by
  match s with
  | ⟨name, kind, range, selectionRange, detail, children⟩ =>
    rw [plain, walkTree, walkTree, List.map_cons, ← walkForest_plain]
    rfl

theorem walkForest_plain (parent : Option Symbol) (forest : List Symbol) :
    walkForest (parent.map plain) (plainForest forest)
      = (walkForest parent forest).map plainEntry := by
  match forest with
  | [] => rfl
  | s :: rest =>
    rw [plainForest, walkForest, walkForest, List.map_append, walkTree_plain, walkForest_plain]

end

/-- **Empty details are not seen in a walk**: every symbol stands where it stood. -/
theorem walk_plainForest (forest : List Symbol) :
    walk (plainForest forest) = (walk forest).map plainEntry := walkForest_plain none forest

/-! ## Answers -/

/-- **An answer is read from a value that carries a symbol**, and it means the symbol without the
empty details. -/
theorem documentSymbol_of_carries (h : Carries v s) (hdepth : v.depth < levels) :
    ∃ d, Answer.DocumentSymbol.ofJsonUpTo levels v = .ok d ∧ d.toSymbol = s.plain := by
  induction s using induct generalizing v levels with
  | h name kind range selectionRange detail children ih =>
    cases levels with
    | zero => exact absurd hdepth (Nat.not_lt_zero _)
    | succ levels =>
      cases h with
      | @mk fields _ vrange vselection items hname hkind hrange hreadRange hselection
          hreadSelection hdetail hitems hchildren =>
        obtain ⟨ds, hread, hds⟩ := readAll_of_forall₂
          (Answer.DocumentSymbol.ofJsonUpTo levels) (f := Answer.DocumentSymbol.toSymbol)
          (g := plain) hchildren fun c hc w hw hcarries =>
            ih c hc hcarries (depth_lt_of_items hdepth hitems w hw)
        obtain ⟨inside, hinside, hmeant⟩ : ∃ inside,
            optionalTail Answer.DocumentSymbol.record (.named fields) 5 ["children"]
              (asList (Answer.DocumentSymbol.ofJsonUpTo levels)) = .pure inside
            ∧ Answer.DocumentSymbol.toSymbol
                ⟨name, detail, kind.code, range, selectionRange, inside⟩
              = plain ⟨name, kind, range, selectionRange, detail, children⟩ := by
          have hforest := (Answer.DocumentSymbol.toSymbols_eq_map ds).trans
            (hds.trans (plainForest_eq_map children).symm)
          obtain hitems | ⟨rfl, hlacks⟩ := hitems
          · refine ⟨some ds, optionalTail_of_has hitems (asOption_of_read rfl hread), ?_⟩
            rw [Answer.DocumentSymbol.toSymbol, plain, hforest, SymbolKind.ofCode_code]
          · cases hread
            refine ⟨none, optionalTail_of_lacks hlacks, ?_⟩
            rw [Answer.DocumentSymbol.toSymbol, plain, ← hforest, SymbolKind.ofCode_code]
            rfl
        refine ⟨⟨name, detail, kind.code, range, selectionRange, inside⟩, ?_, hmeant⟩
        unfold Answer.DocumentSymbol.ofJsonUpTo readRecord
        dsimp only
        rw [required_of_has hname (asText_str name), optionalTail_text hdetail,
          required_of_has hkind (asU32_ofNat kind.code_le), required_of_has hrange hreadRange,
          required_of_has hselection hreadSelection, hinside]
        rfl

/-! ## What is written -/

theorem toJsonList_eq_map (forest : List Symbol) : toJsonList forest = forest.map toJson := by
  induction forest with
  | nil => rfl
  | cons s rest ih => rw [toJsonList, ih, List.map_cons]

/-- The fields of a symbol in the order of their keys. -/
theorem canonical_toJson (s : Symbol) :
    s.toJson.canonical
      = .obj ((match s.children with
            | [] => []
            | c :: rest => [("children", .arr (canonicalItems (toJsonList (c :: rest))))])
          ++ Json.field? "detail" (s.detail.map .str)
          ++ [("kind", s.kind.toJson), ("name", .str s.name), ("range", s.range.toJson.canonical),
            ("selectionRange", s.selectionRange.toJson.canonical)]) := by
  obtain ⟨name, kind, range, selectionRange, detail, children⟩ := s
  cases detail <;> cases children <;>
    simp only [toJson, Json.field?, SymbolKind.toJson, Json.ofNat, Option.map_none, Option.map_some,
      canonical, orderFields, canonicalFields, insertField, List.foldl_cons, List.foldl_nil,
      List.append_nil, List.cons_append, List.nil_append, String.reduceLT, String.reduceEq,
      ↓reduceIte]

theorem canonicalItems_eq_map (items : List Json) : canonicalItems items = items.map canonical := by
  induction items with
  | nil => rfl
  | cons v rest ih => rw [canonicalItems, ih, List.map_cons]

/-- **What is written for a symbol carries it**, in both orders of the keys. -/
theorem carries_written (h : s.Fits) : Carries s.toJson s ∧ Carries s.toJson.canonical s := by
  induction s using induct with
  | h name kind range selectionRange detail children ih =>
    obtain ⟨hrange, hselection, hchildren⟩ := h
    have hinside : List.Forall₂ (fun s v => Carries v s) children (toJsonList children) := by
      rw [toJsonList_eq_map, List.forall₂_map_right_iff]
      exact List.forall₂_same.mpr fun c hc => (ih c hc (hchildren c hc)).1
    have hinside' : List.Forall₂ (fun s v => Carries v s) children
        (canonicalItems (toJsonList children)) := by
      rw [canonicalItems_eq_map, toJsonList_eq_map, List.map_map, List.forall₂_map_right_iff]
      exact List.forall₂_same.mpr fun c hc => (ih c hc (hchildren c hc)).2
    have hread := Range.ofJson_toJson hrange
    have hread' := Range.ofJson_toJson hselection
    have hordered := Range.ofJson_canonical hrange
    have hordered' := Range.ofJson_canonical hselection
    have hcarries {fields : List (String × Json)} {vrange vselection : Json} {items : List Json} :=
      @Carries.mk fields ⟨name, kind, range, selectionRange, detail, children⟩ vrange vselection
        items
    -- which fields there are depends on the detail and on the symbols inside
    rw [canonical_toJson, toJson.eq_def]
    cases detail with
    | none =>
      cases children with
      | nil =>
        constructor
        · exact hcarries ⟨_, rfl⟩ ⟨_, rfl⟩ ⟨_, rfl⟩ hread ⟨_, rfl⟩ hread' rfl (.inr ⟨rfl, rfl⟩)
            hinside
        · exact hcarries ⟨_, rfl⟩ ⟨_, rfl⟩ ⟨_, rfl⟩ hordered ⟨_, rfl⟩ hordered' rfl
            (.inr ⟨rfl, rfl⟩) hinside'
      | cons c rest =>
        constructor
        · exact hcarries ⟨_, rfl⟩ ⟨_, rfl⟩ ⟨_, rfl⟩ hread ⟨_, rfl⟩ hread' rfl (.inl ⟨_, rfl⟩)
            hinside
        · exact hcarries ⟨_, rfl⟩ ⟨_, rfl⟩ ⟨_, rfl⟩ hordered ⟨_, rfl⟩ hordered' rfl
            (.inl ⟨_, rfl⟩) hinside'
    | some d =>
      cases children with
      | nil =>
        constructor
        · exact hcarries ⟨_, rfl⟩ ⟨_, rfl⟩ ⟨_, rfl⟩ hread ⟨_, rfl⟩ hread' ⟨_, rfl⟩ (.inr ⟨rfl, rfl⟩)
            hinside
        · exact hcarries ⟨_, rfl⟩ ⟨_, rfl⟩ ⟨_, rfl⟩ hordered ⟨_, rfl⟩ hordered' ⟨_, rfl⟩
            (.inr ⟨rfl, rfl⟩) hinside'
      | cons c rest =>
        constructor
        · exact hcarries ⟨_, rfl⟩ ⟨_, rfl⟩ ⟨_, rfl⟩ hread ⟨_, rfl⟩ hread' ⟨_, rfl⟩ (.inl ⟨_, rfl⟩)
            hinside
        · exact hcarries ⟨_, rfl⟩ ⟨_, rfl⟩ ⟨_, rfl⟩ hordered ⟨_, rfl⟩ hordered' ⟨_, rfl⟩
            (.inl ⟨_, rfl⟩) hinside'

/-! ## Forests -/

/-- The JSON array of a forest, with the keys of its objects in the order of the record or in their
own order. -/
inductive WrittenAs (forest : List Symbol) : Json → Prop
  | declared : WrittenAs forest (.arr (toJsonList forest))
  | ordered : WrittenAs forest (Json.arr (toJsonList forest)).canonical

theorem WrittenAs.carries {forest : List Symbol} (hfits : ∀ s ∈ forest, s.Fits) {v : Json}
    (h : WrittenAs forest v) :
    ∃ items, v = .arr items ∧ List.Forall₂ (fun s v => Carries v s) forest items := by
  cases h with
  | declared =>
    refine ⟨_, rfl, ?_⟩
    rw [toJsonList_eq_map, List.forall₂_map_right_iff]
    exact List.forall₂_same.mpr fun s hs => (carries_written (hfits s hs)).1
  | ordered =>
    refine ⟨canonicalItems (toJsonList forest), by rw [canonical], ?_⟩
    rw [canonicalItems_eq_map, toJsonList_eq_map, List.map_map, List.forall₂_map_right_iff]
    exact List.forall₂_same.mpr fun s hs => (carries_written (hfits s hs)).2

/-- What an entry of a walk shows: a name, two ranges, a kind and the name of what is around. -/
def shown (e : Symbol × Option Symbol) :
    String × Range × Range × SymbolKind × Option String :=
  (e.1.name, e.1.range, e.1.selectionRange, e.1.kind, e.2.map Symbol.name)

theorem shown_plainEntry (e : Symbol × Option Symbol) : shown (plainEntry e) = shown e := by
  obtain ⟨s, _ | parent⟩ := e <;> simp [shown, plainEntry]

/-- **What is read from a value for a forest**: the forest itself, and as an answer nested symbols
that mean the forest without its empty details, so that a walk through them shows the same. -/
structure RereadFrom (forest : List Symbol) (v : Json) : Prop where
  symbols : asList ofJson v = .ok forest
  answer : ∃ items, Answer.Symbols.ofJson v = .ok (.nested items)
    ∧ (Answer.Symbols.nested items).toForest = plainForest forest
    ∧ (walk (Answer.Symbols.nested items).toForest).map shown = (walk forest).map shown

/-- **A forest is read back from the value that is written for it**, however deep it is. -/
theorem WrittenAs.reread {forest : List Symbol} (hfits : ∀ s ∈ forest, s.Fits) {v : Json}
    (hv : WrittenAs forest v) : RereadFrom forest v := by
  obtain ⟨values, rfl, hcarries⟩ := hv.carries hfits
  constructor
  · obtain ⟨as, hread, has⟩ := readAll_of_forall₂ ofJson (f := id) (g := id) hcarries
      fun s _ v _ h => ⟨s, ofJsonUpTo_of_carries h (Nat.lt_succ_self _), rfl⟩
    rw [List.map_id, List.map_id] at has
    exact has ▸ hread
  · obtain ⟨ds, hread, hds⟩ := readAll_of_forall₂ Answer.DocumentSymbol.ofJson
      (f := Answer.DocumentSymbol.toSymbol) (g := plain) hcarries
      fun s _ v _ h => documentSymbol_of_carries h (Nat.lt_succ_self _)
    have hforest : (Answer.Symbols.nested ds).toForest = plainForest forest :=
      (Answer.DocumentSymbol.toSymbols_eq_map ds).trans (hds.trans (plainForest_eq_map forest).symm)
    refine ⟨ds, ?_, hforest, ?_⟩
    · have hlist : asList Answer.DocumentSymbol.ofJson (.arr values) = .ok ds := hread
      rw [Answer.Symbols.ofJson, firstOf, hlist]
      rfl
    · rw [hforest, walk_plainForest, List.map_map]
      exact List.map_congr_left fun e _ => shown_plainEntry e

end Symbol

end SymbolQuery
