/-
Requests in the shapes in which they arrive.

A request for a place comes nested, or flat with its name under one of two keys. `Shape`
says of an object which request it stands for, without the readers: which keys it has, in
any order and among any others, and that what a request does not give is missing or null.
The readers find that request in every such object, the nested reader giving way where the
object is flat. What is written for a request is flat, so a request survives being written
and read.
-/
import SymbolQuery.Proofs.RecordFields
import SymbolQuery.Request

set_option autoImplicit false

namespace SymbolQuery

open Json

/-! ## Optional fields -/

namespace Json

/-- An object gives an optional value: the value stands under its key, or there is none and the key
is missing or null. -/
def Gives (fields : List (String × Json)) (name : String) : Option Json → Prop
  | some v => Has fields name v
  | none => Lacks fields name ∨ Has fields name .null

theorem has_of_values {fields : List (String × Json)} {name : String} {v : Json}
    (h : (occurrences [name] 0 fields).map Prod.snd = [v]) : Has fields name v := by
  obtain ⟨⟨i, w⟩, hfield, rfl⟩ := List.map_eq_singleton_iff.mp h
  exact ⟨i, hfield⟩

/-- An object gives what stands under a key, if it stands there once or not at all. -/
theorem gives_of_values {fields : List (String × Json)} {name : String} {o : Option Json}
    (h : (occurrences [name] 0 fields).map Prod.snd = o.toList) : Gives fields name o := by
  cases o with
  | none => exact .inl (List.map_eq_nil_iff.mp h)
  | some v => exact has_of_values h

/-- An optional field is read from what an object gives, also where it has a second name. -/
theorem optionalTail_of_gives {α : Type} {type : RecordType} {fields : List (String × Json)}
    {index : Nat} {name : String} {names : List String} {read : Json → Decoded α}
    {write : α → Json} {o : Option α} (hgives : Gives fields name (o.map write))
    (hread : ∀ a ∈ o, asOption read (write a) = .ok (some a))
    (hnames : occurrences names 0 fields = occurrences [name] 0 fields) :
    optionalTail type (.named fields) index names read = .pure o := by
  unfold optionalTail fieldWith
  simp only [hnames]
  cases o with
  | some a =>
    obtain ⟨i, hfield⟩ := hgives
    simp only [hfield, hread a rfl]
    rfl
  | none =>
    obtain hlacks | ⟨i, hfield⟩ := hgives
    · rw [show occurrences [name] 0 fields = [] from hlacks]
      rfl
    · rw [hfield]
      rfl

end Json

namespace LookupRequest

/-- The coordinates that a request gives have 32 bits. -/
def Fits (r : LookupRequest) : Prop :=
  (∀ n ∈ r.line, n ≤ Text.max32) ∧ ∀ n ∈ r.character, n ≤ Text.max32

/-! ## Shapes -/

/-- The object gives the request, with the name of the symbol under `key`. -/
structure Flat (key : String) (r : LookupRequest) (fields : List (String × Json)) : Prop where
  uri : Has fields "uri" (.str r.uri)
  line : Gives fields "line" (r.line.map .ofNat)
  character : Gives fields "character" (r.character.map .ofNat)
  name : Gives fields key (r.name.map .str)
  /-- It has not what makes a request nested. -/
  flat : Lacks fields "textDocument" ∨ Lacks fields "position"

/-- **An object that stands for a request**, in one of three shapes. -/
inductive Shape : LookupRequest → Json → Prop
  | nested {uri : String} {p : Position} {name : Option String}
      {fields document place : List (String × Json)}
      (hdocument : Has fields "textDocument" (.obj document))
      (huri : Has document "uri" (.str uri)) (hplace : Has fields "position" (.obj place))
      (hline : Has place "line" (.ofNat p.line))
      (hcharacter : Has place "character" (.ofNat p.character))
      (hname : Gives fields "symbolName" (name.map .str)) :
    Shape ⟨uri, some p.line, some p.character, name⟩ (.obj fields)
  | flat {r : LookupRequest} {fields : List (String × Json)} (h : Flat "symbolName" r fields)
      (hother : Lacks fields "name") : Shape r (.obj fields)
  | aliased {r : LookupRequest} {fields : List (String × Json)} (h : Flat "name" r fields)
      (hother : Lacks fields "symbolName") : Shape r (.obj fields)

end LookupRequest

/-! ## Reading a shape -/

namespace WireRequest

variable {fields : List (String × Json)}

/-- What is read as nested has a document and a position. -/
theorem not_lacks_of_readNested {w : WireRequest} (h : readNested (.obj fields) = .ok w) :
    ¬ Lacks fields "textDocument" ∧ ¬ Lacks fields "position" := by
  unfold readNested at h
  simp only [readRecord_obj_eq_ok, Fields.seq_eq_ok, Fields.map_eq_ok, required_named_iff] at h
  obtain ⟨_, _, ⟨_, _, ⟨_, ⟨_, hdocument, _⟩, _⟩, ⟨_, hposition, _⟩, _⟩, _⟩ := h
  exact ⟨hdocument.not_lacks, hposition.not_lacks⟩

/-- What is not nested is read as flat. -/
theorem ofJson_of_readFlat {w : WireRequest}
    (hflat : Lacks fields "textDocument" ∨ Lacks fields "position")
    (h : readFlat (.obj fields) = .ok w) : ofJson (.obj fields) = .ok w := by
  unfold ofJson firstOf
  cases hnested : readNested (.obj fields) with
  | ok _ =>
    have hlacks := not_lacks_of_readNested hnested
    exact absurd hflat (not_or.mpr hlacks)
  | error _ => rw [firstOf, h]

theorem asOption_asText_str (name : Option String) :
    ∀ s ∈ name, asOption asText (.str s) = .ok (some s) := fun _ _ => rfl

theorem asOption_asU32_ofNat {coordinate : Option Nat} (h : ∀ n ∈ coordinate, n ≤ Text.max32) :
    ∀ n ∈ coordinate, asOption asU32 (.ofNat n) = .ok (some n) :=
  fun n hn => asOption_of_read rfl (asU32_ofNat (h n hn))

theorem readFlat_of_flat {key : String} {r : LookupRequest} (hfits : r.Fits)
    (h : LookupRequest.Flat key r fields)
    (hnames : occurrences ["symbolName", "name"] 0 fields = occurrences [key] 0 fields) :
    readFlat (.obj fields) = .ok (.flat r.uri r.line r.character r.name) := by
  unfold readFlat readRecord
  dsimp only
  rw [required_of_has h.uri (asText_str r.uri),
    optionalTail_of_gives h.line (asOption_asU32_ofNat hfits.1) rfl,
    optionalTail_of_gives h.character (asOption_asU32_ofNat hfits.2) rfl,
    optionalTail_of_gives h.name (asOption_asText_str r.name) hnames]
  rfl

end WireRequest

namespace LookupRequest

variable {r : LookupRequest} {v : Json}

theorem ofJson_of_flat {key : String} {fields : List (String × Json)} (hfits : r.Fits)
    (h : Flat key r fields)
    (hnames : occurrences ["symbolName", "name"] 0 fields = occurrences [key] 0 fields) :
    ofJson (.obj fields) = .ok r := by
  have hread := WireRequest.ofJson_of_readFlat h.flat
    (WireRequest.readFlat_of_flat hfits h hnames)
  rw [ofJson, hread]
  rfl

/-- **A request is read from every shape of it.** -/
theorem ofJson_of_shape (hfits : r.Fits) (h : Shape r v) : ofJson v = .ok r := by
  cases h with
  | @nested uri p name fields document place hdocument huri hplace hline hcharacter hname =>
    have hp : p.Fits := ⟨hfits.1 p.line rfl, hfits.2 p.character rfl⟩
    have hreadUri : WireRequest.readDocument (.obj document) = .ok uri := by
      unfold WireRequest.readDocument readRecord
      dsimp only
      rw [required_of_has huri (asText_str uri)]
      rfl
    have hread : WireRequest.readNested (.obj fields) = .ok (.nested uri p name) := by
      unfold WireRequest.readNested readRecord
      dsimp only
      rw [required_of_has hdocument hreadUri,
        required_of_has hplace (Position.ofJson_of_has hp hline hcharacter),
        optionalTail_of_gives hname (WireRequest.asOption_asText_str name) rfl]
      rfl
    rw [ofJson, WireRequest.ofJson, firstOf, hread]
    rfl
  | flat h hother => exact ofJson_of_flat hfits h (occurrences_pair_of_lacks hother 0).1
  | aliased h hother => exact ofJson_of_flat hfits h (occurrences_pair_of_lacks hother 0).2

/-! ## What is written -/

/-- The fields of a request in the order of their keys. -/
theorem canonical_toJson (r : LookupRequest) :
    r.toJson.canonical
      = .obj (Json.field? "character" (r.character.map .ofNat)
          ++ Json.field? "line" (r.line.map .ofNat) ++ Json.field? "name" (r.name.map .str)
          ++ [("uri", .str r.uri)]) := by
  obtain ⟨uri, line, character, name⟩ := r
  cases line <;> cases character <;> cases name <;>
    simp only [toJson, Json.field?, Json.ofNat, Option.map_none, Option.map_some, canonical,
      orderFields, canonicalFields, insertField, List.foldl_cons, List.foldl_nil, List.append_nil,
      List.cons_append, List.nil_append, String.reduceLT, String.reduceEq, ↓reduceIte]

/-- **What is written for a request is a shape of it**, in both orders of the keys. -/
theorem shape_written (r : LookupRequest) : Shape r r.toJson ∧ Shape r r.toJson.canonical := by
  rw [canonical_toJson]
  obtain ⟨uri, line, character, name⟩ := r
  constructor <;>
  · refine .aliased ⟨has_of_values ?_, gives_of_values ?_, gives_of_values ?_, gives_of_values ?_,
      .inl ?_⟩ ?_
    -- which keys there are depends on what the request gives
    all_goals cases line <;> cases character <;> cases name <;> rfl

/-- **All shapes of a request agree.** A request is read back from what is written for it, and it is
read from each of its shapes, so that they all look up the same. -/
theorem shapes_agree (r : LookupRequest) (hfits : r.Fits) :
    (∀ v ∈ [r.toJson, r.toJson.canonical], ofJson v = .ok r)
      ∧ ∀ v, Shape r v → ofJson v = .ok r ∧ (ofJson v >>= target) = r.target := by
  have hshape (v : Json) (h : Shape r v) := ofJson_of_shape hfits h
  constructor
  · obtain ⟨hdeclared, hordered⟩ := shape_written r
    exact List.forall_mem_cons.mpr
      ⟨hshape _ hdeclared, List.forall_mem_singleton.mpr (hshape _ hordered)⟩
  · intro v hv
    have hread := hshape v hv
    rw [hread]
    exact ⟨rfl, rfl⟩

/-- The largest line there is and a text with a bar, a blank at its end and a character of four
octets, in all shapes; and a name that is null. -/
theorem shapes_agree_unusual :
    let r : LookupRequest := ⟨"file:///a|😀.rs", some 4294967295, some 0, some "f "⟩
    let place : Json := .obj [("character", .ofNat 0), ("line", .ofNat 4294967295)]
    let document : Json := .obj [("uri", .str "file:///a|😀.rs"), ("version", .ofNat 7)]
    ofJson r.toJson = .ok r
      ∧ ofJson (.obj [("position", place), ("symbolName", .str "f "), ("textDocument", document)])
        = .ok r
      ∧ ofJson (.obj [("uri", .str "file:///a|😀.rs"), ("line", .ofNat 4294967295),
          ("character", .ofNat 0), ("symbolName", .str "f ")]) = .ok r
      ∧ ofJson (.obj [("uri", .str "file:///a|😀.rs"), ("line", .ofNat 4294967295),
          ("character", .ofNat 0), ("name", .str "f ")]) = .ok r
      ∧ (ofJson (.obj [("name", .null), ("uri", .str "u"), ("line", .ofNat 1)]) >>= target)
        = .error .missingTarget := by
  intro r place document
  have hr : r.Fits := by constructor <;> rintro n ⟨⟩ <;> decide
  obtain ⟨hwritten, hshape⟩ := shapes_agree r hr
  have hline : LookupRequest.Fits { uri := "u", line := some 1 } := by
    constructor
    · rintro n ⟨⟩
      decide
    · rintro n ⟨⟩
  have hnull := (shapes_agree { uri := "u", line := some 1 } hline).2
    (.obj [("name", .null), ("uri", .str "u"), ("line", .ofNat 1)])
    (.aliased ⟨⟨_, rfl⟩, ⟨_, rfl⟩, .inl rfl, .inr ⟨_, rfl⟩, .inl rfl⟩ rfl)
  refine ⟨hwritten _ List.mem_cons_self, ?_, ?_, ?_, hnull.2.trans rfl⟩
  · exact (hshape _ (@Shape.nested _ ⟨4294967295, 0⟩ (some "f ") _ _ _ ⟨_, rfl⟩ ⟨_, rfl⟩ ⟨_, rfl⟩
      ⟨_, rfl⟩ ⟨_, rfl⟩ ⟨_, rfl⟩)).1
  · refine (hshape _ (.flat ⟨⟨_, rfl⟩, ⟨_, rfl⟩, ⟨_, rfl⟩, ⟨_, rfl⟩, .inl ?_⟩ ?_)).1 <;> rfl
  · refine (hshape _ (.aliased ⟨⟨_, rfl⟩, ⟨_, rfl⟩, ⟨_, rfl⟩, ⟨_, rfl⟩, .inl ?_⟩ ?_)).1 <;> rfl

end LookupRequest

end SymbolQuery
