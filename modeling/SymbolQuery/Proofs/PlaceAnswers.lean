/-
Answers to questions for places, element by element.

An answer may be one element or a list, and an element may be a link or a plain location.
The four forms are tried in turn, so what an element means could depend on its neighbours or
on whether it stands alone. It does not: alone or in a list of its own an object gives the
same location, and in a list of links, or of locations that are no links, each object gives
what its own keys say (`Link.Says`, `Place.Says`). An object that can be read both ways is a
link in either form. What a provider gives is just what is so read from the server's answer
(`answer_locations`).
-/
import SymbolQuery.Proofs.RecordFields
import SymbolQuery.Workspace.Provider

set_option autoImplicit false

namespace SymbolQuery

open Json

namespace Answer

/-! ## One element -/

namespace Link

/-- The value is read as a link. -/
def Reads (v : Json) : Prop := ∃ l, ofJson v = .ok l

/-- The object says a location by the keys of a link: where the name of the target stands. -/
def Says (fields : List (String × Json)) (l : Location) : Prop :=
  Has fields "targetUri" (.str l.uri)
    ∧ ∃ range, Has fields "targetSelectionRange" range ∧ Range.ofJson range = .ok l.range

theorem says_of_ofJson {fields : List (String × Json)} {l : Link}
    (h : ofJson (.obj fields) = .ok l) : Says fields l.toLocation := by
  unfold ofJson at h
  simp only [readRecord_obj_eq_ok, Fields.seq_eq_ok, Fields.map_eq_ok, required_named_iff,
    asText_eq_ok] at h
  obtain ⟨_, _, ⟨_, _, ⟨_, _, ⟨_, ⟨_, huri, rfl⟩, rfl⟩, _, rfl⟩, ⟨range, hrange, hread⟩, rfl⟩, _,
    rfl⟩ := h
  exact ⟨huri, range, hrange, hread⟩

end Link

namespace Place

/-- The value is read as a location. -/
def Reads (v : Json) : Prop := ∃ p, ofJson v = .ok p

/-- The object says a location by its own keys; a missing range is the start of the document. -/
def Says (fields : List (String × Json)) (l : Location) : Prop :=
  Has fields "uri" (.str l.uri)
    ∧ ((Lacks fields "range" ∧ l.range = ⟨⟨0, 0⟩, ⟨0, 0⟩⟩)
      ∨ ∃ range, Has fields "range" range ∧ Range.ofJson range = .ok l.range)

theorem says_of_ofJson {fields : List (String × Json)} {p : Place}
    (h : ofJson (.obj fields) = .ok p) : Says fields p.toLocation := by
  unfold ofJson at h
  simp only [readRecord_obj_eq_ok, Fields.seq_eq_ok, Fields.map_eq_ok, required_named_iff,
    defaulted_named_iff, asText_eq_ok] at h
  obtain ⟨_, _, ⟨_, ⟨_, huri, rfl⟩, rfl⟩, hrange, rfl⟩ := h
  exact ⟨huri, hrange.imp_left (And.imp_right Eq.symm)⟩

end Place

/-! ## The whole answer -/

namespace Locations

/-- The locations of an answer, none where it is null. -/
def places (v : Json) : Decoded (List Location) :=
  (asOption ofJson v).map fun found => (found.map toList).getD []

variable {fields : List (String × Json)} {items : List Json}

theorem places_of_ofJson {v : Json} (found : Locations) (hv : v.isNull = false)
    (h : ofJson v = .ok found) : places v = .ok found.toList := by
  rw [places, asOption_of_read hv h]
  rfl

/-- A link that stands alone. -/
theorem places_of_link {l : Link} (h : Link.ofJson (.obj fields) = .ok l) :
    places (.obj fields) = .ok [l.toLocation] := by
  refine places_of_ofJson (.link l) rfl ?_
  simp only [ofJson, firstOf, asList, h]
  rfl

/-- A location that stands alone and is no link. -/
theorem places_of_place {p : Place} (hlink : ¬ Link.Reads (.obj fields))
    (h : Place.ofJson (.obj fields) = .ok p) : places (.obj fields) = .ok [p.toLocation] := by
  refine places_of_ofJson (.single p) rfl ?_
  cases hread : Link.ofJson (.obj fields) with
  | ok l => exact absurd ⟨l, hread⟩ hlink
  | error _ =>
    simp only [ofJson, firstOf, asList, hread, h]
    rfl

/-- A list whose elements all are links. -/
theorem places_of_links {ls : List Link}
    (h : List.Forall₂ (fun v l => Link.ofJson v = .ok l) items ls) :
    places (.arr items) = .ok (ls.map Link.toLocation) := by
  refine places_of_ofJson (.links ls) rfl ?_
  simp only [ofJson, firstOf, asList, readAll_eq_ok.mpr h]
  rfl

/-- A list of locations of which one is no link: the others count as locations too. -/
theorem places_of_places {ps : List Place} (hlink : ∃ v ∈ items, ¬ Link.Reads v)
    (h : List.Forall₂ (fun v p => Place.ofJson v = .ok p) items ps) :
    places (.arr items) = .ok (ps.map Place.toLocation) := by
  refine places_of_ofJson (.many ps) rfl ?_
  cases hread : readAll Link.ofJson items with
  | ok ls =>
    obtain ⟨v, hv, hno⟩ := hlink
    exact absurd (readAll_isOk_iff.mp ⟨ls, hread⟩ v hv) hno
  | error _ =>
    simp only [ofJson, firstOf, asList, hread, readAll_eq_ok.mpr h]
    rfl

end Locations

end Answer

/-! ## What a provider gives -/

namespace Workspace

section

variable {α β : Type}

/-- Nothing is done once the wait for an answer has ended. -/
theorem giveUp_bind (f : α → Call β) (i id : Nat) (method : String) (since : Nat) :
    (giveUp i id method since >>= f) = giveUp i id method since := by
  simp only [giveUp, bind_assoc]
  refine bind_congr fun ws => ?_
  cases ws.giveUpAt with
  | none =>
    simp only [bind_assoc]
    rfl
  | some limit =>
    dsimp only
    split <;>
    · simp only [bind_assoc]
      rfl

/-- What is made of an answer can be made of it by its reader. -/
theorem request_bind_pure (f : α → β) (i : Nat) (method : String) (params : Json)
    (read : Json → Json.Decoded α) :
    (request i method params read >>= fun a => pure (f a))
      = request i method params fun v => (read v).map f := by
  simp only [request, bind_assoc]
  refine bind_congr fun ws => bind_congr fun outcome => ?_
  match outcome with
  | .silence id => exact giveUp_bind _ i id method _
  | .come (.error fault) => rfl
  | .come (.ok v) =>
    simp only [Client.decodeAs]
    cases read v with
    | error _ => rfl
    | ok _ => rfl

end

/-- A question for places is answered with the locations of the server's answer. -/
theorem answer_locations (query : LocationQuery) (uri : String) (p : Position) :
    answer (.locations query uri p) = withDocument uri fun i =>
      request i query.method (locationParams query uri p) Answer.Locations.places := by
  simp only [answer, request_bind_pure]
  rfl

end Workspace

namespace Answer.Locations

/-- **Every element is converted for itself.** A question for places is answered with the `places`
of the server's answer. There an object that can be read as a link or as a location gives the same
single location alone and in a list. A list of links gives for each in turn the location that it
says as a link, and a list of locations that are no links gives for each the location that it
says. -/
theorem elements_convert_alone :
    (∀ query uri p, Workspace.answer (.locations query uri p)
        = Workspace.withDocument uri fun i =>
            Workspace.request i query.method (Workspace.locationParams query uri p) places)
      ∧ (∀ fields, Link.Reads (.obj fields) ∨ Place.Reads (.obj fields) →
        ∃ l, places (.obj fields) = .ok [l] ∧ places (.arr [.obj fields]) = .ok [l])
      ∧ (∀ objects : List (List (String × Json)), (∀ fields ∈ objects, Link.Reads (.obj fields)) →
        ∃ ls, places (.arr (objects.map .obj)) = .ok ls ∧ List.Forall₂ Link.Says objects ls)
      ∧ ∀ objects : List (List (String × Json)),
        (∀ fields ∈ objects, Place.Reads (.obj fields) ∧ ¬ Link.Reads (.obj fields)) →
          ∃ ls, places (.arr (objects.map .obj)) = .ok ls ∧ List.Forall₂ Place.Says objects ls := by
  refine ⟨Workspace.answer_locations, fun fields hreads => ?_, fun objects hlinks => ?_,
    fun objects hplaces => ?_⟩
  · by_cases hlink : Link.Reads (.obj fields)
    · obtain ⟨l, hl⟩ := hlink
      exact ⟨l.toLocation, places_of_link hl, places_of_links (.cons hl .nil)⟩
    · obtain ⟨p, hp⟩ := hreads.resolve_left hlink
      exact ⟨p.toLocation, places_of_place hlink hp,
        places_of_places ⟨_, List.mem_cons_self, hlink⟩ (.cons hp .nil)⟩
  · obtain ⟨ls, hread⟩ := readAll_isOk_iff.mpr (List.forall_mem_map.mpr hlinks)
    have hitems := readAll_eq_ok.mp hread
    refine ⟨_, places_of_links hitems, ?_⟩
    rw [List.forall₂_map_right_iff]
    exact (List.forall₂_map_left_iff.mp hitems).imp fun _ _ => Link.says_of_ofJson
  · obtain ⟨ps, hread⟩ := readAll_isOk_iff.mpr
      (List.forall_mem_map.mpr fun fields hfields => (hplaces fields hfields).1)
    have hitems := readAll_eq_ok.mp hread
    have hsays : List.Forall₂ Place.Says objects (ps.map Place.toLocation) := by
      rw [List.forall₂_map_right_iff]
      exact (List.forall₂_map_left_iff.mp hitems).imp fun _ _ => Place.says_of_ofJson
    cases objects with
    | nil =>
      -- an empty list is one of links as well
      obtain rfl := List.forall₂_nil_left_iff.mp hitems
      exact ⟨[], places_of_links .nil, .nil⟩
    | cons fields rest =>
      have hno := (hplaces fields List.mem_cons_self).2
      exact ⟨_, places_of_places ⟨_, List.mem_cons_self, hno⟩ hitems, hsays⟩

/-- A link that has the keys of a location too, and locations without a range. -/
theorem elements_convert_alone_ambiguous :
    let name : Range := ⟨⟨4, 7⟩, ⟨4, 12⟩⟩
    let both : List (String × Json) :=
      [("range", Range.zero.toJson), ("targetRange", Range.zero.toJson),
        ("targetSelectionRange", name.toJson), ("targetUri", .str "b"), ("uri", .str "a")]
    let bare : List (String × Json) := [("uri", .str "a")]
    (∃ l, places (.obj both) = .ok [l] ∧ places (.arr [.obj both]) = .ok [l])
      ∧ places (.obj both) = .ok [⟨"b", name⟩]
      ∧ (∃ ls, places (.arr [.obj both, .obj both]) = .ok ls
        ∧ List.Forall₂ Link.Says [both, both] ls)
      ∧ (∃ ls, places (.arr [.obj bare, .obj bare]) = .ok ls
        ∧ List.Forall₂ Place.Says [bare, bare] ls)
      ∧ places (.arr [.obj bare]) = .ok [⟨"a", Range.zero⟩] := by
  intro name both bare
  obtain ⟨-, halone, hlinks, hplaces⟩ := elements_convert_alone
  have hlink : Link.Reads (.obj both) := ⟨⟨"b", Range.zero, name, none⟩, rfl⟩
  have hplace : Place.Reads (.obj bare) := ⟨⟨"a", Range.zero⟩, rfl⟩
  have hno : ¬ Link.Reads (.obj bare) := by
    rintro ⟨l, h⟩
    cases h
  exact ⟨halone both (.inl hlink), rfl, hlinks [both, both] (by simp [hlink]),
    hplaces [bare, bare] (by simp [hplace, hno]), rfl⟩

end Answer.Locations

end SymbolQuery
