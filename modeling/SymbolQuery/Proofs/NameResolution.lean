/-
What resolving a request gives, and how much of the document it speaks of.

A resolution has a symbol or an error, never both and never neither. The symbols that it
shows are the symbol and the further matches. For a name these are all symbols of that
name, at whatever depth: they stand at the addresses of such symbols, each address once
and in order. Symbols of one name inside each other, and symbols that are equal in all
they have, are so counted one by one. A name is compared as it was given, so blanks at
its ends are part of it.
-/
import SymbolQuery.Proofs.EmptyAnswers
import SymbolQuery.Proofs.SymbolAddresses

set_option autoImplicit false

namespace SymbolQuery

/-! ## Targets of requests -/

namespace LookupRequest

variable {r : LookupRequest}

theorem exists_target (h : ∀ e, ¬ r.Malformed e) : ∃ target, r.target = .ok target := by
  cases htarget : r.target with
  | ok target => exact ⟨target, rfl⟩
  | error e => exact absurd ((r.target_eq_error_iff e).mp htarget) (h e)

/-- A name that is not blank comes before a position, which is then only a hint. -/
theorem target_of_name {name : String} (hname : r.name = some name)
    (hblank : Text.isBlankText name = false) :
    r.target
      = if Text.isBlankText r.uri then .error .missingUri else .ok (.name name r.position?) := by
  have hgiven : r.name? = some name := by
    simp [name?, hname, hblank]
  rw [LookupRequest.target, hgiven]

end LookupRequest

/-! ## Resolutions -/

namespace Resolution

/-- The symbol and then the other matches. -/
def symbols (r : Resolution) : List Symbol := r.symbol?.toList ++ r.alternatives?.getD []

/-- Matches become a resolution that shows them all. -/
theorem symbols_getD_ofMatches (l : List Symbol) (fault : LocateFault) :
    ((ofMatches l).getD (.failed fault)).symbols = l := by
  rcases l with _ | ⟨s, _ | ⟨other, others⟩⟩
  · rfl
  · rfl
  · rfl

/-- A resolution that makes sense shows no symbol exactly if it is an error. -/
theorem Sound.isSome_error?_iff {r : Resolution} (h : r.Sound) :
    r.error?.isSome = true ↔ r.symbols = [] := by
  rw [← h.symbol, symbols, List.append_eq_nil_iff, Option.toList_eq_nil_iff]
  refine ⟨fun hnone => ⟨hnone, ?_⟩, And.left⟩
  cases halternatives : r.alternatives? with
  | none => rfl
  | some l =>
    -- other matches there are only beside a symbol
    have hsome := (h.others l halternatives).2.2
    rw [hnone] at hsome
    cases hsome

end Resolution

/-- A provider, but with these symbols in every document. -/
def Provider.withSymbols (p : Provider) (forest : List Symbol) : Provider
  | .symbols _ => ⟨some 0, .ok forest⟩
  | q => p q

namespace Lookup

/-! ## What resolving gives -/

/-- Resolving a name shows the symbols of that name in the forest that the provider gives. -/
theorem symbols_resolveTarget {w : World} {t t' deadline : Nat} {uri : String}
    {forest : List Symbol} (h : w.Answers t deadline (.symbols uri) forest t') (name : String)
    (hint : Option Position) :
    (resolveTarget (m := Timed) deadline uri (.name name hint) w t).value.symbols
      = Symbol.named forest name := by
  have hyields : Timed.Yields w t (resolveTarget deadline uri (.name name hint)) _ :=
    yields_resolveTarget _
  obtain ⟨-, ⟨forest', h', hr⟩ | ⟨hnone, -⟩⟩ := hyields
  · obtain ⟨rfl, -⟩ := h.unique h'
    rw [hr]
    exact Resolution.symbols_getD_ofMatches _ _
  · exact absurd h (hnone _ _)

/-- **What resolving gives makes sense**, whatever the provider does. -/
theorem sound_resolveTarget (deadline : Nat) (uri : String) (target : LookupTarget) (w : World)
    (t : Nat) : (resolveTarget (m := Timed) deadline uri target w t).value.Sound := by
  have hyields : Timed.Yields w t (resolveTarget deadline uri target) _ := yields_resolveTarget _
  exact hyields.1

/-- **Resolving tells apart what was found and what was not.** A request that is not malformed is
resolved, whatever the provider does and whenever the lookup is cancelled. The resolution has a
symbol or an error. It is unique exactly if it has a symbol and no other matches. Other matches,
where it has any, are not the empty list, and then it is not unique.

If a name is asked for and the symbols come in time, the symbol followed by the other matches are
the symbols at all addresses in the forest where a symbol has just that name, each address once and
in order. There is an error exactly if there is no such address. -/
theorem resolve_shows_all_of_name {request : LookupRequest} (hwell : ∀ e, ¬ request.Malformed e)
    (deadline : Nat) (w : World) (t : Nat) :
    ∃ r, (resolve (m := Timed) deadline request w t).value = .ok r
      ∧ (r.symbol? = none ↔ r.error?.isSome = true)
      ∧ (r.isUnique = true ↔ r.symbol?.isSome = true ∧ r.alternatives? = none)
      ∧ (∀ others, r.alternatives? = some others → others ≠ [] ∧ r.isUnique = false)
      ∧ ∀ name forest t', request.name = some name → Text.isBlankText name = false →
        w.Answers t deadline (.symbols request.uri) forest t' →
          ∃ addresses, Symbol.Enumerates forest (fun s => s.name = name) addresses
            ∧ addresses.map (Symbol.atAddress? forest)
                = (r.symbol?.toList ++ r.alternatives?.getD []).map some
            ∧ (r.error?.isSome = true ↔ addresses = []) := by
  obtain ⟨target, htarget⟩ := LookupRequest.exists_target hwell
  have hsound := sound_resolveTarget deadline request.uri target w t
  refine ⟨(resolveTarget (m := Timed) deadline request.uri target w t).value, ?_, hsound.symbol,
    hsound.unique, fun others h => ⟨(hsound.others others h).1, (hsound.others others h).2.1⟩, ?_⟩
  · rw [resolve, htarget]
    rfl
  · intro name forest t' hname hblank hanswer
    rw [LookupRequest.target_of_name hname hblank] at htarget
    by_cases huri : Text.isBlankText request.uri = true
    · rw [if_pos huri] at htarget
      cases htarget
    rw [if_neg huri] at htarget
    obtain rfl := Except.ok.inj htarget
    have hsymbols := symbols_resolveTarget hanswer name request.position?
    obtain ⟨addresses, hall, hmap⟩ :=
      Symbol.exists_enumerates forest fun s => s.name == name
    simp only [beq_iff_eq] at hall
    change _ = (Symbol.named forest name).map some at hmap
    rw [← hsymbols] at hmap
    refine ⟨addresses, hall, hmap, ?_⟩
    -- as many addresses as symbols shown, so none of the one means none of the other
    rw [hsound.isSome_error?_iff, ← List.map_eq_nil_iff (f := some), ← hmap,
      List.map_eq_nil_iff]

/-- A function and inside it two others of its name, which are equal. -/
def sameNames : List Symbol :=
  [{ functionOn "f" 0 with children := [functionOn "f" 1, functionOn "g" 2, functionOn "f" 1] }]

/-- Of three functions of one name the outer one is the symbol. Both others are matches beside it,
though they are equal. -/
theorem resolve_shows_all_of_name_nested :
    let w : World := ⟨twoOfEach.withSymbols sameNames, none⟩
    let request := LookupRequest.named "a" "f"
    (∀ e, ¬ request.Malformed e)
      ∧ ∃ r, (resolve (m := Timed) 10 request w 0).value = .ok r ∧ r.isUnique = false
        ∧ ∃ addresses, Symbol.Enumerates sameNames (fun s => s.name = "f") addresses
          ∧ addresses.length = 3
          ∧ addresses.map (Symbol.atAddress? sameNames)
              = (r.symbol?.toList ++ r.alternatives?.getD []).map some := by
  intro w request
  have htarget : request.target = .ok (.name "f" none) := by decide
  have hwell : ∀ e, ¬ request.Malformed e := by
    intro e
    rw [← LookupRequest.target_eq_error_iff, htarget]
    rintro ⟨⟩
  refine ⟨hwell, ?_⟩
  obtain ⟨r, hr, -, -, hothers, hall⟩ := resolve_shows_all_of_name hwell 10 w 0
  have hforest : w.Answers 0 10 (.symbols request.uri) sameNames 0 := by
    refine ⟨rfl, ⟨0, rfl, Nat.zero_le _, rfl⟩, ?_⟩
    rintro _ ⟨⟩
  obtain ⟨addresses, henumerates, hmap, -⟩ := hall "f" sameNames 0 rfl (by decide) hforest
  have hfound : (resolve (m := Timed) 10 request w 0).value
      = .ok { symbol? := some sameNames[0],
              alternatives? := some [functionOn "f" 1, functionOn "f" 1] } := by
    rw [resolve, htarget]
    rfl
  obtain rfl := Except.ok.inj (hfound.symm.trans hr)
  refine ⟨_, hr, (hothers _ rfl).2, addresses, henumerates, ?_, hmap⟩
  have hlength := congrArg List.length hmap
  rw [List.length_map, List.length_map] at hlength
  exact hlength

end Lookup

end SymbolQuery
