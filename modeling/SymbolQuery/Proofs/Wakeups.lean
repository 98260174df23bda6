/-
Who waits for a bell that will not ring again.

A caller that finds a start under way listens for its bell, makes sure that some start of
the language is still under way, and waits. The bell may ring between its look and its
listening; then it depends on the second look, and that does not tell one start from
another. If a new start was made meanwhile the caller waits for the old bell, and nothing
but its own giving up will end that (`stranded_iff`). `oldBell` is such a run.
-/
import SymbolQuery.Proofs.SingleFlight

set_option autoImplicit false

namespace SymbolQuery.Acquisition

variable {s s' : Acquisition} {e : Event}

/-! ## Starts that are over -/

/-- The start of a ticket is in flight or about to ring its bell. -/
def Pending (s : Acquisition) (t : Nat) : Prop :=
  ∃ x, s.start t = some x ∧ ∀ outcome, x.stage ≠ .over outcome

/-- The bell of a start has rung. -/
def Over (s : Acquisition) (t : Nat) : Prop :=
  ∃ l outcome, s.start t = some ⟨l, .over outcome⟩

/-- A start that was made is pending or over. -/
theorem not_pending_iff {t : Nat} {x : Start} (ht : s.start t = some x) :
    ¬ s.Pending t ↔ s.Over t := by
  constructor
  · intro hdone
    by_contra hover
    apply hdone
    refine ⟨x, ht, ?_⟩
    intro outcome hstage
    apply hover
    refine ⟨x.language, outcome, ?_⟩
    rw [ht, ← hstage]
  · rintro ⟨l, outcome, hover⟩ ⟨y, hy, hpending⟩
    rw [hover] at hy
    cases hy
    exact hpending outcome rfl

/-- A start that comes to another stage was not over, and others stay as they are. -/
theorem start_setStart_of_open {t u : Nat} {l : Language} {stage : Stage} {x : Start}
    (hu : s.start u = some ⟨l, stage⟩) (hopen : ∀ outcome, stage ≠ .over outcome)
    (ht : s.start t = some x) (next : Stage) :
    ∃ y, (s.setStart u l next).start t = some y ∧ ∀ outcome, x.stage = .over outcome → y = x := by
  rw [start_setStart]
  by_cases htu : t = u
  · subst htu
    rw [if_pos rfl]
    rw [hu] at ht
    cases ht
    exact ⟨_, rfl, fun outcome hover => absurd hover (hopen outcome)⟩
  · rw [if_neg htu]
    exact ⟨x, ht, fun _ _ => rfl⟩

/-- A start that was made remains, and once over it does not change. -/
theorem Move.start (hm : Move s e s') (h : Fresh s) {t : Nat} {x : Start}
    (ht : s.start t = some x) :
    ∃ y, s'.start t = some y ∧ ∀ outcome, x.stage = .over outcome → y = x := by
  cases hm with
  | claim _ _ _ _ =>
    have hlt := h.start_lt ht
    refine ⟨x, ?_, fun _ _ => rfl⟩
    rw [start_setStart, if_neg (by omega)]
    exact ht
  | settleFailed hold _ => exact start_setStart_of_open hold (by simp) ht _
  | settleConnected hold => exact start_setStart_of_open hold (by simp) ht _
  | note hold => exact start_setStart_of_open hold (by simp) ht _
  | ring hold => exact start_setStart_of_open hold (by simp) ht _
  | stay _ | call _ | turn _ _ | evict _ | giveUp _ | serve _ _ | refuse _ _ | die _ =>
    exact ⟨x, ht, fun _ _ => rfl⟩

theorem Over.move {t : Nat} (ht : s.Over t) (h : Agreement s) (hm : Move s e s') : s'.Over t := by
  obtain ⟨l, outcome, hover⟩ := ht
  obtain ⟨y, hy, hsame⟩ := hm.start h.fresh hover
  rw [hsame outcome rfl] at hy
  exact ⟨l, outcome, hy⟩

theorem Over.run_append {es : List Event} {t : Nat} (h : (run es).Over t) (later : List Event) :
    (run (es ++ later)).Over t := by
  induction later using List.reverseRecOn with
  | nil =>
    rw [List.append_nil]
    exact h
  | append_singleton later e ih =>
    rw [← List.append_assoc, run_concat]
    exact ih.move (agreement_run _) (step_move _ e)

/-! ## Whose bell a caller heeds -/

/-- The start whose bell a caller is about to listen for, or listens for. -/
def heeds? : Caller → Option Nat
  | .arriving t | .checking t _ | .waiting t _ => some t
  | _ => none

theorem heeds?_hear (t : Nat) (c : Caller) : heeds? (c.hear t) = heeds? c := by
  cases c <;> rfl

/-- Callers heed the bells of starts that were made. -/
def Heedful (s : Acquisition) : Prop :=
  ∀ i l c t, s.caller i = some (l, c) → heeds? c = some t → ∃ x, s.start t = some x

theorem Turn.heeds {l : Language} {c d : Caller} (hturn : Turn s l c d) {t : Nat}
    (ht : heeds? d = some t) : heeds? c = some t ∨ s.pool.find? l = some (.starting t) := by
  cases hturn with
  | seeStart hfind =>
    cases ht
    exact Or.inr hfind
  | listen _ | wait _ _ => exact Or.inl ht
  | seeClient _ | seeNothing | findGone _ | take _ | lookAgain _ _ | wakeUp _ | comeLate => cases ht

theorem Heedful.move (hs : Heedful s) (h : Agreement s) (hm : Move s e s') : Heedful s' := by
  intro i l d t hi ht
  have hmade : ∃ x, s.start t = some x := by
    cases hm.arrival hi with
    | same hold => exact hs i l d t hold ht
    | turn _ hold hturn =>
      rcases hturn.heeds ht with hc | hfind
      · exact hs i l _ t hold hc
      · obtain ⟨stage, hstart, _⟩ := (h.marked l t).mp hfind
        exact ⟨_, hstart⟩
    | hear u hold =>
      rw [heeds?_hear] at ht
      exact hs i l _ t hold ht
    | begin_ | claim _ | serve _ _ | refuse _ => cases ht
  obtain ⟨x, hx⟩ := hmade
  obtain ⟨y, hy, _⟩ := hm.start h.fresh hx
  exact ⟨y, hy⟩

theorem heedful_run (es : List Event) : Heedful (run es) := by
  induction es using List.reverseRecOn with
  | nil =>
    intro i l c t hi
    cases hi
  | append_singleton es e ih =>
    rw [run_concat]
    exact ih.move (agreement_run es) (step_move (run es) e)

/-! ## Callers that listen too late -/

/-- A caller listens for a bell and has not heard it. -/
def Unrung (t : Nat) (c : Caller) : Prop := c = .checking t false ∨ c = .waiting t false

/-- A caller began to listen for the bell of a start when that had rung. -/
def ListensLate (es : List Event) (i t : Nat) : Prop :=
  ∃ es₁ es₂ l, es = es₁ ++ .act i :: es₂ ∧ (run es₁).caller i = some (l, .arriving t)
    ∧ (run es₁).Over t

theorem ListensLate.append {es : List Event} {i t : Nat} (h : ListensLate es i t)
    (later : List Event) : ListensLate (es ++ later) i t := by
  obtain ⟨es₁, es₂, l, rfl, hrest⟩ := h
  exact ⟨es₁, es₂ ++ later, l, by simp, hrest⟩

/-- Who listens for a bell does not miss it. -/
theorem not_unrung_hear (t : Nat) (c : Caller) : ¬ Unrung t (c.hear t) := by
  cases c <;> simp +contextual [Caller.hear, Unrung]

/-- Who has not heard a bell had not heard it before. -/
theorem unrung_of_hear {t u : Nat} {c : Caller} (h : Unrung t (c.hear u)) : Unrung t c := by
  cases c <;> simp_all [Caller.hear, Unrung]

/-- A caller for whom the bell of a start has rung in vain listens for it only now, or did so
before. -/
theorem Turn.unrung {l : Language} {c d : Caller} (hturn : Turn s l c d) {t : Nat}
    (ht : Unrung t d) : c = .arriving t ∨ Unrung t c := by
  cases hturn with
  | listen u =>
    rcases ht with h | h <;> cases h
    exact Or.inl rfl
  | wait u rung =>
    rcases ht with h | h <;> cases h
    exact Or.inr (Or.inl rfl)
  | seeClient _ | seeStart _ | seeNothing | findGone _ | take _ | lookAgain _ _ | wakeUp _
  | comeLate => rcases ht with h | h <;> cases h

/-- **Who has not heard a bell that has rung** began to listen too late. -/
theorem listensLate_of_unrung (es : List Event) {i t : Nat} {l : Language} {c : Caller}
    (hi : (run es).caller i = some (l, c)) (hc : Unrung t c) (hover : (run es).Over t) :
    ListensLate es i t := by
  induction es using List.reverseRecOn generalizing c with
  | nil => cases hi
  | append_singleton es e ih =>
    have hm := step_move (run es) e
    rw [run_concat] at hi hover
    obtain ⟨k, outcome, hstart⟩ := hover
    have hbefore : (run es).Over t := by
      cases hm.course hstart with
      | same h => exact ⟨k, outcome, h⟩
      | ring _ hall =>
        -- at the ring itself everyone who listens hears it
        rw [hall] at hi
        obtain ⟨p, _, hp⟩ := Option.map_eq_some_iff.mp hi
        cases hp
        exact absurd hc (not_unrung_hear t p.2)
    cases hm.arrival hi with
    | same hold => exact (ih hold hc hbefore).append [e]
    | turn he hold hturn =>
      rcases hturn.unrung hc with rfl | hc'
      · exact ⟨es, [], l, by rw [he], hold, hbefore⟩
      · exact (ih hold hc' hbefore).append [e]
    | hear u hold => exact (ih hold (unrung_of_hear hc) hbefore).append [e]
    | begin_ | claim _ | serve _ _ | refuse _ => rcases hc with h | h <;> cases h

/-! ## Callers that wait in vain -/

/-- A caller waits for the bell of a start, and has not heard it. -/
def Blocked (s : Acquisition) (i t : Nat) : Prop := ∃ l, s.caller i = some (l, .waiting t false)

/-- A caller waits for a bell that will not ring again. -/
def Stranded (s : Acquisition) (i t : Nat) : Prop := s.Blocked i t ∧ ¬ s.Pending t

theorem Move.uncalled (hm : Move s e s') (h : ∀ i, s.called ≤ i → s.caller i = none) {j : Nat}
    (hj : s'.called ≤ j) : s'.caller j = none := by
  have hnone : ∀ {i : Nat} {p : Language × Caller}, s.caller i = some p → s.called ≤ j → j ≠ i := by
    rintro i p hi hle rfl
    rw [h j hle] at hi
    cases hi
  cases hm with
  | call l =>
    have hle : s.called + 1 ≤ j := hj
    exact (caller_setCaller_of_ne _ (by omega) _ _).trans (h j (by omega))
  | turn hi _ => exact (caller_setCaller_of_ne s (hnone hi hj) _ _).trans (h j hj)
  | evict hi => exact (caller_setCaller_of_ne _ (hnone hi hj) _ _).trans (h j hj)
  | claim hi _ _ _ => exact (caller_setCaller_of_ne _ (hnone hi hj) _ _).trans (h j hj)
  | serve hi _ => exact (caller_setCaller_of_ne s (hnone hi hj) _ _).trans (h j hj)
  | refuse hi _ => exact (caller_setCaller_of_ne s (hnone hi hj) _ _).trans (h j hj)
  | giveUp i =>
    change Function.update s.caller i none j = none
    rw [Function.update_apply, h j hj, ite_self]
  | ring _ => exact Option.map_eq_none_iff.mpr (h j hj)
  | stay _ | settleFailed _ _ | settleConnected _ | note _ | die _ => exact h j hj

theorem uncalled_run (es : List Event) {i : Nat} (hi : (run es).called ≤ i) :
    (run es).caller i = none := by
  induction es using List.reverseRecOn generalizing i with
  | nil => rfl
  | append_singleton es e ih =>
    rw [run_concat] at hi ⊢
    exact (step_move (run es) e).uncalled (fun _ => ih) hi

/-- Nothing wakes a caller whose bell has rung before, and nothing but its giving up ends its
waiting. -/
theorem Move.waiting (hm : Move s e s') {i t : Nat} {l : Language}
    (hi : s.caller i = some (l, .waiting t false)) (hover : s.Over t) (hcalled : i < s.called)
    (he : e ≠ .giveUp i) : s'.caller i = some (l, .waiting t false) := by
  have hother : ∀ {j : Nat} {k : Language} {c : Caller}, s.caller j = some (k, c) →
      c ≠ .waiting t false → i ≠ j := by
    rintro j k c hj hc rfl
    rw [hi] at hj
    cases hj
    exact hc rfl
  cases hm with
  | call l => exact (caller_setCaller_of_ne _ (by omega) _ _).trans hi
  | turn hj hturn =>
    have hne := hother hj (by rintro rfl; cases hturn)
    exact (caller_setCaller_of_ne s hne _ _).trans hi
  | evict hj => exact (caller_setCaller_of_ne _ (hother hj (by simp)) _ _).trans hi
  | claim hj _ _ _ => exact (caller_setCaller_of_ne _ (hother hj (by simp)) _ _).trans hi
  | serve hj _ => exact (caller_setCaller_of_ne s (hother hj (by simp)) _ _).trans hi
  | refuse hj _ => exact (caller_setCaller_of_ne s (hother hj (by simp)) _ _).trans hi
  | giveUp j =>
    have hne : i ≠ j := by
      rintro rfl
      exact he rfl
    change Function.update s.caller j none i = _
    rw [Function.update_of_ne hne]
    exact hi
  | @ring u k outcome hu =>
    have hne : (t == u) = false := by
      rw [beq_eq_false_iff_ne]
      rintro rfl
      obtain ⟨_, _, h⟩ := hover
      rw [hu] at h
      cases h
    change (s.caller i).map _ = _
    rw [hi, Option.map_some, Caller.hear, hne]
    rfl
  | stay _ | settleFailed _ _ | settleConnected _ | note _ | die _ => exact hi

theorem stranded_iff_over {es : List Event} {i t : Nat} :
    (run es).Stranded i t ↔ (run es).Blocked i t ∧ (run es).Over t := by
  refine and_congr_right ?_
  rintro ⟨l, hi⟩
  obtain ⟨x, hx⟩ := heedful_run es i l _ t hi rfl
  exact not_pending_iff hx

theorem Stranded.run_append {es : List Event} {i t : Nat} (h : (run es).Stranded i t)
    (later : List Event) (hlater : .giveUp i ∉ later) : (run (es ++ later)).Stranded i t := by
  induction later using List.reverseRecOn with
  | nil =>
    rw [List.append_nil]
    exact h
  | append_singleton later e ih =>
    rw [List.mem_append, List.mem_singleton, not_or] at hlater
    obtain ⟨⟨l, hi⟩, hover⟩ := stranded_iff_over.mp (ih hlater.1)
    have hcalled : i < (run (es ++ later)).called := by
      by_contra hge
      rw [uncalled_run _ (Nat.le_of_not_lt hge)] at hi
      cases hi
    have hwaits := (step_move (run (es ++ later)) e).waiting hi hover hcalled (Ne.symm hlater.2)
    have hstill := hover.run_append [e]
    rw [List.append_assoc] at hstill
    rw [← run_concat, List.append_assoc] at hwaits
    exact stranded_iff_over.mpr ⟨⟨l, hwaits⟩, hstill⟩

/-- **Who waits for a bell that will not ring again** is who began to listen for it when it had
rung; and it waits until it gives up, whatever else happens. -/
theorem stranded_iff (es : List Event) (i t : Nat) :
    ((run es).Stranded i t ↔ (run es).Blocked i t ∧ ListensLate es i t)
    ∧ ((run es).Stranded i t → ∀ later, .giveUp i ∉ later →
        (run (es ++ later)).Stranded i t) := by
  refine ⟨?_, fun h later => h.run_append later⟩
  rw [stranded_iff_over]
  refine and_congr_right ?_
  rintro ⟨l, hi⟩
  constructor
  · intro hover
    exact listensLate_of_unrung es hi (Or.inr rfl) hover
  · rintro ⟨es₁, es₂, k, rfl, _, hover⟩
    exact hover.run_append (.act i :: es₂)

/-- **Nobody waits in vain where looking and listening are one step**, as they are while all callers
run on one thread: then the start that a caller listens for is the one it has just seen. -/
theorem not_stranded_of_adjacent {es : List Event}
    (h : ∀ es₁ es₂ i l t, es = es₁ ++ .act i :: es₂ →
      (run es₁).caller i = some (l, .arriving t) →
      ∃ es₀, es₁ = es₀ ++ [.act i] ∧ (run es₀).caller i = some (l, .looking))
    (i t : Nat) : ¬ (run es).Stranded i t := by
  intro hstranded
  obtain ⟨⟨l, hi⟩, hover⟩ := stranded_iff_over.mp hstranded
  obtain ⟨es₁, es₂, k, rfl, harriving, hlate⟩ := listensLate_of_unrung es hi (Or.inr rfl) hover
  obtain ⟨es₀, rfl, hlooking⟩ := h es₁ es₂ i k t rfl harriving
  have hm := step_move (run es₀) (.act i)
  rw [run_concat] at harriving hlate
  -- the start was in flight when it was seen
  have hflight : (run es₀).InFlight k t := by
    rw [← (agreement_run es₀).marked]
    generalize hd : Caller.arriving t = d at harriving
    cases hm.arrival harriving with
    | turn _ _ hturn =>
      subst hd
      cases hturn with
      | seeStart hfind => exact hfind
    | same hold =>
      rw [hlooking] at hold
      cases hold
      cases hd
    | @hear u c hold =>
      rw [hlooking] at hold
      cases hold
      cases hd
    | begin_ | claim _ | serve _ _ | refuse _ => cases hd
  obtain ⟨stage, hstart, hnoted⟩ := hflight
  obtain ⟨k', outcome, hrung⟩ := hlate
  cases hm.course hrung with
  | same hold | ring hold _ =>
    rw [hstart] at hold
    cases hold
    cases hnoted

/-- The first start of a language fails between the second caller's look and its listening, and a
third caller makes another start before the second caller looks again. -/
def oldBell : List Event :=
  [.call .rust, .act 0, .act 0, .call .rust, .act 1,
   .settle 0 (some .notConnected), .note 0, .ring 0,
   .call .rust, .act 2, .act 2,
   .act 1, .act 1]

/-- The second caller waits for the bell of the first start. -/
theorem oldBell_stranded : (run oldBell).Stranded 1 0 := by
  rw [stranded_iff_over]
  exact ⟨⟨.rust, rfl⟩, ⟨.rust, _, rfl⟩⟩

end SymbolQuery.Acquisition
