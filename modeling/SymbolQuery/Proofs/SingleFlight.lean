/-
One start and one client for a language, whatever the callers do in between.

The pool and the starts agree (`Agreement`): a language is marked as being started
exactly while a start of it has not noted its outcome, and a client that a start has
noted is either still in use or gone. Only a client that somebody found gone is put away,
and only a start that is still marked notes its outcome; so every move keeps the two in
agreement.

That a caller never gets a client which was gone before it called is about that caller
and that client alone (`Spared`): what it finds in the pool it looks at again, and the
client of its own start is a new one.
-/
import Mathlib.Data.List.Induction
import SymbolQuery.Proofs.Acquisition

set_option autoImplicit false

namespace SymbolQuery.Acquisition

variable {s s' : Acquisition} {e : Event} {l : Language}

/-! ## The pool and the starts -/

/-- A start of a language that has not noted its outcome. -/
def InFlight (s : Acquisition) (l : Language) (t : Nat) : Prop :=
  ∃ stage, s.start t = some ⟨l, stage⟩ ∧ stage.noted? = none

/-- A client that some start of a language has noted. -/
def Published (s : Acquisition) (l : Language) (client : Nat) : Prop :=
  ∃ t stage, s.start t = some ⟨l, stage⟩ ∧ stage.noted? = some (.ok client)

/-- No start has a ticket that is still to be given. -/
def Fresh (s : Acquisition) : Prop := ∀ t, s.pool.nextTicket ≤ t → s.start t = none

/-- **The pool and the starts agree.** -/
structure Agreement (s : Acquisition) : Prop where
  fresh : Fresh s
  marked : ∀ l t, s.pool.find? l = some (.starting t) ↔ s.InFlight l t
  used : ∀ l client, s.Published l client →
    s.pool.find? l = some (.ready client) ∨ s.gone client = true
  evicting : ∀ i l client, s.caller i = some (l, .evicting client) → s.gone client = true
  known : ∀ client, s.gone client = true → client < s.clients

theorem agreement_empty : Agreement {} where
  fresh _ _ := rfl
  marked l t := by
    constructor
    · intro h
      cases h
    · rintro ⟨_, h, _⟩
      cases h
  used l client := by
    rintro ⟨_, _, h, _⟩
    cases h
  evicting i l client h := by cases h
  known client h := by cases h

/-- Two starts of a language are not in flight together. -/
theorem Agreement.eq_of_inFlight (h : Agreement s) {t u : Nat} (ht : s.InFlight l t)
    (hu : s.InFlight l u) : t = u := by
  have hfind := (h.marked l t).mpr ht
  rw [(h.marked l u).mpr hu] at hfind
  cases hfind
  rfl

/-- The starts of a language in flight where one of them has come to another stage. -/
theorem inFlight_setStart (s : Acquisition) (t u : Nat) (l k : Language) (stage : Stage) :
    (s.setStart t l stage).InFlight k u
      ↔ if u = t then k = l ∧ stage.noted? = none else s.InFlight k u := by
  unfold InFlight
  rw [start_setStart]
  by_cases hu : u = t
  · rw [if_pos hu, if_pos hu]
    constructor
    · rintro ⟨_, h, hnone⟩
      cases h
      exact ⟨rfl, hnone⟩
    · rintro ⟨rfl, hnone⟩
      exact ⟨stage, rfl, hnone⟩
  · rw [if_neg hu, if_neg hu]

/-- Who has published a client where one start has come to another stage. -/
theorem published_setStart {t : Nat} {k : Language} {stage : Stage} {client : Nat}
    (h : (s.setStart t l stage).Published k client) :
    (k = l ∧ stage.noted? = some (.ok client)) ∨ s.Published k client := by
  obtain ⟨u, stage', hu, hnoted⟩ := h
  obtain ⟨_, heq⟩ | hold := of_start_setStart hu
  · cases heq
    exact Or.inl ⟨rfl, hnoted⟩
  · exact Or.inr ⟨u, stage', hold, hnoted⟩

/-- A start that comes to another stage without noting anything is in flight, and has published a
client, if it was and had before. -/
theorem inFlight_advance {t u : Nat} {k : Language} {stage next : Stage}
    (ht : s.start t = some ⟨l, stage⟩) (hsame : next.noted? = stage.noted?) :
    (s.setStart t l next).InFlight k u ↔ s.InFlight k u := by
  rw [inFlight_setStart, hsame]
  by_cases hu : u = t
  · subst hu
    rw [if_pos rfl]
    constructor
    · rintro ⟨rfl, hnone⟩
      exact ⟨stage, ht, hnone⟩
    · rintro ⟨stage', h, hnone⟩
      rw [ht] at h
      cases h
      exact ⟨rfl, hnone⟩
  · rw [if_neg hu]

theorem published_advance {t : Nat} {k : Language} {stage next : Stage} {client : Nat}
    (ht : s.start t = some ⟨l, stage⟩) (hsame : next.noted? = stage.noted?)
    (h : (s.setStart t l next).Published k client) : s.Published k client := by
  rcases published_setStart h with ⟨rfl, hnoted⟩ | hold
  · exact ⟨t, stage, ht, hsame ▸ hnoted⟩
  · exact hold

theorem Fresh.start_lt (h : Fresh s) {t : Nat} {x : Start} (ht : s.start t = some x) :
    t < s.pool.nextTicket := by
  by_contra hge
  rw [h t (Nat.le_of_not_lt hge)] at ht
  cases ht

theorem Fresh.setStart (h : Fresh s) {t : Nat} {x : Start} (ht : s.start t = some x)
    (stage : Stage) {u : Nat} (hu : s.pool.nextTicket ≤ u) :
    (s.setStart t l stage).start u = none := by
  have hlt := h.start_lt ht
  rw [start_setStart, if_neg (by omega)]
  exact h u hu

theorem Move.fresh (hm : Move s e s') (h : Fresh s) : Fresh s' := by
  intro u hu
  cases hm with
  | evict _ =>
    change (s.pool.evict _ _).nextTicket ≤ u at hu
    rw [Pool.nextTicket_evict] at hu
    exact h u hu
  | @claim _ l _ _ p _ hnext =>
    change p.nextTicket ≤ u at hu
    rw [start_setStart, if_neg (by omega)]
    exact h u (by omega)
  | note ht =>
    change (s.pool.publish _ _).nextTicket ≤ u at hu
    rw [Pool.nextTicket_publish] at hu
    exact h.setStart ht _ hu
  | settleFailed ht fault => exact h.setStart ht _ hu
  | settleConnected ht => exact h.setStart ht _ hu
  | ring ht => exact h.setStart ht _ hu
  | stay _ | call _ | turn _ _ | giveUp _ | serve _ _ | refuse _ _ | die _ => exact h u hu

/-- The entry of a language and a start of it change together, and the mark stays right. -/
theorem Agreement.marked_setStart (h : Agreement s) {p : Pool} {entry : Option PoolEntry}
    (hfind : ∀ k, p.find? k = if k = l then entry else s.pool.find? k) {t : Nat} {stage : Stage}
    (hentry : ∀ u, entry = some (.starting u) ↔ u = t ∧ stage.noted? = none)
    (honly : ∀ u, s.InFlight l u → u = t) (hother : ∀ k, s.InFlight k t → k = l)
    (k : Language) (u : Nat) :
    p.find? k = some (.starting u) ↔ (s.setStart t l stage).InFlight k u := by
  rw [hfind, inFlight_setStart]
  by_cases hk : k = l
  · subst hk
    rw [if_pos rfl, hentry]
    by_cases hu : u = t
    · rw [if_pos hu]
      exact and_congr_left fun _ => iff_of_true hu rfl
    · rw [if_neg hu]
      exact iff_of_false (fun h => hu h.1) fun h => hu (honly u h)
  · rw [if_neg hk, h.marked]
    by_cases hu : u = t
    · subst hu
      rw [if_pos rfl]
      exact iff_of_false (fun h => hk (hother k h)) fun h => hk h.1
    · rw [if_neg hu]

/-- Likewise for the client in use, where the language had none. -/
theorem Agreement.used_setStart (h : Agreement s) {p : Pool} {entry : Option PoolEntry}
    (hfind : ∀ k, p.find? k = if k = l then entry else s.pool.find? k) {t : Nat} {stage : Stage}
    (hentry : ∀ client, stage.noted? = some (.ok client) → entry = some (.ready client))
    (hnone : ∀ client, s.pool.find? l ≠ some (.ready client)) {k : Language} {client : Nat}
    (hp : (s.setStart t l stage).Published k client) :
    p.find? k = some (.ready client) ∨ s.gone client = true := by
  rw [hfind]
  rcases published_setStart hp with ⟨rfl, hnoted⟩ | hold
  · rw [if_pos rfl]
    exact Or.inl (hentry client hnoted)
  · rcases h.used k client hold with hready | hgone
    · have hk : k ≠ l := by
        rintro rfl
        exact hnone client hready
      rw [if_neg hk]
      exact Or.inl hready
    · exact Or.inr hgone

theorem Move.marked (hm : Move s e s') (h : Agreement s) (k : Language) (u : Nat) :
    s'.pool.find? k = some (.starting u) ↔ s'.InFlight k u := by
  cases hm with
  | @evict i l client hi =>
    change (s.pool.evict l client).find? k = _ ↔ s.InFlight k u
    rw [Pool.find?_evict, ← h.marked]
    by_cases hk : k = l ∧ s.pool.find? l = some (.ready client)
    · -- a language that has a client is not being started
      rw [if_pos hk, hk.1, hk.2]
      simp
    · rw [if_neg hk]
  | @claim i l hi hfree p hfind hnext =>
    refine h.marked_setStart hfind ?_ ?_ ?_ k u
    · simp [Stage.noted?, eq_comm]
    · intro u hflight
      have hmarked := (h.marked l u).mpr hflight
      rw [hfree] at hmarked
      cases hmarked
    · -- no start has the new ticket yet
      rintro k ⟨_, hstart, _⟩
      rw [h.fresh _ (Nat.le_refl _)] at hstart
      cases hstart
  | @note t l outcome ht =>
    refine h.marked_setStart (fun k => Pool.find?_publish s.pool l k _) ?_ ?_ ?_ k u
    · cases outcome <;> simp [Stage.noted?, Except.toOption]
    · exact fun u hflight => h.eq_of_inFlight hflight ⟨_, ht, rfl⟩
    · rintro k ⟨_, hstart, _⟩
      rw [ht] at hstart
      cases hstart
      rfl
  | settleFailed ht fault => exact (h.marked k u).trans (inFlight_advance ht (by rfl)).symm
  | settleConnected ht => exact (h.marked k u).trans (inFlight_advance ht (by rfl)).symm
  | ring ht => exact (h.marked k u).trans (inFlight_advance ht (by rfl)).symm
  | stay _ | call _ | turn _ _ | giveUp _ | serve _ _ | refuse _ _ | die _ => exact h.marked k u

theorem Move.used (hm : Move s e s') (h : Agreement s) {k : Language} {client : Nat}
    (hp : s'.Published k client) :
    s'.pool.find? k = some (.ready client) ∨ s'.gone client = true := by
  cases hm with
  | @evict i l dead hi =>
    change (s.pool.evict l dead).find? k = _ ∨ s.gone client = true
    rw [Pool.find?_evict]
    rcases h.used k client hp with hfind | hgone
    · by_cases hk : k = l ∧ s.pool.find? l = some (.ready dead)
      · -- the client that is put away was found gone
        obtain ⟨rfl, hready⟩ := hk
        rw [hready] at hfind
        cases hfind
        exact Or.inr (h.evicting i k client hi)
      · rw [if_neg hk]
        exact Or.inl hfind
    · exact Or.inr hgone
  | @claim i l hi hfree p hfind hnext =>
    refine h.used_setStart hfind ?_ ?_ hp
    · intro client hnoted
      cases hnoted
    · intro client hready
      rw [hfree] at hready
      cases hready
  | @note t l outcome ht =>
    refine h.used_setStart (fun k => Pool.find?_publish s.pool l k _) ?_ ?_ hp
    · intro client hnoted
      cases hnoted
      rfl
    · intro client hready
      rw [(h.marked l t).mpr ⟨_, ht, rfl⟩] at hready
      cases hready
  | settleFailed ht fault => exact h.used k client (published_advance ht (by rfl) hp)
  | settleConnected ht => exact h.used k client (published_advance ht (by rfl) hp)
  | ring ht => exact h.used k client (published_advance ht (by rfl) hp)
  | @die dead hdead => exact (h.used k client hp).imp_right (Move.die hdead).gone
  | stay _ | call _ | turn _ _ | giveUp _ | serve _ _ | refuse _ _ => exact h.used k client hp

theorem Move.evicting (hm : Move s e s') (h : Agreement s) {j : Nat} {k : Language} {client : Nat}
    (hj : s'.caller j = some (k, .evicting client)) : s'.gone client = true := by
  generalize hd : Caller.evicting client = d at hj
  apply hm.gone
  cases hm.arrival hj with
  | same hold => exact h.evicting j k client (hd ▸ hold)
  | turn _ _ hturn =>
    subst hd
    cases hturn with
    | findGone hgone => exact hgone
  | @hear t c hold =>
    -- who hears a bell stands where it stood
    cases c <;> cases hd
    exact h.evicting j k client hold
  | begin_ | claim _ | serve _ _ | refuse _ => cases hd

theorem Move.known (hm : Move s e s') (h : Agreement s) {client : Nat}
    (hgone : s'.gone client = true) : client < s'.clients := by
  cases hm with
  | settleConnected _ => exact Nat.lt_succ_of_lt (h.known client hgone)
  | @die dead hdead =>
    change Function.update s.gone dead true client = true at hgone
    rw [Function.update_apply] at hgone
    split at hgone
    · next heq => exact heq ▸ hdead
    · exact h.known client hgone
  | stay _ | call _ | turn _ _ | evict _ | claim _ _ _ _ | giveUp _ | settleFailed _ _
  | note _ | ring _ | serve _ _ | refuse _ _ => exact h.known client hgone

theorem Agreement.move (h : Agreement s) (hm : Move s e s') : Agreement s' where
  fresh := hm.fresh h.fresh
  marked := hm.marked h
  used _ _ := hm.used h
  evicting _ _ _ := hm.evicting h
  known _ := hm.known h

/-- **The pool and the starts agree** in every run. -/
theorem agreement_run (es : List Event) : Agreement (run es) := by
  induction es using List.reverseRecOn with
  | nil => exact agreement_empty
  | append_singleton es e ih =>
    rw [run_concat]
    exact ih.move (step_move (run es) e)

/-! ## Clients that were gone before a call -/

/-- **A caller is spared a client**: it neither has it nor can get it from its own start. -/
structure Spared (client : Nat) (s : Acquisition) (j : Nat) : Prop where
  served : ∀ l, s.caller j ≠ some (l, .served client)
  start : ∀ l t x, s.caller j = some (l, .starting t) → s.start t = some x →
    x.stage.outcome? ≠ some (.ok client)

/-- A start that has a client from before had it before. -/
theorem Move.outcome (hm : Move s e s') {client t : Nat} (hclient : client < s.clients)
    {x : Start} (ht : s'.start t = some x) (houtcome : x.stage.outcome? = some (.ok client)) :
    ∃ y, s.start t = some y ∧ y.stage.outcome? = some (.ok client) := by
  cases hm.course ht with
  | same h => exact ⟨x, h, houtcome⟩
  | note h => exact ⟨_, h, houtcome⟩
  | ring h _ => exact ⟨_, h, houtcome⟩
  | connect _ =>
    cases houtcome
    omega
  | begin_ _ | fail _ _ => cases houtcome

theorem Spared.move {client j : Nat} (hj : Spared client s j) (h : Agreement s)
    (hgone : s.gone client = true) (hm : Move s e s') : Spared client s' j where
  served := by
    intro l hserved
    generalize hd : Caller.served client = d at hserved
    cases hm.arrival hserved with
    | same hold => exact hj.served l (hd ▸ hold)
    | turn _ _ hturn =>
      subst hd
      cases hturn with
      | take hlive =>
        rw [hgone] at hlive
        cases hlive
    | @hear t c hold =>
      cases c <;> cases hd
      exact hj.served l hold
    | serve hold ht =>
      cases hd
      exact hj.start l _ _ hold ht rfl
    | begin_ | claim _ | refuse _ => cases hd
  start := by
    intro l t x hstarting ht houtcome
    obtain ⟨y, hy, hyout⟩ := hm.outcome (h.known client hgone) ht houtcome
    generalize hd : Caller.starting t = d at hstarting
    cases hm.arrival hstarting with
    | same hold => exact hj.start l t y (hd ▸ hold) hy hyout
    | claim _ =>
      -- no start had the ticket before
      cases hd
      rw [h.fresh _ (Nat.le_refl _)] at hy
      cases hy
    | turn _ _ hturn =>
      subst hd
      cases hturn
    | @hear u c hold =>
      cases c <;> cases hd
      exact hj.start l t y hold hy hyout
    | begin_ | serve _ _ | refuse _ => cases hd

/-- A caller that calls when a client is gone is spared it. -/
theorem spared_run {es₁ : List Event} {client : Nat} (hgone : (run es₁).gone client = true)
    (l : Language) (es₂ : List Event) :
    (run (es₁ ++ .call l :: es₂)).gone client = true
      ∧ Spared client (run (es₁ ++ .call l :: es₂)) (run es₁).called := by
  induction es₂ using List.reverseRecOn with
  | nil =>
    rw [run_concat]
    refine ⟨hgone, ?_, ?_⟩
    · intro k h
      rw [step, caller_setCaller, if_pos rfl] at h
      cases h
    · intro k t x h
      rw [step, caller_setCaller, if_pos rfl] at h
      cases h
  | append_singleton es e ih =>
    have hsplit : es₁ ++ .call l :: (es ++ [e]) = es₁ ++ .call l :: es ++ [e] := by simp
    have hm := step_move (run (es₁ ++ .call l :: es)) e
    rw [hsplit, run_concat]
    exact ⟨hm.gone ih.1, ih.2.move (agreement_run _) ih.1 hm⟩

/-! ## Single flight -/

/-- **One start and one client for a language.** Whatever calls are made, however they are
interrupted, and however starts end and servers go: a language is marked as being started exactly
while a start of it is in flight; one start of it is in flight at most; a client that was published
for it and is no longer in use is gone, so that one at most is not; and who calls when a client is
gone is never served with it. -/
theorem single_flight (es : List Event) (l : Language) :
    (∀ t, (run es).pool.find? l = some (.starting t) ↔ (run es).InFlight l t)
    ∧ (∀ t u, (run es).InFlight l t → (run es).InFlight l u → t = u)
    ∧ (∀ client, (run es).Published l client → (run es).pool.find? l ≠ some (.ready client) →
        (run es).gone client = true)
    ∧ (∀ c d, (run es).Published l c → (run es).Published l d → (run es).gone c = false →
        (run es).gone d = false → c = d)
    ∧ ∀ es₁ es₂ client, es = es₁ ++ .call l :: es₂ → (run es₁).gone client = true →
        ∀ k, (run es).caller (run es₁).called ≠ some (k, .served client) := by
  have hagree := agreement_run es
  have hlive : ∀ c, (run es).Published l c → (run es).gone c = false →
      (run es).pool.find? l = some (.ready c) := by
    intro c hc hgone
    rcases hagree.used l c hc with hready | hdead
    · exact hready
    · rw [hdead] at hgone
      cases hgone
  refine ⟨hagree.marked l, fun t u => hagree.eq_of_inFlight, ?_, ?_, ?_⟩
  · intro client hpublished hunused
    exact (hagree.used l client hpublished).resolve_left hunused
  · intro c d hc hd hcl hdl
    have hready := hlive c hc hcl
    rw [hlive d hd hdl] at hready
    cases hready
    rfl
  · rintro es₁ es₂ client rfl hgone
    exact (spared_run hgone l es₂).2.served

end SymbolQuery.Acquisition
