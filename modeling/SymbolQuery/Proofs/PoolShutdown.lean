/-
What shutting a pool down leaves behind.

The clients of a pool are taken out at once and then shut down one after the other. A
start under way has no client to take out; its mark is forgotten, and it goes on. So the
pool and the starts do not agree any more: when the start is done it puts its client into
a pool that has been emptied, and nobody shuts that client down. `left_behind` says which
starts this happens to, namely those in flight when the pool is emptied, and that it
happens to no other.
-/
import SymbolQuery.Proofs.Wakeups

set_option autoImplicit false

namespace SymbolQuery

/-! ## Pools with one entry for a language -/

namespace Pool

variable {p : Pool}

/-- Each language has at most one entry. -/
def Distinct (p : Pool) : Prop := (p.entries.map Prod.fst).Nodup

theorem Distinct.remove (h : Distinct p) (l : Language) : Distinct (p.remove l) :=
  h.sublist (List.filter_sublist.map Prod.fst)

theorem Distinct.put (h : Distinct p) (l : Language) (e : PoolEntry) : Distinct (p.put l e) := by
  refine List.nodup_cons.mpr ⟨?_, h.remove l⟩
  rw [List.mem_map]
  rintro ⟨e, he, hl⟩
  simp [Pool.remove, hl] at he

theorem Distinct.evict (h : Distinct p) (l : Language) (client : Nat) :
    Distinct (p.evict l client) := by
  unfold Pool.evict
  split
  · exact h.remove l
  · exact h

theorem Distinct.publish (h : Distinct p) (l : Language) (outcome : Option Nat) :
    Distinct (p.publish l outcome) := by
  cases outcome with
  | none => exact h.remove l
  | some client => exact h.put l _

theorem Distinct.find?_eq_some_iff (h : p.Distinct) (l : Language) (e : PoolEntry) :
    p.find? l = some e ↔ (l, e) ∈ p.entries := by
  unfold Distinct at h
  unfold find?
  generalize p.entries = entries at h ⊢
  induction entries with
  | nil => simp
  | cons d rest ih =>
    rw [List.map_cons, List.nodup_cons] at h
    rw [List.lookup_cons, List.mem_cons]
    obtain ⟨k, d⟩ := d
    by_cases hl : l = k
    · -- the language has no other entry
      subst hl
      have hrest : (l, e) ∉ rest := fun hmem => h.1 (List.mem_map.mpr ⟨_, hmem, rfl⟩)
      simp [hrest, eq_comm]
    · have hne : (l == k) = false := by simpa using hl
      rw [hne]
      dsimp only
      rw [ih h.2]
      simp [hl]

/-- The clients that are taken out of a pool are those in use. -/
theorem Distinct.mem_drain_iff (h : p.Distinct) (client : Nat) :
    client ∈ p.drain.1 ↔ ∃ l, p.find? l = some (.ready client) := by
  simp only [h.find?_eq_some_iff]
  unfold drain
  rw [List.mem_filterMap]
  constructor
  · rintro ⟨⟨l, _ | c⟩, hmem, heq⟩
    · cases heq
    · cases heq
      exact ⟨l, hmem⟩
  · rintro ⟨l, hmem⟩
    exact ⟨_, hmem, rfl⟩

end Pool

/-- A caller has its answer or will have it from its own start. -/
def Caller.IsPast : Caller → Prop
  | .served _ | .refused _ | .starting _ => True
  | _ => False

/-- A caller leaves a pool with one entry for a language. -/
theorem Caller.distinct_step (l : Language) (gone : Nat → Bool) {p : Pool} (h : p.Distinct)
    (c : Caller) : (c.step l gone p).2.Distinct := by
  cases c with
  | looking =>
    simp only [Caller.step]
    split <;> exact h
  | evicting client => exact h.evict l client
  | claiming =>
    simp only [Caller.step, Pool.claim?]
    cases p.find? l with
    | some entry => exact h
    | none => exact h.put l _
  | waiting t rung => cases rung <;> exact h
  | _ => exact h

namespace Acquisition

variable {s s' : Acquisition} {e : Event} {l : Language}

theorem distinct_step (h : s.pool.Distinct) (e : Event) : (s.step e).pool.Distinct := by
  have hturn : ∀ i l c, (s.act i l c).pool.Distinct := by
    intro i l c
    have hpool : (s.act i l c).pool = (c.step l s.gone s.pool).2 := by
      unfold act
      dsimp only
      split <;> rfl
    rw [hpool]
    exact c.distinct_step l s.gone h
  cases e with
  | act i =>
    simp only [step]
    split
    · exact hturn _ _ _
    · exact h
  | note t =>
    simp only [step]
    split
    · exact h.publish _ _
    · exact h
  | settle t fault? =>
    simp only [step]
    split
    · cases fault? <;> exact h
    · exact h
  | call _ => exact h
  | giveUp _ | ring _ | die _ =>
    simp only [step]
    split <;> exact h
  | learn i =>
    simp only [step]
    split
    · split <;> exact h
    · exact h

theorem distinct_run (es : List Event) : (run es).pool.Distinct := by
  induction es using List.reverseRecOn with
  | nil => exact List.nodup_nil
  | append_singleton es e ih =>
    rw [run_concat]
    exact distinct_step ih e

/-! ## Starts go forward -/

/-- The later stage `y` of a start `x`: what has been settled and what has been noted stays so. -/
structure Start.Leads (x y : Start) : Prop where
  language : y.language = x.language
  outcome : ∀ o, x.stage.outcome? = some o → y.stage.outcome? = some o
  noted : ∀ o, x.stage.noted? = some o → y.stage.noted? = some o

theorem Start.Leads.refl (x : Start) : x.Leads x := ⟨rfl, fun _ h => h, fun _ h => h⟩

theorem Start.Leads.trans {x y z : Start} (h : x.Leads y) (h' : y.Leads z) : x.Leads z :=
  ⟨h'.language.trans h.language, fun o ho => h'.outcome o (h.outcome o ho),
    fun o ho => h'.noted o (h.noted o ho)⟩

theorem leads_setStart {t u : Nat} {stage next : Stage} {x : Start}
    (hu : s.start u = some ⟨l, stage⟩) (hnext : Start.Leads ⟨l, stage⟩ ⟨l, next⟩)
    (ht : s.start t = some x) : ∃ y, (s.setStart u l next).start t = some y ∧ x.Leads y := by
  rw [start_setStart]
  by_cases htu : t = u
  · subst htu
    rw [hu] at ht
    cases ht
    rw [if_pos rfl]
    exact ⟨_, rfl, hnext⟩
  · rw [if_neg htu]
    exact ⟨x, ht, .refl x⟩

/-- A start that was made remains, and goes forward. -/
theorem Move.leads (hm : Move s e s') (h : Fresh s) {t : Nat} {x : Start}
    (ht : s.start t = some x) : ∃ y, s'.start t = some y ∧ x.Leads y := by
  cases hm with
  | claim _ _ _ _ =>
    have hlt := h.start_lt ht
    refine ⟨x, ?_, .refl x⟩
    rw [start_setStart, if_neg (by omega)]
    exact ht
  | settleFailed hu _ =>
    refine leads_setStart hu ⟨rfl, ?_, ?_⟩ ht <;> rintro _ ⟨⟩
  | settleConnected hu =>
    refine leads_setStart hu ⟨rfl, ?_, ?_⟩ ht <;> rintro _ ⟨⟩
  | note hu =>
    refine leads_setStart hu ⟨rfl, fun _ ho => ho, ?_⟩ ht
    rintro _ ⟨⟩
  | ring hu => exact leads_setStart hu ⟨rfl, fun _ ho => ho, fun _ ho => ho⟩ ht
  | stay _ | call _ | turn _ _ | evict _ | giveUp _ | serve _ _ | refuse _ _ | die _ =>
    exact ⟨x, ht, .refl x⟩

theorem Move.clients_le (hm : Move s e s') : s.clients ≤ s'.clients := by
  cases hm with
  | settleConnected _ => exact Nat.le_succ _
  | _ => exact Nat.le_refl _

/-- Where a start has a client, it had it before, or it has just connected and the client is new. -/
theorem Move.connected (hm : Move s e s') {t client : Nat} {y : Start}
    (ht : s'.start t = some y) (hy : y.stage.outcome? = some (.ok client)) :
    (∃ x, s.start t = some x ∧ x.stage.outcome? = some (.ok client))
      ∨ e = .settle t none ∧ client = s.clients ∧ s'.clients = s.clients + 1 := by
  cases hm with
  | claim _ _ _ _ =>
    obtain ⟨_, rfl⟩ | hold := of_start_setStart ht
    · cases hy
    · exact .inl ⟨y, hold, hy⟩
  | settleFailed hu fault =>
    obtain ⟨_, rfl⟩ | hold := of_start_setStart ht
    · cases hy
    · exact .inl ⟨y, hold, hy⟩
  | settleConnected hu =>
    obtain ⟨rfl, rfl⟩ | hold := of_start_setStart ht
    · cases hy
      exact .inr ⟨rfl, rfl, rfl⟩
    · exact .inl ⟨y, hold, hy⟩
  | note hu =>
    obtain ⟨rfl, rfl⟩ | hold := of_start_setStart ht
    · exact .inl ⟨_, hu, hy⟩
    · exact .inl ⟨y, hold, hy⟩
  | ring hu =>
    obtain ⟨rfl, rfl⟩ | hold := of_start_setStart ht
    · exact .inl ⟨_, hu, hy⟩
    · exact .inl ⟨y, hold, hy⟩
  | stay _ | call _ | turn _ _ | evict _ | giveUp _ | serve _ _ | refuse _ _ | die _ =>
    exact .inl ⟨y, ht, hy⟩

/-! ## Where clients come from -/

/-- The clients of the pool are those that starts have noted, and each start has its own. -/
structure Sourced (s : Acquisition) : Prop where
  ready : ∀ l client, s.pool.find? l = some (.ready client) → s.Published l client
  known : ∀ t x client, s.start t = some x → x.stage.outcome? = some (.ok client) →
    client < s.clients
  single : ∀ t u x y client, s.start t = some x → x.stage.outcome? = some (.ok client) →
    s.start u = some y → y.stage.outcome? = some (.ok client) → t = u

theorem Published.move {client : Nat} (h : s.Published l client) (hfresh : Fresh s)
    (hm : Move s e s') : s'.Published l client := by
  obtain ⟨t, stage, ht, hnoted⟩ := h
  obtain ⟨⟨_, next⟩, hy, hleads⟩ := hm.leads hfresh ht
  obtain rfl : _ = l := hleads.language
  exact ⟨t, next, hy, hleads.noted _ hnoted⟩

theorem Stage.outcome?_of_noted? {stage : Stage} {o : Except ServiceFault Nat}
    (h : stage.noted? = some o) : stage.outcome? = some o := by
  cases stage with
  | underway | settled _ => cases h
  | _ => exact h

theorem Sourced.move (h : Sourced s) (hfresh : Fresh s) (hm : Move s e s') : Sourced s' where
  ready := by
    intro k client hfind
    have hold : s.pool.find? k = some (.ready client) → s'.Published k client :=
      fun hfind => (h.ready k client hfind).move hfresh hm
    cases hm with
    | evict _ =>
      change (s.pool.evict _ _).find? k = _ at hfind
      rw [Pool.find?_evict] at hfind
      split at hfind
      · cases hfind
      · exact hold hfind
    | @claim _ l _ _ p hp _ =>
      change p.find? k = _ at hfind
      rw [hp] at hfind
      split at hfind
      · cases hfind
      · exact hold hfind
    | @note t l outcome ht =>
      change (s.pool.publish _ _).find? k = _ at hfind
      rw [Pool.find?_publish] at hfind
      split at hfind
      · next hk =>
        subst hk
        cases outcome with
        | error fault => cases hfind
        | ok c =>
          cases hfind
          exact ⟨t, _, by rw [start_setStart, if_pos rfl], rfl⟩
      · exact hold hfind
    | stay _ | call _ | turn _ _ | giveUp _ | settleFailed _ _ | settleConnected _ | ring _
    | serve _ _ | refuse _ _ | die _ => exact hold hfind
  known := by
    intro t y client ht hy
    rcases hm.connected ht hy with ⟨x, hx, hox⟩ | ⟨_, rfl, hclients⟩
    · exact Nat.lt_of_lt_of_le (h.known t x client hx hox) hm.clients_le
    · omega
  single := by
    intro t u y z client ht hy hu hz
    rcases hm.connected ht hy with ⟨x, hx, hox⟩ | ⟨he, hclient, _⟩
    · rcases hm.connected hu hz with ⟨x', hx', hox'⟩ | ⟨_, hclient, _⟩
      · exact h.single t u x x' client hx hox hx' hox'
      · -- a client that is new can not be an old one
        have hlt := h.known t x client hx hox
        omega
    · rcases hm.connected hu hz with ⟨x', hx', hox'⟩ | ⟨he', _, _⟩
      · have hlt := h.known u x' client hx' hox'
        omega
      · rw [he] at he'
        cases he'
        rfl

theorem sourced_run (es : List Event) : Sourced (run es) := by
  induction es using List.reverseRecOn with
  | nil =>
    constructor
    · intro l client h
      cases h
    · intro t x client h
      cases h
    · intro t u x y client h
      cases h
  | append_singleton es e ih =>
    rw [run_concat]
    exact ih.move (agreement_run es).fresh (step_move _ e)

/-! ## Starts that are going, and callers that are past -/

/-- A start has not failed, and if it has a client then that is not gone. -/
def Going (s : Acquisition) (t : Nat) : Prop :=
  ∃ x, s.start t = some x ∧ (∀ fault, x.stage.outcome? ≠ some (.error fault))
    ∧ ∀ client, x.stage.outcome? = some (.ok client) → s.gone client = false

theorem inFlight_iff_of_start {t : Nat} {x : Start} (ht : s.start t = some x) :
    s.InFlight x.language t ↔ x.stage.noted? = none := by
  constructor
  · rintro ⟨stage, hstart, hnone⟩
    have hx := Option.some.inj (ht.symm.trans hstart)
    rw [hx]
    exact hnone
  · intro hnone
    exact ⟨x.stage, ht, hnone⟩

/-- No start is in flight and no caller is on its way to one. -/
structure Quiet (s : Acquisition) : Prop where
  starts : ∀ l t, ¬ s.InFlight l t
  callers : ∀ i l c, s.caller i = some (l, c) → c.IsPast

/-- A start that notes its client goes on, and its client is in the pool. -/
theorem going_note {t client : Nat} (ht : s.start t = some ⟨l, .settled (.ok client)⟩)
    (hlive : s.gone client = false) :
    (s.step (.note t)).Going t ∧ (s.step (.note t)).pool.find? l = some (.ready client) := by
  simp only [step, ht]
  constructor
  · refine ⟨⟨l, .noted (.ok client)⟩, ?_, ?_, ?_⟩
    · rw [start_setStart, if_pos rfl]
    · rintro fault ⟨⟩
    · rintro _ ⟨⟩
      exact hlive
  · change (s.pool.publish l (some client)).find? l = _
    rw [Pool.find?_publish, if_pos rfl]
    rfl

end Acquisition

/-! ## Shutting down -/

/-- A pool that is being shut down. -/
structure Teardown where
  world : Acquisition
  /-- The clients that were taken out and are still to be shut down. -/
  remaining : List Nat
  /-- The clients that have been shut down. -/
  stopped : List Nat

namespace Teardown

open Acquisition (run Fresh agreement_run sourced_run distinct_run step_move)

/-- What may happen while a pool is shut down, and later. -/
inductive Event
  /-- Somebody calls, a caller or a start goes on, or a client is gone. -/
  | meanwhile (e : Acquisition.Event)
  /-- The next client has been shut down. -/
  | stop

/-- The clients are taken out of the pool. -/
def drained (s : Acquisition) : Teardown := ⟨{ s with pool := s.pool.drain.2 }, s.pool.drain.1, []⟩

/-- What an event does. -/
def step (d : Teardown) : Event → Teardown
  | .meanwhile e => { d with world := d.world.step e }
  | .stop =>
    match d.remaining with
    | [] => d
    | client :: rest => { d with remaining := rest, stopped := d.stopped ++ [client] }

/-- The shutdown that begins after some events, when others have happened since. -/
def after (before : List Acquisition.Event) (es : List Event) : Teardown :=
  es.foldl step (drained (run before))

/-- The shutdown is done: each client that was taken out has been shut down. -/
def Returned (d : Teardown) : Prop := d.remaining = []

/-- Nobody calls. -/
def CallFree (es : List Event) : Prop := ∀ l, .meanwhile (.call l) ∉ es

theorem after_concat (before : List Acquisition.Event) (es : List Event) (e : Event) :
    after before (es ++ [e]) = (after before es).step e := by
  rw [after, List.foldl_append]
  rfl

/-- Clients are shut down one after the other, and none is forgotten. -/
theorem stopped_append_remaining (before : List Acquisition.Event) (es : List Event) :
    (after before es).stopped ++ (after before es).remaining = (run before).pool.drain.1 := by
  induction es using List.reverseRecOn with
  | nil => rfl
  | append_singleton es e ih =>
    rw [after_concat]
    cases e with
    | meanwhile e => exact ih
    | stop =>
      unfold step
      cases hrest : (after before es).remaining with
      | nil => exact ih
      | cons client rest =>
        rw [hrest] at ih
        simpa using ih

/-! ## What remains of the state at the drain -/

/-- The world `s` has come of the world `s₀` when the pool of that had been drained. -/
structure Since (s₀ s : Acquisition) : Prop where
  fresh : Fresh s
  clients : s₀.clients ≤ s.clients
  gone : ∀ client, s₀.gone client = true → s.gone client = true
  leads : ∀ t x, s₀.start t = some x → ∃ y, s.start t = some y ∧ x.Leads y
  /-- A start that has a client from before the drain had it then. -/
  connected : ∀ t y client, s.start t = some y → y.stage.outcome? = some (.ok client) →
    client < s₀.clients → ∃ x, s₀.start t = some x ∧ x.stage.outcome? = some (.ok client)
  /-- A client in the pool was noted since the drain. -/
  ready : ∀ l client, s.pool.find? l = some (.ready client) →
    ∃ t stage, s.start t = some ⟨l, stage⟩ ∧ stage.noted? = some (.ok client)
      ∧ ∀ x, s₀.start t = some x → x.stage.noted? = none

variable {s₀ s s' : Acquisition}

theorem since_drained (h : Fresh s₀) : Since s₀ (drained s₀).world where
  fresh := h
  clients := Nat.le_refl _
  gone _ h := h
  leads t x ht := ⟨x, ht, .refl x⟩
  connected t y client ht hy _ := ⟨y, ht, hy⟩
  ready l client h := by cases h

/-- The start that a client in the pool comes of goes forward. -/
theorem Since.ready_leads (h : Since s₀ s) {e : Acquisition.Event}
    (hm : Acquisition.Move s e s') {l : Language} {client : Nat}
    (hfind : s.pool.find? l = some (.ready client)) :
    ∃ t stage, s'.start t = some ⟨l, stage⟩ ∧ stage.noted? = some (.ok client)
      ∧ ∀ x, s₀.start t = some x → x.stage.noted? = none := by
  obtain ⟨t, stage, ht, hnoted, hsince⟩ := h.ready l client hfind
  obtain ⟨⟨_, next⟩, hy, hleads⟩ := hm.leads h.fresh ht
  obtain rfl : _ = l := hleads.language
  exact ⟨t, next, hy, hleads.noted _ hnoted, hsince⟩

theorem Since.move (h : Since s₀ s) {e : Acquisition.Event} (hm : Acquisition.Move s e s') :
    Since s₀ s' where
  fresh := hm.fresh h.fresh
  clients := Nat.le_trans h.clients hm.clients_le
  gone client hgone := hm.gone (h.gone client hgone)
  leads := by
    intro t x ht
    obtain ⟨y, hy, hleads⟩ := h.leads t x ht
    obtain ⟨z, hz, hleads'⟩ := hm.leads h.fresh hy
    exact ⟨z, hz, hleads.trans hleads'⟩
  connected := by
    intro t y client ht hy hclient
    rcases hm.connected ht hy with ⟨x, hx, hox⟩ | ⟨_, hnew, _⟩
    · exact h.connected t x client hx hox hclient
    · have hle := h.clients
      omega
  ready := by
    intro k client hfind
    have hold (hfind : s.pool.find? k = some (.ready client)) := h.ready_leads hm hfind
    cases hm with
    | evict _ =>
      change (s.pool.evict _ _).find? k = _ at hfind
      rw [Pool.find?_evict] at hfind
      split at hfind
      · cases hfind
      · exact hold hfind
    | @claim _ l _ _ p hp _ =>
      change p.find? k = _ at hfind
      rw [hp] at hfind
      split at hfind
      · cases hfind
      · exact hold hfind
    | @note t l outcome ht =>
      change (s.pool.publish _ _).find? k = _ at hfind
      rw [Pool.find?_publish] at hfind
      split at hfind
      · next hk =>
        subst hk
        cases outcome with
        | error fault => cases hfind
        | ok c =>
          cases hfind
          refine ⟨t, .noted (.ok client), ?_, rfl, ?_⟩
          · rw [Acquisition.start_setStart, if_pos rfl]
          · -- a start that had noted something could not do so again
            intro x hx
            obtain ⟨y, hy, hleads⟩ := h.leads t x hx
            rw [ht] at hy
            cases hy
            cases hnoted : x.stage.noted? with
            | none => rfl
            | some o => cases hleads.noted o hnoted
      · exact hold hfind
    | stay _ | call _ | turn _ _ | giveUp _ | settleFailed _ _ | settleConnected _ | ring _
    | serve _ _ | refuse _ _ | die _ => exact hold hfind

theorem since_after (before : List Acquisition.Event) (es : List Event) :
    Since (run before) (after before es).world := by
  induction es using List.reverseRecOn with
  | nil => exact since_drained (agreement_run before).fresh
  | append_singleton es e ih =>
    rw [after_concat]
    cases e with
    | meanwhile e => exact ih.move (step_move _ e)
    | stop =>
      simp only [step]
      split <;> exact ih

/-! ## Who is left behind -/

/-- A start is going, and its client, if there is one, has not been shut down. -/
def LeftBehind (d : Teardown) (t : Nat) : Prop :=
  d.world.Going t ∧ ∀ x client, d.world.start t = some x →
    x.stage.outcome? = some (.ok client) → client ∉ d.stopped

variable {before : List Acquisition.Event} {es : List Event} {t : Nat} {x : Acquisition.Start}

theorem mem_drain_of_mem_stopped {client : Nat} (h : client ∈ (after before es).stopped) :
    client ∈ (run before).pool.drain.1 := by
  rw [← stopped_append_remaining before es]
  exact List.mem_append_left _ h

/-- A start that had noted its outcome before the drain has failed, or its client is gone or among
those taken out. -/
theorem not_leftBehind_of_noted (ht : (run before).start t = some x)
    {o : Except ServiceFault Nat} (hnoted : x.stage.noted? = some o)
    (hreturned : (after before es).Returned) : ¬ (after before es).LeftBehind t := by
  rintro ⟨⟨y, hy, hsound, hlive⟩, hkept⟩
  have hsince := since_after before es
  obtain ⟨z, hz, hleads⟩ := hsince.leads t x ht
  rw [hy] at hz
  cases hz
  have houtcome := hleads.outcome o (Acquisition.Stage.outcome?_of_noted? hnoted)
  cases o with
  | error fault => exact hsound fault houtcome
  | ok client =>
    have hpublished : (run before).Published x.language client := ⟨t, x.stage, ht, hnoted⟩
    rcases (agreement_run before).used _ _ hpublished with hready | hgone
    · -- the client was in use, so it was taken out, and all of these have been shut down
      have hdrained := ((distinct_run before).mem_drain_iff client).mpr ⟨_, hready⟩
      have hall := stopped_append_remaining before es
      rw [hreturned, List.append_nil] at hall
      exact hkept y client hy houtcome (hall ▸ hdrained)
    · have hstill := hsince.gone client hgone
      rw [hlive client houtcome] at hstill
      cases hstill

/-- The client of a start that was in flight is not among those taken out. -/
theorem not_mem_stopped_of_inFlight (ht : (run before).start t = some x)
    (hflight : x.stage.noted? = none) {y : Acquisition.Start} {client : Nat}
    (hy : (after before es).world.start t = some y)
    (houtcome : y.stage.outcome? = some (.ok client)) : client ∉ (after before es).stopped := by
  intro hstopped
  have hsourced := sourced_run before
  obtain ⟨l, hready⟩ :=
    ((distinct_run before).mem_drain_iff client).mp (mem_drain_of_mem_stopped hstopped)
  obtain ⟨u, stage, hu, hnoted⟩ := hsourced.ready l client hready
  have huout := Acquisition.Stage.outcome?_of_noted? hnoted
  -- the client is one from before the drain, so the start had it then, and no other start has it
  have hclient := hsourced.known u _ client hu huout
  obtain ⟨x', hx', hxout⟩ := (since_after before es).connected t y client hy houtcome hclient
  have htu := hsourced.single t u x' _ client hx' hxout hu huout
  subst htu
  rw [ht] at hu
  cases hu
  rw [hflight] at hnoted
  cases hnoted

theorem leftBehind_iff_inFlight (ht : (run before).start t = some x)
    (hreturned : (after before es).Returned) :
    (after before es).LeftBehind t
      ↔ (run before).InFlight x.language t ∧ (after before es).world.Going t := by
  rw [Acquisition.inFlight_iff_of_start ht]
  constructor
  · intro hleft
    refine ⟨?_, hleft.1⟩
    cases hnoted : x.stage.noted? with
    | none => rfl
    | some o => exact absurd hleft (not_leftBehind_of_noted ht hnoted hreturned)
  · rintro ⟨hflight, hgoing⟩
    exact ⟨hgoing, fun y client hy houtcome => not_mem_stopped_of_inFlight ht hflight hy houtcome⟩

/-! ## Where nobody is left -/

/-- Where it is quiet it stays so as long as nobody calls, and nothing is put into the pool. -/
theorem quiet_move (h : s.Quiet) (hempty : ∀ l, s.pool.find? l = none) {e : Acquisition.Event}
    (he : ∀ l, e ≠ .call l) (hm : Acquisition.Move s e s') :
    s'.Quiet ∧ ∀ l, s'.pool.find? l = none := by
  have hset : ∀ {i j : Nat} {l k : Language} {c d : Caller}, c.IsPast →
      (s.setCaller i l c).caller j = some (k, d) → d.IsPast := by
    intro i j l k c d hc hj
    obtain ⟨_, _, rfl⟩ | hold := Acquisition.of_caller_setCaller hj
    · exact hc
    · exact h.callers j k d hold
  cases hm with
  | call l => exact absurd rfl (he l)
  | turn hi hturn =>
    have hpast := h.callers _ _ _ hi
    cases hturn <;> cases hpast
  | evict hi => cases h.callers _ _ _ hi
  | claim hi _ _ _ => cases h.callers _ _ _ hi
  | giveUp i =>
    refine ⟨⟨h.starts, ?_⟩, hempty⟩
    intro j l c hj
    change Function.update s.caller i none j = _ at hj
    rw [Function.update_apply] at hj
    split at hj
    · cases hj
    · exact h.callers j l c hj
  | settleFailed ht _ => exact absurd ⟨_, ht, rfl⟩ (h.starts _ _)
  | settleConnected ht => exact absurd ⟨_, ht, rfl⟩ (h.starts _ _)
  | note ht => exact absurd ⟨_, ht, rfl⟩ (h.starts _ _)
  | ring ht =>
    refine ⟨⟨?_, ?_⟩, hempty⟩
    · intro l t hflight
      exact h.starts l t ((Acquisition.inFlight_advance ht (by rfl)).mp hflight)
    · intro j l c hj
      obtain ⟨⟨k, d⟩, hd, heq⟩ := Option.map_eq_some_iff.mp hj
      cases heq
      have hpast := h.callers j _ d hd
      cases d <;> exact hpast
  | serve hi ht =>
    exact ⟨⟨h.starts, fun j l c hj => hset (c := .served _) trivial hj⟩, hempty⟩
  | refuse hi ht =>
    exact ⟨⟨h.starts, fun j l c hj => hset (c := .refused _) trivial hj⟩, hempty⟩
  | stay _ | die _ => exact ⟨⟨h.starts, h.callers⟩, hempty⟩

theorem quiet_after (h : (run before).Quiet) (hes : CallFree es) :
    (after before es).world.Quiet ∧ ∀ l, (after before es).world.pool.find? l = none := by
  induction es using List.reverseRecOn with
  | nil => exact ⟨⟨h.starts, h.callers⟩, fun _ => rfl⟩
  | append_singleton es e ih =>
    obtain ⟨hquiet, hempty⟩ := ih fun l hl => hes l (List.mem_append_left _ hl)
    rw [after_concat]
    cases e with
    | meanwhile e =>
      refine quiet_move hquiet hempty ?_ (step_move _ e)
      rintro l rfl
      exact hes l (by simp)
    | stop =>
      simp only [step]
      split <;> exact ⟨hquiet, hempty⟩

/-! ## What happens to a start in flight -/

/-- All clients that are taken out are shut down. -/
def stops (before : List Acquisition.Event) : List Event :=
  List.replicate (run before).pool.drain.1.length .stop

/-- The clients that were taken out can be shut down before anything else happens. -/
theorem after_stops (before es : List Acquisition.Event) :
    after before (stops before ++ es.map .meanwhile)
      = ⟨es.foldl Acquisition.step (drained (run before)).world, [],
          (run before).pool.drain.1⟩ := by
  have hstops : ∀ (w : Acquisition) (remaining stopped : List Nat),
      (List.replicate remaining.length Event.stop).foldl step ⟨w, remaining, stopped⟩
        = ⟨w, [], stopped ++ remaining⟩ := by
    intro w remaining
    induction remaining with
    | nil => simp
    | cons client rest ih =>
      intro stopped
      rw [List.length_cons, List.replicate_succ, List.foldl_cons]
      simp only [step]
      rw [ih, List.append_assoc, List.singleton_append]
  have hmeanwhile : ∀ (w : Acquisition) (remaining stopped : List Nat),
      (es.map Event.meanwhile).foldl step ⟨w, remaining, stopped⟩
        = ⟨es.foldl Acquisition.step w, remaining, stopped⟩ := by
    induction es with
    | nil => intro w remaining stopped; rfl
    | cons e es ih => exact fun w => ih (w.step e)
  unfold after stops drained
  rw [List.foldl_append, hstops, hmeanwhile, List.nil_append]

theorem callFree_stops {es : List Acquisition.Event} (h : ∀ l, .call l ∉ es) :
    CallFree (stops before ++ es.map .meanwhile) := by
  intro l hl
  rcases List.mem_append.mp hl with hl | hl
  · cases List.eq_of_mem_replicate hl
  · obtain ⟨e, he, heq⟩ := List.mem_map.mp hl
    cases heq
    exact h l he

/-- A start in flight that is going can come to have a client that is not gone. -/
theorem exists_settled {l : Language} (hflight : (run before).InFlight l t)
    (hgoing : (run before).Going t) :
    ∃ (es : List Acquisition.Event) (client : Nat), (∀ k, .call k ∉ es)
      ∧ (es.foldl Acquisition.step (drained (run before)).world).start t
          = some ⟨l, .settled (.ok client)⟩
      ∧ (es.foldl Acquisition.step (drained (run before)).world).gone client = false := by
  obtain ⟨stage, ht, hunnoted⟩ := hflight
  obtain ⟨x, hx, hsound, hlive⟩ := hgoing
  obtain rfl := Option.some.inj (ht.symm.trans hx)
  cases stage with
  | underway =>
    refine ⟨[.settle t none], (run before).clients, by simp, ?_, ?_⟩
    · simp only [List.foldl_cons, List.foldl_nil, Acquisition.step, drained, ht]
      rw [Acquisition.start_setStart, if_pos rfl]
    · simp only [List.foldl_cons, List.foldl_nil, Acquisition.step, drained, ht]
      -- only clients that there are can be gone
      cases hgone : (run before).gone (run before).clients with
      | false => exact hgone
      | true => exact absurd ((agreement_run before).known _ hgone) (Nat.lt_irrefl _)
  | settled outcome =>
    cases outcome with
    | error fault => exact absurd rfl (hsound fault)
    | ok client => exact ⟨[], client, by simp, ht, hlive client rfl⟩
  | _ => cases hunnoted

/-- A start in flight can go on after the shutdown has returned, and then its client is in the pool
and nobody shuts it down. -/
theorem exists_leftBehind {l : Language} (hflight : (run before).InFlight l t)
    (hgoing : (run before).Going t) :
    ∃ es₁ es₂ client, CallFree (es₁ ++ es₂) ∧ (after before es₁).Returned
      ∧ (∀ k, (after before es₁).world.pool.find? k = none)
      ∧ (after before (es₁ ++ es₂)).LeftBehind t
      ∧ (after before (es₁ ++ es₂)).world.pool.find? l = some (.ready client) := by
  obtain ⟨es, client, hfree, hstart, hgone⟩ := exists_settled hflight hgoing
  obtain ⟨hnoted, hfind⟩ := Acquisition.going_note hstart hgone
  have hempty := after_stops before []
  rw [List.map_nil, List.append_nil] at hempty
  let noting := es ++ [Acquisition.Event.note t]
  have hend := after_stops before noting
  rw [List.foldl_append] at hend
  refine ⟨stops before, noting.map .meanwhile, client, ?_, ?_, ?_, ?_, ?_⟩
  · refine callFree_stops fun k hk => ?_
    rw [List.mem_append, List.mem_singleton] at hk
    rcases hk with hk | hk
    · exact hfree k hk
    · cases hk
  · rw [hempty]
    rfl
  · rw [hempty]
    exact fun k => rfl
  · obtain ⟨stage, ht, hunnoted⟩ := hflight
    have hreturned : (after before (stops before ++ noting.map .meanwhile)).Returned := by
      rw [hend]
      rfl
    rw [leftBehind_iff_inFlight ht hreturned, hend]
    exact ⟨⟨stage, ht, hunnoted⟩, hnoted⟩
  · rw [hend]
    exact hfind

/-! ## What a shutdown leaves behind -/

/-- **A shutdown leaves behind the starts in flight**, and no other. Whatever has happened before
the pool is emptied, and whatever happens since: when the clients that were taken out have been
shut down, then of the starts that were made before, those go on without being shut down that were
in flight, unless they fail or their clients go by themselves. A client that is in the pool later
is that of a start which was in flight then or has been made since. If no start was in flight, no
caller was on its way to one and nobody calls, the pool stays empty. But if one was in flight and
going, its client may come into the pool, and stay there, when the shutdown is over. -/
theorem left_behind (before : List Acquisition.Event) :
    (∀ es t x, (run before).start t = some x → (after before es).Returned →
      ((after before es).LeftBehind t
        ↔ (run before).InFlight x.language t ∧ (after before es).world.Going t))
    ∧ (∀ es l client, (after before es).world.pool.find? l = some (.ready client) →
        ∃ t stage, (after before es).world.start t = some ⟨l, stage⟩
          ∧ stage.noted? = some (.ok client)
          ∧ ((run before).start t = none ∨ (run before).InFlight l t))
    ∧ ((run before).Quiet → ∀ es, CallFree es →
        ∀ l, (after before es).world.pool.find? l = none)
    ∧ ∀ l t, (run before).InFlight l t → (run before).Going t →
        ∃ es₁ es₂ client, CallFree (es₁ ++ es₂) ∧ (after before es₁).Returned
          ∧ (∀ k, (after before es₁).world.pool.find? k = none)
          ∧ (after before (es₁ ++ es₂)).LeftBehind t
          ∧ (after before (es₁ ++ es₂)).world.pool.find? l = some (.ready client) := by
  refine ⟨fun es t x => leftBehind_iff_inFlight, ?_, fun h es hes => (quiet_after h hes).2,
    fun l t => exists_leftBehind⟩
  intro es l client hfind
  have hsince := since_after before es
  obtain ⟨t, stage, ht, hnoted, hbefore⟩ := hsince.ready l client hfind
  refine ⟨t, stage, ht, hnoted, ?_⟩
  cases hstart : (run before).start t with
  | none => exact .inl rfl
  | some x =>
    obtain ⟨y, hy, hleads⟩ := hsince.leads t x hstart
    rw [ht] at hy
    cases hy
    obtain rfl : l = x.language := hleads.language
    exact .inr ((Acquisition.inFlight_iff_of_start hstart).mpr (hbefore x hstart))

/-- One language has its client, and another one is being started. -/
def halfStarted : List Acquisition.Event :=
  [.call .rust, .act 0, .act 0, .settle 0 none, .note 0, .ring 0, .learn 0, .call .python, .act 1,
    .act 1]

/-- The client in use is shut down, and the other server is left behind. -/
theorem left_behind_halfStarted :
    let es := [Event.stop, .meanwhile (.settle 1 none)]
    (after halfStarted es).Returned ∧ ¬ (after halfStarted es).LeftBehind 0
      ∧ (after halfStarted es).LeftBehind 1 := by
  intro es
  have hreturned : (after halfStarted es).Returned := by
    unfold Returned
    decide
  have hfirst : (run halfStarted).start 0 = some ⟨.rust, .over (.ok 0)⟩ := rfl
  have hsecond : (run halfStarted).start 1 = some ⟨.python, .underway⟩ := rfl
  refine ⟨hreturned, ?_, ?_⟩
  · rw [(left_behind halfStarted).1 es 0 _ hfirst hreturned]
    rintro ⟨⟨stage, hstart, hnone⟩, _⟩
    rw [hfirst] at hstart
    cases hstart
    cases hnone
  · rw [(left_behind halfStarted).1 es 1 _ hsecond hreturned]
    refine ⟨⟨_, hsecond, rfl⟩, ⟨.python, .settled (.ok 1)⟩, rfl, ?_, ?_⟩
    · rintro fault ⟨⟩
    · rintro _ ⟨⟩
      rfl

/-- A caller gives up while its start is under way, the pool is shut down, and then the server is
there. -/
def abandoned : List Acquisition.Event := [.call .rust, .act 0, .act 0, .giveUp 0]

/-- **A start that its caller has given up is left behind.** Nobody calls any more, the shutdown
returns at once since no client is in the pool, and the server that is started runs on in a pool
that has been shut down. -/
theorem left_behind_abandoned :
    let settled := [Event.meanwhile (.settle 0 none), .meanwhile (.note 0)]
    CallFree settled
      ∧ (∃ x, (run abandoned).start 0 = some x)
      ∧ (after abandoned []).Returned
      ∧ (after abandoned settled).LeftBehind 0
      ∧ (after abandoned settled).world.pool.find? .rust = some (.ready 0) := by
  intro settled
  have hstart : (run abandoned).start 0 = some ⟨.rust, .underway⟩ := rfl
  have hreturned : (after abandoned settled).Returned := by
    unfold Returned
    decide
  refine ⟨?_, ⟨_, hstart⟩, rfl, ?_, by decide⟩
  · simp [CallFree, settled]
  · rw [leftBehind_iff_inFlight hstart hreturned]
    refine ⟨⟨_, hstart, rfl⟩, ⟨.rust, .noted (.ok 0)⟩, rfl, ?_, ?_⟩
    · rintro fault ⟨⟩
    · rintro _ ⟨⟩
      rfl

end Teardown

end SymbolQuery
