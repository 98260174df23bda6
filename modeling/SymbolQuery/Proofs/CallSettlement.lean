/-
How the requests of a client are settled, whatever happens in between.

A ledger is kept beside a run. It is read off two states that follow each other, and not
off the event between them: which numbers no longer wait, which responses were handed
out, and which were taken. Four invariants relate the ledger to the state. The numbers
that wait are different and were all entered (`Orderly`). A number that no longer waits
left once and does not come back (`Settling`). Responses are handed out to those who left
then, and taken once (`Handing`). And who has a request to give up is the one who removed
it (`Telling`).

Each is kept by every move, so what they say of the end of a run holds of every run.
-/
import Mathlib.Data.List.Induction
import Mathlib.Data.List.Nodup
import SymbolQuery.Proofs.Calls

set_option autoImplicit false

namespace SymbolQuery.Calls

/-! ## The ledger -/

/-- What has been seen of a run, each entry with the event at which it was seen. -/
structure Ledger where
  /-- The numbers that ceased to wait. -/
  removed : List (Nat × Event) := []
  /-- The responses that were handed out, with the numbers under which they were. -/
  handed : List ((Nat × Rpc.Response) × Event) := []
  /-- The responses that were taken by those whom they were handed. -/
  taken : List ((Nat × Rpc.Response) × Event) := []

/-- Enters what an event has made of a state. -/
def Ledger.next (l : Ledger) (v : View) (e : Event) (w : View) : Ledger where
  removed := l.removed ++ (v.pending.filter fun id => id ∉ w.pending).map (·, e)
  handed := l.handed ++ (w.replies.drop v.replies.length).map (·, e)
  taken := l.taken ++ (v.replies.filter fun a => a.1 ∉ w.replies.map Prod.fst).map (·, e)

/-- A state and the ledger of the run that led to it. -/
structure History where
  calls : Calls
  ledger : Ledger := {}

/-- One more event. -/
def History.next (h : History) (e : Event) : History where
  calls := h.calls.step e
  ledger := h.ledger.next h.calls.view e (h.calls.step e).view

/-- What becomes of a new client. -/
def after (language : Language) (es : List Event) : History :=
  es.foldl History.next { calls := start language }

theorem after_concat (language : Language) (es : List Event) (e : Event) :
    after language (es ++ [e]) = (after language es).next e := by
  rw [after, List.foldl_append]
  rfl

/-- The ledger does not interfere with the run. -/
theorem calls_after (language : Language) (es : List Event) :
    (after language es).calls = (start language).run es := by
  induction es using List.reverseRecOn with
  | nil => rfl
  | append_singleton es e ih =>
    rw [after_concat, run, List.foldl_append]
    change (after language es).calls.step e = ((start language).run es).step e
    rw [ih]

/-- Whether an event is one that settles a request: a response to it is handled, the request is
given up, or all are. -/
def Event.Settles (id : Nat) : Event → Prop
  | .receive (.response r) => r.id.bind Rpc.Id.number? = some id
  | .cancel t => t.id = id
  | .failPending | .hangUp => True
  | _ => False

/-! ## Those who wait -/

variable {v w : View} {e : Event} {l : Ledger}

/-- A call in this phase has been entered, or never will be. -/
def Phase.IsPast (p : Phase) : Prop := p = .busy ∨ p = .telling

theorem Phase.isPast_update {p : Task → Phase} {t u : Task} {phase : Phase}
    (hphase : phase.IsPast) (hu : (p u).IsPast) : (Function.update p t phase u).IsPast := by
  by_cases htu : u = t
  · subst htu
    rwa [Function.update_self]
  · rwa [Function.update_of_ne htu]

/-- **Those who wait** have different numbers, which were given out and entered. -/
structure Orderly (v : View) : Prop where
  nodup : v.pending.Nodup
  fresh : ∀ id, v.nextId ≤ id → v.phase (.call id) = .absent
  past : ∀ id ∈ v.pending, (v.phase (.call id)).IsPast

/-- No call is entered twice. -/
theorem Move.isPast (hm : Move v e w) (hv : Orderly v) {id : Nat}
    (hid : (v.phase (.call id)).IsPast) : (w.phase (.call id)).IsPast := by
  cases hm with
  | @shift _ q hq =>
    change (q (.call id)).IsPast
    rcases hq (.call id) with h | ⟨h, _⟩
    · rwa [h]
    · exact Or.inl h
  | number query =>
    have hne : Task.call id ≠ .call v.nextId := by
      rintro h
      cases h
      rw [hv.fresh _ (Nat.le_refl _)] at hid
      rcases hid with h | h <;> cases h
    dsimp only
    rwa [Function.update_of_ne hne]
  | enlist _ => exact Phase.isPast_update (Or.inl rfl) hid
  | cancel _ _ => exact Phase.isPast_update (Or.inr rfl) hid
  | tell _ _ => exact Phase.isPast_update (Or.inl rfl) hid
  | answer _ _ | failAll _ _ _ | collect _ => exact hid

/-- Who waits after an event did so before, or has just been entered. -/
theorem Move.mem_pending (hm : Move v e w) {id : Nat} (hid : id ∈ w.pending) :
    id ∈ v.pending ∨ (v.phase (.call id) = .numbered ∧ (w.phase (.call id)).IsPast) := by
  cases hm with
  | @enlist id' hnumbered =>
    rcases List.mem_append.mp hid with h | h
    · exact Or.inl h
    · obtain rfl : id = id' := List.mem_singleton.mp h
      refine Or.inr ⟨hnumbered, Or.inl ?_⟩
      dsimp only
      rw [Function.update_self]
  | answer _ _ | cancel _ _ => exact Or.inl (List.mem_of_mem_erase hid)
  | failAll _ _ _ => exact absurd hid (by simp)
  | shift _ | number _ | tell _ _ | collect _ => exact Or.inl hid

/-- An event that takes a number out of those that wait is one that settles it. -/
theorem Move.settles (hm : Move v e w) {id : Nat} (hid : id ∈ v.pending) (hgone : id ∉ w.pending) :
    e.Settles id := by
  cases hm with
  | @answer id' r hr hpending =>
    by_cases hne : id = id'
    · subst hne
      exact hr
    · exact absurd ((List.mem_erase_of_ne hne).mpr hid) hgone
  | @cancel t ht hpending =>
    by_cases hne : id = t.id
    · exact hne.symm
    · exact absurd ((List.mem_erase_of_ne hne).mpr hid) hgone
  | failAll he _ _ => rcases he with rfl | rfl <;> trivial
  | enlist _ => exact absurd (List.mem_append_left _ hid) hgone
  | shift _ | number _ | tell _ _ | collect _ => exact absurd hid hgone

/-- An orderly view stays so. -/
theorem Orderly.move (hv : Orderly v) (hm : Move v e w) : Orderly w where
  nodup := by
    cases hm with
    | @enlist id hnumbered =>
      -- a number is entered by the call that took it, and that call only now
      have hnew : id ∉ v.pending := by
        intro hid
        have hpast := hv.past id hid
        rw [hnumbered] at hpast
        rcases hpast with h | h <;> cases h
      dsimp only
      rw [← List.concat_eq_append]
      exact hv.nodup.concat hnew
    | answer _ _ | cancel _ _ => exact hv.nodup.erase _
    | failAll _ _ _ => exact List.nodup_nil
    | shift _ | number _ | tell _ _ | collect _ => exact hv.nodup
  fresh := by
    intro id hid
    cases hm with
    | shift hq =>
      rcases hq (.call id) with h | ⟨_, h⟩
      · exact h.trans (hv.fresh id hid)
      · exact absurd (hv.fresh id hid) (h id rfl)
    | number query =>
      have hid' : v.nextId + 1 ≤ id := hid
      dsimp only
      rw [Function.update_of_ne (by intro h; cases h; omega)]
      exact hv.fresh id (by omega)
    | @enlist id' hnumbered =>
      have habsent := hv.fresh id hid
      dsimp only
      rw [Function.update_of_ne (by intro h; rw [h, hnumbered] at habsent; cases habsent)]
      exact habsent
    | cancel ht _ | tell ht _ =>
      have habsent := hv.fresh id hid
      dsimp only
      rw [Function.update_of_ne (by intro h; rw [h, ht] at habsent; cases habsent)]
      exact habsent
    | answer _ _ | failAll _ _ _ | collect _ => exact hv.fresh id hid
  past := by
    intro id hid
    rcases hm.mem_pending hid with h | ⟨_, h⟩
    · exact hm.isPast hv (hv.past id h)
    · exact h

/-! ## Those who no longer wait -/

theorem Ledger.mem_removed_next {x : Nat × Event} :
    x ∈ (l.next v e w).removed
      ↔ x ∈ l.removed ∨ (x.1 ∈ v.pending ∧ x.1 ∉ w.pending ∧ x.2 = e) := by
  rw [Ledger.next, List.mem_append, List.mem_map]
  refine or_congr_right ⟨?_, ?_⟩
  · rintro ⟨id, hid, rfl⟩
    have hmem := List.mem_filter.mp hid
    exact ⟨hmem.1, by simpa using hmem.2, rfl⟩
  · rintro ⟨hid, hgone, rfl⟩
    exact ⟨x.1, List.mem_filter.mpr ⟨hid, by simpa using hgone⟩, rfl⟩

/-- **Those who no longer wait** left once, at an event that settles them, and do not wait again. -/
structure Settling (l : Ledger) (v : View) : Prop where
  nodup : (l.removed.map Prod.fst).Nodup
  gone : ∀ x ∈ l.removed, x.1 ∉ v.pending
  past : ∀ x ∈ l.removed, (v.phase (.call x.1)).IsPast
  settles : ∀ x ∈ l.removed, x.2.Settles x.1

/-- A number is removed by one event only. -/
theorem Settling.eq_of_mem (hl : Settling l v) {id : Nat} {f g : Event}
    (hf : (id, f) ∈ l.removed) (hg : (id, g) ∈ l.removed) : f = g :=
  (Prod.mk.inj (List.inj_on_of_nodup_map hl.nodup hf hg rfl)).2

theorem Settling.move (hl : Settling l v) (hv : Orderly v) (hm : Move v e w) :
    Settling (l.next v e w) w where
  nodup := by
    have hsplit : (l.next v e w).removed.map Prod.fst
        = l.removed.map Prod.fst ++ v.pending.filter fun id => id ∉ w.pending := by
      simp [Ledger.next, Function.comp_def]
    rw [hsplit]
    refine hl.nodup.append (hv.nodup.filter _) ?_
    -- who leaves now was waiting, and who left before was not
    intro id hold hnew
    obtain ⟨x, hx, rfl⟩ := List.mem_map.mp hold
    exact hl.gone x hx (List.mem_of_mem_filter hnew)
  gone := by
    intro x hx hwaits
    rcases Ledger.mem_removed_next.mp hx with hold | ⟨_, hgone, _⟩
    · rcases hm.mem_pending hwaits with hid | ⟨hnumbered, _⟩
      · exact hl.gone x hold hid
      · -- it would have to be entered again
        have hpast := hl.past x hold
        rw [hnumbered] at hpast
        rcases hpast with h | h <;> cases h
    · exact hgone hwaits
  past := by
    intro x hx
    rcases Ledger.mem_removed_next.mp hx with hold | ⟨hid, _, _⟩
    · exact hm.isPast hv (hl.past x hold)
    · exact hm.isPast hv (hv.past x.1 hid)
  settles := by
    intro x hx
    rcases Ledger.mem_removed_next.mp hx with hold | ⟨hid, hgone, he⟩
    · exact hl.settles x hold
    · rw [he]
      exact hm.settles hid hgone

/-! ## Responses -/

/-- Whether a response is handed out under a number by an event: it bears the number, and where
the event is the arrival of a response, it is that response. -/
def IsFor (a : Nat × Rpc.Response) (e : Event) : Prop :=
  a.2.id.bind Rpc.Id.number? = some a.1 ∧ ∀ r, e = .receive (.response r) → a.2 = r

/-- An event hands responses to those who cease to wait, or lets one of them take his. -/
theorem Move.replies (hm : Move v e w) (hv : Orderly v) :
    (∃ new, w.replies = v.replies ++ new ∧ (new.map Prod.fst).Nodup
      ∧ ∀ a ∈ new, a.1 ∈ v.pending ∧ a.1 ∉ w.pending ∧ IsFor a e)
    ∨ ∃ id, e = .wake id ∧ w.replies = v.replies.filter fun a => a.1 != id := by
  cases hm with
  | @answer id r hr hpending =>
    refine Or.inl ⟨[(id, r)], rfl, List.nodup_singleton _, ?_⟩
    intro a ha
    obtain rfl := List.mem_singleton.mp ha
    refine ⟨hpending, hv.nodup.not_mem_erase, hr, ?_⟩
    intro r' he
    cases he
    rfl
  | failAll he code reason =>
    refine Or.inl ⟨v.pending.map (failure code reason), rfl, ?_, ?_⟩
    · have hids : (v.pending.map (failure code reason)).map Prod.fst = v.pending := by
        simp [failure, Function.comp_def]
      rw [hids]
      exact hv.nodup
    · intro a ha
      obtain ⟨id, hid, rfl⟩ := List.mem_map.mp ha
      refine ⟨hid, List.not_mem_nil, rfl, ?_⟩
      rintro r rfl
      rcases he with h | h <;> cases h
  | @collect id _ => exact Or.inr ⟨id, rfl, rfl⟩
  | shift _ | number _ | enlist _ | cancel _ _ | tell _ _ =>
    exact Or.inl ⟨[], (List.append_nil _).symm, List.nodup_nil, by simp⟩

/-- **Responses** are handed to those who cease to wait, at that event; and those not yet taken
lie ready. -/
structure Handing (l : Ledger) (v : View) : Prop where
  nodup : (l.handed.map fun x => x.1.1).Nodup
  removed : ∀ x ∈ l.handed, (x.1.1, x.2) ∈ l.removed
  isFor : ∀ x ∈ l.handed, IsFor x.1 x.2
  perm : (l.taken.map Prod.fst ++ v.replies).Perm (l.handed.map Prod.fst)
  woken : ∀ x ∈ l.taken, x.2 = .wake x.1.1

/-- No one takes two responses. -/
theorem Handing.nodup_taken (h : Handing l v) : (l.taken.map fun x => x.1.1).Nodup := by
  have hperm := h.perm.map Prod.fst
  rw [List.map_append, List.map_map, List.map_map] at hperm
  exact (hperm.nodup_iff.mpr h.nodup).of_append_left

/-- A response that is taken was handed out. -/
theorem Handing.mem_handed (h : Handing l v) {x : (Nat × Rpc.Response) × Event}
    (hx : x ∈ l.taken) : ∃ f, (x.1, f) ∈ l.handed := by
  have hmem : x.1 ∈ l.handed.map Prod.fst :=
    h.perm.subset (List.mem_append_left _ (List.mem_map_of_mem hx))
  obtain ⟨y, hy, hxy⟩ := List.mem_map.mp hmem
  exact ⟨y.2, by rwa [← hxy]⟩

/-- What is handed out is added, and nothing is taken. -/
theorem Ledger.next_of_append {new : List (Nat × Rpc.Response)}
    (h : w.replies = v.replies ++ new) :
    (l.next v e w).handed = l.handed ++ new.map (·, e) ∧ (l.next v e w).taken = l.taken := by
  constructor
  · simp only [Ledger.next, h, List.drop_left]
  · have hnone : (v.replies.filter fun a => a.1 ∉ w.replies.map Prod.fst) = [] := by
      rw [List.filter_eq_nil_iff]
      intro a ha
      have hkept : a.1 ∈ w.replies.map Prod.fst := by
        rw [h]
        exact List.mem_map_of_mem (List.mem_append_left _ ha)
      simpa using hkept
    simp only [Ledger.next, hnone, List.map_nil, List.append_nil]

/-- What is taken are the responses under one number, and nothing is handed out. -/
theorem Ledger.next_of_filter {id : Nat}
    (h : w.replies = v.replies.filter fun a => a.1 != id) :
    (l.next v e w).handed = l.handed
      ∧ (l.next v e w).taken = l.taken ++ (v.replies.filter fun a => a.1 == id).map (·, e) := by
  constructor
  · have hlength : w.replies.length ≤ v.replies.length := by
      rw [h]
      exact List.length_filter_le _ _
    simp only [Ledger.next, List.drop_eq_nil_of_le hlength, List.map_nil, List.append_nil]
  · have htaken : (v.replies.filter fun a => a.1 ∉ w.replies.map Prod.fst)
        = v.replies.filter fun a => a.1 == id := by
      refine List.filter_congr fun a ha => ?_
      rw [h, Bool.eq_iff_iff, decide_eq_true_eq, beq_iff_eq]
      constructor
      · intro hgone
        by_contra hid
        refine hgone (List.mem_map_of_mem (List.mem_filter.mpr ⟨ha, ?_⟩))
        simpa using hid
      · intro hid hkept
        obtain ⟨b, hb, hab⟩ := List.mem_map.mp hkept
        have hne := (List.mem_filter.mp hb).2
        rw [hab, hid] at hne
        simp at hne
    simp only [Ledger.next, htaken]

/-- What an event hands out goes to those who cease to wait, and what is taken lay ready. -/
theorem Handing.move (h : Handing l v) (hl : Settling l v) (hv : Orderly v) (hm : Move v e w) :
    Handing (l.next v e w) w := by
  have hmono : ∀ x ∈ l.removed, x ∈ (l.next v e w).removed :=
    fun x hx => Ledger.mem_removed_next.mpr (Or.inl hx)
  rcases hm.replies hv with ⟨new, hreplies, hnodup, hnew⟩ | ⟨id, rfl, hreplies⟩
  · obtain ⟨hhanded, htaken⟩ := Ledger.next_of_append (l := l) (e := e) hreplies
    refine ⟨?_, ?_, ?_, ?_, ?_⟩
    · rw [hhanded, List.map_append, List.map_map]
      refine h.nodup.append hnodup ?_
      -- nobody is handed a second response: with the first one he ceased to wait
      intro id hold hid
      obtain ⟨x, hx, rfl⟩ := List.mem_map.mp hold
      obtain ⟨a, ha, hax⟩ := List.mem_map.mp hid
      refine hl.gone _ (h.removed x hx) ?_
      rw [← hax]
      exact (hnew a ha).1
    · intro x hx
      rw [hhanded] at hx
      rcases List.mem_append.mp hx with hold | hx
      · exact hmono _ (h.removed x hold)
      · obtain ⟨a, ha, rfl⟩ := List.mem_map.mp hx
        obtain ⟨hid, hgone, _⟩ := hnew a ha
        exact Ledger.mem_removed_next.mpr (Or.inr ⟨hid, hgone, rfl⟩)
    · intro x hx
      rw [hhanded] at hx
      rcases List.mem_append.mp hx with hold | hx
      · exact h.isFor x hold
      · obtain ⟨a, ha, rfl⟩ := List.mem_map.mp hx
        exact (hnew a ha).2.2
    · have hfst : (new.map (·, e)).map Prod.fst = new := by simp [Function.comp_def]
      rw [hhanded, htaken, hreplies, List.map_append, hfst, ← List.append_assoc]
      exact h.perm.append_right new
    · rw [htaken]
      exact h.woken
  · obtain ⟨hhanded, htaken⟩ := Ledger.next_of_filter (l := l) (e := .wake id) hreplies
    refine ⟨?_, ?_, ?_, ?_, ?_⟩
    · rw [hhanded]
      exact h.nodup
    · rw [hhanded]
      exact fun x hx => hmono _ (h.removed x hx)
    · rw [hhanded]
      exact h.isFor
    · have hfst : ((v.replies.filter fun a => a.1 == id).map (·, Event.wake id)).map Prod.fst
          = v.replies.filter fun a => a.1 == id := by simp [Function.comp_def]
      have hparts := List.filter_append_perm (fun a : Nat × Rpc.Response => a.1 == id) v.replies
      rw [hhanded, htaken, hreplies, List.map_append, hfst, List.append_assoc]
      exact (hparts.append_left _).trans h.perm
    · intro x hx
      rw [htaken] at hx
      rcases List.mem_append.mp hx with hold | hx
      · exact h.woken x hold
      · obtain ⟨a, ha, rfl⟩ := List.mem_map.mp hx
        have hid : a.1 = id := by simpa using (List.mem_filter.mp ha).2
        change Event.wake id = .wake a.1
        rw [hid]

/-! ## Those who tell the server -/

/-- **Those who tell the server** that a request is given up have removed it themselves, and have
not told so far. -/
structure Telling (l : Ledger) (v : View) : Prop where
  removed : ∀ t, v.phase t = .telling → (t.id, .cancel t) ∈ l.removed
  untold : ∀ t, v.phase t = .telling → t.id ∉ v.told
  nodup : v.told.Nodup
  told : ∀ id ∈ v.told, ∃ t : Task, t.id = id ∧ (id, .cancel t) ∈ l.removed

/-- Where an event tells nothing and gives nobody anything to tell, the relation stays. -/
theorem Telling.of_phase (h : Telling l v) (htold : w.told = v.told)
    (hphase : ∀ t, w.phase t = .telling → v.phase t = .telling) :
    Telling (l.next v e w) w where
  removed t ht := Ledger.mem_removed_next.mpr (Or.inl (h.removed t (hphase t ht)))
  untold t ht := by
    rw [htold]
    exact h.untold t (hphase t ht)
  nodup := by
    rw [htold]
    exact h.nodup
  told id hid := by
    rw [htold] at hid
    obtain ⟨t, ht, hremoved⟩ := h.told id hid
    exact ⟨t, ht, Ledger.mem_removed_next.mpr (Or.inl hremoved)⟩

/-- Who has something to tell, apart from the task that has come to another phase, had it before. -/
theorem telling_of_update {p : Task → Phase} {t u : Task} {phase : Phase}
    (hphase : phase ≠ .telling) (hu : Function.update p t phase u = .telling) :
    u ≠ t ∧ p u = .telling := by
  have hne : u ≠ t := by
    rintro rfl
    rw [Function.update_self] at hu
    exact hphase hu
  rw [Function.update_of_ne hne] at hu
  exact ⟨hne, hu⟩

/-- A task that takes a number out of those that wait has something to tell, and is the first. -/
theorem Telling.cancel (h : Telling l v) (hl : Settling l v) (hv : Orderly v) {t : Task}
    (hid : t.id ∈ v.pending) (hpending : w.pending = v.pending.erase t.id)
    (hphase : w.phase = Function.update v.phase t .telling) (htold : w.told = v.told) :
    Telling (l.next v (.cancel t) w) w := by
  have hmono : ∀ x ∈ l.removed, x ∈ (l.next v (.cancel t) w).removed :=
    fun x hx => Ledger.mem_removed_next.mpr (Or.inl hx)
  have hgone : t.id ∉ w.pending := by
    rw [hpending]
    exact hv.nodup.not_mem_erase
  refine ⟨?_, ?_, ?_, ?_⟩
  · intro u hu
    by_cases hut : u = t
    · subst hut
      exact Ledger.mem_removed_next.mpr (Or.inr ⟨hid, hgone, rfl⟩)
    · rw [hphase, Function.update_of_ne hut] at hu
      exact hmono _ (h.removed u hu)
  · intro u hu hmem
    rw [htold] at hmem
    by_cases hut : u = t
    · -- what was told no longer waited
      subst hut
      obtain ⟨_, _, hremoved⟩ := h.told u.id hmem
      exact hl.gone _ hremoved hid
    · rw [hphase, Function.update_of_ne hut] at hu
      exact h.untold u hu hmem
  · rw [htold]
    exact h.nodup
  · intro id hmem
    rw [htold] at hmem
    obtain ⟨u, hu, hremoved⟩ := h.told id hmem
    exact ⟨u, hu, hmono _ hremoved⟩

/-- A task that has told has nothing more to tell, and nobody else has that. -/
theorem Telling.tell (h : Telling l v) (hl : Settling l v) {t : Task}
    (ht : v.phase t = .telling)
    (hphase : w.phase = Function.update v.phase t .busy)
    (htold : w.told = v.told ∨ w.told = v.told ++ [t.id]) : Telling (l.next v e w) w := by
  have hother : ∀ u, w.phase u = .telling → u ≠ t ∧ v.phase u = .telling := by
    intro u hu
    rw [hphase] at hu
    exact telling_of_update (by simp) hu
  rcases htold with htold | htold
  · exact h.of_phase htold fun u hu => (hother u hu).2
  · refine ⟨?_, ?_, ?_, ?_⟩
    · intro u hu
      exact Ledger.mem_removed_next.mpr (Or.inl (h.removed u (hother u hu).2))
    · intro u hu hmem
      obtain ⟨hne, hu⟩ := hother u hu
      rw [htold] at hmem
      rcases List.mem_append.mp hmem with hmem | hmem
      · exact h.untold u hu hmem
      · -- two tasks would have removed one number
        have hid : u.id = t.id := List.mem_singleton.mp hmem
        have hremoved := h.removed u hu
        rw [hid] at hremoved
        exact hne (Event.cancel.inj (hl.eq_of_mem hremoved (h.removed t ht)))
    · rw [htold, ← List.concat_eq_append]
      exact h.nodup.concat (h.untold t ht)
    · intro id hmem
      rw [htold] at hmem
      rcases List.mem_append.mp hmem with hmem | hmem
      · obtain ⟨u, hu, hremoved⟩ := h.told id hmem
        exact ⟨u, hu, Ledger.mem_removed_next.mpr (Or.inl hremoved)⟩
      · obtain rfl : id = t.id := List.mem_singleton.mp hmem
        exact ⟨t, rfl, Ledger.mem_removed_next.mpr (Or.inl (h.removed t ht))⟩

theorem Telling.move (h : Telling l v) (hl : Settling l v) (hv : Orderly v) (hm : Move v e w) :
    Telling (l.next v e w) w := by
  cases hm with
  | @shift _ q hq =>
    refine h.of_phase rfl fun t ht => ?_
    rcases hq t with hsame | ⟨hbusy, _⟩
    · exact hsame.symm.trans ht
    · exact absurd (hbusy.symm.trans ht) (by simp)
  | number _ | enlist _ =>
    exact h.of_phase rfl fun t ht => (telling_of_update (by simp) ht).2
  | answer _ _ | failAll _ _ _ | collect _ => exact h.of_phase rfl fun _ ht => ht
  | cancel _ hid => exact h.cancel hl hv hid rfl rfl rfl
  | tell ht htold => exact h.tell hl ht rfl htold

/-! ## Runs -/

/-- All that holds of a history. -/
structure History.Sound (h : History) : Prop where
  idle : h.calls.client.outgoing.Idle
  orderly : Orderly h.calls.view
  settling : Settling h.ledger h.calls.view
  handing : Handing h.ledger h.calls.view
  telling : Telling h.ledger h.calls.view

theorem sound_start (language : Language) :
    History.Sound { calls := start language } where
  idle := rfl
  orderly := ⟨List.nodup_nil, fun _ _ => rfl, by simp [view, start]⟩
  settling := ⟨List.nodup_nil, by simp, by simp, by simp⟩
  handing := ⟨List.nodup_nil, by simp, by simp, List.Perm.refl _, by simp⟩
  telling := by
    refine ⟨?_, ?_, List.nodup_nil, fun _ h => absurd h List.not_mem_nil⟩
    · intro _ h
      cases h
    · intro _ h
      cases h

/-- Every event keeps it. -/
theorem History.Sound.next {h : History} (hs : h.Sound) (e : Event) : (h.next e).Sound := by
  obtain ⟨hidle, hmove⟩ := step_move hs.idle e
  exact
    { idle := hidle
      orderly := hs.orderly.move hmove
      settling := hs.settling.move hs.orderly hmove
      handing := hs.handing.move hs.settling hs.orderly hmove
      telling := hs.telling.move hs.settling hs.orderly hmove }

theorem sound_after (language : Language) (es : List Event) : (after language es).Sound := by
  induction es using List.reverseRecOn with
  | nil => exact sound_start language
  | append_singleton es e ih =>
    rw [after_concat]
    exact ih.next e

/-- **Every request is settled at most once**, whatever happens and in whatever order. A number
leaves those that wait once, at one event, which is the handling of a response to it, its being
given up, or the failing of all. Who waits under it takes at most one response, which bears his
number, was handed out where the number left, and is the one that arrived if one did. And the
server is told at most once that the request is given up, and only if that is how it left. -/
theorem requests_settle_once (language : Language) (es : List Event) :
    ((after language es).ledger.removed.map Prod.fst).Nodup
    ∧ (∀ id e, (id, e) ∈ (after language es).ledger.removed → e.Settles id)
    ∧ ((after language es).ledger.handed.map fun x => x.1.1).Nodup
    ∧ ((after language es).ledger.taken.map fun x => x.1.1).Nodup
    ∧ (∀ id r e, ((id, r), e) ∈ (after language es).ledger.taken →
        e = .wake id ∧ r.id.bind Rpc.Id.number? = some id
        ∧ ∃ f, (id, f) ∈ (after language es).ledger.removed
          ∧ ((id, r), f) ∈ (after language es).ledger.handed
          ∧ ∀ r', f = .receive (.response r') → r = r')
    ∧ (after language es).calls.view.told.Nodup
    ∧ ∀ id ∈ (after language es).calls.view.told,
        (∃ t : Task, t.id = id ∧ (id, .cancel t) ∈ (after language es).ledger.removed)
        ∧ ∀ m, (id, .receive m) ∉ (after language es).ledger.removed := by
  have hs := sound_after language es
  refine ⟨hs.settling.nodup, fun id e h => hs.settling.settles _ h, hs.handing.nodup,
    hs.handing.nodup_taken, ?_, hs.telling.nodup, ?_⟩
  · intro id r e htaken
    obtain ⟨f, hhanded⟩ := hs.handing.mem_handed htaken
    obtain ⟨hnumber, harrived⟩ := hs.handing.isFor _ hhanded
    exact ⟨hs.handing.woken _ htaken, hnumber, f, hs.handing.removed _ hhanded, hhanded, harrived⟩
  · intro id htold
    obtain ⟨t, ht, hremoved⟩ := hs.telling.told id htold
    refine ⟨⟨t, ht, hremoved⟩, ?_⟩
    intro m hm
    have hcancel := hs.settling.eq_of_mem hremoved hm
    cases hcancel

/-- An answer that comes after the deadline, but before the request is given up, settles it: the
server is not told. -/
example :
    let late : Rpc.Response := .success (.text "1") .null
    let h := after .rust
      [.begin_ ⟨"textDocument/hover", none, 5⟩, .enlist 1, .write 1 .whole, .expire 1,
        .receive (.response late), .cancel (.call 1), .tell (.call 1) .whole]
    h.ledger.removed.map Prod.fst = [1] ∧ h.ledger.taken.length = 0 ∧ h.calls.view.told = [] := by
  decide +kernel

end SymbolQuery.Calls
