/-
Whose word it is that a server is gone.

A request may come back with the fault that its server was terminated. The client says so
where it refuses a request to a server that is gone, and where it fails all who wait since
the server's stream has ended. Both are said through the same channel as the answers of the
server, as an error with a code of its own, and the server may use that code too. So the
fault is true exactly where the answer is not an error of the server's with that code
(`truthful_iff`); an error with any other code comes back as the server's, with its code.

`stage_step` says once how a call moves on. From that it follows with which results calls
come back, and that only late calls give up with a result. Where a response comes from is
read off the ledger of the run.
-/
import SymbolQuery.Proofs.StreamEnd

set_option autoImplicit false

namespace SymbolQuery.Calls

/-! ## How a call moves on -/

/-- **How a call moves on** at an event, to the stage that is given last. -/
inductive Advance (s : Calls) (id : Nat) : Event → Stage → Prop
  | numbered (q : Query) : Advance s id (.begin_ q) (.numbered q)
  | enlisted (q : Query) : Advance s id (.enlist id) (.writing q)
  | written {q : Query} {w : Client.WriteEnd} : Advance s id (.write id w) (.waiting q)
  | unwritten {q : Query} {w : Client.WriteEnd} {fault : ServiceFault}
      (hfault : (s.client.sendUntil (Client.numberedRequest id q.method q.params).toJson w).1
        = .error fault) :
    Advance s id (.write id w) (.ended (some (.error fault)))
  | answered {r : Rpc.Response} (hr : s.client.replies.lookup id = some r) :
    Advance s id (.wake id) (.ended (some (Client.verdict s.client.language r)))
  | unanswered (hr : s.client.replies.lookup id = none) :
    Advance s id (.wake id) (.ended (some (.error .requestCancelled)))
  | late {q : Query} :
    Advance s id (.expire id)
      (.cancelling (some (.error (Client.lateFault s.client.language q.method q.limit))))
  | givenUp {outcome : Outcome} (hstage : s.stage (.call id) = .cancelling outcome) :
    Advance s id (.cancel (.call id)) (.telling outcome)
  | cancelled {outcome : Outcome} (hstage : s.stage (.call id) = .cancelling outcome) :
    Advance s id (.cancel (.call id)) (.ended outcome)
  | told {outcome : Outcome} {w : Client.WriteEnd}
      (hstage : s.stage (.call id) = .telling outcome) :
    Advance s id (.tell (.call id) w) (.ended outcome)
  | abandoned {octets : Nat} : Advance s id (.abandon id octets) (.ended none)

/-- A task that comes to a stage moves on itself, and nobody else does. -/
theorem stage_put {s : Calls} {t : Task} {stage : Stage} {id : Nat}
    {P : Stage → Prop} (hself : t = .call id → P stage) :
    (s.put t stage).stage (.call id) = s.stage (.call id)
      ∨ P ((s.put t stage).stage (.call id)) := by
  by_cases ht : t = .call id
  · right
    rw [← ht, put_self]
    exact hself ht
  · exact Or.inl (put_of_ne s (Ne.symm ht) stage)

/-- The call that ends early moves on, and no other call does. -/
theorem stage_endEarly {s : Calls} {id' id : Nat} {outcome : Outcome}
    {P : Stage → Prop} (hself : id' = id → P (.ended outcome)) :
    (s.endEarly id' outcome).stage (.call id) = s.stage (.call id)
      ∨ P ((s.endEarly id' outcome).stage (.call id)) := by
  rw [endEarly, put_of_ne _ (by simp)]
  exact stage_put fun ht => hself (Task.call.inj ht)

theorem Effect.advance {s s' : Calls} {e : Event} (h : Effect s e s') (id : Nat) :
    s'.stage (.call id) = s.stage (.call id) ∨ Advance s id e (s'.stage (.call id)) := by
  -- an event moves one task at most, and where that is not the call's, the call stays
  cases h with
  | begun _ => exact stage_put fun _ => .numbered _
  | enlisted _ =>
    refine stage_put fun ht => ?_
    cases ht
    exact .enlisted _
  | written _ _ =>
    refine stage_put fun ht => ?_
    cases ht
    exact .written
  | unwritten _ hfault =>
    refine stage_endEarly fun ht => ?_
    cases ht
    exact .unwritten hfault
  | answered _ hr =>
    refine stage_put fun ht => ?_
    cases ht
    exact .answered hr
  | unanswered _ hr =>
    refine stage_put fun ht => ?_
    cases ht
    exact .unanswered hr
  | late _ =>
    refine stage_put fun ht => ?_
    cases ht
    exact .late
  | forgotten hstage _ =>
    refine stage_put fun ht => ?_
    cases ht
    exact .givenUp hstage
  | settled hstage =>
    refine stage_put fun ht => ?_
    cases ht
    exact .cancelled hstage
  | told hstage =>
    refine stage_put fun ht => ?_
    cases ht
    exact .told hstage
  | leftEarly _ | leftTelling _ =>
    refine stage_put fun ht => ?_
    cases ht
    exact .abandoned
  | leftWriting _ | leftWaiting _ =>
    refine stage_endEarly fun ht => ?_
    cases ht
    exact .abandoned
  -- what reaches the client lies ready until the call wakes
  | stuck _ | received _ | unread _ | stopped _ | lost _ _ | unlost _ | failed _ | unfailed _
  | hungUp | brokenOff => exact Or.inl rfl

/-- **A call stays where it is or moves on.** -/
theorem stage_step (s : Calls) (e : Event) (id : Nat) :
    (s.step e).stage (.call id) = s.stage (.call id)
      ∨ Advance s id e ((s.step e).stage (.call id)) := (effect_step s e).advance id

/-- What a call that gives up is to come back with. -/
def Stage.due : Stage → Outcome
  | .cancelling outcome | .telling outcome => outcome
  | _ => none

/-- Only a late call gives up with a result, which says so. -/
theorem due_of_run (language : Language) (es : List Event) {id : Nat}
    {result : Except ServiceFault Json}
    (h : (((start language).run es).stage (.call id)).due = some result) :
    ∃ text, result = .error (.timeout text) := by
  induction es using List.reverseRecOn with
  | nil => cases h
  | append_singleton es e ih =>
    have hrun : (start language).run (es ++ [e]) = ((start language).run es).step e :=
      List.foldl_append
    rw [hrun] at h
    rcases stage_step ((start language).run es) e id with hsame | hadvance
    · rw [hsame] at h
      exact ih h
    · generalize (((start language).run es).step e).stage (.call id) = stage at h hadvance
      cases hadvance with
      | late =>
        cases h
        exact ⟨_, rfl⟩
      | givenUp hstage =>
        rw [hstage] at ih
        exact ih h
      | numbered _ | enlisted _ | written | unwritten _ | answered _ | unanswered _
      | cancelled _ | told _ | abandoned => cases h

/-! ## Where responses come from -/

/-- **Where a response comes from** that was handed out at an event: from the server, from the end
of the server's stream, or from the client as it hung up. -/
inductive Origin (s : Calls) : (Nat × Rpc.Response) × Event → Prop
  | server (id : Nat) (r : Rpc.Response) : Origin s ((id, r), .receive (.response r))
  | streamEnd (a : Nat × Rpc.Response) (h : s.client.terminated = true) :
    Origin s (a, .failPending)
  | hangUp {a : Nat × Rpc.Response} {err : Rpc.ErrorInfo} (herror : a.2.error = some err)
      (hcode : err.code = ServerError.requestCancelled) : Origin s (a, .hangUp)

/-- A server that is gone stays so, and those who wait are to be failed only once it is gone. -/
theorem Reader.terminated_step (r : Reader) (e : Event) :
    (r.terminated = true → (r.step e).terminated = true)
      ∧ ((r.failing = true → r.terminated = true) →
          (r.step e).failing = true → (r.step e).terminated = true) := by
  cases e with
  | lose fault =>
    simp only [Reader.step]
    split
    · split
      · exact ⟨id, id⟩
      · exact ⟨fun _ => rfl, fun _ _ => rfl⟩
    · exact ⟨id, id⟩
  | failPending => exact ⟨id, fun _ h => by cases h⟩
  | begin_ _ | enlist _ | write _ _ | wake _ | expire _ | cancel _ | tell _ _ | abandon _ _
  | receive _ | hangUp | breakOff => exact ⟨id, id⟩

theorem terminated_step {s : Calls} (h : s.client.terminated = true) (e : Event) :
    (s.step e).client.terminated = true :=
  (congrArg Reader.terminated (reader_step s e)).trans ((s.reader.terminated_step e).1 h)

theorem terminated_of_failing (language : Language) (es : List Event) :
    (after language es).calls.failing = true →
      (after language es).calls.client.terminated = true := by
  induction es using List.reverseRecOn with
  | nil => exact fun h => by cases h
  | append_singleton es e ih =>
    have hreader := reader_step (after language es).calls e
    have hsound := ((after language es).calls.reader.terminated_step e).2 ih
    rw [← hreader] at hsound
    rw [after_concat]
    exact hsound

theorem Origin.step {s : Calls} {x : (Nat × Rpc.Response) × Event} (h : Origin s x) (e : Event) :
    Origin (s.step e) x := by
  cases h with
  | server id r => exact .server id r
  | streamEnd a hgone => exact .streamEnd a (terminated_step hgone e)
  | hangUp herror hcode => exact .hangUp herror hcode

/-- A response that an event hands out has an origin. -/
theorem origin_new {h : History} (hs : h.Sound)
    (hfailing : h.calls.failing = true → h.calls.client.terminated = true) {e : Event}
    {new : List (Nat × Rpc.Response)}
    (hreplies : (h.calls.step e).view.replies = h.calls.view.replies ++ new)
    {a : Nat × Rpc.Response} (ha : a ∈ new) (hwaits : a.1 ∈ h.calls.view.pending)
    (hgone : a.1 ∉ (h.calls.step e).view.pending) (hfor : IsFor a e) :
    Origin (h.calls.step e) (a, e) := by
  have hsettles := (step_move hs.idle e).2.settles hwaits hgone
  cases e with
  | receive m =>
    cases m with
    | response r =>
      rw [← hfor.2 r rfl]
      exact .server a.1 a.2
    | request r => cases hsettles
    | notification n => cases hsettles
  | cancel t =>
    -- giving a request up hands nothing out
    have hsame : (h.calls.step (.cancel t)).view.replies = h.calls.view.replies := by
      simp only [Calls.step]
      split
      · split <;> rfl
      · rfl
    rw [hsame] at hreplies
    rw [List.self_eq_append_right.mp hreplies] at ha
    cases ha
  | failPending =>
    by_cases hdue : h.calls.failing = true
    · exact .streamEnd a (terminated_step (hfailing hdue) _)
    · have hsame : h.calls.step .failPending = h.calls := by
        simp only [Calls.step, hdue, Bool.false_eq_true, if_false]
      rw [hsame] at hgone
      exact absurd hwaits hgone
  | hangUp =>
    have hnew : new = h.calls.view.pending.map
        (failure ServerError.requestCancelled "Server shutdown") :=
      (List.append_cancel_left hreplies).symm
    rw [hnew] at ha
    obtain ⟨id, _, rfl⟩ := List.mem_map.mp ha
    exact .hangUp rfl rfl
  | begin_ _ | enlist _ | write _ _ | wake _ | expire _ | tell _ _ | abandon _ _ | lose _
  | breakOff => cases hsettles

/-- **Every response that is handed out has an origin.** -/
theorem origin_handed (language : Language) (es : List Event) :
    ∀ x ∈ (after language es).ledger.handed, Origin (after language es).calls x := by
  induction es using List.reverseRecOn with
  | nil => exact fun _ hx => absurd hx List.not_mem_nil
  | append_singleton es e ih =>
    have hs := sound_after language es
    rw [after_concat]
    intro x hx
    -- an event hands responses out, or it wakes a call that takes its own
    rcases (step_move hs.idle e).2.replies hs.orderly with ⟨new, hreplies, _, hnew⟩ | hwoken
    · change x ∈ ((after language es).ledger.next _ e _).handed at hx
      rw [(Ledger.next_of_append hreplies).1] at hx
      rcases List.mem_append.mp hx with hold | hx
      · exact (ih x hold).step e
      · obtain ⟨a, ha, rfl⟩ := List.mem_map.mp hx
        obtain ⟨hwaits, hgone, hfor⟩ := hnew a ha
        exact origin_new hs (terminated_of_failing language es) hreplies ha hwaits hgone hfor
    · obtain ⟨id, rfl, hreplies⟩ := hwoken
      change x ∈ ((after language es).ledger.next _ (.wake id) _).handed at hx
      rw [(Ledger.next_of_filter hreplies).1] at hx
      exact (ih x hx).step (.wake id)

/-- A response that lies ready was handed out, and has an origin. -/
theorem origin_lookup {language : Language} {es : List Event} {id : Nat} {r : Rpc.Response}
    (hr : (after language es).calls.client.replies.lookup id = some r) :
    ∃ f, ((id, r), f) ∈ (after language es).ledger.handed
      ∧ Origin (after language es).calls ((id, r), f) := by
  have hready : (id, r) ∈ (after language es).calls.view.replies := by
    obtain ⟨before, later, hsplit, _⟩ := List.lookup_eq_some_iff.mp hr
    change (id, r) ∈ (after language es).calls.client.replies
    rw [hsplit]
    exact List.mem_append_right _ List.mem_cons_self
  have hmem := (sound_after language es).handing.perm.subset (List.mem_append_right _ hready)
  obtain ⟨⟨a, f⟩, hx, rfl⟩ := List.mem_map.mp hmem
  exact ⟨f, hx, origin_handed language es _ hx⟩

/-! ## With what requests come back -/

/-- **A request comes back** to its caller at an event, with a result. -/
inductive Returns (s : Calls) : Event → Except ServiceFault Json → Prop
  /-- It is refused, since the server is gone. -/
  | refused (q : Query) (hgone : s.client.terminated = true) :
    Returns s (.begin_ q) (.error (.serverTerminated s.client.language))
  /-- Its call ends. -/
  | ended {e : Event} {id : Nat} {result : Except ServiceFault Json}
      (hopen : ∀ outcome, s.stage (.call id) ≠ .ended outcome)
      (hend : (s.step e).stage (.call id) = .ended (some result)) : Returns s e result

/-- A call that ends moves on. -/
theorem advance_of_ended {s : Calls} {e : Event} {id : Nat} {result : Except ServiceFault Json}
    (hopen : ∀ outcome, s.stage (.call id) ≠ .ended outcome)
    (hend : (s.step e).stage (.call id) = .ended (some result)) :
    Advance s id e (.ended (some result)) := by
  rcases stage_step s e id with hsame | hadvance
  · exact absurd (hsame.symm.trans hend) (hopen _)
  · rwa [hend] at hadvance

/-- At an event a call takes an error that the server itself has sent. -/
def HearsError (h : History) (e : Event) (err : Rpc.ErrorInfo) : Prop :=
  ∃ id r, e = .wake id ∧ h.calls.client.replies.lookup id = some r
    ∧ ((id, r), Event.receive (.response r)) ∈ h.ledger.handed ∧ r.error = some err

/-- A write that fails on its way fails with a fault of the pipe. -/
def Event.FailsAsIo : Event → Prop
  | .write _ (.short fault _) => ∃ text, fault = .io text
  | _ => True

/-- A request that could not be written does not say that the server was terminated. -/
theorem ne_terminated_of_unwritten {c : Client} {message : Json} {id : Nat} {w : Client.WriteEnd}
    (hio : (Event.write id w).FailsAsIo) {language : Language} :
    (c.sendUntil message w).1 ≠ .error (.serverTerminated language) := by
  cases w with
  | whole =>
    cases hchannel : c.outgoing.channel with
    | intact =>
      rw [Client.sendUntil, Client.send_of_intact hchannel]
      exact fun h => by cases h
    | broken | closed =>
      rw [Client.sendUntil, Client.send_of_fault (congrArg Channel.fault? hchannel)]
      exact fun h => by cases h
  | short fault octets =>
    obtain ⟨text, rfl⟩ := hio
    exact fun h => by cases h

/-- A response means that the server was terminated exactly by an error with the code for that. -/
theorem verdict_eq_terminated {language l : Language} {r : Rpc.Response}
    (h : Client.verdict language r = .error (.serverTerminated l)) :
    ∃ err, r.error = some err ∧ err.code = ServerError.serverTerminated := by
  unfold Client.verdict Rpc.Response.outcome at h
  cases herror : r.error with
  | none =>
    rw [herror] at h
    cases h
  | some err =>
    rw [herror] at h
    dsimp only at h
    split at h
    · next hcode => exact ⟨err, rfl, hcode⟩
    · cases h

/-- **A request that comes back with the fault of a terminated server** comes back from a server
that is gone, or with an error of the server's with that code. -/
theorem terminated_of_returns {language l : Language} {es : List Event} {e : Event}
    (hio : e.FailsAsIo)
    (hreturns : Returns (after language es).calls e (.error (.serverTerminated l))) :
    ((after language es).next e).calls.client.terminated = true
      ∨ ∃ err, HearsError (after language es) e err ∧ err.code = ServerError.serverTerminated := by
  generalize hresult : (Except.error (.serverTerminated l) : Except ServiceFault Json) = result
    at hreturns
  cases hreturns with
  | refused q hgone => exact Or.inl (terminated_step hgone _)
  | @ended _ id _ hopen hend =>
    have hdue := @due_of_run language es id result
    rw [← calls_after] at hdue
    cases advance_of_ended hopen hend with
    | unwritten hfault =>
      cases hresult
      exact absurd hfault (ne_terminated_of_unwritten hio)
    | @answered r hr =>
      obtain ⟨err, herror, hcode⟩ := verdict_eq_terminated hresult.symm
      obtain ⟨f, hhanded, horigin⟩ := origin_lookup hr
      cases horigin with
      | server => exact Or.inr ⟨err, ⟨id, r, rfl, hr, hhanded, herror⟩, hcode⟩
      | streamEnd _ hgone => exact Or.inl (terminated_step hgone _)
      | @hangUp _ err' herror' hcode' =>
        obtain rfl : err' = err := Option.some.inj (herror'.symm.trans herror)
        exact absurd (hcode'.symm.trans hcode) (by decide)
    | unanswered _ => cases hresult
    | cancelled hstage | told hstage =>
      -- who gives up with a result is late, and says that
      rw [hstage] at hdue
      obtain ⟨text, rfl⟩ := hdue rfl
      cases hresult

/-- What a request comes back with that takes an error of the server's. -/
theorem result_of_hears {h : History} {e : Event} {result : Except ServiceFault Json}
    {err : Rpc.ErrorInfo} (hreturns : Returns h.calls e result) (hhears : HearsError h e err) :
    result = .error (if err.code = ServerError.serverTerminated
      then .serverTerminated h.calls.client.language else .friendly err.code err.message) := by
  obtain ⟨id, r, rfl, hr, -, herror⟩ := hhears
  cases hreturns with
  | ended hopen hend =>
    cases advance_of_ended hopen hend with
    | @answered r' hr' =>
      obtain rfl : r = r' := Option.some.inj (hr.symm.trans hr')
      simp only [Client.verdict, Rpc.Response.outcome, herror]
      split <;> rfl
    | unanswered hr' => cases hr.symm.trans hr'

/-! ## Results that can be trusted -/

/-- **A result that can be trusted**: it says that the server was terminated only where its stream
has ended, and an error of the server's comes back as such, with its code. -/
structure Truthful {α : Type} (h : History) (e : Event) (result : Except ServiceFault α) :
    Prop where
  terminated : ∀ language, result = .error (.serverTerminated language) →
    (h.next e).calls.client.terminated = true
  server : ∀ err, HearsError h e err →
    result = .error (.serverError err.code (ServerError.friendlyText err.code err.message))

/-- Reading a result as what was asked for does not make a fault of a terminated server. -/
theorem terminated_of_decoded {α : Type} {read : Json → Json.Decoded α}
    {result : Except ServiceFault Json} {language : Language}
    (h : (result >>= Client.decodeAs read) = .error (.serverTerminated language)) :
    result = .error (.serverTerminated language) := by
  cases result with
  | error fault =>
    change Except.error fault = .error (.serverTerminated language) at h
    cases h
    rfl
  | ok v =>
    change Client.decodeAs read v = _ at h
    unfold Client.decodeAs at h
    split at h <;> cases h

/-- **The results of requests can be trusted, but for one code.** In every run, whatever a request
asks for, the result with which it comes back can be trusted exactly if it takes no error of the
server's with the code that the client uses to say that the server is gone. -/
theorem truthful_iff {α : Type} (read : Json → Json.Decoded α) {language : Language}
    {es : List Event} {e : Event} {result : Except ServiceFault Json} (hio : e.FailsAsIo)
    (hreturns : Returns (after language es).calls e result) :
    Truthful (after language es) e (result >>= Client.decodeAs read)
      ↔ ∀ err, HearsError (after language es) e err →
          err.code ≠ ServerError.serverTerminated := by
  constructor
  · intro htruthful err hhears hcode
    have hresult := result_of_hears hreturns hhears
    rw [if_pos hcode] at hresult
    subst hresult
    cases htruthful.server err hhears
  · intro hcodes
    constructor
    · intro l hl
      obtain rfl := terminated_of_decoded hl
      rcases terminated_of_returns hio hreturns with hgone | ⟨err, hhears, hcode⟩
      · exact hgone
      · exact absurd hcode (hcodes err hhears)
    · intro err hhears
      have hresult := result_of_hears hreturns hhears
      rw [if_neg (hcodes err hhears)] at hresult
      subst hresult
      rfl

/-- A run in which the server answers a request with an error, which the caller is to take. -/
def refusal (code : Int) : List Event :=
  [.begin_ ⟨"textDocument/hover", none, 1000⟩, .enlist 1, .write 1 .whole,
    .receive (.response (.failure (.number 1) { code := code, message := "reserved" }))]

theorem hearsError_refusal (code : Int) :
    HearsError (after .rust (refusal code)) (.wake 1) { code := code, message := "reserved" } :=
  ⟨1, _, rfl, rfl, List.mem_singleton.mpr rfl, rfl⟩

/-- An error with the code of a method that the server does not have comes back as that. -/
theorem truthful_missingMethod :
    HearsError (after .rust (refusal ServerError.methodNotFound)) (.wake 1)
        { code := ServerError.methodNotFound, message := "reserved" }
      ∧ Truthful (after .rust (refusal ServerError.methodNotFound)) (.wake 1)
        (.error (.friendly ServerError.methodNotFound "reserved") >>= Client.decodeAs pure) := by
  refine ⟨hearsError_refusal _, (truthful_iff pure (e := .wake 1) trivial ?_).mpr ?_⟩
  · exact @Returns.ended _ _ 1 _ (fun _ h => by cases h) rfl
  · rintro err ⟨id, r, hid, hr, -, herror⟩
    cases hid
    obtain rfl : Rpc.Response.failure (.number 1)
        { code := ServerError.methodNotFound, message := "reserved" } = r := Option.some.inj hr
    cases herror
    decide

/-- An error of the server's with the code for a server that is gone comes back as if it were,
while it is not. -/
theorem not_truthful_reserved :
    HearsError (after .rust (refusal (-32099))) (.wake 1) { code := -32099, message := "reserved" }
      ∧ Returns (after .rust (refusal (-32099))).calls (.wake 1) (.error (.serverTerminated .rust))
      ∧ ((after .rust (refusal (-32099))).next (.wake 1)).calls.client.terminated = false
      ∧ ¬ Truthful (after .rust (refusal (-32099))) (.wake 1)
        (.error (.serverTerminated .rust) : Except ServiceFault Json) := by
  refine ⟨hearsError_refusal _, @Returns.ended _ _ 1 _ (fun _ h => by cases h) rfl, rfl, ?_⟩
  intro h
  cases h.terminated .rust rfl

end SymbolQuery.Calls
