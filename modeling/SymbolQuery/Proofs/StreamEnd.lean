/-
What the end of the server's stream settles.

Reading a stream makes a list of events: one for each message, and then the fault that
ends it, after which all who wait are failed; but an announced length that fits no buffer
breaks the reading off with neither. Between these events everything else may happen.
Whether the end settles all requests depends on two things only: that reading did not
break off, and that no call stands between having its number and being entered while
messages still go out. Such a call is entered after all were failed (`settled_iff`).

Which of the reader's flags are set depends on the reader's events alone (`reader_run`).
From the end on a state stays `Quiet`: nobody can begin a call, and who is entered late
is not left waiting, because his request can not be written.
-/
import SymbolQuery.Proofs.CallSettlement
import SymbolQuery.Proofs.FrameStream

set_option autoImplicit false

namespace SymbolQuery.Calls

/-! ## The reader -/

/-- What the fault that ends a stream makes happen. -/
def endEvents : Rpc.FrameFault → List Event
  | .unbufferable => [.lose .unbufferable]
  | fault => [.lose fault, .failPending]

/-- What reading a stream to its end makes happen. -/
def readerEvents (octets : List UInt8) : List Event :=
  (Rpc.readStream octets).1.map .receive ++ (Rpc.readStream octets).2.toList.flatMap endEvents

/-- How far the reading of the server's stream has come. -/
structure Reader where
  listening : Bool
  terminated : Bool
  failing : Bool

/-- The reader of a state. -/
def reader (s : Calls) : Reader := ⟨s.client.listening, s.client.terminated, s.failing⟩

/-- What an event does to the reader. -/
def Reader.step (r : Reader) : Event → Reader
  | .lose fault =>
    if r.listening then
      match fault with
      | .unbufferable => { r with listening := false }
      | _ => ⟨false, true, true⟩
    else r
  | .failPending => { r with failing := false }
  | _ => r

theorem reader_sendUntil (s : Calls) (message : Json) (w : Client.WriteEnd) :
    ({ s with client := (s.client.sendUntil message w).2 } : Calls).reader = s.reader := by
  cases w <;> rfl

theorem reader_receive (s : Calls) (m : Rpc.Message) :
    ({ s with client := s.client.receive m } : Calls).reader = s.reader := by
  cases m with
  | response r =>
    simp only [Client.receive]
    split
    · unfold Client.settle
      split <;> rfl
    · rfl
  | request r => rfl
  | notification n => rfl

theorem Reader.step_of_not_ofReader (r : Reader) {e : Event} (he : e.ofReader = false) :
    r.step e = r := by
  cases e <;> first | rfl | cases he

theorem Effect.reader {s s' : Calls} {e : Event} (h : Effect s e s') :
    s'.reader = s.reader.step e := by
  cases h with
  | stuck he => exact (s.reader.step_of_not_ofReader he).symm
  | written _ _ | unwritten _ _ | told _ => exact reader_sendUntil s _ _
  | received _ => exact reader_receive s _
  | unread _ => rfl
  | stopped hlistening => simp [Reader.step, Calls.reader, hlistening]
  | lost hlistening hfault => simp [Reader.step, Calls.reader, hlistening, Client.loseServer]
  | unlost hlistening => simp [Reader.step, Calls.reader, hlistening]
  | unfailed hfailing => simp [Reader.step, Calls.reader, hfailing]
  | begun _ | enlisted _ | answered _ _ | unanswered _ _ | late _ | forgotten _ _ | settled _
  | leftEarly _ | leftWriting _ | leftWaiting _ | leftTelling _ | failed _ | hungUp
  | brokenOff => rfl

/-- **The reader takes its own steps**, and no others move it. -/
theorem reader_step (s : Calls) (e : Event) : (s.step e).reader = s.reader.step e :=
  (effect_step s e).reader

/-- **Where the reader stands depends on its own events alone.** -/
theorem reader_run (s : Calls) (es : List Event) :
    (s.run es).reader = (es.filter Event.ofReader).foldl Reader.step s.reader := by
  induction es using List.reverseRecOn with
  | nil => rfl
  | append_singleton es e ih =>
    have hrun : s.run (es ++ [e]) = (s.run es).step e := by
      rw [run, List.foldl_append]
      rfl
    rw [hrun, reader_step, ih, List.filter_append, List.foldl_append]
    cases e <;> rfl

/-- Messages do not move the reader. -/
theorem reader_after (language : Language) {es ends : List Event} {ms : List Rpc.Message}
    (h : es.filter Event.ofReader = ms.map .receive ++ ends) :
    (after language es).calls.reader = ends.foldl Reader.step ⟨true, false, false⟩ := by
  have hreceive : (ms.map Event.receive).foldl Reader.step ⟨true, false, false⟩
      = ⟨true, false, false⟩ := by
    clear h
    induction ms with
    | nil => rfl
    | cons m ms ih => exact ih
  rw [calls_after, reader_run, h, List.foldl_append]
  change ends.foldl Reader.step ((ms.map Event.receive).foldl Reader.step ⟨true, false, false⟩) = _
  rw [hreceive]

/-! ## The operations of the client as a reading -/

theorem listening_receive (c : Client) (m : Rpc.Message) :
    (c.receive m).listening = c.listening :=
  congrArg Reader.listening (reader_receive { client := c } m)

/-- A client with other octets that make no whole message yet. -/
def withUnread (c : Client) (unread : List UInt8) : Client := { c with unread := unread }

/-- Octets that make no whole message yet do not matter to a message that is there. -/
theorem receive_withUnread (c : Client) (m : Rpc.Message) (unread : List UInt8) :
    (withUnread c unread).receive m = withUnread (c.receive m) unread := by
  cases m with
  | response r =>
    simp only [Client.receive]
    split
    · unfold Client.settle
      split
      · next h => exact (if_pos h).symm ▸ rfl
      · next h => exact (if_neg h).symm ▸ rfl
    · rfl
  | request r => rfl
  | notification n => rfl

theorem foldl_receive_withUnread (ms : List Rpc.Message) (c : Client) (unread : List UInt8) :
    ms.foldl Client.receive (withUnread c unread)
      = withUnread (ms.foldl Client.receive c) unread := by
  induction ms generalizing c with
  | nil => rfl
  | cons m ms ih => rw [List.foldl_cons, receive_withUnread, ih, List.foldl_cons]

theorem stopReading_withUnread (c : Client) (fault : Rpc.FrameFault) (unread : List UInt8) :
    (withUnread c unread).stopReading fault = withUnread (c.stopReading fault) unread := by
  cases fault <;> rfl

/-- Taking messages off what has been sent, and then the end, is to take the messages of the whole
stream and to stop. -/
theorem endInput_readUpTo {fuel more : Nat} {c : Client} (hc : c.listening = true)
    (hfuel : c.unread.length < fuel) (hmore : c.unread.length < more) {fault : Rpc.FrameFault}
    (hfault : (Rpc.readUpTo more c.unread).2 = some fault) :
    withUnread (c.readUpTo fuel).endInput []
      = withUnread
          (((Rpc.readUpTo more c.unread).1.foldl Client.receive c).stopReading fault) [] := by
  induction fuel generalizing c more with
  | zero => omega
  | succ fuel ih =>
    cases more with
    | zero => omega
    | succ more =>
      cases hscan : Rpc.scan c.unread with
      | message m rest =>
        have hread : Rpc.readMessage c.unread = .ok (m, rest) := by rw [Rpc.readMessage, hscan]
        have hshort := Rpc.length_of_readMessage hread
        rw [Rpc.readUpTo, hread] at hfault ⊢
        have hnext : (withUnread c rest).receive m = withUnread (c.receive m) rest :=
          receive_withUnread c m rest
        have hlistening : (withUnread (c.receive m) rest).listening = true :=
          (listening_receive c m).trans hc
        have hrest := ih hlistening (by change rest.length < fuel; omega)
          (by change rest.length < more; omega) hfault
        have hstep : c.readUpTo (fuel + 1) = (withUnread (c.receive m) rest).readUpTo fuel := by
          rw [Client.readUpTo, hscan]
          exact congrArg (Client.readUpTo fuel) hnext
        rw [foldl_receive_withUnread, stopReading_withUnread] at hrest
        rw [hstep]
        exact hrest
      | fault f =>
        have hread : Rpc.readMessage c.unread = .error f := by rw [Rpc.readMessage, hscan]
        have hstopped : (c.stopReading f).listening = false := by cases f <;> rfl
        rw [Rpc.readUpTo, hread] at hfault ⊢
        rw [Client.readUpTo, hscan]
        cases hfault
        dsimp only
        rw [Client.endInput, hstopped]
        rfl
      | incomplete f =>
        have hread : Rpc.readMessage c.unread = .error f := by rw [Rpc.readMessage, hscan]
        rw [Rpc.readUpTo, hread] at hfault ⊢
        rw [Client.readUpTo, hscan]
        cases hfault
        dsimp only
        rw [Client.endInput, hc, hread]
        rfl

/-- To receive messages is to take them one by one. -/
theorem run_receive {s : Calls} (hs : s.client.listening = true) (ms : List Rpc.Message) :
    s.run (ms.map .receive) = { s with client := ms.foldl Client.receive s.client } := by
  induction ms generalizing s with
  | nil => rfl
  | cons m ms ih =>
    have hstep : s.step (.receive m) = { s with client := s.client.receive m } := by
      simp only [step, hs, if_true]
    change (s.step (.receive m)).run (ms.map .receive) = _
    rw [hstep, ih ((listening_receive s.client m).trans hs)]
    rfl

theorem run_endEvents {s : Calls} (hs : s.client.listening = true) (hfailing : s.failing = false)
    (fault : Rpc.FrameFault) : (s.run (endEvents fault)).client = s.client.stopReading fault := by
  cases fault with
  | unbufferable =>
    simp only [endEvents, run, List.foldl_cons, List.foldl_nil, step, hs, if_true]
    rfl
  | closed | bodyEnds | headerNotText _ | badLength _ | missingLength | bodyNotText _
  | badMessage _ => exact run_stopReading hs hfailing _

/-- **To be sent a stream, and then its end, is to read it**, with nothing in between. -/
theorem run_readerEvents {s : Calls} (hs : s.client.listening = true) (hfailing : s.failing = false)
    (hunread : s.client.unread = []) (octets : List UInt8) :
    withUnread (s.run (readerEvents octets)).client []
      = withUnread (s.client.feed octets).endInput [] := by
  obtain ⟨fault, hfault⟩ := Rpc.readStream_ends octets
  have hlistening : ∀ ms : List Rpc.Message,
      (ms.foldl Client.receive s.client).listening = true := by
    intro ms
    induction ms using List.reverseRecOn with
    | nil => exact hs
    | append_singleton ms m ih =>
      rw [List.foldl_append]
      exact (listening_receive _ m).trans ih
  have hread : (s.run (readerEvents octets)).client
      = ((Rpc.readStream octets).1.foldl Client.receive s.client).stopReading fault := by
    rw [readerEvents, hfault, Option.toList_some, List.flatMap_singleton, run, List.foldl_append]
    change ((s.run ((Rpc.readStream octets).1.map .receive)).run (endEvents fault)).client = _
    rw [run_receive hs]
    exact run_endEvents
      (s := { s with client := (Rpc.readStream octets).1.foldl Client.receive s.client })
      (hlistening _) hfailing fault
  have hfeed := endInput_readUpTo (c := withUnread s.client octets) hs
    (Nat.lt_succ_self octets.length) (Nat.lt_succ_self octets.length) hfault
  rw [foldl_receive_withUnread, stopReading_withUnread] at hfeed
  rw [hread, Client.feed, if_pos hs, hunread, List.nil_append]
  exact hfeed.symm

/-! ## After the end -/

/-- A request is in wait of its deadline. -/
def Waits (s : Calls) (id : Nat) : Prop :=
  id ∈ s.client.pending ∧ ∃ q, s.stage (.call id) = .waiting q

/-- A call has its number and will be entered, while messages still go out. -/
def Entering (s : Calls) : Prop :=
  s.client.outgoing.channel = .intact ∧ ∃ id q, s.stage (.call id) = .numbered q

/-- No request is in wait of its deadline, and none comes to be. -/
structure Quiet (s : Calls) : Prop where
  terminated : s.client.terminated = true
  waits : ∀ id, ¬ s.Waits id
  entering : ¬ s.Entering
  pending : s.client.outgoing.channel = .intact → s.client.pending = []

variable {s : Calls}

/-- A task that comes to another stage, but neither waits nor has just taken a number. -/
theorem Quiet.put (h : Quiet s) (t : Task) {stage : Stage} (hwaiting : ∀ q, stage ≠ .waiting q)
    (hnumbered : ∀ q, stage ≠ .numbered q) : Quiet (s.put t stage) where
  terminated := h.terminated
  waits := by
    rintro id ⟨hid, q, hq⟩
    by_cases ht : Task.call id = t
    · rw [ht, put_self] at hq
      exact hwaiting q hq
    · rw [put_of_ne s ht] at hq
      exact h.waits id ⟨hid, q, hq⟩
  entering := by
    rintro ⟨hchannel, id, q, hq⟩
    by_cases ht : Task.call id = t
    · rw [ht, put_self] at hq
      exact hnumbered q hq
    · rw [put_of_ne s ht] at hq
      exact h.entering ⟨hchannel, id, q, hq⟩
  pending := h.pending

theorem Quiet.endEarly (h : Quiet s) (id : Nat) (outcome : Outcome) :
    Quiet (s.endEarly id outcome) :=
  (h.put (.call id) (by simp) (by simp)).put (.cleanup id) (by simp) (by simp)

/-- The client changes, but nobody is entered and no more can go out than before. -/
theorem Quiet.client (h : Quiet s) {c : Client} (hterminated : c.terminated = true)
    (hpending : c.pending ⊆ s.client.pending)
    (hchannel : c.outgoing.channel = .intact → s.client.outgoing.channel = .intact) :
    Quiet { s with client := c } where
  terminated := hterminated
  waits := by
    rintro id ⟨hid, hq⟩
    exact h.waits id ⟨hpending hid, hq⟩
  entering := by
    rintro ⟨hintact, hnumbered⟩
    exact h.entering ⟨hchannel hintact, hnumbered⟩
  pending := by
    intro hintact
    rw [h.pending (hchannel hintact)] at hpending
    exact List.subset_nil.mp hpending

theorem Quiet.failing (h : Quiet s) (failing : Bool) : Quiet { s with failing := failing } :=
  ⟨h.terminated, h.waits, h.entering, h.pending⟩

/-- A write leaves the channel as it was, and goes through only where that is intact. -/
theorem channel_sendUntil (c : Client) (message : Json) (w : Client.WriteEnd) :
    (c.sendUntil message w).2.outgoing.channel = c.outgoing.channel
      ∧ ((c.sendUntil message w).1 = .ok () → c.outgoing.channel = .intact) := by
  cases w with
  | short fault octets => exact ⟨rfl, fun h => by cases h⟩
  | whole =>
    cases hchannel : c.outgoing.channel with
    | intact =>
      rw [Client.sendUntil, Client.send_of_intact hchannel]
      exact ⟨hchannel, fun _ => rfl⟩
    | broken | closed =>
      have hfault := congrArg Channel.fault? hchannel
      rw [Client.sendUntil, Client.send_of_fault hfault]
      exact ⟨hchannel, fun h => by cases h⟩

theorem Quiet.sendUntil (h : Quiet s) (message : Json) (w : Client.WriteEnd) :
    Quiet { s with client := (s.client.sendUntil message w).2 } := by
  have hchannel := (channel_sendUntil s.client message w).1
  cases w with
  | whole | short _ _ =>
    exact h.client h.terminated (List.Subset.refl _) fun hintact => hchannel ▸ hintact

theorem Quiet.receive (h : Quiet s) (m : Rpc.Message) :
    Quiet { s with client := s.client.receive m } := by
  cases m with
  | response r =>
    simp only [Client.receive]
    split
    · unfold Client.settle
      split
      · exact h.client h.terminated (List.erase_subset) fun hintact => hintact
      · exact h
    · exact h
  | request r => exact h.sendUntil (Client.answerTo r).toJson .whole
  | notification n => exact h.client h.terminated (List.Subset.refl _) fun hintact => hintact

/-- Who is entered late can not write his request. -/
theorem Quiet.enlist (h : Quiet s) {id : Nat} {q : Query} (hq : s.stage (.call id) = .numbered q) :
    Quiet ({ s with client := s.client.enlist id }.put (.call id) (.writing q)) := by
  have hchannel : s.client.outgoing.channel ≠ .intact :=
    fun hintact => h.entering ⟨hintact, id, q, hq⟩
  refine ⟨h.terminated, ?_, fun hentering => hchannel hentering.1,
    fun hintact => absurd hintact hchannel⟩
  rintro id' ⟨hid, q', hq'⟩
  by_cases hne : id' = id
  · subst hne
    rw [put_self] at hq'
    cases hq'
  · rw [put_of_ne _ (by simpa using hne)] at hq'
    rcases List.mem_append.mp hid with hold | hnew
    · exact h.waits id' ⟨hold, q', hq'⟩
    · exact hne (List.mem_singleton.mp hnew)

/-- Where a request can still be written nobody is left in wait. -/
theorem Quiet.written (h : Quiet s) {id : Nat} {q : Query}
    (hintact : s.client.outgoing.channel = .intact) :
    Quiet (s.put (.call id) (.waiting q)) where
  terminated := h.terminated
  waits := by
    rintro id' ⟨hid, _⟩
    have hnone := h.pending hintact
    change id' ∈ s.client.pending at hid
    rw [hnone] at hid
    cases hid
  entering := by
    rintro ⟨_, id', q', hq'⟩
    by_cases hne : id' = id
    · subst hne
      rw [put_self] at hq'
      cases hq'
    · rw [put_of_ne s (by simpa using hne)] at hq'
      exact h.entering ⟨hintact, id', q', hq'⟩
  pending := h.pending

theorem Effect.quiet {s' : Calls} {e : Event} (heffect : Effect s e s') (h : Quiet s) :
    Quiet s' := by
  have hsame {c : Client} (hterminated : c.terminated = s.client.terminated)
      (hpending : c.pending ⊆ s.client.pending)
      (houtgoing : c.outgoing.channel = s.client.outgoing.channel) :
      Quiet { s with client := c } :=
    h.client (hterminated.trans h.terminated) hpending fun hintact => houtgoing ▸ hintact
  cases heffect with
  | stuck _ | unread _ | unlost _ | unfailed _ => exact h
  | begun hlive => exact absurd (hlive.symm.trans h.terminated) (by decide)
  | enlisted hstage => exact h.enlist hstage
  | @written id q w hstage hsent =>
    have hchannel :=
      channel_sendUntil s.client (Client.numberedRequest id q.method q.params).toJson w
    exact (h.sendUntil _ w).written (hchannel.1.trans (hchannel.2 hsent))
  | unwritten _ _ => exact (h.sendUntil _ _).endEarly _ _
  | answered _ _ =>
    refine Quiet.put ?_ _ (by simp) (by simp)
    exact hsame rfl (List.Subset.refl _) rfl
  | unanswered _ _ | late _ | settled _ | leftEarly _ => exact h.put _ (by simp) (by simp)
  | forgotten _ _ =>
    refine Quiet.put ?_ _ (by simp) (by simp)
    exact hsame rfl List.erase_subset rfl
  | told _ => exact (h.sendUntil _ _).put _ (by simp) (by simp)
  | leftWriting _ =>
    refine Quiet.endEarly ?_ _ _
    exact hsame rfl (List.Subset.refl _) rfl
  | leftWaiting _ => exact h.endEarly _ _
  | leftTelling _ =>
    refine Quiet.put ?_ _ (by simp) (by simp)
    exact hsame rfl (List.Subset.refl _) rfl
  | received _ => exact h.receive _
  | stopped _ => exact hsame rfl (List.Subset.refl _) rfl
  | @lost fault _ _ =>
    have hlost : Quiet { s with client := { s.client with listening := false }.loseServer fault } :=
      h.client rfl (List.Subset.refl _) fun hintact => hintact
    exact hlost.failing true
  | failed _ =>
    have hfailed : Quiet { s with client := s.client.failTerminated } :=
      hsame rfl (List.nil_subset _) rfl
    exact hfailed.failing false
  | hungUp => exact h.client h.terminated (List.nil_subset _) fun hintact => by cases hintact
  | brokenOff =>
    refine h.client h.terminated (List.Subset.refl _) fun hintact => ?_
    change (if _ then Channel.closed else Channel.broken) = .intact at hintact
    split at hintact <;> cases hintact

/-- **Every event keeps the quiet.** -/
theorem Quiet.step (h : Quiet s) (e : Event) : Quiet (s.step e) := (effect_step s e).quiet h

theorem Quiet.run (h : Quiet s) (later : List Event) : Quiet (s.run later) := by
  induction later generalizing s with
  | nil => exact h
  | cons e later ih => exact ih (h.step e)

/-! ## What the end settles -/

/-- What is said to those who wait when the stream has ended. -/
def terminatedReason (language : Language) : String := s!"{language.id} language server terminated"

/-- **The end of the stream settles everything**, where `e` is the last event of its reading: the
server counts as gone, all who waited then are told so, and from then on no request is in wait of
its deadline. -/
structure Settled (h : History) (e : Event) : Prop where
  terminated : (h.next e).calls.client.terminated = true
  told : ∀ id ∈ h.calls.client.pending,
    (failure ServerError.serverTerminated (terminatedReason h.calls.client.language) id, e)
      ∈ (h.next e).ledger.handed
  after : ∀ later id, ¬ ((h.next e).calls.run later).Waits id

/-- The last two events of a reading that did not break off. -/
theorem endEvents_of_ne {fault : Rpc.FrameFault} (h : fault ≠ .unbufferable) :
    endEvents fault = [.lose fault, .failPending]
      ∧ Reader.step ⟨true, false, false⟩ (.lose fault) = ⟨false, true, true⟩ := by
  cases fault with
  | unbufferable => exact absurd rfl h
  | closed | bodyEnds | headerNotText _ | badLength _ | missingLength | bodyNotText _
  | badMessage _ => exact ⟨rfl, rfl⟩

/-- Failing all who wait tells each of them. -/
theorem told_failPending (h : History) (hfailing : h.calls.failing = true) {id : Nat}
    (hid : id ∈ h.calls.client.pending) :
    (failure ServerError.serverTerminated (terminatedReason h.calls.client.language) id,
      Event.failPending) ∈ (h.next .failPending).ledger.handed := by
  have hreplies : (h.calls.step .failPending).view.replies = h.calls.view.replies
      ++ h.calls.view.pending.map (failure ServerError.serverTerminated
          (terminatedReason h.calls.client.language)) := by
    simp only [step, hfailing, if_true]
    rfl
  have hhanded := (Ledger.next_of_append (l := h.ledger) (e := .failPending) hreplies).1
  change _ ∈ (h.ledger.next h.calls.view .failPending (h.calls.step .failPending).view).handed
  rw [hhanded]
  refine List.mem_append_right _ ?_
  rw [List.map_map]
  exact List.mem_map_of_mem hid

/-- A call that is being entered comes to wait. -/
theorem Entering.waits {s : Calls} (h : s.Entering) : ∃ later id, (s.run later).Waits id := by
  obtain ⟨hintact, id, q, hq⟩ := h
  refine ⟨[.enlist id, .write id .whole], id, ?_⟩
  simp only [run, List.foldl_cons, List.foldl_nil]
  have henlist : s.step (.enlist id)
      = { s with client := s.client.enlist id }.put (.call id) (.writing q) := by
    simp only [step, hq]
  rw [henlist, step, put_self]
  have hchannel : (s.client.enlist id).outgoing.channel = .intact := hintact
  dsimp only
  rw [Client.sendUntil, put, Client.send_of_intact hchannel]
  exact ⟨List.mem_append_right _ (List.mem_singleton.mpr rfl), q, put_self _ _ _⟩

/-- Where all are failed, whether that settles everything depends on the calls being entered. -/
theorem settled_failPending_iff {h : History} (hfailing : h.calls.failing = true)
    (hterminated : (h.next .failPending).calls.client.terminated = true) :
    Settled h .failPending ↔ ¬ (h.next .failPending).calls.Entering := by
  have hnone : (h.next .failPending).calls.client.pending = [] := by
    simp only [History.next, step, hfailing, if_true]
    rfl
  constructor
  · intro hsettled hentering
    obtain ⟨later, id, hwaits⟩ := hentering.waits
    exact hsettled.after later id hwaits
  · intro hentering
    have hquiet : Quiet (h.next .failPending).calls := by
      refine ⟨hterminated, ?_, hentering, fun _ => hnone⟩
      rintro id ⟨hid, _⟩
      rw [hnone] at hid
      cases hid
    exact ⟨hterminated, fun id => told_failPending h hfailing,
      fun later => (hquiet.run later).waits⟩

/-- A reading that has not broken off ends with the failing of all who wait, which was due. -/
theorem failPending_of_last (language : Language) {ms : List Rpc.Message} {fault : Rpc.FrameFault}
    (hbreak : fault ≠ .unbufferable) {es : List Event} {e : Event}
    (hread : (es ++ [e]).filter Event.ofReader = ms.map .receive ++ endEvents fault)
    (hlast : e.ofReader = true) :
    e = .failPending ∧ (after language es).calls.reader = ⟨false, true, true⟩ := by
  obtain ⟨hends, hlose⟩ := endEvents_of_ne hbreak
  have hsplit : es.filter Event.ofReader = ms.map .receive ++ [.lose fault]
      ∧ [e] = [.failPending] := by
    rw [List.filter_append, List.filter_cons_of_pos hlast, List.filter_nil, hends] at hread
    refine List.append_inj' ?_ rfl
    rw [hread, List.append_assoc]
    rfl
  have hbefore := reader_after language hsplit.1
  rw [List.foldl_cons, List.foldl_nil, hlose] at hbefore
  exact ⟨List.singleton_inj.mp hsplit.2, hbefore⟩

/-- **The end of the stream settles everything** if reading did not break off and no call was being
entered, and otherwise it does not. -/
theorem settled_iff {language : Language} {octets : List UInt8} {es : List Event} {e : Event}
    (hread : (es ++ [e]).filter Event.ofReader = readerEvents octets)
    (hlast : e.ofReader = true) :
    Settled (after language es) e
      ↔ (Rpc.readStream octets).2 ≠ some .unbufferable
        ∧ ¬ ((after language es).next e).calls.Entering := by
  obtain ⟨fault, hfault⟩ := Rpc.readStream_ends octets
  rw [readerEvents, hfault, Option.toList_some, List.flatMap_singleton] at hread
  rw [hfault]
  by_cases hbreak : fault = .unbufferable
  · -- reading has broken off: the server does not even count as gone
    have hreader := reader_after language hread
    rw [after_concat, hbreak] at hreader
    have hlive : ((after language es).next e).calls.client.terminated = false :=
      congrArg Reader.terminated hreader
    constructor
    · intro hsettled
      rw [hsettled.terminated] at hlive
      cases hlive
    · rintro ⟨hne, _⟩
      exact absurd (congrArg some hbreak) hne
  · obtain ⟨rfl, hbefore⟩ := failPending_of_last language hbreak hread hlast
    have hafter : ((after language es).next .failPending).calls.reader
        = Reader.step ⟨false, true, true⟩ .failPending := by
      rw [← hbefore]
      exact reader_step _ _
    rw [settled_failPending_iff (congrArg Reader.failing hbefore)
      (congrArg Reader.terminated hafter)]
    exact (and_iff_right fun h => hbreak (Option.some.inj h)).symm

/-- A server that ends its stream at once settles a request that was on its way. -/
theorem settled_closed :
    Settled (after .rust [.begin_ ⟨"textDocument/hover", none, 1000⟩, .enlist 1, .write 1 .whole,
      .lose .closed]) .failPending := by
  have hread : Rpc.readStream [] = ([], some .closed) := by
    simp [Rpc.readStream, Rpc.readUpTo, Rpc.readMessage, Rpc.scan, Rpc.scanHeader, Rpc.takeLine]
  refine (@settled_iff .rust [] _ _ ?_ rfl).mpr ⟨?_, ?_⟩
  · rw [readerEvents, hread]
    rfl
  · rw [hread]
    simp
  · rintro ⟨_, id, q, hq⟩
    by_cases hid : id = 1
    · subst hid
      cases hq
    · have hne : Task.call id ≠ .call 1 := by simpa using hid
      change Function.update (Function.update (Function.update (fun _ => Stage.absent) (Task.call 1)
        _) (Task.call 1) _) (Task.call 1) _ (Task.call id) = _ at hq
      rw [Function.update_of_ne hne, Function.update_of_ne hne, Function.update_of_ne hne] at hq
      cases hq

/-- A server that announces a message of `2 ^ 63` octets leaves a request in wait. -/
theorem not_settled_unbufferable :
    let es : List Event :=
      [.begin_ ⟨"textDocument/hover", none, 1000⟩, .enlist 1, .write 1 .whole]
    (es ++ [Event.lose .unbufferable]).filter Event.ofReader
        = readerEvents (Text.encode "Content-Length: 9223372036854775808\r\n\r\n")
      ∧ ¬ Settled (after .rust es) (.lose .unbufferable)
      ∧ ((after .rust es).next (.lose .unbufferable)).calls.Waits 1 := by
  have hoctets : Text.encode "Content-Length: 9223372036854775808\r\n\r\n"
      = Rpc.lineOctets (Rpc.lengthLine 9223372036854775808) ++ Rpc.lineOctets Rpc.endLine
        ++ [] := by
    decide +kernel
  have hread := Rpc.readStream_unbufferable (by decide : Rpc.maxBuffer < 9223372036854775808)
    (by decide) []
  refine ⟨?_, ?_, ?_⟩
  · rw [hoctets, readerEvents, hread]
    rfl
  · intro hsettled
    have hgone := hsettled.terminated
    cases hgone
  · exact ⟨List.mem_singleton.mpr rfl, _, rfl⟩

end SymbolQuery.Calls
