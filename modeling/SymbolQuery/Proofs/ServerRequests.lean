/-
How the requests of a server are answered.

While the way to the server is intact, a request makes the client write its answer, and
nothing else makes it write a response: all that calls write, and all that the server is
told, has a method. The answers therefore stand among what was written in the order in
which the requests were read, one for each, whatever happens in between.

A valid message that can not be read is taken for the end of the stream: the server counts
as gone and is listened to no more. So every request is answered exactly if all of them can
be read (`requests_answered_iff`), and a request with an id below zero is not answered.
-/
import Mathlib.Data.List.Forall2
import SymbolQuery.Proofs.OutgoingStream
import SymbolQuery.Proofs.StreamEnd
import SymbolQuery.Proofs.ValidMessages

set_option autoImplicit false

namespace SymbolQuery

namespace Rpc

/-! ## Proper answers -/

/-- How many settings a request asks for. -/
def settingsAsked (v : Json) : Nat :=
  match (v.get? "params").bind (·.get? "items") with
  | some (.arr items) => items.length
  | _ => 0

/-- The methods that need no action. -/
def acknowledged : List String :=
  ["client/registerCapability", "client/unregisterCapability", "window/workDoneProgress/create"]

/-- The result or the error with which a request of some method is to be answered. -/
inductive IsOutcome (v : Json) : String → Option Json → Option Json → Prop
  | settings : IsOutcome v "workspace/configuration"
      (some (.arr (List.replicate (settingsAsked v) (.obj [])))) none
  | acknowledged {method : String} (h : method ∈ acknowledged) :
    IsOutcome v method (some .null) none
  | unknown {method : String} (hsettings : method ≠ "workspace/configuration")
      (h : method ∉ Rpc.acknowledged) :
      IsOutcome v method none (some (.obj [("code", .ofInt (-32601)),
        ("message", .str s!"Method not found: {method}")]))

/-- **A proper answer** to a request: under the id of the request, as it stands there. -/
structure IsAnswer (v a : Json) : Prop where
  version : a.get? "jsonrpc" = some (.str "2.0")
  id : a.get? "id" = v.get? "id"
  method : a.get? "method" = none
  outcome : ∃ method, v.get? "method" = some (.str method)
    ∧ IsOutcome v method (a.get? "result") (a.get? "error")

/-- The requests among messages, which are given by their texts and values. -/
def requests (ms : List (List Char × Json)) : List Json := (ms.map Prod.snd).filter asks

theorem requests_append (ms ns : List (List Char × Json)) :
    requests (ms ++ ns) = requests ms ++ requests ns := by
  rw [requests, List.map_append, List.filter_append]
  rfl

theorem requests_eq_nil {ms : List (List Char × Json)} :
    requests ms = [] ↔ ∀ m ∈ ms, asks m.2 = false := by
  rw [requests, List.filter_eq_nil_iff, List.forall_mem_map]
  exact forall₂_congr fun _ _ => iff_of_eq (Bool.not_eq_true _)

theorem askedItems_eq {v : Json} {params : Option Json}
    (h : params = (v.get? "params").bind Json.nonNull) :
    Client.askedItems params = settingsAsked v := by
  have hasked : ∀ p : Json, Client.askedItems (some p)
      = match p.get? "items" with
        | some (.arr items) => items.length
        | _ => 0 := by
    intro p
    unfold Client.askedItems
    rw [Option.bind_some]
    cases p.get? "items" with
    | none => rfl
    | some items => cases items <;> rfl
  rw [settingsAsked, h]
  cases v.get? "params" with
  | none => rfl
  | some p =>
    rw [Option.bind_some, Option.bind_some, ← hasked p]
    -- null is no value, and has no items either
    cases p <;> rfl

/-- **The answer to a request is a proper one.** -/
theorem isAnswer_answerTo {v : Json} {r : Request} (hid : v.get? "id" = some r.id.toJson)
    (hmethod : v.get? "method" = some (.str r.method))
    (hparams : r.params = (v.get? "params").bind Json.nonNull) :
    IsAnswer v (Client.answerTo r).toJson := by
  obtain ⟨_, id, method, params⟩ := r
  have hasked := askedItems_eq hparams
  unfold Client.answerTo
  dsimp only at hid hmethod hasked ⊢
  split
  · rw [hasked]
    exact ⟨rfl, hid.symm, rfl, _, hmethod, .settings⟩
  · exact ⟨rfl, hid.symm, rfl, _, hmethod, .acknowledged (by decide)⟩
  · exact ⟨rfl, hid.symm, rfl, _, hmethod, .acknowledged (by decide)⟩
  · exact ⟨rfl, hid.symm, rfl, _, hmethod, .acknowledged (by decide)⟩
  · next hsettings hregister hunregister hcreate =>
    refine ⟨rfl, hid.symm, rfl, _, hmethod, .unknown hsettings ?_⟩
    simpa [acknowledged] using ⟨hregister, hunregister, hcreate⟩

end Rpc

/-! ## Responses among what is written -/

namespace Outgoing

/-- The responses that have been written. -/
def responses (o : Outgoing) : List Json :=
  o.messages.filter fun a => (a.get? "method").isNone

variable {o o' : Outgoing}

/-- Requests and notifications leave the responses as they were. -/
theorem Turn.responses_eq (h : Turn Client.HasMethod o o') (ho : o.Idle) :
    o'.responses = o.responses := by
  cases h with
  | nothing | breakOff | close => rfl
  | @write message hmessage n =>
    have hnone : (message.get? "method").isNone = false := by
      rw [← Option.not_isSome, hmessage]
      rfl
    rw [responses, messages_writePart ho, List.filter_append]
    split
    · rw [List.filter_cons_of_neg (by simp [hnone]), List.filter_nil, List.append_nil]
      rfl
    · rw [List.filter_nil, List.append_nil]
      rfl

/-- A response that is written is the last one. -/
theorem responses_writePart (ho : o.Idle) {a : Json} (ha : a.get? "method" = none) :
    (o.writePart a (Writing.size ⟨a, 0⟩)).responses = o.responses ++ [a] := by
  rw [responses, messages_writePart ho, if_pos (Nat.le_refl _), List.filter_append,
    List.filter_cons_of_pos (by simp [ha]), List.filter_nil]
  rfl

end Outgoing

/-- A message that is no request makes the client write nothing. -/
theorem Client.outgoing_receive (c : Client) {m : Rpc.Message} (h : ∀ r, m ≠ .request r) :
    (c.receive m).outgoing = c.outgoing := by
  cases m with
  | request r => exact absurd rfl (h r)
  | notification n => rfl
  | response r =>
    simp only [receive, settle]
    split
    · split <;> rfl
    · rfl

namespace Calls

/-! ## What happens to a client -/

/-- What may happen next to a client. What its server sends is given by the text of the message. -/
inductive Happening
  | said (text : List Char)
  /-- An event that is not the receipt of a message. -/
  | event (e : Event) (h : ∀ m, e ≠ .receive m)
  | notify (n : Rpc.Notification) (w : Client.WriteEnd)
  | sync (uri text : String)

/-- What a happening does. -/
def happen (s : Calls) : Happening → Calls
  | .said text =>
    match Rpc.Message.parseChars text with
    | .ok m => s.step (.receive m)
    | .error fault => s.step (.lose (.badMessage fault))
  | .event e _ => s.step e
  | .notify n w => { s with client := (s.client.sendUntil n.toJson w).2 }
  | .sync uri text => { s with client := (s.client.sync uri text).2 }

/-- What a list of happenings does. -/
def course (s : Calls) (hs : List Happening) : Calls := hs.foldl happen s

/-- **To read a stream is to be said its texts**, with nothing in between. -/
theorem run_readerEvents_texts {texts : List String} {ms : List Rpc.Message}
    (h : List.Forall₂ Rpc.ReadsAs texts ms) (s : Calls) :
    ∃ fault, s.run (readerEvents (texts.flatMap Rpc.textOctets))
      = (s.course (texts.map fun text => .said text.toList)).run (endEvents fault) := by
  obtain ⟨fault, hread⟩ := Rpc.readStream_texts h
  have hsaid : s.run (ms.map .receive) = s.course (texts.map fun text => .said text.toList) := by
    clear hread
    induction h generalizing s with
    | nil => rfl
    | @cons text m texts ms htext _ ih =>
      have hfirst : s.happen (.said text.toList) = s.step (.receive m) := by
        simp only [happen, htext.2]
      rw [List.map_cons, List.map_cons, course, List.foldl_cons, hfirst]
      exact ih (s.step (.receive m))
  refine ⟨fault, ?_⟩
  rw [readerEvents, hread, Option.toList_some, List.flatMap_singleton, ← hsaid]
  exact List.foldl_append

/-- The server is listened to, and the way to it is intact. -/
def isOpen (s : Calls) : Bool :=
  s.client.listening && decide (s.client.outgoing.channel = .intact)

/-- What is read at a happening, if the client is open. -/
def readAt (s : Calls) : Happening → List (List Char)
  | .said text => if s.isOpen then [text] else []
  | _ => []

/-- The texts of the messages that are read while the client is open. -/
def readOpen (s : Calls) : List Happening → List (List Char)
  | [] => []
  | h :: hs => s.readAt h ++ (s.happen h).readOpen hs

variable {s : Calls}

/-- What happens, but for messages of the server, makes the client write no response. -/
theorem turn_event {e : Event} (he : ∀ m, e ≠ .receive m) :
    Outgoing.Turn Client.HasMethod s.client.outgoing (s.step e).client.outgoing := by
  have hturn := turn_step s e
  cases e with
  | receive m => exact absurd rfl (he m)
  | begin_ _ | enlist _ | write _ _ | wake _ | expire _ | cancel _ | tell _ _ | abandon _ _
  | lose _ | failPending | hangUp | breakOff => exact hturn

theorem outgoing_receive {m : Rpc.Message} (h : ∀ r, m ≠ .request r) :
    (s.step (.receive m)).client.outgoing = s.client.outgoing := by
  simp only [step]
  split
  · exact s.client.outgoing_receive h
  · rfl

/-- A client that is not open writes nothing, whatever it receives. -/
theorem outgoing_receive_of_not_open (hopen : s.isOpen = false) (m : Rpc.Message) :
    (s.step (.receive m)).client.outgoing = s.client.outgoing := by
  cases m with
  | notification n => exact outgoing_receive fun _ h => by cases h
  | response r => exact outgoing_receive fun _ h => by cases h
  | request r =>
    simp only [step]
    split
    · -- it is listened to, so it is the way to the server that is not intact
      next hlistening =>
      rw [isOpen, hlistening, Bool.true_and, decide_eq_false_iff_not] at hopen
      cases hchannel : s.client.outgoing.channel with
      | intact => exact absurd hchannel hopen
      | broken | closed =>
        rw [Client.receive, Client.send_of_fault (congrArg Channel.fault? hchannel)]
    · rfl

/-- What the client takes for the end of the stream makes it write nothing. -/
theorem outgoing_lose (fault : Rpc.FrameFault) :
    (s.step (.lose fault)).client.outgoing = s.client.outgoing := by
  generalize hs : s.step (.lose fault) = s'
  have heffect := effect_step s (.lose fault)
  rw [hs] at heffect
  cases heffect with
  | stuck _ | stopped _ | lost _ _ | unlost _ => rfl

/-- **A request that is read while the client is open is answered.** -/
theorem responses_said_request (hidle : s.client.outgoing.Idle) (hopen : s.isOpen = true)
    {m : List Char × Json} (hm : Rpc.Readable m) (hrequest : Rpc.IsRequest m.2) :
    ∃ a, Rpc.IsAnswer m.2 a ∧ (s.happen (.said m.1)).client.outgoing.Idle
      ∧ (s.happen (.said m.1)).client.outgoing.responses
        = s.client.outgoing.responses ++ [a] := by
  obtain ⟨hlistening, hintact⟩ := Bool.and_eq_true_iff.mp hopen
  obtain ⟨r, hread, hid, hmethod, hparams⟩ :=
    hrequest.reads (Json.tidy_of_parse hm.text) hm.numbers
  have hanswer := Rpc.isAnswer_answerTo hid hmethod hparams
  have hmessage : Rpc.Message.parseChars m.1 = .ok (.request r) := by
    rw [Rpc.Message.parseChars, hm.text]
    exact hread
  have hsent : (s.happen (.said m.1)).client.outgoing
      = s.client.outgoing.writePart (Client.answerTo r).toJson
          (Writing.size ⟨(Client.answerTo r).toJson, 0⟩) := by
    simp only [happen, hmessage, step, hlistening, if_true, Client.receive,
      Client.send_of_intact (of_decide_eq_true hintact)]
  rw [hsent]
  exact ⟨_, hanswer, Outgoing.idle_writePart _ _ _,
    Outgoing.responses_writePart hidle hanswer.method⟩

/-- A message that can not be read is taken for the end of the stream. -/
theorem happen_said_of_unreadable {m : List Char × Json} (htext : Json.IsTextOf m.1 m.2)
    (hvalid : Rpc.Valid m.2) (hm : ¬ Rpc.Readable m) :
    ∃ fault, s.happen (.said m.1) = s.step (.lose (.badMessage fault)) := by
  cases hread : Rpc.Message.parseChars m.1 with
  | ok message => exact absurd ((Rpc.readable_iff htext hvalid).mpr ⟨message, hread⟩) hm
  | error fault => exact ⟨fault, by simp only [happen, hread]⟩

/-- **A message that asks for no answer makes the client write nothing.** -/
theorem outgoing_said_of_not_asks {m : List Char × Json} (htext : Json.IsTextOf m.1 m.2)
    (hvalid : Rpc.Valid m.2) (hasks : Rpc.asks m.2 = false) :
    (s.happen (.said m.1)).client.outgoing = s.client.outgoing := by
  by_cases hm : Rpc.Readable m
  · obtain ⟨message, hread, hmessage⟩ :=
      hvalid.reads_of_not_asks (Json.tidy_of_parse hm.text) hm.numbers hasks
    have hparse : Rpc.Message.parseChars m.1 = .ok message := by
      rw [Rpc.Message.parseChars, hm.text]
      exact hread
    simp only [happen, hparse]
    exact outgoing_receive hmessage
  · obtain ⟨fault, hlost⟩ := happen_said_of_unreadable htext hvalid hm
    rw [hlost]
    exact outgoing_lose _

/-- What happens besides reading makes the client write no response. -/
theorem turn_happen {h : Happening} (hunread : s.readAt h = []) :
    Outgoing.Turn Client.HasMethod s.client.outgoing (s.happen h).client.outgoing := by
  cases h with
  | said text =>
    have hopen : s.isOpen = false := by
      by_contra hopen
      simp [readAt, hopen] at hunread
    simp only [happen]
    split
    · rw [outgoing_receive_of_not_open hopen]
      exact .nothing
    · exact turn_event fun _ h => by cases h
  | event e he => exact turn_event he
  | notify n w => exact s.client.turn_sendUntil (Client.hasMethod_notification n) w
  | sync uri text => exact s.client.turn_sync uri text

/-! ## A server that is gone -/

/-- The server counts as gone, and is listened to no more. -/
def Gone (s : Calls) : Prop := s.client.listening = false ∧ s.client.terminated = true

theorem Gone.step (h : s.Gone) (e : Event) : (s.step e).Gone := by
  have hreader := reader_step s e
  have hnone : s.reader.listening = false := h.1
  have hlistening : (s.reader.step e).listening = false
      ∧ (s.reader.step e).terminated = s.reader.terminated := by
    cases e with
    | lose fault => simp [Reader.step, hnone]
    | begin_ _ | enlist _ | write _ _ | wake _ | expire _ | cancel _ | tell _ _ | abandon _ _
    | receive _ | failPending | hangUp | breakOff => exact ⟨hnone, rfl⟩
  rw [← hreader] at hlistening
  exact ⟨hlistening.1, hlistening.2.trans h.2⟩

/-- **A server that is gone stays so**, whatever happens. -/
theorem Gone.happen (h : s.Gone) (x : Happening) : (s.happen x).Gone := by
  cases x with
  | said text =>
    simp only [Calls.happen]
    split
    · exact h.step _
    · exact h.step _
  | event e _ => exact h.step e
  | notify n w =>
    have hreader := reader_sendUntil s n.toJson w
    exact ⟨(congrArg Reader.listening hreader).trans h.1,
      (congrArg Reader.terminated hreader).trans h.2⟩
  | sync uri text =>
    simp only [Calls.happen, Client.sync]
    split <;> exact h

theorem Gone.course (h : s.Gone) (hs : List Happening) : (s.course hs).Gone := by
  induction hs generalizing s with
  | nil => exact h
  | cons x hs ih => exact ih (h.happen x)

/-- Of a server that is gone nothing is read. -/
theorem Gone.readOpen_eq (h : s.Gone) (hs : List Happening) : s.readOpen hs = [] := by
  induction hs generalizing s with
  | nil => rfl
  | cons x hs ih =>
    have hunread : s.readAt x = [] := by
      cases x <;> simp [readAt, isOpen, h.1]
    rw [readOpen, hunread, ih (h.happen x)]
    rfl

/-- **A message that can not be read ends everything**: nothing is written, and the server counts as
gone. -/
theorem said_of_unreadable (hopen : s.isOpen = true) {m : List Char × Json}
    (htext : Json.IsTextOf m.1 m.2) (hvalid : Rpc.Valid m.2) (hm : ¬ Rpc.Readable m) :
    (s.happen (.said m.1)).client.outgoing = s.client.outgoing
      ∧ (s.happen (.said m.1)).Gone := by
  obtain ⟨hlistening, _⟩ := Bool.and_eq_true_iff.mp hopen
  obtain ⟨fault, hlost⟩ := happen_said_of_unreadable (s := s) htext hvalid hm
  have hreader := reader_step s (.lose (.badMessage fault))
  have hgone : s.reader.step (.lose (.badMessage fault)) = ⟨false, true, true⟩ := by
    simp [Reader.step, reader, hlistening]
  rw [hlost]
  rw [hgone] at hreader
  exact ⟨outgoing_lose _, congrArg Reader.listening hreader, congrArg Reader.terminated hreader⟩

/-! ## Answers to what is read -/

/-- **How messages are answered**: with proper answers to the requests among them, one for each and
in their order, if all can be read; otherwise up to the first that can not be read, which is the
last one, and the server counts as gone. -/
inductive Answered (s : Calls) : List (List Char × Json) → List Json → Prop
  | all {ms : List (List Char × Json)} {answers : List Json} (hread : ∀ m ∈ ms, Rpc.Readable m)
      (hanswers : List.Forall₂ Rpc.IsAnswer (Rpc.requests ms) answers) : Answered s ms answers
  | upTo {ms : List (List Char × Json)} {answers : List Json} {last : List Char × Json}
      (hread : ∀ m ∈ ms, Rpc.Readable m)
      (hanswers : List.Forall₂ Rpc.IsAnswer (Rpc.requests ms) answers)
      (hlast : ¬ Rpc.Readable last) (hgone : s.Gone) : Answered s (ms ++ [last]) answers

/-- Messages that are read before others are answered before them. -/
theorem Answered.prepend {ms now : List (List Char × Json)} {answers answers' : List Json}
    (hread : ∀ m ∈ now, Rpc.Readable m)
    (hanswers : List.Forall₂ Rpc.IsAnswer (Rpc.requests now) answers)
    (h : Answered s ms answers') : Answered s (now ++ ms) (answers ++ answers') := by
  cases h with
  | all hread' hanswers' =>
    refine .all (List.forall_mem_append.mpr ⟨hread, hread'⟩) ?_
    rw [Rpc.requests_append]
    exact List.rel_append hanswers hanswers'
  | upTo hread' hanswers' hlast hgone =>
    rw [← List.append_assoc]
    refine .upTo (List.forall_mem_append.mpr ⟨hread, hread'⟩) ?_ hlast hgone
    rw [Rpc.requests_append]
    exact List.rel_append hanswers hanswers'

/-- Where nothing is read nothing is answered. -/
theorem Answered.of_nil {answers : List Json} (h : Answered s [] answers) : answers = [] := by
  generalize hms : ([] : List (List Char × Json)) = ms at h
  cases h with
  | all _ hanswers =>
    subst hms
    exact List.forall₂_nil_left_iff.mp hanswers
  | upTo => exact absurd hms.symm (List.append_ne_nil_of_right_ne_nil _ (List.cons_ne_nil _ _))

/-- **All requests are answered exactly if all can be read.** -/
theorem Answered.forall₂_iff {ms : List (List Char × Json)} {answers : List Json}
    (h : Answered s ms answers) :
    List.Forall₂ Rpc.IsAnswer (Rpc.requests ms) answers
      ↔ ∀ m ∈ ms, Rpc.asks m.2 = true → Rpc.Readable m := by
  cases h with
  | all hread hanswers => exact ⟨fun _ m hm _ => hread m hm, fun _ => hanswers⟩
  | @upTo ms _ last hread hanswers hlast _ =>
    constructor
    · intro hall
      -- there are as many answers as requests before the last message, so that is none
      have hlength := hanswers.length_eq.trans hall.length_eq.symm
      rw [Rpc.requests_append, List.length_append] at hlength
      have hnone : Rpc.requests [last] = [] := List.length_eq_zero_iff.mp (by omega)
      rw [Rpc.requests_eq_nil, List.forall_mem_singleton] at hnone
      rw [List.forall_mem_append, List.forall_mem_singleton]
      exact ⟨fun m hm _ => hread m hm, fun hasks => absurd hasks (by simp [hnone])⟩
    · intro hreadable
      rw [List.forall_mem_append, List.forall_mem_singleton] at hreadable
      have hasks : Rpc.asks last.2 = false := eq_false_of_ne_true fun h => hlast (hreadable.2 h)
      have hnone : Rpc.requests [last] = [] :=
        Rpc.requests_eq_nil.mpr (List.forall_mem_singleton.mpr hasks)
      rw [Rpc.requests_append, hnone, List.append_nil]
      exact hanswers

/-- **A message that is read while the client is open** is answered by itself. -/
theorem responses_said (hidle : s.client.outgoing.Idle) (hopen : s.isOpen = true)
    {m : List Char × Json} (htext : Json.IsTextOf m.1 m.2) (hvalid : Rpc.Valid m.2) :
    (s.happen (.said m.1)).client.outgoing.Idle
      ∧ ∃ answers, Answered (s.happen (.said m.1)) [m] answers
        ∧ (s.happen (.said m.1)).client.outgoing.responses
          = s.client.outgoing.responses ++ answers := by
  by_cases hm : Rpc.Readable m
  · have hall : ∀ m' ∈ [m], Rpc.Readable m' := List.forall_mem_singleton.mpr hm
    cases hasks : Rpc.asks m.2 with
    | true =>
      obtain ⟨a, hanswer, hidle', hresponses⟩ :=
        responses_said_request hidle hopen hm (hvalid.isRequest hasks)
      have hone : Rpc.requests [m] = [m.2] := List.filter_cons_of_pos hasks
      refine ⟨hidle', [a], .all hall ?_, hresponses⟩
      rw [hone]
      exact .cons hanswer .nil
    | false =>
      have hsame := outgoing_said_of_not_asks (s := s) htext hvalid hasks
      have hnone : Rpc.requests [m] = [] :=
        Rpc.requests_eq_nil.mpr (List.forall_mem_singleton.mpr hasks)
      rw [hsame]
      refine ⟨hidle, [], .all hall ?_, (List.append_nil _).symm⟩
      rw [hnone]
      exact .nil
  · obtain ⟨hsame, hgone⟩ := said_of_unreadable hopen htext hvalid hm
    rw [hsame]
    refine ⟨hidle, [], ?_, (List.append_nil _).symm⟩
    exact @Answered.upTo _ [] [] m (List.forall_mem_nil _) .nil hm hgone

/-- **One step**: the responses that are written at a happening are the answers to what is read at
it. -/
theorem responses_happen (hidle : s.client.outgoing.Idle) (x : Happening)
    {ms : List (List Char × Json)} (hread : s.readAt x = ms.map Prod.fst)
    (hvalid : ∀ m ∈ ms, Json.IsTextOf m.1 m.2 ∧ Rpc.Valid m.2) :
    (s.happen x).client.outgoing.Idle
      ∧ ∃ answers, Answered (s.happen x) ms answers
        ∧ (s.happen x).client.outgoing.responses = s.client.outgoing.responses ++ answers := by
  by_cases hunread : s.readAt x = []
  · -- calls may write, but what they write has a method
    have hturn := turn_happen hunread
    rw [hunread] at hread
    obtain rfl : ms = [] := List.map_eq_nil_iff.mp hread.symm
    refine ⟨hturn.idle hidle, [], .all (List.forall_mem_nil _) .nil, ?_⟩
    rw [hturn.responses_eq hidle, List.append_nil]
  · cases x with
    | said text =>
      have hopen : s.isOpen = true := by
        by_contra hopen
        simp [readAt, hopen] at hunread
      rw [readAt, if_pos hopen] at hread
      obtain ⟨m, rfl, rfl⟩ := List.map_eq_singleton_iff.mp hread.symm
      obtain ⟨htext, hm⟩ := hvalid m (List.mem_singleton_self m)
      exact responses_said hidle hopen htext hm
    | event _ _ | notify _ _ | sync _ _ => exact absurd rfl hunread

/-- **One run**: the responses that are written in it are the answers to what is read in it. -/
theorem responses_course (hidle : s.client.outgoing.Idle) (hs : List Happening)
    {ms : List (List Char × Json)} (hread : s.readOpen hs = ms.map Prod.fst)
    (hvalid : ∀ m ∈ ms, Json.IsTextOf m.1 m.2 ∧ Rpc.Valid m.2) :
    ∃ answers, Answered (s.course hs) ms answers
      ∧ (s.course hs).client.outgoing.responses = s.client.outgoing.responses ++ answers := by
  -- the step is taken from any state between two writes, so the state is generalized
  induction hs generalizing s ms with
  | nil =>
    obtain rfl : ms = [] := List.map_eq_nil_iff.mp hread.symm
    exact ⟨[], .all (List.forall_mem_nil _) .nil, (List.append_nil _).symm⟩
  | cons x hs ih =>
    rw [readOpen] at hread
    obtain ⟨now, later, rfl, hnow, hlater⟩ := List.map_eq_append_iff.mp hread.symm
    rw [List.forall_mem_append] at hvalid
    obtain ⟨hidle', answers, hanswered, hresponses⟩ :=
      responses_happen hidle x hnow.symm hvalid.1
    obtain ⟨more, hmore, hresponses'⟩ := ih hidle' hlater.symm hvalid.2
    change ∃ answers, Answered ((s.happen x).course hs) _ answers
      ∧ ((s.happen x).course hs).client.outgoing.responses = _
    refine ⟨answers ++ more, ?_, by rw [hresponses', hresponses, List.append_assoc]⟩
    cases hanswered with
    | all hreadable hanswers => exact hmore.prepend hreadable hanswers
    | upTo hreadable hanswers hlast hgone =>
      -- nothing is read any more
      rw [hgone.readOpen_eq] at hlater
      obtain rfl : later = [] := List.map_eq_nil_iff.mp hlater
      rw [hmore.of_nil, List.append_nil, List.append_nil]
      exact .upTo hreadable hanswers hlast (hgone.course hs)

/-! ## Which requests are answered -/

/-- **Every request of the server is answered once, if all can be read.** Whatever calls do
meanwhile, of valid messages that come while the client is open it answers the requests, each once
and in their order, up to the first message that it can not read; that one ends the connection. So
all requests among them are answered exactly if all can be read. A message that is no request makes
it write nothing. -/
theorem requests_answered_iff (language : Language) (hs : List Happening)
    {ms : List (List Char × Json)} (hread : (start language).readOpen hs = ms.map Prod.fst)
    (hvalid : ∀ m ∈ ms, Json.IsTextOf m.1 m.2 ∧ Rpc.Valid m.2) :
    let responses := ((start language).course hs).client.outgoing.responses
    Answered ((start language).course hs) ms responses
      ∧ (List.Forall₂ Rpc.IsAnswer (Rpc.requests ms) responses
        ↔ ∀ m ∈ ms, Rpc.asks m.2 = true → Rpc.Readable m)
      ∧ ∀ before text v, Json.IsTextOf text v → Rpc.Valid v → Rpc.asks v = false →
          ((start language).course (before ++ [.said text])).client.outgoing
            = ((start language).course before).client.outgoing := by
  intro responses
  obtain ⟨answers, hanswered, hresponses⟩ :=
    responses_course (s := start language) rfl hs hread hvalid
  have hall : responses = answers := hresponses
  rw [hall]
  refine ⟨hanswered, hanswered.forall₂_iff, fun before text v htext hvalid hasks => ?_⟩
  rw [course, List.foldl_append]
  exact outgoing_said_of_not_asks (m := (text, v)) htext hvalid hasks

/-- What a server says: it asks for two settings, reports with an id of null and a result, answers,
and asks without parameters for something unknown. -/
def exchange : List Json :=
  [.obj [("id", .ofNat 7), ("jsonrpc", .str "2.0"), ("method", .str "workspace/configuration"),
      ("params", .obj [("items", .arr [.obj [], .null])])],
    .obj [("id", .null), ("jsonrpc", .str "2.0"), ("method", .str "telemetry/event"),
      ("result", .null)],
    .obj [("id", .ofNat 1), ("jsonrpc", .str "2.0"), ("result", .null)],
    .obj [("id", .str "a"), ("jsonrpc", .str "2.0"), ("method", .str "window/showDocument"),
      ("result", .null)]]

/-- The server says so next to a request of the client's own. -/
def exchangeCourse : List Happening :=
  [.event (.begin_ ⟨"textDocument/hover", none, 1000⟩) (fun _ h => by cases h),
    .event (.enlist 1) (fun _ h => by cases h),
    .event (.write 1 .whole) (fun _ h => by cases h)]
    ++ exchange.map fun v => .said v.compact.toList

/-- Two of the four messages are requests, and are answered. -/
theorem requests_answered_exchange :
    let ms := exchange.map fun v => (v.compact.toList, v)
    (start .rust).readOpen exchangeCourse = ms.map Prod.fst
      ∧ List.Forall₂ Rpc.IsAnswer (exchange.filter Rpc.asks)
        ((start .rust).course exchangeCourse).client.outgoing.responses := by
  intro ms
  have hread : (start .rust).readOpen exchangeCourse = ms.map Prod.fst := by decide +kernel
  have hms : ∀ m ∈ ms, Json.parseChars m.1 = .ok m.2 ∧ (Rpc.Message.ofJson m.2).isOk = true := by
    decide +kernel
  have hvalid : ∀ m ∈ ms, Rpc.Valid m.2 ∧ Rpc.NumbersFit m.2 := by
    intro m hm
    obtain ⟨hparse, hok⟩ := hms m hm
    refine (Rpc.valid_iff (Json.tidy_of_parse hparse)).mpr ?_
    cases hmessage : Rpc.Message.ofJson m.2 with
    | ok message => exact ⟨message, rfl⟩
    | error _ =>
      rw [hmessage] at hok
      cases hok
  obtain ⟨-, hall, -⟩ := requests_answered_iff .rust exchangeCourse hread fun m hm =>
    ⟨Json.isTextOf_of_parse (hms m hm).1, (hvalid m hm).1⟩
  exact ⟨hread, hall.mpr fun m hm _ => ⟨(hms m hm).1, (hvalid m hm).2⟩⟩

/-- A request of the server with an id below zero. -/
def negative : Json :=
  .obj [("id", .ofInt (-1)), ("jsonrpc", .str "2.0"), ("method", .str "workspace/configuration")]

/-- **Such a request is not answered**, though it comes while the client is open: the server counts
as gone from then on. -/
theorem not_answered_negative :
    let text := negative.compact.toList
    let s := (start .rust).course [.said text]
    (start .rust).readOpen [.said text] = [text]
      ∧ Json.IsTextOf text negative ∧ Rpc.Valid negative
      ∧ Rpc.requests [(text, negative)] = [negative]
      ∧ s.client.outgoing.responses = [] ∧ s.client.terminated = true := by
  intro text s
  have htext : Json.IsTextOf text negative :=
    Json.isTextOf_of_parse (by decide +kernel : Json.parseChars text = .ok negative)
  have hvalid : Rpc.Valid negative := .request ⟨⟨_, rfl⟩, ⟨_, rfl, .number _⟩, ⟨_, rfl⟩⟩
  have hunreadable : ¬ Rpc.Readable (text, negative) := by
    rintro ⟨-, hfit⟩
    obtain ⟨k, hk, -⟩ := hfit.id (.int (-1)) rfl
    cases hk
  obtain ⟨hsame, hgone⟩ :=
    said_of_unreadable (s := start .rust) rfl (m := (text, negative)) htext hvalid hunreadable
  refine ⟨rfl, htext, hvalid, rfl, ?_, hgone.2⟩
  change ((start .rust).happen (.said text)).client.outgoing.responses = []
  rw [hsame]
  rfl

end Calls

end SymbolQuery
