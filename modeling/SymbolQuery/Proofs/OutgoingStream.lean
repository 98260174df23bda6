/-
When the stream to a server stays a stream of frames.

Only one writer has the channel at a time; the others wait for it. It delivers its frame
in pieces of any size, and whoever awaits the write may go away between two of them: then
the channel is free again, with the frame where it stands. Here each of these is an event
of its own, and the messages are any: whose turn comes, and with what, is left open.

While a writer has the channel, the server has whole frames and the beginning of the one
that is being written, provided that every writer before finished or had not begun. One
that went away inside its frame spoils the stream for good: the octets that come behind,
whatever they are, do not make it a stream of frames again.

A caller who loses patience goes away in just this way, and what tells the server that
the request is given up is then written behind the unfinished frame.
-/
import Mathlib.Data.List.Induction
import SymbolQuery.Proofs.Calls
import SymbolQuery.Proofs.FrameCuts

set_option autoImplicit false

namespace SymbolQuery

namespace Writing

/-- Some octets are out, but not all of them. -/
def Unfinished (w : Writing) : Prop := 0 < w.delivered ∧ w.delivered < w.size

theorem size_eq (w : Writing) : w.size = (Rpc.frame w.message).length :=
  (Text.length_encode _).symm

instance (w : Writing) : Decidable w.Unfinished := inferInstanceAs (Decidable (_ ∧ _))

/-- A write that is not unfinished has delivered its frame or nothing. -/
theorem octets_of_not_unfinished {w : Writing} (h : ¬ w.Unfinished) :
    w.octets = [] ∨ w.octets = Rpc.frame w.message := by
  unfold Unfinished at h
  rw [size_eq] at h
  unfold octets
  by_cases hzero : w.delivered = 0
  · left
    rw [hzero, List.take_zero]
  · right
    apply List.take_of_length_le
    omega

/-- The write of a message that is out. -/
def whole (message : Json) : Writing := advance ⟨message, 0⟩ (size ⟨message, 0⟩)

theorem octets_whole (message : Json) : (whole message).octets = Rpc.frame message := by
  have hdelivered : (whole message).delivered = (Rpc.frame message).length := by
    rw [← size_eq ⟨message, 0⟩]
    change min _ (0 + _) = _
    rw [Nat.zero_add, Nat.min_self]
  unfold octets
  rw [hdelivered]
  exact List.take_length

end Writing

/-! ## Whole frames -/

/-- The octets of an unfinished frame do not begin a stream of frames, with frames behind them. -/
theorem Writing.Unfinished.append_ne {w : Writing} (hw : w.Unfinished) {rest : List UInt8}
    (hrest : Rpc.HeadFirst rest) (sent : List Json) :
    w.octets ++ rest ≠ sent.flatMap Rpc.frame := by
  intro h
  unfold Unfinished at hw
  rw [size_eq] at hw
  cases sent with
  | nil =>
    have hnil : w.octets = [] := (List.append_eq_nil_iff.mp h).1
    have hlength := congrArg List.length hnil
    unfold octets at hlength
    rw [List.length_take, List.length_nil] at hlength
    omega
  | cons v sent =>
    rw [List.flatMap_cons] at h
    exact Rpc.unfinished_append_ne hw.1 hw.2 hrest h

/-- **One write that stays unfinished spoils the stream**: what the server has been sent is no
stream of frames, whatever came before and behind. -/
theorem Rpc.not_unfinished_of_frames {ws : List Writing} {sent : List Json}
    (h : ws.flatMap Writing.octets = sent.flatMap Rpc.frame) : ∀ w ∈ ws, ¬ w.Unfinished := by
  induction ws generalizing sent with
  | nil => exact fun _ hw => absurd hw List.not_mem_nil
  | cons w ws ih =>
    rw [List.flatMap_cons] at h
    have hw : ¬ w.Unfinished := fun hcut => hcut.append_ne (HeadFirst.writings ws) sent h
    rw [List.forall_mem_cons]
    refine ⟨hw, ?_⟩
    -- what is not unfinished is taken off both streams
    obtain hoctets | hoctets := Writing.octets_of_not_unfinished hw
    · rw [hoctets, List.nil_append] at h
      exact ih h
    · rw [hoctets] at h
      cases sent with
      | nil => exact absurd (List.append_eq_nil_iff.mp h).1 (frame_ne_nil w.message)
      | cons v sent =>
        rw [List.flatMap_cons] at h
        exact ih (frame_append_inj h).2

/-- Behind an unfinished frame a whole one is not even the beginning of a stream of frames. -/
theorem Rpc.not_prefix_of_unfinished {w : Writing} (hw : w.Unfinished) (v : Json)
    (sent : List Json) : ¬ w.octets ++ frame v <+: sent.flatMap frame := by
  rintro ⟨back, hback⟩
  rw [List.append_assoc] at hback
  exact hw.append_ne (HeadFirst.frame_append v back) sent hback

namespace Outgoing

/-- The server has been sent whole frames, and behind them as much of the frame that is being
written as is out. -/
def Intact (o : Outgoing) : Prop :=
  ∃ sent : List Json,
    o.octets = sent.flatMap Rpc.frame ++ o.current.toList.flatMap Writing.octets

/-- Only the writes that are over count. -/
theorem intact_iff_past (o : Outgoing) : o.Intact ↔ ∀ w ∈ o.past, ¬ w.Unfinished := by
  unfold Intact octets
  rw [List.flatMap_append]
  constructor
  · rintro ⟨sent, hsent⟩
    exact Rpc.not_unfinished_of_frames (List.append_cancel_right hsent)
  · intro hpast
    generalize o.past = ws at hpast ⊢
    induction ws with
    | nil => exact ⟨[], rfl⟩
    | cons w ws ih =>
      rw [List.forall_mem_cons] at hpast
      obtain ⟨sent, hsent⟩ := ih hpast.2
      have hsent := List.append_cancel_right hsent
      obtain hoctets | hoctets := Writing.octets_of_not_unfinished hpast.1
      · exact ⟨sent, by rw [List.flatMap_cons, hoctets, hsent, List.nil_append]⟩
      · exact ⟨w.message :: sent, by rw [List.flatMap_cons, hoctets, hsent, List.flatMap_cons]⟩

/-! ## Turns -/

/-- What may happen to the channel. -/
inductive Event
  /-- A writer whose turn it is gets the channel. -/
  | begin_ (message : Json)
  /-- Some octets are taken, at most the given number. -/
  | deliver (octets : Nat)
  /-- The writer lets go: it is done, its write fails, or it goes away. -/
  | letGo
  /-- The server stops listening. -/
  | breakOff
  /-- The client hangs up. -/
  | close

/-- What an event does. Nobody begins to write, or hangs up, while another writer has the channel.
A write that the server does not hear is one that lets go before any octet is out. -/
def step (o : Outgoing) : Event → Outgoing
  | .begin_ message =>
    match o.current with
    | none => o.start message
    | some _ => o
  | .deliver n => o.deliver n
  | .letGo => o.release
  | .breakOff => o.breakOff
  | .close =>
    match o.current with
    | none => o.close
    | some _ => o

/-- What a list of events does. -/
def run (o : Outgoing) (es : List Event) : Outgoing := es.foldl step o

/-- A write that is over is one that was let go of. -/
theorem mem_past_step {o : Outgoing} {e : Event} {w : Writing} :
    w ∈ (o.step e).past ↔ w ∈ o.past ∨ e = .letGo ∧ o.current = some w := by
  cases e with
  | letGo =>
    change w ∈ o.past ++ o.current.toList ↔ _
    simp
  | deliver n | breakOff => simp [step, deliver, breakOff]
  | begin_ message | close =>
    simp only [step]
    split <;> simp [start, close]

/-- The writes that end in a run are those that are let go of in it. -/
theorem mem_past_run {o : Outgoing} {es : List Event} {w : Writing} :
    w ∈ (o.run es).past
      ↔ w ∈ o.past
        ∨ ∃ before after, es = before ++ .letGo :: after ∧ (o.run before).current = some w := by
  induction es generalizing o with
  | nil => simp [run]
  | cons e es ih =>
    change w ∈ ((o.step e).run es).past ↔ _
    rw [ih, mem_past_step, or_assoc]
    apply or_congr_right
    constructor
    · rintro (⟨rfl, hcurrent⟩ | ⟨before, after, rfl, hcurrent⟩)
      · exact ⟨[], es, rfl, hcurrent⟩
      · exact ⟨e :: before, after, rfl, hcurrent⟩
    · rintro ⟨before, after, hes, hcurrent⟩
      cases before with
      | nil =>
        exact Or.inl ⟨(List.cons.inj hes).1, hcurrent⟩
      | cons b before =>
        obtain ⟨rfl, hrest⟩ := List.cons.inj hes
        exact Or.inr ⟨before, after, hrest, hcurrent⟩

/-! ## The turns of a client -/

/-- What has been written became more in some turns. -/
def Grows (o o' : Outgoing) : Prop := ∃ es : List Event, o' = o.run es

theorem Grows.refl (o : Outgoing) : o.Grows o := ⟨[], rfl⟩

theorem Grows.trans {o₁ o₂ o₃ : Outgoing} (h : o₁.Grows o₂) (h' : o₂.Grows o₃) : o₁.Grows o₃ := by
  obtain ⟨es, rfl⟩ := h
  obtain ⟨fs, rfl⟩ := h'
  exact ⟨es ++ fs, List.foldl_append.symm⟩

/-- A write that ends anywhere is a turn. -/
theorem Grows.writePart {o : Outgoing} (ho : o.Idle) (message : Json) (n : Nat) :
    o.Grows (o.writePart message n) := by
  have hbegin : o.step (.begin_ message) = o.start message := by
    have hcurrent : o.current = none := ho
    simp only [step, hcurrent]
  refine ⟨[.begin_ message, .deliver n, .letGo], ?_⟩
  unfold run
  rw [List.foldl_cons, hbegin]
  rfl

/-- **What can happen** to what is written: nothing, or a message of those in question is written as
far as it is, or the way to the server is closed at either end. -/
inductive Turn (speaks : Json → Prop) (o : Outgoing) : Outgoing → Prop
  | nothing : Turn speaks o o
  | write {message : Json} (h : speaks message) (n : Nat) : Turn speaks o (o.writePart message n)
  | breakOff : Turn speaks o o.breakOff
  | close : Turn speaks o o.close

variable {speaks : Json → Prop} {o o' : Outgoing}

theorem Turn.whole {message : Json} (h : speaks message) : Turn speaks o (o.write message).2 := by
  unfold Outgoing.write
  split
  · exact .nothing
  · exact .write h _

/-- Nobody is writing behind a turn. -/
theorem Turn.idle (h : Turn speaks o o') (ho : o.Idle) : o'.Idle := by
  cases h with
  | nothing | breakOff | close => exact ho
  | write _ n => exact idle_writePart o _ n

theorem Turn.grows (h : Turn speaks o o') (ho : o.Idle) : o.Grows o' := by
  cases h with
  | nothing => exact Grows.refl o
  | write _ n => exact Grows.writePart ho _ n
  | breakOff => exact ⟨[.breakOff], rfl⟩
  | close =>
    have hcurrent : o.current = none := ho
    refine ⟨[.close], ?_⟩
    simp only [run, List.foldl_cons, List.foldl_nil, step, hcurrent]

end Outgoing

namespace Client

/-- A message is a request or a notification. -/
def HasMethod (message : Json) : Prop := (message.get? "method").isSome = true

theorem hasMethod_numberedRequest (id : Nat) (method : String) (params : Option Json) :
    HasMethod (numberedRequest id method params).toJson := rfl

theorem hasMethod_notification (n : Rpc.Notification) : HasMethod n.toJson := rfl

variable {speaks : Json → Prop}

theorem turn_sendUntil (c : Client) {message : Json} (h : speaks message) (w : WriteEnd) :
    Outgoing.Turn speaks c.outgoing (c.sendUntil message w).2.outgoing := by
  cases w with
  | whole => exact .whole h
  | short fault octets => exact .write h octets

/-- Only a request of the server makes the client write at once, namely its answer. -/
theorem turn_receive (c : Client) (m : Rpc.Message) :
    Outgoing.Turn (fun a => ∃ r, m = .request r ∧ a = (answerTo r).toJson) c.outgoing
      (c.receive m).outgoing := by
  cases m with
  | request r => exact .whole ⟨r, rfl, rfl⟩
  | notification n => exact .nothing
  | response r =>
    simp only [receive, settle]
    split
    · split <;> exact .nothing
    · exact .nothing

/-- What makes the server know a text is a notification. -/
theorem turn_sync (c : Client) (uri text : String) :
    Outgoing.Turn HasMethod c.outgoing (c.sync uri text).2.outgoing := by
  unfold sync
  split
  · exact .nothing
  · exact .whole (hasMethod_notification _)

end Client

namespace Calls

/-- What may be written at an event: the answer to a request that is received, and requests and
notifications at all others. -/
def Event.Speaks : Event → Json → Prop
  | .receive m, a => ∃ r, m = .request r ∧ a = (Client.answerTo r).toJson
  | _, a => Client.HasMethod a

theorem Effect.turn {s s' : Calls} {e : Event} (h : Effect s e s') :
    Outgoing.Turn e.Speaks s.client.outgoing s'.client.outgoing := by
  cases h with
  | @written id q w _ _ | @unwritten id q w _ _ _ =>
    exact s.client.turn_sendUntil (Client.hasMethod_numberedRequest id q.method q.params) w
  | @told t _ w _ =>
    exact s.client.turn_sendUntil (Client.hasMethod_notification (Client.cancelNotice t.id)) w
  | @leftWriting id octets q _ =>
    exact .write (Client.hasMethod_numberedRequest id q.method q.params) octets
  | @leftTelling id octets _ _ =>
    exact .write (Client.hasMethod_notification (Client.cancelNotice id)) octets
  | received _ => exact s.client.turn_receive _
  | hungUp => exact .close
  | brokenOff => exact .breakOff
  -- nothing else writes
  | stuck _ | begun _ | enlisted _ | answered _ _ | unanswered _ _ | late _ | forgotten _ _
  | settled _ | leftEarly _ | leftWaiting _ | unread _ | stopped _ | lost _ _ | unlost _
  | failed _ | unfailed _ => exact .nothing

/-- **What an event makes a client write.** -/
theorem turn_step (s : Calls) (e : Event) :
    Outgoing.Turn e.Speaks s.client.outgoing (s.step e).client.outgoing := (effect_step s e).turn

/-- Whatever calls do, what a new client has written it has written in turns. -/
theorem grows_run (language : Language) (es : List Event) :
    ((start language).run es).client.outgoing.Idle
      ∧ Outgoing.Grows {} ((start language).run es).client.outgoing := by
  induction es using List.reverseRecOn with
  | nil => exact ⟨rfl, Outgoing.Grows.refl _⟩
  | append_singleton es e ih =>
    have hrun : (start language).run (es ++ [e]) = ((start language).run es).step e :=
      List.foldl_append
    rw [hrun]
    exact ⟨(turn_step _ e).idle ih.1, ih.2.trans ((turn_step _ e).grows ih.1)⟩

end Calls

/-! ## The stream of a client -/

/-- **The stream is one of whole frames, and of what is out of the frame being written, exactly as
long as nobody has let go of the channel inside a frame.** -/
theorem Outgoing.intact_run_iff (es : List Outgoing.Event) :
    (Outgoing.run {} es).Intact
      ↔ ∀ before after w, es = before ++ .letGo :: after →
          (Outgoing.run {} before).current = some w → ¬ w.Unfinished := by
  rw [Outgoing.intact_iff_past]
  constructor
  · intro hpast before after w hes hcurrent
    exact hpast w (Outgoing.mem_past_run.mpr (Or.inr ⟨before, after, hes, hcurrent⟩))
  · intro hlet w hw
    obtain hw | ⟨before, after, hes, hcurrent⟩ := Outgoing.mem_past_run.mp hw
    · exact absurd hw List.not_mem_nil
    · exact hlet before after w hes hcurrent

namespace Calls

/-- A caller goes away while his request is being written, and the request is given up. -/
def impatience : List Event :=
  [.begin_ ⟨"textDocument/hover", none, 1000⟩, .enlist 1, .abandon 1 40,
    .cancel (.cleanup 1), .tell (.cleanup 1) .whole]

/-- How far the write of that request comes. -/
def hoverBegun : Writing :=
  Writing.advance ⟨(Client.numberedRequest 1 "textDocument/hover" none).toJson, 0⟩ 40

theorem octets_impatience :
    ((start .rust).run impatience).client.outgoing.octets
      = hoverBegun.octets ++ Rpc.frame (Client.cancelNotice 1).toJson := by
  have hpast : ((start .rust).run impatience).client.outgoing.past
      = [hoverBegun, Writing.whole (Client.cancelNotice 1).toJson] := rfl
  have hcurrent : ((start .rust).run impatience).client.outgoing.current = none := rfl
  rw [Outgoing.octets, hpast, hcurrent]
  simp [Writing.octets_whole]

/-- **A caller who goes away spoils the stream**: behind a part of his request comes the frame that
gives it up, and the octets are not even the beginning of a stream of frames. -/
theorem not_intact_impatience :
    ¬ ((start .rust).run impatience).client.outgoing.Intact
      ∧ ∀ sent : List Json,
          ¬ ((start .rust).run impatience).client.outgoing.octets <+: sent.flatMap Rpc.frame := by
  have hcut : hoverBegun.Unfinished := by decide +kernel
  constructor
  · rw [Outgoing.intact_iff_past]
    intro hpast
    exact hpast hoverBegun List.mem_cons_self hcut
  · intro sent
    rw [octets_impatience]
    exact Rpc.not_prefix_of_unfinished hcut _ sent

end Calls

end SymbolQuery
