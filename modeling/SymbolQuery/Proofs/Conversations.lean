/-
What a lookup says to a provider, whatever it hears.

A conversation lists the questions that a lookup comes to, in the order in which it comes
to them: each with its answer, or withheld because the cancellation had come before. Here
a lookup is read as the set of all conversations that it may have, each with what the
lookup gives at its end. Nothing is assumed of the answers. A provider may fail, be late
or never answer, and it may answer one question in two ways. So what holds of all
conversations holds with any provider.

The runs on the simulated clock are such conversations, and so are those against the
servers of a workspace.
-/
import SymbolQuery.Lookup.Timed
import SymbolQuery.Proofs.Correspondence
import SymbolQuery.Workspace.Dialogue

set_option autoImplicit false

namespace SymbolQuery

/-! ## Conversations -/

/-- A question that a lookup comes to, and what comes of it. -/
inductive Exchange
  /-- The question is put to the provider. -/
  | asked (q : Question) (a : Answer q.Reply)
  /-- The cancellation has come, so the question is not put. -/
  | withheld (q : Question)

namespace Exchange

/-- The question that the lookup came to. -/
def question : Exchange → Question
  | asked q _ => q
  | withheld q => q

/-- The question that the provider was asked. -/
def put? : Exchange → Option Question
  | asked q _ => some q
  | withheld _ => none

end Exchange

/-- The exchanges of a lookup. What is asked at once stands in the order in which it is begun. -/
abbrev Conversation := List Exchange

namespace Conversation

/-- The questions that the lookup came to. -/
def questions (said : Conversation) : List Question := said.map Exchange.question

/-- The questions that the provider was asked. -/
def put (said : Conversation) : List Question := said.filterMap Exchange.put?

/-- No question was withheld: the lookup was not cancelled while it had questions. -/
def Open (said : Conversation) : Prop := ∀ e ∈ said, e.put? = some e.question

/-- The provider was asked a question and gave a reply. -/
def Replied (said : Conversation) (q : Question) (reply : q.Reply) : Prop :=
  .asked q (.ok (.ok reply)) ∈ said

/-- The replies are those of a provider. -/
def Truthful (p : Provider) (said : Conversation) : Prop :=
  ∀ q reply, Replied said q reply → (p q).result = .ok reply

@[simp] theorem questions_append (said said' : Conversation) :
    questions (said ++ said') = questions said ++ questions said' := List.map_append

@[simp] theorem put_append (said said' : Conversation) :
    put (said ++ said') = put said ++ put said' := List.filterMap_append

/-- The provider is asked only questions that the lookup came to. -/
theorem put_sublist (said : Conversation) : (put said).Sublist (questions said) := by
  induction said with
  | nil => exact List.Sublist.refl []
  | cons e said ih =>
    cases e with
    | asked q a => exact ih.cons_cons q
    | withheld q => exact ih.cons q

theorem put_of_open {said : Conversation} (h : Open said) : put said = questions said := by
  induction said with
  | nil => rfl
  | cons e said ih =>
    have hhead : e.put? = some e.question := h e List.mem_cons_self
    have htail := ih fun e' he' => h e' (List.mem_cons_of_mem e he')
    rw [put, List.filterMap_cons_some hhead, ← put, htail]
    rfl

theorem open_append {said said' : Conversation} (h : Open said) (h' : Open said') :
    Open (said ++ said') := by
  intro e he
  rcases List.mem_append.mp he with he | he
  · exact h e he
  · exact h' e he

theorem Truthful.append {p : Provider} {said said' : Conversation} (h : Truthful p said)
    (h' : Truthful p said') : Truthful p (said ++ said') := by
  intro q reply hreply
  rcases List.mem_append.mp hreply with hreply | hreply
  · exact h q reply hreply
  · exact h' q reply hreply

end Conversation

open Conversation

/-! ## All conversations of a lookup -/

/-- The conversations that an action may have, each with the value that it ends with. -/
def Talk (α : Type) := Conversation → α → Prop

namespace Talk

/-- The conversations of actions one after the other. -/
def inTurn {α : Type} : List (Talk α) → Talk (List α)
  | [] => fun said as => said = [] ∧ as = []
  | x :: rest => fun said as =>
    ∃ first a more others, x first a ∧ inTurn rest more others ∧ said = first ++ more
      ∧ as = a :: others

instance : Monad Talk where
  pure a := fun said b => said = [] ∧ b = a
  bind x f := fun said b =>
    ∃ first a more, x first a ∧ f a more b ∧ said = first ++ more

instance : Asking Talk where
  ask _ q := fun said a => said = [.asked q a] ∨ said = [.withheld q] ∧ a = .error .cancelled
  both x y := fun said r =>
    ∃ left right, x left r.1 ∧ y right r.2 ∧ said = left ++ right
  window _ xs := inTurn xs
  warn _ := fun said _ => said = []

/-! ## What all conversations have in common -/

/-- Every conversation of the action and its value are in `P`. -/
def Says {α : Type} (x : Talk α) (P : Conversation → α → Prop) : Prop :=
  ∀ said a, x said a → P said a

namespace Says

variable {α β γ : Type} {x : Talk α} {y : Talk β} {P P' : Conversation → α → Prop}
  {Q : Conversation → β → Prop}

theorem pure {a : α} (h : P [] a) : Says (Pure.pure a) P := by
  rintro _ _ ⟨rfl, rfl⟩
  exact h

theorem warn {warning : Warning} {R : Conversation → Unit → Prop} (h : R [] ()) :
    Says (Asking.warn warning) R := by
  rintro _ ⟨⟩ rfl
  exact h

theorem ask {deadline : Nat} {q : Question} {R : Conversation → Answer q.Reply → Prop}
    (hasked : ∀ a, R [.asked q a] a) (hwithheld : R [.withheld q] (.error .cancelled)) :
    Says (Asking.ask deadline q) R := by
  rintro _ a (rfl | ⟨rfl, rfl⟩)
  · exact hasked a
  · exact hwithheld

theorem weaken (h : Says x P) (hP : ∀ said a, P said a → P' said a) : Says x P' :=
  fun said a hx => hP said a (h said a hx)

/-- What the second action says follows what the first one said. -/
theorem bind {f : α → Talk β} (hx : Says x P)
    (hf : ∀ first a, P first a → Says (f a) fun more b => Q (first ++ more) b) :
    Says (x >>= f) Q := by
  rintro _ b ⟨first, a, more, hfirst, hmore, rfl⟩
  exact hf first a (hx first a hfirst) more b hmore

/-- The value of an action matters only as far as the second action says. -/
theorem last {f : α → Talk β} {R : β → Prop} (hf : ∀ a, Says (f a) fun _ b => R b) :
    Says (x >>= f) fun _ b => R b := by
  rintro _ b ⟨_, a, more, _, hmore, rfl⟩
  exact hf a more b hmore

/-- An action whose value is only worked on says what it said. -/
theorem map {f : α → β} (hx : Says x fun said a => Q said (f a)) :
    Says (x >>= fun a => Pure.pure (f a)) Q :=
  hx.bind fun first a h => .pure (by rw [List.append_nil]; exact h)

theorem both (hx : Says x P) (hy : Says y Q) :
    Says (Asking.both x y) fun said r =>
      ∃ left right, P left r.1 ∧ Q right r.2 ∧ said = left ++ right := by
  rintro _ r ⟨left, right, hleft, hright, rfl⟩
  exact ⟨left, right, hx left r.1 hleft, hy right r.2 hright, rfl⟩

/-- The actions of a window come to their questions one after the other. -/
theorem window (width : Nat) {f : γ → Talk α} {g : γ → List Question}
    (h : ∀ c, Says (f c) fun said _ => questions said = g c) (cs : List γ) :
    Says (Asking.window width (cs.map f)) fun said _ => questions said = cs.flatMap g := by
  change Says (inTurn (cs.map f)) _
  induction cs with
  | nil =>
    rintro _ _ ⟨rfl, rfl⟩
    rfl
  | cons c cs ih =>
    rintro _ _ ⟨first, a, more, others, hfirst, hmore, rfl, rfl⟩
    rw [questions_append, h c first a hfirst, ih more others hmore, List.flatMap_cons]

end Says

end Talk

/-! ## Runs on the clock are conversations -/

/-- The run is a conversation: it asks what is put in it, it has the value at its end, the replies
are those of its provider, and without a cancellation nothing is withheld. -/
structure Run.Is {α : Type} (r : Run α) (w : World) (said : Conversation) : Prop where
  calls : r.calls.map Prod.snd = put said
  whole : w.cancelAt = none → Open said
  truthful : Truthful w.provider said

/-- Whenever and in whatever world the first reading runs, the second one may have that
conversation. -/
def Recorded {α : Type} (x : Timed α) (y : Talk α) : Prop :=
  ∀ (w : World) (t : Nat), ∃ said, y said (x w t).value ∧ (x w t).Is w said

namespace Recorded

variable {α β : Type}

theorem nothing (w : World) (a : α) (t : Nat) (warnings : List Warning) :
    Run.Is ⟨a, t, [], warnings⟩ w [] := by
  refine ⟨rfl, fun _ _ he => ?_, fun _ _ hreply => ?_⟩
  · cases he
  · cases hreply

theorem pure (a : α) : Recorded (Pure.pure a) (Pure.pure a) :=
  fun w t => ⟨[], ⟨rfl, rfl⟩, nothing w a t []⟩

theorem warn (warning : Warning) : Recorded (Asking.warn warning) (Asking.warn warning) :=
  fun w t => ⟨[], rfl, nothing w () t [warning]⟩

theorem append {r : Run α} {s : Run β} {w : World} {said said' : Conversation} (h : r.Is w said)
    (h' : s.Is w said') {γ : Type} (v : γ) (t : Nat) (warnings : List Warning) :
    Run.Is ⟨v, t, r.calls ++ s.calls, warnings⟩ w (said ++ said') := by
  refine ⟨?_, fun hnone => open_append (h.whole hnone) (h'.whole hnone),
    h.truthful.append h'.truthful⟩
  rw [List.map_append, h.calls, h'.calls, put_append]

theorem ask (deadline : Nat) (q : Question) :
    Recorded (Asking.ask deadline q) (Asking.ask deadline q) := by
  intro w t
  change ∃ said, (Asking.ask deadline q : Talk _) said (Timed.ask deadline q w t).value
    ∧ (Timed.ask deadline q w t).Is w said
  by_cases hbegins : begins w.cancelAt t = true
  · rw [Timed.ask_of_begins hbegins]
    refine ⟨[.asked q _], .inl rfl, rfl, ?_, ?_⟩
    · intro _ e he
      rw [List.mem_singleton.mp he]
      rfl
    · -- a reply is what the provider answered before its deadline
      intro q' reply hreply
      rw [Replied, List.mem_singleton] at hreply
      generalize hresult : (w.provider q).result = result at hreply
      cases hrace : (race t deadline (w.provider q).delay w.cancelAt).1 <;>
        rw [hrace] at hreply <;> cases hreply
      exact hresult
  · rw [Timed.ask_of_not_begins hbegins]
    refine ⟨[.withheld q], .inr ⟨rfl, rfl⟩, rfl, ?_, ?_⟩
    · intro hnone
      rw [hnone] at hbegins
      exact absurd (begins_none t) hbegins
    · intro q' reply hreply
      cases List.mem_singleton.mp hreply

theorem bind {x : Timed α} {y : Talk α} {f : α → Timed β} {g : α → Talk β} (hx : Recorded x y)
    (hf : ∀ a, Recorded (f a) (g a)) : Recorded (x >>= f) (y >>= g) := by
  intro w t
  obtain ⟨first, hfirst, his⟩ := hx w t
  obtain ⟨more, hmore, his'⟩ := hf (x w t).value w (x w t).finish
  exact ⟨first ++ more, ⟨first, _, more, hfirst, hmore, rfl⟩, append his his' _ _ _⟩

theorem both {x : Timed α} {y : Talk α} {x' : Timed β} {y' : Talk β} (h : Recorded x y)
    (h' : Recorded x' y') : Recorded (Asking.both x x') (Asking.both y y') := by
  intro w t
  obtain ⟨left, hleft, his⟩ := h w t
  obtain ⟨right, hright, his'⟩ := h' w t
  exact ⟨left ++ right, ⟨left, right, hleft, hright, rfl⟩, append his his' _ _ _⟩

theorem window {γ : Type} (width : Nat) {f : γ → Timed α} {g : γ → Talk α}
    (h : ∀ c, Recorded (f c) (g c)) (cs : List γ) :
    Recorded (Asking.window width (cs.map f)) (Asking.window width (cs.map g)) := by
  -- when a slot is free decides when an action begins, and not what it may say
  have hfrom : ∀ (w : World) (slots : List Nat) (last : Nat), ∃ said,
      Talk.inTurn (cs.map g) said (Timed.windowFrom w slots last (cs.map f)).value
        ∧ (Timed.windowFrom w slots last (cs.map f)).Is w said := by
    intro w
    induction cs with
    | nil => exact fun slots last => ⟨[], ⟨rfl, rfl⟩, nothing w [] last []⟩
    | cons c cs ih =>
      intro slots last
      obtain ⟨first, hfirst, his⟩ := h c w (slots.headD last)
      obtain ⟨more, hmore, his'⟩ := ih
        (slots.tail ++ [max last (f c w (slots.headD last)).finish])
        (max last (f c w (slots.headD last)).finish)
      exact ⟨first ++ more, ⟨first, _, more, _, hfirst, hmore, rfl, rfl⟩, append his his' _ _ _⟩
  exact fun w t => hfrom w _ t

end Recorded

/-- **Every run of a lookup on the clock is one of its conversations.** -/
def recorded : Correspondence Timed Talk where
  Rel := Recorded
  pure := Recorded.pure
  bind := Recorded.bind
  ask := Recorded.ask
  both := Recorded.both
  window := Recorded.window
  warn := Recorded.warn

/-! ## Runs in a workspace are conversations -/

/-- Whatever the first reading gives in a workspace, the second one may give. -/
def Overheard {α : Type} (x : Dialogue α) (y : Talk α) : Prop :=
  ∀ ws : Workspace, ∃ said, y said (x ws).1

namespace Overheard

variable {α β : Type}

theorem ask (deadline : Nat) (q : Question) :
    Overheard (Asking.ask deadline q) (Asking.ask deadline q) :=
  fun _ => ⟨[.asked q _], .inl rfl⟩

theorem bind {x : Dialogue α} {y : Talk α} {f : α → Dialogue β} {g : α → Talk β}
    (hx : Overheard x y) (hf : ∀ a, Overheard (f a) (g a)) : Overheard (x >>= f) (y >>= g) := by
  intro ws
  obtain ⟨first, hfirst⟩ := hx ws
  obtain ⟨more, hmore⟩ := hf (x ws).1 (x ws).2
  exact ⟨first ++ more, first, _, more, hfirst, hmore, rfl⟩

theorem both {x : Dialogue α} {y : Talk α} {x' : Dialogue β} {y' : Talk β} (h : Overheard x y)
    (h' : Overheard x' y') : Overheard (Asking.both x x') (Asking.both y y') := by
  intro ws
  obtain ⟨left, hleft⟩ := h ws
  obtain ⟨right, hright⟩ := h' ((Dialogue.Moment.of ws).enter (x ws).2)
  exact ⟨left ++ right, left, right, hleft, hright, rfl⟩

theorem window {γ : Type} (width : Nat) {f : γ → Dialogue α} {g : γ → Talk α}
    (h : ∀ c, Overheard (f c) (g c)) (cs : List γ) :
    Overheard (Asking.window width (cs.map f)) (Asking.window width (cs.map g)) := by
  have hfrom : ∀ (slots : List Dialogue.Moment) (last : Dialogue.Moment) (ws : Workspace),
      ∃ said, Talk.inTurn (cs.map g) said (Dialogue.windowFrom slots last (cs.map f) ws).1 := by
    induction cs with
    | nil => exact fun _ _ _ => ⟨[], rfl, rfl⟩
    | cons c cs ih =>
      intro slots last ws
      obtain ⟨first, hfirst⟩ := h c ((slots.headD last).enter ws)
      obtain ⟨more, hmore⟩ := ih _ _ _
      exact ⟨first ++ more, first, _, more, _, hfirst, hmore, rfl, rfl⟩
  exact fun ws => hfrom _ _ ws

end Overheard

/-- **Whatever a lookup gives in a workspace ends one of its conversations.** -/
def overheard : Correspondence Dialogue Talk where
  Rel := Overheard
  pure _ := fun _ => ⟨[], rfl, rfl⟩
  bind := Overheard.bind
  ask := Overheard.ask
  both := Overheard.both
  window := Overheard.window
  warn _ := fun _ => ⟨[], rfl⟩

namespace Lookup

/-- The lookup may have this conversation and give this at its end. -/
def Inquiry.MaySay (c : Config) (i : Inquiry) (said : Conversation)
    (found : Except MalformedInput Finding) : Prop :=
  (i.answer c : Talk (Except MalformedInput Finding)) said found

theorem maySay_of_run (c : Config) (i : Inquiry) (w : World) (t : Nat) :
    ∃ said, i.MaySay c said ((i.answer c : Timed _) w t).value
      ∧ ((i.answer c : Timed _) w t).Is w said :=
  recorded.answer c i w t

theorem maySay_of_workspace (c : Config) (i : Inquiry) (ws : Workspace) :
    ∃ said, i.MaySay c said ((i.answer c : Dialogue _) ws).1 :=
  overheard.answer c i ws

end Lookup

end SymbolQuery
