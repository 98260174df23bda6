/-
What comes of a lookup, in terms of the provider and of the cancellation.

A question is answered in time if the provider does not fail, if it meets the deadline
and if no cancellation comes by then. `Yields` says of an action, begun at some time in
some world, with what value and when it ends. It goes through a lookup step by step, so
each part of a lookup is described by the questions that are answered in time.
-/
import SymbolQuery.Lookup.Facade
import SymbolQuery.Lookup.Timed

set_option autoImplicit false

namespace SymbolQuery

/-! ## Answers in time -/

/-- In a world, a question that is asked at `t` under a deadline is answered at `t'` with a reply:
the provider does not fail, it meets the deadline, and the cancellation has not come by then. -/
structure World.Answers (w : World) (t deadline : Nat) (q : Question) (reply : q.Reply)
    (t' : Nat) : Prop where
  result : (w.provider q).result = .ok reply
  delay : ∃ d, (w.provider q).delay = some d ∧ d ≤ deadline ∧ t' = t + d
  uncancelled : ∀ c, w.cancelAt = some c → t' < c

/-- A question gives a reply if the provider answers in time, and then only. -/
theorem Timed.ask_eq_ok_iff (deadline : Nat) (q : Question) (w : World) (t : Nat) (reply : q.Reply)
    (t' : Nat) :
    (Timed.ask deadline q w t).value = .ok (.ok reply) ∧ (Timed.ask deadline q w t).finish = t'
      ↔ w.Answers t deadline q reply t' := by
  by_cases hbegins : begins w.cancelAt t = true
  · rw [ask_of_begins hbegins]
    dsimp only
    constructor
    · rintro ⟨hvalue, hfinish⟩
      have hrace : race t deadline (w.provider q).delay w.cancelAt = (.done, t') := by
        rw [← hfinish]
        revert hvalue
        rcases race t deadline (w.provider q).delay w.cancelAt with ⟨_ | _ | _, _⟩ <;>
          simp [outcome]
      obtain ⟨hdelay, huncancelled⟩ := (race_eq_done_iff _ _ _ _ _).mp hrace
      rw [hrace] at hvalue
      exact ⟨Except.ok.inj hvalue, hdelay, huncancelled⟩
    · intro h
      have hrace := (race_eq_done_iff _ _ _ _ _).mpr ⟨h.delay, h.uncancelled⟩
      rw [hrace, h.result]
      exact ⟨rfl, rfl⟩
  · rw [ask_of_not_begins hbegins]
    constructor
    · rintro ⟨hvalue, _⟩
      cases hvalue
    · -- an answer comes no earlier than it is asked for, so the cancellation is still to come
      intro h
      obtain ⟨d, _, _, ht⟩ := h.delay
      refine absurd ?_ hbegins
      cases hcancel : w.cancelAt with
      | none => rfl
      | some c =>
        have hlate := h.uncancelled c hcancel
        rw [begins_some]
        omega

/-- A question has one answer. -/
theorem World.Answers.unique {w : World} {t t₁ t₂ deadline : Nat} {q : Question}
    {reply reply' : q.Reply} (h : w.Answers t deadline q reply t₁)
    (h' : w.Answers t deadline q reply' t₂) : reply = reply' ∧ t₁ = t₂ := by
  obtain ⟨hvalue, hfinish⟩ := (Timed.ask_eq_ok_iff deadline q w t reply t₁).mpr h
  obtain ⟨hvalue', hfinish'⟩ := (Timed.ask_eq_ok_iff deadline q w t reply' t₂).mpr h'
  rw [hvalue] at hvalue'
  exact ⟨Except.ok.inj (Except.ok.inj hvalue'), hfinish.symm.trans hfinish'⟩

/-- Nothing is answered in time to a question. -/
def World.Unanswered (w : World) (t deadline : Nat) (q : Question) : Prop :=
  ∀ reply t', ¬ w.Answers t deadline q reply t'

/-- What comes of a question, as an operation sees it: the reply if there is an answer in time, and
a fault if there is none. -/
inductive World.Gives (w : World) (t deadline : Nat) (q : Question) :
    Except CallFault q.Reply → Nat → Prop
  | reply {reply : q.Reply} {t' : Nat} (h : w.Answers t deadline q reply t') :
      w.Gives t deadline q (.ok reply) t'
  | fault (h : w.Unanswered t deadline q) (fault : CallFault) (t' : Nat) :
      w.Gives t deadline q (.error fault) t'

/-! ## What an action yields -/

/-- In this world, begun at `t`, the action ends with a value and at a time that are in `P`. -/
def Timed.Yields {α : Type} (w : World) (t : Nat) (x : Timed α) (P : α → Nat → Prop) : Prop :=
  P (x w t).value (x w t).finish

namespace Timed.Yields

variable {α β : Type} {w : World} {t : Nat} {x : Timed α} {y : Timed β} {P : α → Nat → Prop}
  {Q : β → Nat → Prop}

theorem of_forall (h : ∀ a t', P a t') : Yields w t x P := h _ _

theorem pure {a : α} (h : P a t) : Yields w t (Pure.pure a) P := h

theorem bind {f : α → Timed β} (hx : Yields w t x P) (hf : ∀ a t', P a t' → Yields w t' (f a) Q) :
    Yields w t (x >>= f) Q := hf _ _ hx

theorem both (hx : Yields w t x P) (hy : Yields w t y Q) :
    Yields w t (Asking.both x y) fun r _ => (∃ t', P r.1 t') ∧ ∃ t', Q r.2 t' :=
  ⟨⟨_, hx⟩, ⟨_, hy⟩⟩

/-- Whatever operation asks a question, it has a reply exactly if there is an answer in time. -/
theorem ask (deadline : Nat) (q : Question) :
    Yields w t (Asking.ask deadline q) fun a t' =>
      ∀ operation, w.Gives t deadline q (Answer.reply operation a) t' := by
  intro operation
  change w.Gives t deadline q (Answer.reply operation (Timed.ask deadline q w t).value)
    (Timed.ask deadline q w t).finish
  have hiff := Timed.ask_eq_ok_iff deadline q w t
  rcases hvalue : (Timed.ask deadline q w t).value with (_ | _) | (_ | reply)
  case ok.ok => exact .reply ((hiff reply _).mp ⟨hvalue, rfl⟩)
  all_goals
    refine .fault (fun reply t' hanswer => ?_) _ _
    have hok := ((hiff reply t').mpr hanswer).1
    rw [hvalue] at hok
    cases hok

end Timed.Yields

namespace Lookup

/-! ## Targets -/

/-- Where in a document a target is, and when that is known: a position is taken as it is, and a
name is that of the first symbol so called, if the symbols are there in time. -/
inductive Locates (c : Config) (w : World) (t : Nat) (uri : String) :
    LookupTarget → Position → Nat → Prop
  | position (p : Position) : Locates c w t uri (.position p) p t
  | name {name : String} {hint : Option Position} {forest others : List Symbol} {s : Symbol}
      {t' : Nat} (hforest : w.Answers t c.timeouts.symbols (.symbols uri) forest t')
      (hnamed : Symbol.named forest name = s :: others) :
      Locates c w t uri (.name name hint) s.anchor t'

/-! ## The parts of a lookup -/

variable {c : Config} {w : World} {t t' t₁ t₂ deadline : Nat} {uri : String}

/-- A target is in one place. -/
theorem Locates.unique {target : LookupTarget} {p p' : Position}
    (h : Locates c w t uri target p t₁) (h' : Locates c w t uri target p' t₂) :
    p = p' ∧ t₁ = t₂ := by
  cases h with
  | position => 
    cases h'
    exact ⟨rfl, rfl⟩
  | name hforest hnamed =>
    cases h' with
    | name hforest' hnamed' =>
      obtain ⟨rfl, rfl⟩ := hforest.unique hforest'
      rw [hnamed] at hnamed'
      cases hnamed'
      exact ⟨rfl, rfl⟩

theorem yields_fetchSymbols :
    Timed.Yields w t (fetchSymbols deadline uri) (w.Gives t deadline (.symbols uri)) := by
  apply Timed.Yields.bind (.ask deadline _)
  intro a t' h
  exact .pure (h "documentSymbol")

/-- The target is looked for in the symbols that the provider gives. -/
theorem yields_resolveTarget (target : LookupTarget) :
    Timed.Yields w t (resolveTarget deadline uri target) fun r t' =>
      r.Sound
        ∧ ((∃ forest, w.Answers t deadline (.symbols uri) forest t' ∧ r = resolveIn forest target)
          ∨ w.Unanswered t deadline (.symbols uri) ∧ ∃ fault, r = .failed fault) := by
  apply Timed.Yields.bind yields_fetchSymbols
  rintro _ t' (hanswer | ⟨hnone, fault, _⟩)
  · exact .pure ⟨sound_resolveIn _ _, .inl ⟨_, hanswer, rfl⟩⟩
  · exact .pure ⟨Resolution.sound_failed _, .inr ⟨hnone, _, rfl⟩⟩

theorem yields_accept (target : LookupTarget) (r : Resolution) :
    Timed.Yields w t (accept target r) fun s t' => s = r.accepted ∧ t' = t := by
  unfold accept Resolution.accepted
  cases r.error? with
  | some text => exact ⟨rfl, rfl⟩
  | none =>
    cases target with
    | position p => exact ⟨rfl, rfl⟩
    | name name hint =>
      dsimp only
      split
      · exact ⟨rfl, rfl⟩
      · exact ⟨rfl, rfl⟩

/-- A lookup asks where the target is located. -/
theorem yields_queryPoint (target : LookupTarget) :
    Timed.Yields w t (queryPoint c.timeouts uri target) fun point t' =>
      (∃ q, point = some q ∧ Locates c w t uri target q.position t')
        ∨ point = none ∧ ∀ p t', ¬ Locates c w t uri target p t' := by
  cases target with
  | position p => exact .pure (.inl ⟨_, rfl, .position p⟩)
  | name name hint =>
    apply Timed.Yields.bind (yields_resolveTarget _)
    rintro r t' ⟨hsound, hr⟩
    apply Timed.Yields.bind (yields_accept _ r)
    rintro _ _ ⟨rfl, rfl⟩
    apply Timed.Yields.pure
    rw [hsound.accepted_eq]
    obtain ⟨forest, hanswer, rfl⟩ | ⟨hnone, fault, rfl⟩ := hr
    · cases hnamed : Symbol.named forest name with
      | cons s others =>
        refine .inl ⟨⟨s.anchor, some s⟩, ?_, .name hanswer hnamed⟩
        rw [symbol?_resolveIn_name, hnamed]
        rfl
      | nil =>
        refine .inr ⟨?_, ?_⟩
        · rw [symbol?_resolveIn_name, hnamed]
          rfl
        · rintro _ _ (_ | ⟨hanswer', hnamed'⟩)
          obtain ⟨rfl, _⟩ := hanswer.unique hanswer'
          rw [hnamed] at hnamed'
          cases hnamed'
    · refine .inr ⟨rfl, ?_⟩
      rintro _ _ (_ | ⟨hanswer, _⟩)
      exact hnone _ _ hanswer

theorem yields_previewsFrom (read : List (String × Option String)) (ls : List Location) :
    Timed.Yields w t (previewsFrom deadline read ls) fun texts _ => texts.length = ls.length := by
  induction ls generalizing read t with
  | nil => exact .pure rfl
  | cons l rest ih =>
    unfold previewsFrom
    cases read.lookup l.uri with
    | some text =>
      apply Timed.Yields.bind (ih read)
      intro more t' hmore
      exact .pure (congrArg (· + 1) hmore)
    | none =>
      apply Timed.Yields.bind (P := fun _ _ => True) (.of_forall fun _ _ => trivial)
      intro text t' _
      apply Timed.Yields.bind (ih _)
      intro more t' hmore
      exact .pure (congrArg (· + 1) hmore)

/-- Each place has a text, if only an empty one. -/
theorem yields_previews (ls : List Location) (limit : Nat) :
    Timed.Yields w t (previews deadline ls limit) fun texts _ => texts.length = ls.length := by
  apply Timed.Yields.bind (yields_previewsFrom [] _)
  intro shown t' hshown
  apply Timed.Yields.pure
  rw [List.length_append, List.length_replicate, hshown, List.length_take]
  omega

end Lookup

end SymbolQuery
