/-
Delays do not show in answers.

A provider may take its time for each question, and another time when it is asked the
same question again. As long as no question misses its deadline, that decides when a
lookup ends and in which order its questions are answered, and nothing else. Here a
lookup is read as the set of all its runs: every question may take any time up to its
deadline, anew each time it is asked. All these runs give one value, the one that a
lookup gives which takes no time at all. A run on the simulated clock is one of them,
if its provider meets the deadlines of the questions that are put to it.
-/
import SymbolQuery.Proofs.FaultIsolation

set_option autoImplicit false

namespace SymbolQuery

/-! ## Answers without delays -/

/-- What is answered to each question. -/
abbrev Replies := (q : Question) → Except ServiceFault q.Reply

/-- The answers of a provider. -/
def Provider.replies (p : Provider) : Replies := fun q => (p q).result

/-- A provider answers a question by a deadline. -/
def Provider.Meets (p : Provider) (deadline : Nat) (q : Question) : Prop :=
  ∃ d, (p q).delay = some d ∧ d ≤ deadline

/-- The provider that takes a time of its own for each answer. -/
def Provider.delayed (p : Provider) (delay : Question → Nat) : Provider :=
  fun q => ⟨some (delay q), p.replies q⟩

/-- The provider that gives its answers at once. -/
def Replies.atOnce (replies : Replies) : Provider := fun q => ⟨some 0, replies q⟩

theorem Replies.meets_atOnce (replies : Replies) (deadline : Nat) (q : Question) :
    replies.atOnce.Meets deadline q := ⟨0, rfl, Nat.zero_le deadline⟩

@[simp] theorem Replies.answer_atOnce (replies : Replies) (deadline : Nat) (q : Question) :
    replies.atOnce.answer deadline q = .ok (replies q) := by
  simp [Provider.answer, Replies.atOnce]

/-! ## All runs of a lookup -/

namespace Run

variable {α β : Type}

/-- The run of an action and then of another one. -/
def followedBy (r : Run α) (s : Run β) : Run β :=
  ⟨s.value, s.finish, r.calls ++ s.calls, r.warnings ++ s.warnings⟩

/-- The runs of two actions that begin together. -/
def beside (r : Run α) (s : Run β) : Run (α × β) :=
  ⟨(r.value, s.value), max r.finish s.finish, r.calls ++ s.calls, r.warnings ++ s.warnings⟩

/-- The run of the first action of a window and that of the rest of it. -/
def leading (r : Run α) (s : Run (List α)) : Run (List α) :=
  ⟨r.value :: s.value, s.finish, r.calls ++ s.calls, r.warnings ++ s.warnings⟩

end Run

/-- A lookup whose questions are all answered in time. -/
structure Paced (α : Type) where
  /-- What it gives if nothing takes time. -/
  value : Replies → α
  /-- What it asks, and under which deadlines. -/
  asked : Replies → List (Nat × Question)
  /-- The runs that it may have when it begins at a time. -/
  runs : Replies → Nat → Run α → Prop

namespace Paced

/-- The runs of a window. Its slots are freed as they are on the clock. -/
def windowRuns {α : Type} (replies : Replies) :
    List Nat → Nat → List (Paced α) → Run (List α) → Prop
  | _, last, [], r => r = ⟨[], last, [], []⟩
  | slots, last, x :: rest, r =>
    ∃ first more, x.runs replies (slots.headD last) first
      ∧ windowRuns replies (slots.tail ++ [max last first.finish]) (max last first.finish) rest more
      ∧ r = first.leading more

instance : Monad Paced where
  pure a := ⟨fun _ => a, fun _ => [], fun _ t r => r = ⟨a, t, [], []⟩⟩
  bind x f :=
    { value := fun replies => (f (x.value replies)).value replies
      asked := fun replies => x.asked replies ++ (f (x.value replies)).asked replies
      runs := fun replies t r =>
        ∃ first second, x.runs replies t first
          ∧ (f first.value).runs replies first.finish second ∧ r = first.followedBy second }

instance : Asking Paced where
  ask deadline q :=
    { value := fun replies => .ok (replies q)
      asked := fun _ => [(deadline, q)]
      runs := fun replies t r =>
        ∃ d ≤ deadline, r = Timed.ask deadline q ⟨fun q => ⟨some d, replies q⟩, none⟩ t }
  both x y :=
    { value := fun replies => (x.value replies, y.value replies)
      asked := fun replies => x.asked replies ++ y.asked replies
      runs := fun replies t r =>
        ∃ first second, x.runs replies t first ∧ y.runs replies t second
          ∧ r = first.beside second }
  window width xs :=
    { value := fun replies => xs.map fun x => x.value replies
      asked := fun replies => xs.flatMap fun x => x.asked replies
      runs := fun replies t => windowRuns replies (List.replicate width t) t xs }
  warn warning := ⟨fun _ => (), fun _ => [], fun _ t r => r = ⟨(), t, [], [warning]⟩⟩

end Paced

/-! ## All runs give the same -/

/-- A question that is answered by its deadline gives what is answered. -/
theorem Timed.value_ask_of_le {deadline d : Nat} (hd : d ≤ deadline) (q : Question)
    {p : Provider} (hp : (p q).delay = some d) (t : Nat) :
    (Timed.ask deadline q ⟨p, none⟩ t).value = .ok (p.replies q) := by
  have hask : (Timed.ask deadline q ⟨p, none⟩ t).value = p.answer deadline q :=
    Timeless.ask deadline q p t
  rw [hask, Provider.answer, hp]
  exact if_pos hd

/-- **Unhurried.** All runs of the second reading give one value, and the first reading has one of
these runs if the provider meets the deadlines. -/
structure Unhurried {α : Type} (x : Timed α) (y : Paced α) : Prop where
  value : ∀ (replies : Replies) (t : Nat) (r : Run α), y.runs replies t r →
    r.value = y.value replies
  runs : ∀ (p : Provider) (t : Nat), (∀ e ∈ y.asked p.replies, p.Meets e.1 e.2) →
    y.runs p.replies t (x ⟨p, none⟩ t)

namespace Unhurried

variable {α β : Type}

theorem pure (a : α) : Unhurried (Pure.pure a) (Pure.pure a) where
  value := by
    rintro replies t r rfl
    rfl
  runs _ _ _ := rfl

theorem warn (warning : Warning) : Unhurried (Asking.warn warning) (Asking.warn warning) where
  value := by
    rintro replies t r rfl
    rfl
  runs _ _ _ := rfl

theorem ask (deadline : Nat) (q : Question) :
    Unhurried (Asking.ask deadline q) (Asking.ask deadline q) where
  value := by
    rintro replies t r ⟨d, hd, rfl⟩
    exact Timed.value_ask_of_le hd q rfl t
  runs := by
    intro p t hmeets
    obtain ⟨d, hdelay, hd⟩ := hmeets (deadline, q) List.mem_cons_self
    -- only the behaviour for this one question matters
    have hsame : p q = ⟨some d, p.replies q⟩ := by
      rw [← hdelay]
      rfl
    refine ⟨d, hd, ?_⟩
    change Timed.ask deadline q _ t = Timed.ask deadline q _ t
    rw [Timed.ask_of_begins (begins_none t), Timed.ask_of_begins (begins_none t)]
    dsimp only
    rw [hsame]

/-- The second action of a run begins with the one value of the first. -/
theorem bind {x : Timed α} {y : Paced α} {f : α → Timed β} {g : α → Paced β}
    (hx : Unhurried x y) (hf : ∀ a, Unhurried (f a) (g a)) : Unhurried (x >>= f) (y >>= g) where
  value := by
    rintro replies t r ⟨first, second, hfirst, hsecond, rfl⟩
    have hvalue := hx.value replies t first hfirst
    rw [hvalue] at hsecond
    exact (hf _).value replies first.finish second hsecond
  runs := by
    intro p t hmeets
    have hfirst := hx.runs p t fun e he => hmeets e (List.mem_append_left _ he)
    have hvalue := hx.value p.replies t _ hfirst
    have hsecond := (hf (y.value p.replies)).runs p (x ⟨p, none⟩ t).finish
      fun e he => hmeets e (List.mem_append_right _ he)
    rw [← hvalue] at hsecond
    exact ⟨_, _, hfirst, hsecond, rfl⟩

theorem both {x : Timed α} {y : Paced α} {x' : Timed β} {y' : Paced β} (h : Unhurried x y)
    (h' : Unhurried x' y') : Unhurried (Asking.both x x') (Asking.both y y') where
  value := by
    rintro replies t r ⟨first, second, hfirst, hsecond, rfl⟩
    have hleft := h.value replies t first hfirst
    have hright := h'.value replies t second hsecond
    change (first.value, second.value) = (y.value replies, y'.value replies)
    rw [hleft, hright]
  runs := by
    intro p t hmeets
    exact ⟨_, _, h.runs p t fun e he => hmeets e (List.mem_append_left _ he),
      h'.runs p t fun e he => hmeets e (List.mem_append_right _ he), rfl⟩

/-- The values of a window stand in the order of its actions, whichever of them ends first. -/
theorem value_windowRuns {γ : Type} {f : γ → Timed α} {g : γ → Paced α}
    (h : ∀ a, Unhurried (f a) (g a)) (replies : Replies) (cs : List γ) {slots : List Nat}
    {last : Nat} {r : Run (List α)}
    (hr : Paced.windowRuns replies slots last (cs.map g) r) :
    r.value = (cs.map g).map fun y => y.value replies := by
  induction cs generalizing slots last r with
  | nil =>
    obtain rfl : r = ⟨[], last, [], []⟩ := hr
    rfl
  | cons a cs ih =>
    obtain ⟨first, more, hfirst, hmore, rfl⟩ := hr
    have hhead := (h a).value replies _ first hfirst
    have htail := ih hmore
    change first.value :: more.value = (g a).value replies :: _
    rw [hhead, htail]

/-- On the clock the slots are freed as in any run of the window. -/
theorem windowRuns_windowFrom {γ : Type} {f : γ → Timed α} {g : γ → Paced α}
    (h : ∀ a, Unhurried (f a) (g a)) (p : Provider) (cs : List γ) (slots : List Nat) (last : Nat)
    (hmeets : ∀ e ∈ (cs.map g).flatMap fun y => y.asked p.replies, p.Meets e.1 e.2) :
    Paced.windowRuns p.replies slots last (cs.map g)
      (Timed.windowFrom ⟨p, none⟩ slots last (cs.map f)) := by
  induction cs generalizing slots last with
  | nil => rfl
  | cons a cs ih =>
    rw [List.map_cons, List.flatMap_cons] at hmeets
    have hhead := (h a).runs p (slots.headD last)
      fun e he => hmeets e (List.mem_append_left _ he)
    have htail := ih (slots.tail ++ [max last (f a ⟨p, none⟩ (slots.headD last)).finish])
      (max last (f a ⟨p, none⟩ (slots.headD last)).finish)
      fun e he => hmeets e (List.mem_append_right _ he)
    exact ⟨_, _, hhead, htail, rfl⟩

theorem window {γ : Type} (width : Nat) {f : γ → Timed α} {g : γ → Paced α}
    (h : ∀ a, Unhurried (f a) (g a)) (cs : List γ) :
    Unhurried (Asking.window width (cs.map f)) (Asking.window width (cs.map g)) where
  value replies _ _ hr := value_windowRuns h replies cs hr
  runs p _ hmeets := windowRuns_windowFrom h p cs _ _ hmeets

end Unhurried

/-- **Every lookup is unhurried.** -/
def unhurried : Correspondence Timed Paced where
  Rel := Unhurried
  pure := Unhurried.pure
  bind := Unhurried.bind
  ask := Unhurried.ask
  both := Unhurried.both
  window := Unhurried.window
  warn := Unhurried.warn

namespace Lookup

/-- The lookup may have this run if each question is answered by its deadline. -/
def Inquiry.MayRun (c : Config) (i : Inquiry) (replies : Replies) (t : Nat)
    (r : Run (Except MalformedInput Finding)) : Prop :=
  (i.answer c : Paced (Except MalformedInput Finding)).runs replies t r

/-- The provider meets the deadline of each question that the lookup puts to it. -/
def Inquiry.Punctual (c : Config) (i : Inquiry) (p : Provider) : Prop :=
  ∀ e ∈ (i.answer c : Paced (Except MalformedInput Finding)).asked p.replies, p.Meets e.1 e.2

theorem mayRun_of_punctual {c : Config} {i : Inquiry} {p : Provider} (h : i.Punctual c p)
    (t : Nat) : i.MayRun c p.replies t ((i.answer c : Timed _) ⟨p, none⟩ t) :=
  (unhurried.answer c i).runs p t h

/-- All runs give what a provider gives that answers at once. -/
theorem value_of_mayRun {c : Config} {i : Inquiry} {replies : Replies} {t : Nat}
    {r : Run (Except MalformedInput Finding)} (h : i.MayRun c replies t r) :
    r.value = (i.answer c : Untimed (Except MalformedInput Finding)).run replies.atOnce := by
  have hatOnce : i.MayRun c replies 0 ((i.answer c : Timed _) ⟨replies.atOnce, none⟩ 0) :=
    mayRun_of_punctual (fun e _ => replies.meets_atOnce e.1 e.2) 0
  rw [← timeless.answer c i replies.atOnce 0, (unhurried.answer c i).value _ _ _ h,
    (unhurried.answer c i).value _ _ _ hatOnce]

/-! ## Hover texts in the order of symbols -/

/-- The hover text that is answered; empty where there is none. -/
def hoverContents : Except ServiceFault (Option HoverInfo) → String
  | .ok (some h) => h.contents
  | _ => ""

theorem run_hoverText_atOnce (c : Config) (uri : String) (q : Position) (replies : Replies) :
    (hoverText c uri q : Untimed String).run replies.atOnce
      = hoverContents (replies (.hover uri q)) := by
  rw [hoverText, Untimed.run_bind, Untimed.run_ask, Replies.answer_atOnce]
  rcases replies (.hover uri q) with (_ | (_ | _)) <;> rfl

/-- A row within the limit is shown at its place. -/
theorem getElem?_encodeBounded (o : OutputLimits) (kind : TableKind) {rows : List Row} {k : Nat}
    {row : Row} (hrow : rows[k]? = some row) (hk : k < o.maxRows) :
    (Table.encodeBounded o kind rows).rows[k]? = some (Table.encodeRow o.fieldCharCap row) := by
  by_cases hfits : rows.length ≤ o.maxRows
  · rw [Table.encodeBounded_of_le hfits, Table.encode, List.getElem?_map, hrow]
    rfl
  · have hlength : k < ((rows.take o.maxRows).map (Table.encodeRow o.fieldCharCap)).length := by
      rw [List.length_map, List.length_take]
      omega
    rw [Table.encodeBounded_of_lt (Nat.not_le.mp hfits)]
    dsimp only
    rw [List.getElem?_append_left hlength, List.getElem?_map, List.getElem?_take_of_lt hk, hrow]
    rfl

/-- The table of symbols that is made of answers that come at once. -/
theorem run_documentSymbolsIn_atOnce (c : Config) (uri : String) {replies : Replies}
    {forest : List Symbol} (hforest : replies (.symbols uri) = .ok forest) :
    (documentSymbolsIn c uri : Untimed Table).run replies.atOnce
      = Table.encodeBounded c.output .documentSymbols
          ((Symbol.walk forest).map fun e =>
            symbolRow e (hoverContents (replies (.hover uri e.1.anchor)))) := by
  rw [run_documentSymbolsIn_eq_full, fullDocumentSymbolsIn, Untimed.run_bind, run_fetchSymbols,
    Replies.answer_atOnce, hforest]
  simp only [Answer.reply, Untimed.run_bind, Untimed.run_pure, run_inTurn, List.map_map,
    List.zipWith_map_right, List.zipWith_self, Function.comp_apply, run_hoverText_atOnce]

/-- **Delays do not show.** Two providers that give the same answers, each by its deadline, make a
lookup give the same, however long each answer takes; and so do any two runs in which each question
takes a time of its own, even where the same question is asked twice. In a table of symbols the row
of each symbol has the hover text of that symbol. -/
theorem delays_do_not_show (c : Config) (i : Inquiry) :
    (∀ (p p' : Provider) (t t' : Nat), p.replies = p'.replies →
      i.Punctual c p → i.Punctual c p' →
        ((i.answer c : Timed (Except MalformedInput Finding)) ⟨p, none⟩ t).value
          = ((i.answer c : Timed (Except MalformedInput Finding)) ⟨p', none⟩ t').value)
    ∧ (∀ (replies : Replies) (t t' : Nat) (r r' : Run (Except MalformedInput Finding)),
      i.MayRun c replies t r → i.MayRun c replies t' r' → r.value = r'.value)
    ∧ ∀ (uri : String) (replies : Replies) (t : Nat) (r : Run (Except MalformedInput Finding))
        (forest : List Symbol),
      i = .documentSymbols uri → Text.isBlankText uri = false →
      replies (.symbols uri) = .ok forest → i.MayRun c replies t r →
        ∃ table, r.value = .ok (.table table)
          ∧ ∀ k e, (Symbol.walk forest)[k]? = some e → k < c.output.maxRows →
            table.rows[k]? = some (Table.encodeRow c.output.fieldCharCap
              (symbolRow e (hoverContents (replies (.hover uri e.1.anchor))))) := by
  have hruns : ∀ (replies : Replies) (t t' : Nat) (r r' : Run (Except MalformedInput Finding)),
      i.MayRun c replies t r → i.MayRun c replies t' r' → r.value = r'.value := by
    intro replies t t' r r' h h'
    rw [value_of_mayRun h, value_of_mayRun h']
  refine ⟨?_, hruns, ?_⟩
  · intro p p' t t' hsame hp hp'
    have hrun := mayRun_of_punctual hp t
    rw [hsame] at hrun
    exact hruns p'.replies t t' _ _ hrun (mayRun_of_punctual hp' t')
  · rintro uri replies t r forest rfl hblank hforest hrun
    have hvalue := value_of_mayRun hrun
    have htable := run_documentSymbolsIn_atOnce c uri hforest
    refine ⟨(documentSymbolsIn c uri : Untimed Table).run replies.atOnce, ?_, ?_⟩
    · rw [hvalue, Inquiry.answer, Untimed.run_bind, documentSymbols, if_neg (by simp [hblank])]
      rfl
    · intro k e he hk
      rw [htable]
      refine getElem?_encodeBounded c.output _ ?_ hk
      rw [List.getElem?_map, he]
      rfl

/-- The first hover text comes at its deadline, after that of the symbol which follows. Each of the
two stands in the row of its own symbol. -/
theorem delays_do_not_show_crossing :
    let late := twoOfEach.delayed fun
      | .hover _ p => if p.line = 0 then 2000 else 1
      | _ => 0
    let symbols := fun p : Provider =>
      (Inquiry.answer {} (.documentSymbols "a") : Timed (Except MalformedInput Finding)) ⟨p, none⟩ 0
    (symbols twoOfEach).value = (symbols late).value
      ∧ ((symbols twoOfEach).finish, (symbols late).finish) = (0, 2000)
      ∧ ∃ table, (symbols late).value = .ok (.table table)
        ∧ table.rows[0]? = some "f | function | 0:0-0:0 | 0:0-0:0 |  | 0:0 | EOL"
        ∧ table.rows[1]? = some "g | function | 1:0-1:0 | 1:0-1:0 |  | 1:0 | EOL" := by
  intro late symbols
  have hasked : (Inquiry.answer {} (.documentSymbols "a") : Paced _).asked twoOfEach.replies
      = [(10000, .symbols "a"), (2000, .hover "a" ⟨0, 0⟩), (2000, .hover "a" ⟨1, 0⟩)] := rfl
  have hearly : (Inquiry.documentSymbols "a").Punctual {} twoOfEach := by
    unfold Inquiry.Punctual
    rw [hasked]
    simp [Provider.Meets, twoOfEach]
  have hlate : (Inquiry.documentSymbols "a").Punctual {} late := by
    unfold Inquiry.Punctual
    change ∀ e ∈ (Inquiry.answer {} (.documentSymbols "a") : Paced _).asked twoOfEach.replies, _
    rw [hasked]
    simp [Provider.Meets, late, Provider.delayed]
  refine ⟨(delays_do_not_show {} _).1 twoOfEach late 0 0 rfl hearly hlate, by decide +kernel, ?_⟩
  obtain ⟨table, htable, hrows⟩ := (delays_do_not_show {} _).2.2 "a" late.replies 0 _
    [functionOn "f" 0, functionOn "g" 1] rfl rfl rfl (mayRun_of_punctual hlate 0)
  refine ⟨table, htable, ?_, ?_⟩
  · rw [hrows 0 _ rfl (by decide)]
    decide +kernel
  · rw [hrows 1 _ rfl (by decide)]
    decide +kernel

end Lookup

end SymbolQuery
