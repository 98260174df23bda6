/-
What a cancellation leaves of a lookup.

With a provider that has no memory, a lookup that is cancelled at some time is the one
that is not, cut off at that time: it ends then if it has not ended before, it begins
the questions that the other begins before that time and no more, and if it is over by
then it is the same run. This relates a run without and a run with a cancellation, and
every way of putting lookups together keeps it. What comes after the cut is compared
with an action that begins later, so of two runs the second one always starts at the
start of the first or at the cancellation, whichever is earlier.

Where the cancellation has come before anything is asked, nothing is asked at all. The
lookup is then read in a third way, in which every question is refused.
-/
import SymbolQuery.Lookup.Timed
import SymbolQuery.Proofs.Correspondence

set_option autoImplicit false

namespace SymbolQuery

namespace Timed

/-- No result is taken before those that were taken already. -/
theorem le_finish_windowFrom {α : Type} (w : World) (slots : List Nat) (last : Nat)
    (xs : List (Timed α)) : last ≤ (windowFrom w slots last xs).finish := by
  induction xs generalizing slots last with
  | nil => exact Nat.le_refl _
  | cons x rest ih =>
    have htaken := ih (slots.tail ++ [max last (x w (slots.headD last)).finish])
      (max last (x w (slots.headD last)).finish)
    exact Nat.le_trans (Nat.le_max_left _ _) htaken

end Timed

/-! ## Cutting a run off -/

/-- The run `s` is the run `r`, which begins at `t` and is not cancelled, cut off at `c`. -/
structure Run.CutOff {α : Type} (c t : Nat) (r s : Run α) : Prop where
  onward : t ≤ r.finish
  begun : ∀ e ∈ r.calls, t ≤ e.1
  finish : s.finish = min r.finish c
  calls : s.calls = r.calls.filter fun e => decide (e.1 < c)
  same : r.finish < c → s = r

namespace Run.CutOff

variable {α : Type} {c t : Nat} {r s : Run α}

/-- What begins after the cut is over at once and asks nothing. -/
theorem late (h : CutOff c t r s) (hc : c ≤ t) : s.finish = c ∧ s.calls = [] := by
  constructor
  · rw [h.finish, Nat.min_eq_right (Nat.le_trans hc h.onward)]
  · rw [h.calls, List.filter_eq_nil_iff]
    intro e he
    have hbegun := h.begun e he
    simp only [decide_eq_true_eq, Nat.not_lt]
    omega

theorem filter_calls_eq_nil (h : CutOff c t r s) (hc : c ≤ t) :
    (r.calls.filter fun e => decide (e.1 < c)) = [] := h.calls ▸ (h.late hc).2

end Run.CutOff

/-- Cancelled at `c`, the action `y` is the action `x` cut off there, whenever `x` begins. -/
def CutShort (p : Provider) (c : Nat) {α : Type} (x y : Timed α) : Prop :=
  ∀ t, Run.CutOff c t (x ⟨p, none⟩ t) (y ⟨p, some c⟩ (min t c))

namespace CutShort

variable {p : Provider} {c : Nat} {α β : Type}

/-- What takes no time and asks nothing is cut off by being done at the cut already. -/
theorem instant (a : α) (warnings : List Warning) :
    CutShort p c (fun _ t => ⟨a, t, [], warnings⟩) (fun _ t => ⟨a, t, [], warnings⟩) := by
  intro t
  refine ⟨Nat.le_refl t, ?_, rfl, rfl, ?_⟩
  · intro e he
    cases he
  · intro (ht : t < c)
    rw [Nat.min_eq_left (Nat.le_of_lt ht)]

theorem pure (a : α) : CutShort p c (Pure.pure a) (Pure.pure a) := instant a []

theorem warn (warning : Warning) : CutShort p c (Asking.warn warning) (Asking.warn warning) :=
  instant () [warning]

/-- A question is cut off by its race, or does not begin. -/
theorem ask (deadline : Nat) (q : Question) :
    CutShort p c (Asking.ask deadline q) (Asking.ask deadline q) := by
  intro t
  change Run.CutOff c t (Timed.ask deadline q _ t) (Timed.ask deadline q _ (min t c))
  have honward := (race_none_bounds t deadline (p q).delay).1
  rw [Timed.ask_of_begins (begins_none t)]
  have hbegun : ∀ e ∈ [(t, q)], t ≤ e.1 := by
    intro e he
    exact Nat.le_of_eq (congrArg Prod.fst (List.mem_singleton.mp he)).symm
  by_cases ht : t < c
  · -- the question begins in both runs, and the cancellation may end its race
    rw [Nat.min_eq_left (Nat.le_of_lt ht), Timed.ask_of_begins ((begins_some c t).mpr ht)]
    dsimp only
    rw [race_some]
    refine ⟨honward, hbegun, ?finish, ?calls, ?same⟩
    case finish =>
      by_cases hc : c ≤ (race t deadline (p q).delay none).2
      · rw [if_pos hc]
        dsimp only
        omega
      · rw [if_neg hc]
        dsimp only
        omega
    case calls =>
      simp only [List.filter_cons, List.filter_nil, ht, decide_true, if_true]
    case same =>
      intro hfinish
      rw [if_neg (Nat.not_le.mpr hfinish)]
  · -- the cancellation was there before, so one run begins the question and the other does not
    have hlate : ¬ begins (some c) (min t c) = true := by
      rw [begins_some]
      omega
    rw [Timed.ask_of_not_begins hlate]
    refine ⟨honward, hbegun, ?finish, ?calls, ?same⟩
    case finish =>
      dsimp only
      omega
    case calls =>
      simp only [List.filter_cons, List.filter_nil, ht, decide_false, Bool.false_eq_true, if_false]
    case same =>
      intro hfinish
      dsimp only at hfinish
      omega

/-- The second action begins where the first one ends, or where it was cut off. -/
theorem bind {x y : Timed α} {f g : α → Timed β} (hx : CutShort p c x y)
    (hf : ∀ a, CutShort p c (f a) (g a)) : CutShort p c (x >>= f) (y >>= g) := by
  intro t
  have h := hx t
  have hrest := hf (x ⟨p, none⟩ t).value (x ⟨p, none⟩ t).finish
  change Run.CutOff c t (Timed.bind x f _ t) (Timed.bind y g _ (min t c))
  have honward : t ≤ (Timed.bind x f ⟨p, none⟩ t).finish := Nat.le_trans h.onward hrest.onward
  have hbegun : ∀ e ∈ (Timed.bind x f ⟨p, none⟩ t).calls, t ≤ e.1 := by
    intro e he
    rcases List.mem_append.mp he with he | he
    · exact h.begun e he
    · exact Nat.le_trans h.onward (hrest.begun e he)
  by_cases hfinish : (x ⟨p, none⟩ t).finish < c
  · -- the first action is the same in both runs, so the second one begins at the same time
    rw [Nat.min_eq_left (Nat.le_of_lt hfinish)] at hrest
    have hsame := h.same hfinish
    refine ⟨honward, hbegun, ?finish, ?calls, ?same⟩
    case finish =>
      simp only [Timed.bind, hsame]
      exact hrest.finish
    case calls =>
      simp only [Timed.bind, List.filter_append, ← h.calls, hsame, hrest.calls]
    case same =>
      intro hover
      have hsecond := hrest.same hover
      simp only [Timed.bind, hsame, hsecond]
  · -- the first action is cut off, and the second one, whatever it is, begins after that
    have hc : c ≤ (x ⟨p, none⟩ t).finish := Nat.not_lt.mp hfinish
    have hcut : (y ⟨p, some c⟩ (min t c)).finish = c := by
      rw [h.finish, Nat.min_eq_right hc]
    have hsecond := hf (y ⟨p, some c⟩ (min t c)).value c
    rw [Nat.min_self] at hsecond
    obtain ⟨hfinish', hcalls'⟩ := hsecond.late (Nat.le_refl c)
    refine ⟨honward, hbegun, ?finish, ?calls, ?same⟩
    case finish =>
      simp only [Timed.bind, hcut, hfinish']
      exact (Nat.min_eq_right (Nat.le_trans hc hrest.onward)).symm
    case calls =>
      simp only [Timed.bind, hcut, hcalls', List.filter_append, hrest.filter_calls_eq_nil hc,
        h.calls]
    case same =>
      intro hover
      exact absurd (Nat.lt_of_le_of_lt (Nat.le_trans hc hrest.onward) hover) (Nat.lt_irrefl c)

theorem both {x y : Timed α} {x' y' : Timed β} (h : CutShort p c x y) (h' : CutShort p c x' y') :
    CutShort p c (Asking.both x x') (Asking.both y y') := by
  intro t
  have hleft := h t
  have hright := h' t
  change Run.CutOff c t (Timed.both x x' _ t) (Timed.both y y' _ (min t c))
  refine ⟨?onward, ?begun, ?finish, ?calls, ?same⟩
  case onward => exact Nat.le_trans hleft.onward (Nat.le_max_left _ _)
  case begun =>
    intro e he
    rcases List.mem_append.mp he with he | he
    · exact hleft.begun e he
    · exact hright.begun e he
  case finish =>
    -- the later of two ends, each cut off, is the later end cut off
    simp only [Timed.both, hleft.finish, hright.finish]
    omega
  case calls => simp only [Timed.both, hleft.calls, hright.calls, List.filter_append]
  case same =>
    intro hover
    have hover' := Nat.max_lt.mp hover
    simp only [Timed.both, hleft.same hover'.1, hright.same hover'.2]

/-- With all slots and the last result brought forward to the cut, a window is cut off there. Each
slot is free before the last result is taken, so no action begins later than that. -/
theorem windowFrom {γ : Type} {f g : γ → Timed α} (h : ∀ a, CutShort p c (f a) (g a))
    (cs : List γ) (t : Nat) (slots : List Nat) (last : Nat)
    (hslots : ∀ s ∈ slots, t ≤ s ∧ s ≤ last) (hlast : t ≤ last) :
    Run.CutOff c t (Timed.windowFrom ⟨p, none⟩ slots last (cs.map f))
      (Timed.windowFrom ⟨p, some c⟩ (slots.map (min · c)) (min last c) (cs.map g)) := by
  induction cs generalizing slots last with
  | nil =>
    refine ⟨hlast, ?_, rfl, rfl, ?_⟩
    · intro e he
      cases he
    · intro (hover : last < c)
      simp only [List.map_nil, Timed.windowFrom, Nat.min_eq_left (Nat.le_of_lt hover)]
  | cons a cs ih =>
    -- the action at the head begins when the first slot is free
    let start := slots.headD last
    have hstart : (slots.map (min · c)).headD (min last c) = min start c := by
      cases slots <;> rfl
    have hbounds : t ≤ start ∧ start ≤ last := by
      cases slots with
      | nil => exact ⟨hlast, Nat.le_refl _⟩
      | cons s slots => exact hslots s List.mem_cons_self
    have hhead := h a start
    let taken := max last (f a ⟨p, none⟩ start).finish
    have htaken : max (min last c) (g a ⟨p, some c⟩ (min start c)).finish = min taken c := by
      rw [hhead.finish]
      omega
    have hnext : ∀ s ∈ slots.tail ++ [taken], t ≤ s ∧ s ≤ taken := by
      intro s hs
      rcases List.mem_append.mp hs with hs | hs
      · have hbound := hslots s (List.mem_of_mem_tail hs)
        exact ⟨hbound.1, Nat.le_trans hbound.2 (Nat.le_max_left _ _)⟩
      · rw [List.mem_singleton.mp hs]
        exact ⟨Nat.le_trans hlast (Nat.le_max_left _ _), Nat.le_refl _⟩
    have htail := ih (slots.tail ++ [taken]) taken hnext (Nat.le_trans hlast (Nat.le_max_left _ _))
    have hmoved : (slots.map (min · c)).tail ++ [min taken c]
        = (slots.tail ++ [taken]).map (min · c) := by
      rw [List.map_append, List.map_tail]
      rfl
    simp only [List.map_cons, Timed.windowFrom, hstart, htaken, hmoved]
    refine ⟨htail.onward, ?begun, htail.finish, ?calls, ?same⟩
    case begun =>
      intro e he
      rcases List.mem_append.mp he with he | he
      · exact Nat.le_trans hbounds.1 (hhead.begun e he)
      · exact htail.begun e he
    case calls => rw [hhead.calls, htail.calls, List.filter_append]
    case same =>
      -- where the window ends before the cut, the action at its head has ended before it too
      intro hover
      have hdone : taken < c := Nat.lt_of_le_of_lt
        (Timed.le_finish_windowFrom ⟨p, none⟩ (slots.tail ++ [taken]) taken (cs.map f)) hover
      rw [hhead.same (Nat.lt_of_le_of_lt (Nat.le_max_right _ _) hdone), htail.same hover]

theorem window {γ : Type} (width : Nat) {f g : γ → Timed α} (h : ∀ a, CutShort p c (f a) (g a))
    (cs : List γ) :
    CutShort p c (Asking.window width (cs.map f)) (Asking.window width (cs.map g)) := by
  intro t
  have hslots : ∀ s ∈ List.replicate width t, t ≤ s ∧ s ≤ t := by
    intro s hs
    rw [List.eq_of_mem_replicate hs]
    exact ⟨Nat.le_refl t, Nat.le_refl t⟩
  have hrun := windowFrom h cs t (List.replicate width t) t hslots (Nat.le_refl t)
  rw [List.map_replicate] at hrun
  exact hrun

end CutShort

/-- **Cancelling cuts off** all that lookups are made of. -/
def cutShort (p : Provider) (c : Nat) : Correspondence Timed Timed where
  Rel := CutShort p c
  pure := CutShort.pure
  bind := CutShort.bind
  ask := CutShort.ask
  both := CutShort.both
  window := CutShort.window
  warn := CutShort.warn

/-! ## Lookups that are refused -/

/-- A lookup all of whose questions are refused: what it gives. -/
structure Refused (α : Type) where
  value : α

namespace Refused

instance : Monad Refused where
  pure a := ⟨a⟩
  bind x f := f x.value

instance : Asking Refused where
  ask _ _ := ⟨.error .cancelled⟩
  both x y := ⟨(x.value, y.value)⟩
  window _ xs := ⟨xs.map Refused.value⟩
  warn _ := ⟨()⟩

end Refused

/-- **Refused.** Where the cancellation has come, the first reading asks nothing, takes no time and
gives what the second one gives. -/
structure Futile {α : Type} (x : Timed α) (y : Refused α) : Prop where
  value : ∀ (w : World) (t : Nat), ¬ begins w.cancelAt t = true → (x w t).value = y.value
  finish : ∀ (w : World) (t : Nat), ¬ begins w.cancelAt t = true → (x w t).finish = t
  calls : ∀ (w : World) (t : Nat), ¬ begins w.cancelAt t = true → (x w t).calls = []

namespace Futile

variable {α β : Type}

theorem pure (a : α) : Futile (Pure.pure a) (Pure.pure a) :=
  ⟨fun _ _ _ => rfl, fun _ _ _ => rfl, fun _ _ _ => rfl⟩

theorem warn (warning : Warning) : Futile (Asking.warn warning) (Asking.warn warning) :=
  ⟨fun _ _ _ => rfl, fun _ _ _ => rfl, fun _ _ _ => rfl⟩

theorem ask (deadline : Nat) (q : Question) :
    Futile (Asking.ask deadline q) (Asking.ask deadline q) := by
  have hask : ∀ (w : World) (t : Nat), ¬ begins w.cancelAt t = true →
      (Asking.ask deadline q : Timed (Answer q.Reply)) w t = ⟨.error .cancelled, t, [], []⟩ :=
    fun _ _ h => Timed.ask_of_not_begins h deadline q
  constructor <;> intro w t h <;> rw [hask w t h]
  rfl

theorem bind {x : Timed α} {y : Refused α} {f : α → Timed β} {g : α → Refused β}
    (hx : Futile x y) (hf : ∀ a, Futile (f a) (g a)) : Futile (x >>= f) (y >>= g) := by
  have hsecond : ∀ (w : World) (t : Nat), ¬ begins w.cancelAt t = true →
      f (x w t).value w (x w t).finish = f y.value w t := by
    intro w t h
    rw [hx.value w t h, hx.finish w t h]
  refine ⟨?_, ?_, ?_⟩ <;> intro w t h
  · change (f (x w t).value w (x w t).finish).value = (g y.value).value
    rw [hsecond w t h, (hf y.value).value w t h]
  · change (f (x w t).value w (x w t).finish).finish = t
    rw [hsecond w t h, (hf y.value).finish w t h]
  · change (x w t).calls ++ (f (x w t).value w (x w t).finish).calls = []
    rw [hsecond w t h, hx.calls w t h, (hf y.value).calls w t h]
    rfl

theorem both {x : Timed α} {y : Refused α} {x' : Timed β} {y' : Refused β} (hx : Futile x y)
    (hx' : Futile x' y') : Futile (Asking.both x x') (Asking.both y y') := by
  refine ⟨?_, ?_, ?_⟩ <;> intro w t h
  · change ((x w t).value, (x' w t).value) = (y.value, y'.value)
    rw [hx.value w t h, hx'.value w t h]
  · change max (x w t).finish (x' w t).finish = t
    rw [hx.finish w t h, hx'.finish w t h, Nat.max_self]
  · change (x w t).calls ++ (x' w t).calls = []
    rw [hx.calls w t h, hx'.calls w t h]
    rfl

/-- A window whose slots are all free at one time is over at that time. -/
theorem windowFrom {γ : Type} {f : γ → Timed α} {g : γ → Refused α} (h : ∀ a, Futile (f a) (g a))
    (cs : List γ) (w : World) (t : Nat) (hlate : ¬ begins w.cancelAt t = true) (slots : List Nat)
    (hslots : ∀ s ∈ slots, s = t) :
    let r := Timed.windowFrom w slots t (cs.map f)
    r.value = (cs.map g).map Refused.value ∧ r.finish = t ∧ r.calls = [] := by
  induction cs generalizing slots with
  | nil => exact ⟨rfl, rfl, rfl⟩
  | cons a cs ih =>
    have hstart : slots.headD t = t := by
      cases slots with
      | nil => rfl
      | cons s slots => exact hslots s List.mem_cons_self
    have hnext : ∀ s ∈ slots.tail ++ [t], s = t := by
      intro s hs
      rcases List.mem_append.mp hs with hs | hs
      · exact hslots s (List.mem_of_mem_tail hs)
      · exact List.mem_singleton.mp hs
    obtain ⟨hvalue, hfinish, hcalls⟩ := ih (slots.tail ++ [t]) hnext
    simp only [List.map_cons, Timed.windowFrom, hstart, (h a).finish w t hlate, Nat.max_self,
      (h a).value w t hlate, (h a).calls w t hlate, hvalue, hfinish, hcalls, List.nil_append,
      and_self]

theorem window {γ : Type} (width : Nat) {f : γ → Timed α} {g : γ → Refused α}
    (h : ∀ a, Futile (f a) (g a)) (cs : List γ) :
    Futile (Asking.window width (cs.map f)) (Asking.window width (cs.map g)) := by
  have hwindow := fun (w : World) (t : Nat) (hlate : ¬ begins w.cancelAt t = true) =>
    windowFrom h cs w t hlate (List.replicate width t) fun s hs => List.eq_of_mem_replicate hs
  exact ⟨fun w t hlate => (hwindow w t hlate).1, fun w t hlate => (hwindow w t hlate).2.1,
    fun w t hlate => (hwindow w t hlate).2.2⟩

end Futile

/-- Where the cancellation has come, a lookup is one that is refused. -/
def futile : Correspondence Timed Refused where
  Rel := Futile
  pure := Futile.pure
  bind := Futile.bind
  ask := Futile.ask
  both := Futile.both
  window := Futile.window
  warn := Futile.warn

namespace Lookup

theorem value_withTarget {α : Type} (request : LookupRequest) (f : LookupTarget → Refused α) :
    (withTarget request f).value = request.target.map fun target => (f target).value := by
  rw [withTarget]
  cases request.target <;> rfl

/-- If every target gets an empty table, so does a request. -/
theorem eq_empty_of_withTarget (kind : TableKind) (request : LookupRequest)
    (f : LookupTarget → Refused Table) (h : ∀ target, (f target).value = Table.empty kind) :
    ∀ table ∈ tablesOf ((withTarget request f).value.map .table),
      table = Table.empty table.kind := by
  intro table htable
  rw [value_withTarget] at htable
  cases htarget : request.target with
  | error e =>
    rw [htarget] at htable
    cases htable
  | ok target =>
    rw [htarget] at htable
    have hvalue : table = (f target).value := List.mem_singleton.mp htable
    rw [hvalue, h target]
    rfl

/-- A lookup that is refused gives tables without rows. -/
theorem eq_empty_of_refused (c : Config) (i : Inquiry) :
    ∀ table ∈ tablesOf (i.answer c : Refused (Except MalformedInput Finding)).value,
      table = Table.empty table.kind := by
  cases i with
  | resolve request =>
    intro table htable
    change table ∈ tablesOf ((resolve _ request : Refused _).value.map .resolution) at htable
    cases hvalue : (resolve c.timeouts.symbols request : Refused _).value with
    | error e =>
      rw [hvalue] at htable
      cases htable
    | ok found =>
      rw [hvalue] at htable
      cases htable
  | documentSymbols uri =>
    intro table htable
    change table ∈ tablesOf ((documentSymbols c uri : Refused _).value.map .table) at htable
    rw [documentSymbols] at htable
    by_cases hblank : Text.isBlankText uri
    · rw [if_pos hblank] at htable
      cases htable
    · rw [if_neg hblank] at htable
      have hvalue : table = Table.empty .documentSymbols := List.mem_singleton.mp htable
      rw [hvalue]
      rfl
  | locations query request =>
    refine eq_empty_of_withTarget .locations request _ fun target => ?_
    cases target <;> rfl
  | hover request =>
    refine eq_empty_of_withTarget .hover request _ fun target => ?_
    cases target <;> rfl
  | children request depth =>
    refine eq_empty_of_withTarget .children request _ fun target => ?_
    cases target <;> rfl
  | hierarchy kind request =>
    intro table htable
    change table ∈ tablesOf ((withTarget request _ : Refused _).value.map .sides) at htable
    rw [value_withTarget] at htable
    cases htarget : request.target with
    | error e =>
      rw [htarget] at htable
      cases htable
    | ok target =>
      have hsides : (hierarchyAt c kind request.uri target : Refused HierarchyTables).value
          = HierarchyTables.empty kind := by
        cases target <;> cases kind <;> rfl
      rw [htarget] at htable
      change table ∈ [(hierarchyAt c kind request.uri target : Refused _).value.incoming,
        (hierarchyAt c kind request.uri target : Refused _).value.outgoing] at htable
      rw [hsides] at htable
      rcases List.mem_cons.mp htable with rfl | htable
      · rfl
      · rw [List.mem_singleton.mp htable]
        rfl

/-- **Cancelling cuts a lookup off.** Whatever is looked up with whatever settings and provider:
if the lookup takes some time when nothing is cancelled, then with a cancellation some time after
its start it ends at whichever comes first, it begins the questions of the other that begin before
the cancellation, and it is the same run if the cancellation comes after its end. If the
cancellation is there from the start, nothing is asked and every table is empty. -/
theorem answer_cancelled (c : Config) (i : Inquiry) (p : Provider) (t after : Nat) :
    let free := (i.answer c : Timed (Except MalformedInput Finding)) ⟨p, none⟩ t
    let cut := (i.answer c : Timed (Except MalformedInput Finding)) ⟨p, some (t + after)⟩ t
    ∃ elapsed, free.finish = t + elapsed
      ∧ cut.finish = t + min elapsed after
      ∧ cut.calls = free.calls.filter (fun e => decide (e.1 < t + after))
      ∧ (elapsed < after → cut = free)
      ∧ (after = 0 → cut.calls = []
          ∧ ∀ table ∈ tablesOf cut.value, table = Table.empty table.kind) := by
  intro free cut
  have hcut : Run.CutOff (t + after) t free cut := by
    have h := (cutShort p (t + after)).answer c i t
    rwa [Nat.min_eq_left (Nat.le_add_right t after)] at h
  have honward := hcut.onward
  refine ⟨free.finish - t, by omega, ?_, hcut.calls, ?_, ?_⟩
  · rw [hcut.finish]
    omega
  · intro hafter
    exact hcut.same (by omega)
  · intro hzero
    have hlate : ¬ begins (some (t + after)) t = true := by
      rw [begins_some]
      omega
    have hfutile := futile.answer c i
    have hvalue : cut.value = (i.answer c : Refused _).value := hfutile.value _ t hlate
    refine ⟨hfutile.calls _ t hlate, ?_⟩
    rw [hvalue]
    exact eq_empty_of_refused c i

end Lookup

end SymbolQuery
