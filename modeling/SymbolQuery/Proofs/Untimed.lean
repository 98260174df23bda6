/-
Lookups without a clock.

A provider has no memory, so as long as nothing is cancelled the clock decides only
which deadlines are missed, and that is known from the delay of the question alone.
So every lookup has a second reading, in which a question is answered at once, by its
reply or by its missed deadline, and nothing takes time. `Timeless` says that the two
readings give the same value. It holds of what lookups are built from and is kept by
the ways in which they are put together, so it is a correspondence and holds of every
lookup.
-/
import SymbolQuery.Lookup.Timed
import SymbolQuery.Proofs.Correspondence

set_option autoImplicit false

namespace SymbolQuery

/-! ## The second reading -/

/-- What a provider answers under a deadline if nothing is cancelled. -/
def Provider.answer (p : Provider) (deadline : Nat) (q : Question) : Answer q.Reply :=
  match (p q).delay with
  | some d => if d ≤ deadline then .ok (p q).result else .error (.timedOut deadline)
  | none => .error (.timedOut deadline)

/-- A lookup that takes no time: what it gives with each provider. -/
structure Untimed (α : Type) where
  run : Provider → α

namespace Untimed

instance : Monad Untimed where
  pure a := ⟨fun _ => a⟩
  bind x f := ⟨fun p => (f (x.run p)).run p⟩

instance : Asking Untimed where
  ask deadline q := ⟨fun p => p.answer deadline q⟩
  both x y := ⟨fun p => (x.run p, y.run p)⟩
  window _ xs := ⟨fun p => xs.map fun x => x.run p⟩
  warn _ := ⟨fun _ => ()⟩

variable {α β : Type} (p : Provider)

@[simp] theorem run_pure (a : α) : (pure a : Untimed α).run p = a := rfl

@[simp] theorem run_bind (x : Untimed α) (f : α → Untimed β) :
    (x >>= f).run p = (f (x.run p)).run p := rfl

@[simp] theorem run_ask (deadline : Nat) (q : Question) :
    (Asking.ask deadline q : Untimed (Answer q.Reply)).run p = p.answer deadline q := rfl

@[simp] theorem run_both (x : Untimed α) (y : Untimed β) :
    (Asking.both x y : Untimed (α × β)).run p = (x.run p, y.run p) := rfl

@[simp] theorem run_warn (warning : Warning) :
    (Asking.warn warning : Untimed Unit).run p = () := rfl

@[simp] theorem run_window (width : Nat) (xs : List (Untimed α)) :
    (Asking.window width xs : Untimed (List α)).run p = xs.map fun x => x.run p := rfl

end Untimed

/-! ## Agreement of the readings -/

/-- **Timeless.** Without a cancellation both readings give the same value, whenever the first
one begins. -/
def Timeless {α : Type} (x : Timed α) (y : Untimed α) : Prop :=
  ∀ (p : Provider) (t : Nat), (x ⟨p, none⟩ t).value = y.run p

namespace Timeless

variable {α β : Type}

theorem pure (a : α) : Timeless (Pure.pure a) (Pure.pure a) := fun _ _ => rfl

/-- What follows begins whenever the first part is done, and that does not matter to it. -/
theorem bind {x : Timed α} {y : Untimed α} {f : α → Timed β} {g : α → Untimed β}
    (hx : Timeless x y) (hf : ∀ a, Timeless (f a) (g a)) : Timeless (x >>= f) (y >>= g) := by
  intro p t
  change (f (x ⟨p, none⟩ t).value ⟨p, none⟩ (x ⟨p, none⟩ t).finish).value = (g (y.run p)).run p
  rw [hx p t]
  exact hf (y.run p) p _

/-- A question misses its deadline by its delay alone. -/
theorem ask (deadline : Nat) (q : Question) :
    Timeless (Asking.ask deadline q) (Asking.ask deadline q) := by
  intro p t
  change (Timed.ask deadline q ⟨p, none⟩ t).value = p.answer deadline q
  simp only [Timed.ask, begins, byTime, Bool.not_false, if_true, race, Provider.answer]
  cases (p q).delay with
  | none => rfl
  | some d =>
    by_cases hd : d ≤ deadline
    · simp only [if_pos hd]
    · simp only [if_neg hd]

/-- A warning takes no time in either reading. -/
theorem warn (warning : Warning) : Timeless (Asking.warn warning) (Asking.warn warning) :=
  fun _ _ => rfl

/-- Of two that run at a time neither waits for the other. -/
theorem both {x : Timed α} {y : Untimed α} {x' : Timed β} {y' : Untimed β} (h : Timeless x y)
    (h' : Timeless x' y') : Timeless (Asking.both x x') (Asking.both y y') := by
  intro p t
  change ((x ⟨p, none⟩ t).value, (x' ⟨p, none⟩ t).value) = (y.run p, y'.run p)
  rw [h p t, h' p t]

/-- The slots of a window decide when an action runs, not what it gives. -/
theorem window {γ : Type} (width : Nat) {f : γ → Timed α} {g : γ → Untimed α}
    (h : ∀ c, Timeless (f c) (g c)) (cs : List γ) :
    Timeless (Asking.window width (cs.map f)) (Asking.window width (cs.map g)) := by
  intro p t
  have from_ : ∀ (slots : List Nat) (last : Nat),
      (Timed.windowFrom ⟨p, none⟩ slots last (cs.map f)).value
        = (cs.map g).map fun y => y.run p := by
    induction cs with
    | nil => exact fun _ _ => rfl
    | cons c cs ih =>
      intro slots last
      rw [List.map_cons, List.map_cons, List.map_cons, Timed.windowFrom]
      change (f c _ _).value :: (Timed.windowFrom _ _ _ _).value = _
      rw [h c p, ih]
  exact from_ _ _

end Timeless

/-- **Both readings of a lookup give the same.** -/
def timeless : Correspondence Timed Untimed where
  Rel := Timeless
  pure := Timeless.pure
  bind := Timeless.bind
  ask := Timeless.ask
  both := Timeless.both
  window := Timeless.window
  warn := Timeless.warn

namespace Lookup

/-- A lookup of places gives without a clock what it gives with one. -/
theorem timeless_locations (c : Config) (query : LocationQuery) (request : LookupRequest) :
    Timeless (locations c query request) (locations c query request) :=
  timeless.locations c query request

/-- So does one of the symbols of a document. -/
theorem timeless_documentSymbols (c : Config) (uri : String) :
    Timeless (documentSymbols c uri) (documentSymbols c uri) :=
  timeless.documentSymbols c uri

/-- And so does one of a hierarchy. -/
theorem timeless_hierarchy (c : Config) (kind : HierarchyKind) (request : LookupRequest) :
    Timeless (hierarchy c kind request) (hierarchy c kind request) :=
  timeless.hierarchy c kind request

end Lookup

end SymbolQuery
