/-
Which messages are valid, and which of them are read.

What a server sends is a request, a notification or a response, and which of them depends
on its keys. `Valid` says of a value which keys it has and what stands under them, without
the reader; everything else in it is any. What can be read is valid, and a valid value is
read as the kind of message that it is, but for two numbers: an id is read into 64 bits
without a sign, and the code of an error into 32 bits with one (`valid_iff`). A valid
message with any other number there is not read, and neither is one whose text is nested
deeper than the reader allows (`readable_iff`).
-/
import SymbolQuery.Proofs.NestedText
import SymbolQuery.Proofs.ObjectKeys

set_option autoImplicit false

namespace SymbolQuery.Rpc

/-! ## Valid messages -/

/-- A value that can be an id: a number or a text. -/
inductive IsId : Json → Prop
  | number (n : Json.Number) : IsId (.num n)
  | text (s : String) : IsId (.str s)

/-- A value that can be an error: a code, a text and any data, with their names or in their
order. -/
inductive IsError : Json → Prop
  | named {e : Json} (code : ∃ n, e.get? "code" = some (.num n))
      (message : ∃ s, e.get? "message" = some (.str s)) : IsError e
  | listed (code : Json.Number) (s : String) (data : Json) :
    IsError (.arr [.num code, .str s, data])

/-- A request has a method and an id. -/
structure IsRequest (v : Json) : Prop where
  version : ∃ s, v.get? "jsonrpc" = some (.str s)
  id : ∃ i, v.get? "id" = some i ∧ IsId i
  method : ∃ s, v.get? "method" = some (.str s)

/-- A notification has a method, and no id or one of null. -/
structure IsNotification (v : Json) : Prop where
  version : ∃ s, v.get? "jsonrpc" = some (.str s)
  id : ∀ i, v.get? "id" = some i → i = .null
  method : ∃ s, v.get? "method" = some (.str s)

/-- A response has no method, but a result or an error. -/
structure IsResponse (v : Json) : Prop where
  version : ∃ s, v.get? "jsonrpc" = some (.str s)
  id : ∀ i, v.get? "id" = some i → i = .null ∨ IsId i
  method : v.get? "method" = none
  outcome : v.get? "result" ≠ none ∨ v.get? "error" ≠ none
  error : ∀ e, v.get? "error" = some e → e = .null ∨ IsError e

/-- **A valid message.** Its parameters, its result and all other fields are any. -/
inductive Valid (v : Json) : Prop
  | request (h : IsRequest v)
  | notification (h : IsNotification v)
  | response (h : IsResponse v)

/-- What stands as the code in an error. -/
def codeOf? : Json → Option Json
  | .arr (code :: _) => some code
  | e => e.get? "code"

/-- A number that an id is read into: of 64 bits, without a sign. -/
def IdNumber (n : Json.Number) : Prop := ∃ k : Nat, n = .int k ∧ k ≤ Text.max64

/-- A number that a code is read into: of 32 bits, with a sign. -/
def CodeNumber (n : Json.Number) : Prop :=
  ∃ i : Int, n = .int i ∧ -2147483648 ≤ i ∧ i ≤ 2147483647

/-- **The numbers of a message fit** what they are read into. Only that of a response has an error
that is looked at. -/
structure NumbersFit (v : Json) : Prop where
  id : ∀ n, v.get? "id" = some (.num n) → IdNumber n
  code : v.get? "method" = none → ∀ e, v.get? "error" = some e →
    ∀ n, codeOf? e = some (.num n) → CodeNumber n

/-- Whether a message asks for an answer: it has a method and an id that is not null. -/
def asks (v : Json) : Bool :=
  (v.get? "method").isSome && ((v.get? "id").bind Json.nonNull).isSome

/-! ## What is read -/

/-- An id is read as what it is written as. -/
theorem Id.ofJson_eq_ok {v : Json} {i : Id} : Id.ofJson v = .ok i ↔ i.Fits ∧ v = i.toJson := by
  constructor
  · intro h
    unfold ofJson at h
    simp only [Json.firstOf] at h
    cases hnumber : Json.asU64 v with
    | ok n =>
      rw [hnumber] at h
      cases h
      obtain ⟨rfl, hfits⟩ := Json.asNatIn_eq_ok.mp hnumber
      exact ⟨hfits, rfl⟩
    | error _ =>
      rw [hnumber] at h
      cases htext : Json.asText v with
      | ok s =>
        rw [htext] at h
        cases h
        exact ⟨trivial, Json.asText_eq_ok.mp htext⟩
      | error _ =>
        rw [htext] at h
        cases h
  · rintro ⟨hfits, rfl⟩
    exact ofJson_toJson hfits

/-- Which ids are read. -/
theorem isId_iff {v : Json} :
    (IsId v ∧ ∀ n, v = .num n → IdNumber n) ↔ ∃ i : Id, i.Fits ∧ v = i.toJson := by
  constructor
  · rintro ⟨n | s, hfits⟩
    · obtain ⟨k, rfl, hk⟩ := hfits n rfl
      exact ⟨.number k, hk, rfl⟩
    · exact ⟨.text s, trivial, rfl⟩
  · rintro ⟨i, hfits, rfl⟩
    cases i with
    | number k =>
      refine ⟨.number _, fun n hn => ?_⟩
      cases hn
      exact ⟨k, rfl, hfits⟩
    | text s => exact ⟨.text s, fun n hn => by cases hn⟩

/-- **What is read as a request** has its version, its id, its method and its parameters. -/
theorem Request.ofJson_eq_ok {fields : List (String × Json)} (horder : Json.Ordered fields)
    {r : Request} :
    ofJson (.obj fields) = .ok r
      ↔ fields.lookup "jsonrpc" = some (.str r.version)
        ∧ (r.id.Fits ∧ fields.lookup "id" = some r.id.toJson)
        ∧ fields.lookup "method" = some (.str r.method)
        ∧ (fields.lookup "params").bind Json.nonNull = r.params := by
  unfold ofJson
  simp only [Json.readRecord_obj_eq_ok, Json.Fields.seq_eq_ok, Json.Fields.map_eq_ok,
    Json.required_eq_ok horder, Json.optional_eq_ok horder, Json.asText_eq_ok, Id.ofJson_eq_ok,
    Json.getD_asOption_asValue]
  constructor
  · rintro ⟨_, _, ⟨_, _, ⟨_, _, ⟨_, ⟨_, hversion, rfl⟩, rfl⟩, ⟨_, hid, hfits, rfl⟩, rfl⟩,
      ⟨_, hmethod, rfl⟩, rfl⟩, hparams, rfl⟩
    exact ⟨hversion, ⟨hfits, hid⟩, hmethod, Except.ok.inj hparams⟩
  · rintro ⟨hversion, ⟨hfits, hid⟩, hmethod, hparams⟩
    exact ⟨_, _, ⟨_, _, ⟨_, _, ⟨_, ⟨_, hversion, rfl⟩, rfl⟩, ⟨_, hid, hfits, rfl⟩, rfl⟩,
      ⟨_, hmethod, rfl⟩, rfl⟩, congrArg Except.ok hparams, rfl⟩

/-- What is read as a notification. -/
theorem Notification.ofJson_isOk {fields : List (String × Json)} (horder : Json.Ordered fields) :
    (∃ n, ofJson (.obj fields) = .ok n)
      ↔ (∃ s, fields.lookup "jsonrpc" = some (.str s))
        ∧ ∃ s, fields.lookup "method" = some (.str s) := by
  unfold ofJson
  simp only [Json.readRecord_obj_eq_ok, Json.Fields.seq_eq_ok, Json.Fields.map_eq_ok,
    Json.required_eq_ok horder, Json.optional_eq_ok horder, Json.asText_eq_ok,
    Json.getD_asOption_asValue]
  constructor
  · rintro ⟨_, _, _, ⟨_, _, ⟨_, ⟨_, hversion, rfl⟩, rfl⟩, ⟨_, hmethod, rfl⟩, rfl⟩, _, rfl⟩
    exact ⟨⟨_, hversion⟩, _, hmethod⟩
  · rintro ⟨⟨_, hversion⟩, _, hmethod⟩
    exact ⟨_, _, _, ⟨_, _, ⟨_, ⟨_, hversion, rfl⟩, rfl⟩, ⟨_, hmethod, rfl⟩, rfl⟩, rfl, rfl⟩

/-- What is read as a response. -/
theorem Response.ofJson_isOk {fields : List (String × Json)} (horder : Json.Ordered fields) :
    (∃ r, ofJson (.obj fields) = .ok r)
      ↔ (∃ s, fields.lookup "jsonrpc" = some (.str s))
        ∧ (∀ i, fields.lookup "id" = some i → i = .null ∨ ∃ id, Id.ofJson i = .ok id)
        ∧ ∀ e, fields.lookup "error" = some e →
            e = .null ∨ ∃ info, ErrorInfo.ofJson e = .ok info := by
  unfold ofJson
  simp only [Json.readRecord_obj_eq_ok, Json.Fields.seq_eq_ok, Json.Fields.map_eq_ok,
    Json.required_eq_ok horder, Json.optional_eq_ok horder, Json.asText_eq_ok,
    Json.getD_asOption_asValue, ← Json.exists_asOption]
  constructor
  · rintro ⟨_, _, _, ⟨_, _, ⟨_, _, ⟨_, ⟨_, hversion, rfl⟩, rfl⟩, hid, rfl⟩, _, rfl⟩, herror, rfl⟩
    exact ⟨⟨_, hversion⟩, ⟨_, hid⟩, _, herror⟩
  · rintro ⟨⟨_, hversion⟩, ⟨_, hid⟩, _, herror⟩
    exact ⟨_, _, _, ⟨_, _, ⟨_, _, ⟨_, ⟨_, hversion, rfl⟩, rfl⟩, hid, rfl⟩, rfl, rfl⟩, herror, rfl⟩

/-- Which errors are read. -/
theorem isError_iff {e : Json} (htidy : e.Tidy) :
    (IsError e ∧ ∀ n, codeOf? e = some (.num n) → CodeNumber n)
      ↔ ∃ info, ErrorInfo.ofJson e = .ok info := by
  unfold ErrorInfo.ofJson
  cases e with
  | obj fields =>
    simp only [Json.readRecord_obj_eq_ok, Json.Fields.seq_eq_ok, Json.Fields.map_eq_ok,
      Json.required_eq_ok htidy.ordered, Json.optional_eq_ok htidy.ordered, Json.asText_eq_ok,
      Json.asI32, Json.asIntIn_eq_ok, Json.getD_asOption_asValue]
    constructor
    · rintro ⟨⟨⟨n, hcode⟩, s, hmessage⟩, hfits⟩
      obtain ⟨i, rfl, hi⟩ := hfits n hcode
      exact ⟨_, _, _, ⟨_, _, ⟨i, ⟨_, hcode, rfl, hi⟩, rfl⟩, ⟨_, hmessage, rfl⟩, rfl⟩, rfl, rfl⟩
    · rintro ⟨_, _, _, ⟨_, _, ⟨i, ⟨_, hcode, rfl, hi⟩, rfl⟩, ⟨_, hmessage, rfl⟩, rfl⟩, _, rfl⟩
      refine ⟨.named ⟨.int i, hcode⟩ ⟨_, hmessage⟩, fun n hn => ?_⟩
      cases hcode.symm.trans hn
      exact ⟨i, rfl, hi⟩
  | arr items =>
    simp only [Json.readRecord_arr_eq_ok, Json.Fields.seq_eq_ok, Json.Fields.map_eq_ok,
      Json.required, Json.optional, Json.fieldWith_listed_eq_ok, Json.asText_eq_ok, Json.asI32,
      Json.asIntIn_eq_ok, Json.asOption_asValue]
    constructor
    · rintro ⟨⟨⟨_, hcode⟩, _⟩ | ⟨n, s, data⟩, hfits⟩
      · cases hcode
      · obtain ⟨i, rfl, hi⟩ := hfits n rfl
        exact ⟨_, ⟨_, _, ⟨_, _, ⟨_, ⟨_, rfl, rfl, hi⟩, rfl⟩, ⟨_, rfl, rfl⟩, rfl⟩, ⟨_, rfl, rfl⟩,
          rfl⟩, Nat.le_refl 3⟩
    · rintro ⟨_, ⟨_, _, ⟨_, _, ⟨i, ⟨_, hcode, rfl, hi⟩, rfl⟩, ⟨_, hmessage, rfl⟩, rfl⟩,
        ⟨_, hdata, _⟩, rfl⟩, hsize⟩
      -- there are three items, neither fewer nor more
      rcases items with _ | ⟨_, _ | ⟨_, _ | ⟨data, _ | ⟨_, more⟩⟩⟩⟩
      · cases hcode
      · cases hmessage
      · cases hdata
      · cases hcode
        cases hmessage
        refine ⟨.listed (.int i) _ data, fun n hn => ?_⟩
        cases hn
        exact ⟨i, rfl, hi⟩
      · have hlength : more.length + 4 ≤ 3 := hsize
        omega
  | null | bool _ | num _ | str _ =>
    constructor
    · rintro ⟨h, -⟩
      cases h with
      | named hcode _ =>
        obtain ⟨_, hcode⟩ := hcode
        cases hcode
    · rintro ⟨_, h⟩
      cases h

/-! ## Which messages are read -/

theorem IsId.nonNull {v : Json} (h : IsId v) : v.nonNull = some v ∧ v.isNull = false := by
  cases h <;> exact ⟨rfl, rfl⟩

/-- **A request is read as one**, with its id, its method and its parameters. -/
theorem IsRequest.reads {v : Json} (htidy : v.Tidy) (h : IsRequest v) (hfit : NumbersFit v) :
    ∃ r, Message.ofJson v = .ok (.request r) ∧ v.get? "id" = some r.id.toJson
      ∧ v.get? "method" = some (.str r.method)
      ∧ r.params = (v.get? "params").bind Json.nonNull := by
  obtain ⟨version, hversion⟩ := h.version
  obtain ⟨i, hid, hisId⟩ := h.id
  obtain ⟨method, hmethod⟩ := h.method
  have hkind : Message.kindOf v = some .request := by
    -- whatever else it has, a method and an id that is not null make it a request
    simp only [Message.kindOf, hid, hmethod, hisId.nonNull.2, Bool.not_false, Option.isSome_some,
      Bool.and_self, if_true]
  obtain ⟨id, hfits, rfl⟩ := isId_iff.mp ⟨hisId, fun n hn => hfit.id n (hn ▸ hid)⟩
  obtain ⟨fields, rfl, -⟩ := Json.get?_eq_some hversion
  let r : Request := ⟨version, id, method, (fields.lookup "params").bind Json.nonNull⟩
  have hread : Request.ofJson (.obj fields) = .ok r :=
    (Request.ofJson_eq_ok htidy.ordered).mpr ⟨hversion, ⟨hfits, hid⟩, hmethod, rfl⟩
  refine ⟨r, ?_, hid, hmethod, rfl⟩
  rw [Message.ofJson, hkind]
  dsimp only
  rw [hread]
  rfl

theorem IsNotification.reads {v : Json} (htidy : v.Tidy) (h : IsNotification v) :
    ∃ n, Message.ofJson v = .ok (.notification n) := by
  obtain ⟨version, hversion⟩ := h.version
  obtain ⟨method, hmethod⟩ := h.method
  have hkind : Message.kindOf v = some .notification := by
    cases hid : v.get? "id" with
    | none => simp [Message.kindOf, hid, hmethod]
    | some i => simp [Message.kindOf, hid, hmethod, h.id i hid, Json.isNull]
  obtain ⟨fields, rfl, -⟩ := Json.get?_eq_some hversion
  obtain ⟨n, hread⟩ := (Notification.ofJson_isOk htidy.ordered).mpr ⟨h.version, h.method⟩
  refine ⟨n, ?_⟩
  rw [Message.ofJson, hkind]
  dsimp only
  rw [hread]
  rfl

theorem IsResponse.reads {v : Json} (htidy : v.Tidy) (h : IsResponse v) (hfit : NumbersFit v) :
    ∃ r, Message.ofJson v = .ok (.response r) := by
  obtain ⟨version, hversion⟩ := h.version
  have hkind : Message.kindOf v = some .response := by
    have houtcome := h.outcome
    simp only [← Option.isSome_iff_ne_none] at houtcome
    simp [Message.kindOf, h.method, houtcome]
  have hid : ∀ i, v.get? "id" = some i → i = .null ∨ ∃ id, Id.ofJson i = .ok id := by
    intro i hi
    refine (h.id i hi).imp_right fun hisId => ?_
    obtain ⟨id, hfits, rfl⟩ := isId_iff.mp ⟨hisId, fun n hn => hfit.id n (hn ▸ hi)⟩
    exact ⟨id, Id.ofJson_toJson hfits⟩
  have herror : ∀ e, v.get? "error" = some e →
      e = .null ∨ ∃ info, ErrorInfo.ofJson e = .ok info := fun e he =>
    (h.error e he).imp_right fun hisError =>
      (isError_iff (htidy.get? he)).mp ⟨hisError, hfit.code h.method e he⟩
  obtain ⟨fields, rfl, -⟩ := Json.get?_eq_some hversion
  obtain ⟨r, hread⟩ := (Response.ofJson_isOk htidy.ordered).mpr ⟨h.version, hid, herror⟩
  refine ⟨r, ?_⟩
  rw [Message.ofJson, hkind]
  dsimp only
  rw [hread]
  rfl

theorem id_of_kindOf {v : Json} (h : Message.kindOf v = some .notification) :
    ∀ i, v.get? "id" = some i → i = .null := by
  intro i hi
  unfold Message.kindOf at h
  rw [hi] at h
  cases i with
  | null => rfl
  | bool _ | num _ | str _ | arr _ | obj _ =>
    simp only [Json.isNull, Bool.not_false, Bool.true_and, Bool.not_true, Bool.false_and] at h
    split at h
    · cases h
    · split at h <;> cases h

theorem keys_of_kindOf {v : Json} (h : Message.kindOf v = some .response) :
    v.get? "method" = none ∧ (v.get? "result" ≠ none ∨ v.get? "error" ≠ none) := by
  unfold Message.kindOf at h
  cases hmethod : v.get? "method" with
  | some m =>
    -- with a method it is a request or a notification, by its id
    cases hid : v.get? "id" with
    | none => simp [hmethod, hid] at h
    | some i => cases hnull : i.isNull <;> simp [hmethod, hid, hnull] at h
  | none =>
    refine ⟨rfl, or_iff_not_imp_left.mpr ?_⟩
    simpa [hmethod] using h

/-- What has no keys is of no kind. -/
theorem obj_of_kindOf {v : Json} {k : Message.Kind} (h : Message.kindOf v = some k) :
    ∃ fields, v = .obj fields := by
  cases v with
  | obj fields => exact ⟨fields, rfl⟩
  | null | bool _ | num _ | str _ | arr _ => cases h

/-- What is a message can be read as what it is a message of. -/
theorem exists_of_wrapped {ε ε' α β : Type} {x : Except ε α} {f : α → β} {g : ε → ε'} {b : β}
    (h : (x.map f).mapError g = .ok b) : ∃ a, x = .ok a := by
  cases x with
  | error _ => cases h
  | ok a => exact ⟨a, rfl⟩

/-- The numbers of a message with a method fit if its id does. -/
theorem NumbersFit.of_method {v : Json} (hmethod : ∃ s, v.get? "method" = some (.str s))
    (hid : ∀ n, v.get? "id" = some (.num n) → IdNumber n) : NumbersFit v := by
  obtain ⟨s, hs⟩ := hmethod
  refine ⟨hid, fun hnone => ?_⟩
  rw [hs] at hnone
  cases hnone

/-- **The messages that can be read are the valid ones whose numbers fit.** -/
theorem valid_iff {v : Json} (htidy : v.Tidy) :
    (Valid v ∧ NumbersFit v) ↔ ∃ m, Message.ofJson v = .ok m := by
  constructor
  · rintro ⟨h | h | h, hfit⟩
    · obtain ⟨r, hread, _⟩ := h.reads htidy hfit
      exact ⟨_, hread⟩
    · obtain ⟨n, hread⟩ := h.reads htidy
      exact ⟨_, hread⟩
    · obtain ⟨r, hread⟩ := h.reads htidy hfit
      exact ⟨_, hread⟩
  · rintro ⟨m, h⟩
    unfold Message.ofJson at h
    split at h
    · next hkind =>
      obtain ⟨fields, rfl⟩ := obj_of_kindOf hkind
      obtain ⟨r, hread⟩ := exists_of_wrapped h
      obtain ⟨hversion, ⟨hfits, hid⟩, hmethod, _⟩ := (Request.ofJson_eq_ok htidy.ordered).mp hread
      obtain ⟨hisId, hnumber⟩ := isId_iff.mpr ⟨_, hfits, rfl⟩
      exact ⟨.request ⟨⟨_, hversion⟩, ⟨_, hid, hisId⟩, _, hmethod⟩,
        .of_method ⟨_, hmethod⟩ fun n hn => hnumber n (Option.some.inj (hid.symm.trans hn))⟩
    · next hkind =>
      obtain ⟨fields, rfl⟩ := obj_of_kindOf hkind
      obtain ⟨n, hread⟩ := exists_of_wrapped h
      obtain ⟨hversion, hmethod⟩ := (Notification.ofJson_isOk htidy.ordered).mp ⟨n, hread⟩
      have hnull := id_of_kindOf hkind
      refine ⟨.notification ⟨hversion, hnull, hmethod⟩, .of_method hmethod fun n hn => ?_⟩
      cases hnull _ hn
    · next hkind =>
      obtain ⟨fields, rfl⟩ := obj_of_kindOf hkind
      obtain ⟨r, hread⟩ := exists_of_wrapped h
      obtain ⟨hversion, hid, herror⟩ := (Response.ofJson_isOk htidy.ordered).mp ⟨r, hread⟩
      obtain ⟨hmethod, houtcome⟩ := keys_of_kindOf hkind
      have hids : ∀ i, (Json.obj fields).get? "id" = some i →
          i = .null ∨ IsId i ∧ ∀ n, i = .num n → IdNumber n := fun i hi =>
        (hid i hi).imp_right fun ⟨id, hread⟩ => isId_iff.mpr ⟨id, Id.ofJson_eq_ok.mp hread⟩
      have herrors : ∀ e, (Json.obj fields).get? "error" = some e →
          e = .null ∨ IsError e ∧ ∀ n, codeOf? e = some (.num n) → CodeNumber n := fun e he =>
        (herror e he).imp_right (isError_iff (htidy.get? he)).mpr
      constructor
      · exact .response ⟨hversion, fun i hi => (hids i hi).imp_right And.left, hmethod, houtcome,
          fun e he => (herrors e he).imp_right And.left⟩
      · refine ⟨fun n hn => ?_, fun _ e he n hn => ?_⟩
        · obtain hnull | ⟨-, hnumber⟩ := hids _ hn
          · cases hnull
          · exact hnumber n rfl
        · obtain rfl | ⟨-, hcode⟩ := herrors e he
          · cases hn
          · exact hcode n hn
    · cases h

/-- **A message that can be read**, given by its text and its value: the text is not nested too
deep, and the numbers fit. -/
structure Readable (m : List Char × Json) : Prop where
  text : Json.parseChars m.1 = .ok m.2
  numbers : NumbersFit m.2

/-- **Which valid messages are read**, by their texts. -/
theorem readable_iff {m : List Char × Json} (htext : Json.IsTextOf m.1 m.2) (hvalid : Valid m.2) :
    Readable m ↔ ∃ message, Message.parseChars m.1 = .ok message := by
  constructor
  · rintro ⟨hparse, hfit⟩
    obtain ⟨message, hread⟩ := (valid_iff (Json.tidy_of_parse hparse)).mp ⟨hvalid, hfit⟩
    refine ⟨message, ?_⟩
    rw [Message.parseChars, hparse]
    exact hread
  · rintro ⟨message, h⟩
    unfold Message.parseChars at h
    cases hparse : Json.parseChars m.1 with
    | error _ =>
      rw [hparse] at h
      cases h
    | ok v =>
      rw [hparse] at h
      obtain rfl : v = m.2 := (Json.isTextOf_of_parse hparse).unique htext
      exact ⟨hparse, ((valid_iff (Json.tidy_of_parse hparse)).mpr ⟨message, h⟩).2⟩

/-- **A message that is nested too deep is not read**, though it has a text, whatever its numbers
are. -/
theorem not_readable_of_deep {v : Json} (hv : v.Integral) (hdeep : 127 < v.depth) :
    Json.IsTextOf v.compact.toList v.canonical ∧ ¬ Readable (v.compact.toList, v.canonical) := by
  refine ⟨Json.isTextOf_compact hv, fun hread => ?_⟩
  obtain ⟨rest, hrefused⟩ := (Json.parse_compact hv).2 hdeep
  have hparse : Json.parse v.compact = .ok v.canonical := hread.text
  rw [hrefused] at hparse
  cases hparse

/-- What is valid and asks for an answer is a request. -/
theorem Valid.isRequest {v : Json} (h : Valid v) (hasks : asks v = true) : IsRequest v := by
  obtain ⟨hmethod, hid⟩ := Bool.and_eq_true_iff.mp hasks
  cases h with
  | request h => exact h
  | notification h =>
    obtain ⟨x, hx⟩ := Option.isSome_iff_exists.mp hid
    obtain ⟨i, hi, hnonNull⟩ := Option.bind_eq_some_iff.mp hx
    rw [h.id i hi] at hnonNull
    cases hnonNull
  | response h =>
    rw [h.method] at hmethod
    cases hmethod

theorem IsRequest.asks {v : Json} (h : IsRequest v) : asks v = true := by
  obtain ⟨i, hid, hisId⟩ := h.id
  obtain ⟨method, hmethod⟩ := h.method
  simp only [Rpc.asks, hid, hmethod, Option.bind_some, hisId.nonNull.1, Option.isSome_some,
    Bool.and_self]

/-- What is valid and asks for no answer is read, if at all, and not as a request. -/
theorem Valid.reads_of_not_asks {v : Json} (htidy : v.Tidy) (h : Valid v) (hfit : NumbersFit v)
    (hasks : asks v = false) : ∃ m, Message.ofJson v = .ok m ∧ ∀ r, m ≠ .request r := by
  cases h with
  | request h => exact absurd h.asks (by simp [hasks])
  | notification h =>
    obtain ⟨n, hread⟩ := h.reads htidy
    exact ⟨_, hread, fun _ h => by cases h⟩
  | response h =>
    obtain ⟨r, hread⟩ := h.reads htidy hfit
    exact ⟨_, hread, fun _ h => by cases h⟩

end SymbolQuery.Rpc
