/-
Messages that a program builds are read back as they were built.

A message is written as an object with its keys in the order of the record, and a reader
meets them in the order of the keys: `canonical_toJson` says for each kind what it meets.
Reading that gives the record back, except that a value of null is read as no value at
all (`reread`). Which kind an object is depends on its keys alone, and the three kinds
have different ones.
-/
import SymbolQuery.Rpc.Message

set_option autoImplicit false

namespace SymbolQuery

namespace Json

/-! ## Values are compared -/

mutual

theorem eq_of_same {v w : Json} (h : same v w = true) : v = w := by
  cases v <;> cases w <;> simp only [same, Bool.false_eq_true] at h
  · rfl
  · exact congrArg Json.bool (eq_of_beq h)
  · exact congrArg Json.num (of_decide_eq_true h)
  · exact congrArg Json.str (eq_of_beq h)
  · exact congrArg Json.arr (eq_of_sameItems h)
  · exact congrArg Json.obj (eq_of_sameFields h)

theorem eq_of_sameItems {vs ws : List Json} (h : sameItems vs ws = true) : vs = ws := by
  match vs, ws with
  | [], [] => rfl
  | [], _ :: _ | _ :: _, [] => simp [sameItems] at h
  | v :: vs, w :: ws =>
    rw [sameItems, Bool.and_eq_true] at h
    rw [eq_of_same h.1, eq_of_sameItems h.2]

theorem eq_of_sameFields {vs ws : List (String × Json)} (h : sameFields vs ws = true) :
    vs = ws := by
  match vs, ws with
  | [], [] => rfl
  | [], _ :: _ | _ :: _, [] => simp [sameFields] at h
  | (k, v) :: vs, (l, w) :: ws =>
    rw [sameFields, Bool.and_eq_true, Bool.and_eq_true, beq_iff_eq] at h
    rw [h.1.1, eq_of_same h.1.2, eq_of_sameFields h.2]

end

mutual

theorem same_self (v : Json) : same v v = true := by
  cases v with
  | null => rfl
  | bool b => exact beq_self_eq_true b
  | num n => exact decide_eq_true rfl
  | str s => exact beq_self_eq_true s
  | arr items => exact sameItems_self items
  | obj fields => exact sameFields_self fields

theorem sameItems_self (vs : List Json) : sameItems vs vs = true := by
  match vs with
  | [] => rfl
  | v :: vs => rw [sameItems, same_self v, sameItems_self vs]; rfl

theorem sameFields_self (vs : List (String × Json)) : sameFields vs vs = true := by
  match vs with
  | [] => rfl
  | (k, v) :: vs =>
    rw [sameFields, same_self v, sameFields_self vs, beq_self_eq_true]
    rfl

end

/-- Values are compared by `same`. -/
instance : DecidableEq Json := fun v w =>
  decidable_of_iff (same v w = true) ⟨eq_of_same, fun h => h ▸ same_self v⟩

deriving instance DecidableEq for SyntaxFault

/-! ## Values and records -/

/-- The keys of every object in a value stand in their order, each once. -/
def IsCanonical (v : Json) : Prop := v.canonical = v

instance (v : Json) : Decidable v.IsCanonical := inferInstanceAs (Decidable (v.canonical = v))

/-- The same of a value that may be absent. -/
theorem map_canonical {o : Option Json} (h : ∀ v ∈ o, v.IsCanonical) : o.map canonical = o := by
  cases o with
  | none => rfl
  | some v => exact congrArg some (h v rfl)

/-- A value that may be null is read as the value, or as none. -/
theorem asOption_asValue (v : Json) : asOption asValue v = .ok v.nonNull := by
  cases v <;> rfl

theorem asText_str (s : String) : asText (.str s) = .ok s := rfl

/-- A value that is not null is read as it would be if it had to be there. -/
theorem asOption_of_read {α : Type} {read : Json → Decoded α} {v : Json} {a : α}
    (hv : v.isNull = false) (hread : read v = .ok a) : asOption read v = .ok (some a) := by
  cases v with
  | null => exact absurd hv (by decide)
  | bool _ | num _ | str _ | arr _ | obj _ => exact congrArg (Except.map some) hread

section

variable {α : Type} {type : RecordType} {fields : List (String × Json)} {index : Nat}
  {name : String} {read : Json → Decoded α}

/-- A required field that stands once in an object and can be read. -/
theorem required_named {i : Nat} {v : Json} {a : α}
    (hfield : occurrences [name] 0 fields = [(i, v)]) (hread : read v = .ok a) :
    required type (.named fields) index name read = .pure a := by
  simp only [required, fieldWith, hfield, hread]
  rfl

/-- An optional field that stands once in an object and can be read. -/
theorem optional_named {i : Nat} {v : Json} {a : Option α}
    (hfield : occurrences [name] 0 fields = [(i, v)]) (hread : asOption read v = .ok a) :
    optional type (.named fields) index name read = .pure a := by
  simp only [optional, fieldWith, hfield, hread]
  rfl

/-- An optional field that an object does not have. -/
theorem optional_absent (hfield : occurrences [name] 0 fields = []) :
    optional type (.named fields) index name read = .pure none := by
  simp only [optional, fieldWith, hfield]
  rfl

end

end Json

namespace Rpc

/-! ## Ids and errors -/

/-- An id as wide as the program has them. -/
def Id.Fits : Id → Prop
  | .number n => n ≤ Text.max64
  | .text _ => True

theorem Id.canonical_toJson (i : Id) : i.toJson.canonical = i.toJson := by
  cases i <;> rfl

theorem Id.isNull_toJson (i : Id) : i.toJson.isNull = false := by
  cases i <;> rfl

theorem Id.ofJson_toJson {i : Id} (h : i.Fits) : Id.ofJson i.toJson = .ok i := by
  cases i with
  | number n =>
    have hn : (0 : Int) ≤ n ∧ (n : Int) ≤ (18446744073709551615 : Nat) := by
      unfold Fits Text.max64 at h
      omega
    have hread : Json.asU64 (.num (.int n)) = .ok n := by
      rw [Json.asU64, Json.asNatIn, Json.asIntIn, if_pos hn]
      rfl
    rw [ofJson, toJson, Json.ofNat, Json.firstOf, hread]
    rfl
  | text s => rfl

/-- The code of an error is as wide as the program has them. -/
def ErrorInfo.Fits (e : ErrorInfo) : Prop := -2147483648 ≤ e.code ∧ e.code ≤ 2147483647

/-- An error as it is read back. -/
def ErrorInfo.reread (e : ErrorInfo) : ErrorInfo := { e with data := e.data.bind Json.nonNull }

theorem ErrorInfo.canonical_toJson (e : ErrorInfo) :
    e.toJson.canonical
      = .obj ([("code", .ofInt e.code)] ++ Json.field? "data" (e.data.map Json.canonical)
          ++ [("message", .str e.message)]) := by
  cases h : e.data <;>
    simp only [toJson, h, Json.field?, Json.ofInt, Option.map_none, Option.map_some,
      Json.canonical, Json.orderFields, Json.canonicalFields, Json.insertField, List.foldl_cons,
      List.foldl_nil, List.append_nil, List.cons_append, List.nil_append, String.reduceLT,
      String.reduceEq, ↓reduceIte]

theorem ErrorInfo.ofJson_canonical {e : ErrorInfo} (hcode : e.Fits)
    (hdata : ∀ v ∈ e.data, v.IsCanonical) : ErrorInfo.ofJson e.toJson.canonical = .ok e.reread := by
  have hread : Json.asI32 (.ofInt e.code) = .ok e.code := if_pos hcode
  rw [canonical_toJson, Json.map_canonical hdata, reread]
  unfold ofJson Json.readRecord
  cases h : e.data with
  | none =>
    dsimp only
    rw [Json.required_named rfl hread, Json.required_named rfl (Json.asText_str e.message),
      Json.optional_absent rfl]
    rfl
  | some v =>
    dsimp only
    rw [Json.required_named rfl hread, Json.required_named rfl (Json.asText_str e.message),
      Json.optional_named rfl (Json.asOption_asValue v)]
    rfl

/-! ## Messages -/

namespace Request

theorem canonical_toJson (r : Request) :
    r.toJson.canonical
      = .obj ([("id", r.id.toJson), ("jsonrpc", .str r.version), ("method", .str r.method)]
          ++ Json.field? "params" (r.params.map Json.canonical)) := by
  cases h : r.params <;>
    simp only [toJson, h, Json.field?, Id.canonical_toJson, Option.map_none, Option.map_some,
      Json.canonical, Json.orderFields, Json.canonicalFields, Json.insertField, List.foldl_cons,
      List.foldl_nil, List.append_nil, List.cons_append, List.nil_append, String.reduceLT,
      String.reduceEq, ↓reduceIte]

/-- A request as it is read back. -/
def reread (r : Request) : Request := { r with params := r.params.bind Json.nonNull }

theorem ofJson_canonical {r : Request} (hid : r.id.Fits)
    (hparams : ∀ v ∈ r.params, v.IsCanonical) : ofJson r.toJson.canonical = .ok r.reread := by
  have hid := Id.ofJson_toJson hid
  rw [canonical_toJson, Json.map_canonical hparams, reread]
  unfold ofJson Json.readRecord
  cases h : r.params with
  | none =>
    dsimp only
    rw [Json.required_named rfl (Json.asText_str r.version), Json.required_named rfl hid,
      Json.required_named rfl (Json.asText_str r.method), Json.optional_absent rfl]
    rfl
  | some v =>
    dsimp only
    rw [Json.required_named rfl (Json.asText_str r.version), Json.required_named rfl hid,
      Json.required_named rfl (Json.asText_str r.method),
      Json.optional_named rfl (Json.asOption_asValue v)]
    rfl

end Request

namespace Notification

theorem canonical_toJson (n : Notification) :
    n.toJson.canonical
      = .obj ([("jsonrpc", .str n.version), ("method", .str n.method)]
          ++ Json.field? "params" (n.params.map Json.canonical)) := by
  cases h : n.params <;>
    simp only [toJson, h, Json.field?, Option.map_none, Option.map_some,
      Json.canonical, Json.orderFields, Json.canonicalFields, Json.insertField, List.foldl_cons,
      List.foldl_nil, List.append_nil, List.cons_append, List.nil_append, String.reduceLT,
      String.reduceEq, ↓reduceIte]

/-- A notification as it is read back. -/
def reread (n : Notification) : Notification := { n with params := n.params.bind Json.nonNull }

theorem ofJson_canonical {n : Notification} (hparams : ∀ v ∈ n.params, v.IsCanonical) :
    ofJson n.toJson.canonical = .ok n.reread := by
  rw [canonical_toJson, Json.map_canonical hparams, reread]
  unfold ofJson Json.readRecord
  cases h : n.params with
  | none =>
    dsimp only
    rw [Json.required_named rfl (Json.asText_str n.version),
      Json.required_named rfl (Json.asText_str n.method), Json.optional_absent rfl]
    rfl
  | some v =>
    dsimp only
    rw [Json.required_named rfl (Json.asText_str n.version),
      Json.required_named rfl (Json.asText_str n.method),
      Json.optional_named rfl (Json.asOption_asValue v)]
    rfl

end Notification

namespace Response

theorem canonical_success (id : Id) (result : Json) :
    (success id result).toJson.canonical
      = .obj [("id", id.toJson), ("jsonrpc", .str "2.0"), ("result", result.canonical)] := by
  simp only [success, toJson, Json.field?, Id.canonical_toJson, Option.map_none,
    Json.canonical, Json.orderFields, Json.canonicalFields, Json.insertField, List.foldl_cons,
    List.foldl_nil, List.append_nil, List.cons_append, List.nil_append, String.reduceLT,
    String.reduceEq, ↓reduceIte]

theorem canonical_failure (id : Id) (error : ErrorInfo) :
    (failure id error).toJson.canonical
      = .obj [("error", error.toJson.canonical), ("id", id.toJson), ("jsonrpc", .str "2.0")] := by
  simp only [failure, toJson, Json.field?, Id.canonical_toJson, Option.map_some,
    Json.canonical, Json.orderFields, Json.canonicalFields, Json.insertField, List.foldl_cons,
    List.foldl_nil, List.append_nil, List.cons_append, List.nil_append, String.reduceLT,
    ↓reduceIte]

/-- A response as it is read back. -/
def reread (r : Response) : Response :=
  { r with result := r.result.bind Json.nonNull, error := r.error.map ErrorInfo.reread }

theorem ofJson_canonical_success {id : Id} (hid : id.Fits) (result : Json) :
    ofJson (success id result).toJson.canonical = .ok (success id result.canonical).reread := by
  have hid := Json.asOption_of_read (Id.isNull_toJson id) (Id.ofJson_toJson hid)
  rw [canonical_success, reread]
  unfold ofJson Json.readRecord
  dsimp only
  rw [Json.required_named rfl (Json.asText_str "2.0"), Json.optional_named rfl hid,
    Json.optional_named rfl (Json.asOption_asValue result.canonical), Json.optional_absent rfl]
  rfl

theorem ofJson_canonical_failure {id : Id} (hid : id.Fits) {error : ErrorInfo}
    (hcode : error.Fits) (hdata : ∀ v ∈ error.data, v.IsCanonical) :
    ofJson (failure id error).toJson.canonical = .ok (failure id error).reread := by
  have hid := Json.asOption_of_read (Id.isNull_toJson id) (Id.ofJson_toJson hid)
  have hobj : error.toJson.canonical.isNull = false := by
    rw [ErrorInfo.canonical_toJson]
    rfl
  have herror := Json.asOption_of_read hobj (ErrorInfo.ofJson_canonical hcode hdata)
  rw [canonical_failure, reread]
  unfold ofJson Json.readRecord
  dsimp only
  rw [Json.required_named rfl (Json.asText_str "2.0"), Json.optional_named rfl hid,
    Json.optional_absent rfl, Json.optional_named rfl herror]
  rfl

end Response

namespace Message

/-- The messages that a program builds. Numbers are as wide as it has them, and the values that it
puts in have their keys in order. -/
inductive Built : Message → Prop
  | request {id : Id} (hid : id.Fits) (method : String) {params : Option Json}
      (hparams : ∀ v ∈ params, v.IsCanonical) :
      Built (.request { id := id, method := method, params := params })
  | notification (method : String) {params : Option Json}
      (hparams : ∀ v ∈ params, v.IsCanonical) :
      Built (.notification { method := method, params := params })
  | success {id : Id} (hid : id.Fits) {result : Json} (hresult : result.IsCanonical) :
      Built (.response (.success id result))
  | failure {id : Id} (hid : id.Fits) {error : ErrorInfo} (hcode : error.Fits)
      (hdata : ∀ v ∈ error.data, v.IsCanonical) : Built (.response (.failure id error))

/-- A message as it is read back: of the same kind and with the same contents, except that a value
of null is no value. -/
def reread : Message → Message
  | .request r => .request r.reread
  | .notification n => .notification n.reread
  | .response r => .response r.reread

/-- The kind of a request is seen from its id, which is not null, and its method. -/
theorem kindOf_request (r : Request) : kindOf r.toJson.canonical = some .request := by
  rw [Request.canonical_toJson]
  obtain ⟨version, id, method, params⟩ := r
  cases id <;> rfl

theorem kindOf_notification (n : Notification) :
    kindOf n.toJson.canonical = some .notification := by
  rw [Notification.canonical_toJson]
  cases n.params <;> rfl

theorem kindOf_success (id : Id) (result : Json) :
    kindOf (Response.success id result).toJson.canonical = some .response := by
  rw [Response.canonical_success]
  cases id <;> rfl

theorem kindOf_failure (id : Id) (error : ErrorInfo) :
    kindOf (Response.failure id error).toJson.canonical = some .response := by
  rw [Response.canonical_failure]
  cases id <;> rfl

/-- A result is read back whatever the order of its keys was. -/
theorem ofJson_success {id : Id} (hid : id.Fits) (result : Json) :
    ofJson (Response.success id result).toJson.canonical
      = .ok (.response (.reread (.success id result.canonical))) := by
  rw [ofJson, kindOf_success]
  dsimp only
  rw [Response.ofJson_canonical_success hid]
  rfl

/-- **A message is read back** from its object. -/
theorem ofJson_canonical {m : Message} (h : m.Built) :
    ofJson m.toJson.canonical = .ok m.reread := by
  cases h with
  | @request id hid method params hparams =>
    rw [ofJson, toJson, kindOf_request]
    dsimp only
    rw [Request.ofJson_canonical hid hparams]
    rfl
  | @notification method params hparams =>
    rw [ofJson, toJson, kindOf_notification]
    dsimp only
    rw [Notification.ofJson_canonical hparams]
    rfl
  | @success id hid result hresult =>
    have hread := ofJson_success hid result
    rw [hresult] at hread
    exact hread
  | @failure id hid error hcode hdata =>
    rw [ofJson, toJson, kindOf_failure]
    dsimp only
    rw [Response.ofJson_canonical_failure hid hcode hdata]
    rfl

end Message

end Rpc

end SymbolQuery
