import Pomelo.Json

/-!
# Types of protobuf fields

The type names of `pb_i.c` and the lookups in a set of message definitions that
`pb_encode.c` and `pb_decode.c` both make. A definition is a JSON object with a
member for each field, and with the tables `__messages` and `__tags`.
-/

namespace Pomelo

/-- `PB_uInt32` to `PB_string` -/
inductive PbType where
  | uInt32
  | int32
  | sInt32
  | float
  | double
  | string
  deriving DecidableEq, Repr

/-- `pb_get_type`, where `none` is the result 0. -/
def pbGetType (type : CStr) : Option PbType :=
  if type = .ofString "uInt32" then some .uInt32
  else if type = .ofString "int32" then some .int32
  else if type = .ofString "sInt32" then some .sInt32
  else if type = .ofString "float" then some .float
  else if type = .ofString "double" then some .double
  else if type = .ofString "string" then some .string
  else none

/-- `pb_get_constant_type`: the wire type of a type name. -/
def pbGetConstantType (type : CStr) : Nat :=
  if type = .ofString "uInt32" ∨ type = .ofString "sInt32" ∨ type = .ofString "int32" then 0
  else if type = .ofString "double" then 1
  else if type = .ofString "string" then 2
  else if type = .ofString "float" then 5
  else 2

/-- The elements of an array of this type are not tagged one by one. -/
def pbIsPacked (type : CStr) : Bool :=
  (pbGetType type).isSome && pbGetType type ≠ some .string

/-- The definition a type name stands for: one of the enclosing definition's own
messages, else the root message of that name. -/
def pbFindMessage (gprotos messages : Json) (type : CStr) : Except Stop (Option Json) := do
  match ← pcJSONGetObjectItem messages type with
  | some subMsg => return some subMsg
  | none => pcJSONGetObjectItem gprotos ((CStr.ofString "message ").append type)

/-- The text of a member that the code takes to be a string. -/
def pbMemberText (proto : Json) (name : String) : Except Stop CStr := do
  let member ← deref (← pcJSONGetObjectItem proto (.ofString name))
  deref member.valuestring

/-- An operation on a stream. The stream is kept when the operation fails. -/
abbrev PbStream (σ : Type) := ExceptT Stop (StateM σ)

namespace PbStream

variable {σ α β : Type}

@[simp] theorem run_pure (value : α) (stream : σ) :
    (pure value : PbStream σ α).run stream = (.ok value, stream) := rfl

@[simp] theorem run_get (stream : σ) :
    (get : PbStream σ σ).run stream = (.ok stream, stream) := rfl

@[simp] theorem run_set (stream next : σ) :
    (set next : PbStream σ PUnit).run stream = (.ok ⟨⟩, next) := rfl

@[simp] theorem run_throw (stop : Stop) (stream : σ) :
    (throw stop : PbStream σ α).run stream = (.error stop, stream) := rfl

theorem run_bind (act : PbStream σ α) (next : α → PbStream σ β) (stream : σ) :
    (act >>= next).run stream =
      match act.run stream with
      | (.ok value, stream) => (next value).run stream
      | (.error stop, stream) => (.error stop, stream) := by
  simp only [bind, ExceptT.bind, ExceptT.mk, ExceptT.run, StateT.bind]
  rcases act stream with ⟨status | status, after⟩ <;> rfl

theorem run_tryCatch (act : PbStream σ α) (handle : Stop → PbStream σ α) (stream : σ) :
    (tryCatch act handle).run stream =
      match act.run stream with
      | (.ok value, stream) => (.ok value, stream)
      | (.error stop, stream) => (handle stop).run stream := by
  simp only [tryCatch, tryCatchThe, MonadExceptOf.tryCatch, ExceptT.tryCatch, ExceptT.mk,
    ExceptT.run, bind, StateT.bind]
  rcases act stream with ⟨status | status, after⟩ <;> rfl

theorem run_map (act : PbStream σ α) (change : α → β) (stream : σ) :
    (change <$> act).run stream =
      match act.run stream with
      | (.ok value, stream) => (.ok (change value), stream)
      | (.error stop, stream) => (.error stop, stream) := by
  simp only [Functor.map, ExceptT.map, ExceptT.mk, ExceptT.run, bind, StateT.bind]
  rcases act stream with ⟨status | status, after⟩ <;> rfl

theorem liftM_ok_bind (value : α) (next : α → PbStream σ β) :
    ((liftM (Except.ok value : Except Stop α) : PbStream σ α) >>= next : PbStream σ β) = next value := rfl

end PbStream

end Pomelo
