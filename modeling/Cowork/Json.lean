import Mathlib.Data.Rat.Defs

/-!
JSON values as Python holds them after `json.loads`: the payloads of runtime
events and commands, checkpoints, and the journal of the local store.
-/
namespace Cowork.Json

mutual
/-- A decoded JSON value. A number is its exact value: Python's integer and float of one value are one number. -/
inductive Value where
  | null
  | bool (value : Bool)
  | num (value : Rat)
  | str (value : String)
  | arr (items : Items)
  | obj (fields : Fields)
inductive Items where
  | nil
  | cons (head : Value) (tail : Items)
/-- The fields of a `dict[str, object]`, in insertion order. -/
inductive Fields where
  | nil
  | cons (name : String) (value : Value) (tail : Fields)
end
deriving instance DecidableEq for Value
deriving instance DecidableEq for Fields
deriving instance DecidableEq for Items

/-- `payload.get(name)`. -/
def Fields.get (name : String) : Fields → Option Value
  | .nil => none
  | .cons field value tail => if field = name then some value else tail.get name

/-- `payload[name] = value`. -/
def Fields.put (name : String) (value : Value) : Fields → Fields
  | .nil => .cons name value .nil
  | .cons field old tail => if field = name then .cons field value tail else .cons field old (tail.put name value)

/-- `payload.pop(name, None)`. -/
def Fields.drop (name : String) : Fields → Fields
  | .nil => .nil
  | .cons field value tail => if field = name then tail else .cons field value (tail.drop name)

def fieldsOf : List (String × Value) → Fields
  | [] => .nil
  | (name,value) :: rest => .cons name value (fieldsOf rest)

def itemsOf : List Value → Items
  | [] => .nil
  | item :: rest => .cons item (itemsOf rest)

def Items.toList : Items → List Value
  | .nil => []
  | .cons head tail => head :: tail.toList

@[simp] theorem toList_itemsOf (items : List Value) : (itemsOf items).toList = items := by
  induction items with
  | nil => rfl
  | cons item rest ih => simp [itemsOf,Items.toList,ih]

/-- Python's truth value: what `value or default` tests. -/
def Value.truthy : Value → Bool
  | .null => false
  | .bool value => value
  | .num value => decide (value ≠ 0)
  | .str value => decide (value ≠ "")
  | .arr .nil => false
  | .arr (.cons _ _) => true
  | .obj .nil => false
  | .obj (.cons _ _ _) => true

/-- `payload.get(first) or payload.get(second) or default`, a missing key read as `None`. -/
def Fields.orElse (payload : Fields) (name : String) (otherwise : Value) : Value :=
  match payload.get name with
  | some value => if value.truthy then value else otherwise
  | none => otherwise

end Cowork.Json
