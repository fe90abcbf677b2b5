import TimedText.Double.Reader

/-!
# JSON values

Numbers written without a point and an exponent are whole numbers of any size; all others are
doubles. Members of an object keep the order in which their keys first came.
-/

namespace TimedText

/-- A JSON value. -/
inductive Json where
  | null
  | bool (b : Bool)
  | int (i : Int)
  | float (d : Double)
  | str (s : String)
  | list (items : List Json)
  | dict (members : List (String × Json))
  deriving Inhabited

namespace Json

/-- The list with `key` bound to `value`: in its old place if the key is there, else at the end. -/
def put {α : Type} (key : String) (value : α) : List (String × α) → List (String × α)
  | [] => [(key, value)]
  | (k, v) :: rest => if k = key then (key, value) :: rest else (k, v) :: put key value rest

/-- The member of an object with this key. -/
def get? (j : Json) (key : String) : Option Json :=
  match j with
  | .dict members => members.lookup key
  | _ => none

/-- An object from members that may repeat a key: the last one counts. -/
def ofMembers (members : List (String × Json)) : Json :=
  .dict (members.foldl (fun acc (k, v) => put k v acc) [])

end Json

end TimedText
