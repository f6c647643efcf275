import OperatorKit.Sorted
import OperatorKit.Json.Quoted
import OperatorKit.Json.Number

/-!
# Values

JSON values and their compact text. The members of an object are in the order
of their names, each name once.
-/

namespace OperatorKit.Json

/-- A JSON value. -/
inductive Value where
  | null
  | bool (b : Bool)
  | number (n : Number)
  | string (s : String)
  | array (items : List Value)
  | object (members : List (String × Value))
  deriving Repr

instance : Inhabited Value := ⟨.null⟩

/-- Put a member into its place among members in order of their names; a member
of the same name is replaced. -/
def insertMember (name : String) (v : Value) (ms : List (String × Value)) :
    List (String × Value) :=
  Sorted.insert name v ms

namespace Value

/-- A natural number as a value. -/
def nat (n : Nat) : Value := .number (.integer n)

/-- An object with one member. -/
def single (name : String) (v : Value) : Value := .object [(name, v)]

mutual

/-- The compact text of a value. -/
def render : Value → List Char
  | .null           => ['n', 'u', 'l', 'l']
  | .bool true      => ['t', 'r', 'u', 'e']
  | .bool false     => ['f', 'a', 'l', 's', 'e']
  | .number n       => n.text
  | .string s       => quote s
  | .array items    => '[' :: renderItems items
  | .object members => '\x7b' :: renderMembers members

/-- The text of an array behind its opening bracket. -/
def renderItems : List Value → List Char
  | []      => [']']
  | [v]     => render v ++ [']']
  | v :: w :: vs => render v ++ ',' :: renderItems (w :: vs)

/-- The text of an object behind its opening brace. -/
def renderMembers : List (String × Value) → List Char
  | []           => ['\x7d']
  | [(m, v)]     => quote m ++ ':' :: render v ++ ['\x7d']
  | (m, v) :: w :: ws => quote m ++ ':' :: render v ++ ',' :: renderMembers (w :: ws)

end

/-- The compact text of a value, as a string. -/
def text (v : Value) : String := String.ofList v.render

end Value
end OperatorKit.Json
