import ScratchExport.Binary64.Basic
import ScratchExport.Fault

/-!
# Untyped values

Project data is untyped: a name may turn out to be a number and a position may be missing. A `Value`
is a piece of such data as it was found. Next to the JSON values it knows colour triples, which come
from reading colour texts, and things that are no data, which are known by their description.

Truth values are numbers here: `true` equals 1 and can be added. Numbers are compared by value, so
the integer 4 and the double 4.0 are the same, while records are compared without regard to the
order of their fields.
-/

namespace ScratchExport

/-- A piece of untyped data. -/
inductive Value where
  | null
  | bool (b : Bool)
  | int (i : Int)
  | float (x : Binary64)
  | text (s : String)
  | list (items : List Value)
  | record (fields : List (String × Value))
  | rgb (red green blue : Int)
  /-- Something that is no data, such as a reference to a variable. -/
  | described (description : String)
  deriving Inhabited

namespace Value

/-- What counts as true: everything but null, false, zero and what is empty. -/
def truthy : Value → Bool
  | .null => false
  | .bool b => b
  | .int i => i != 0
  | .float x => !x.isZero
  | .text s => !s.isEmpty
  | .list items => !items.isEmpty
  | .record fields => !fields.isEmpty
  | .rgb .. => true
  | .described _ => true

/-- Lists and records cannot be keys. -/
def isKey : Value → Bool
  | .list _ | .record _ => false
  | _ => true

/-- A value used as a key. -/
def asKey (v : Value) : Except Fault Value :=
  if v.isKey then .ok v else .error .notAKey

/-- A value used as a name. -/
def asName : Value → Except Fault String
  | .text s => .ok s
  | _ => .error .notAName

/-- A value that is the given text. -/
def isText (v : Value) (s : String) : Bool :=
  match v with
  | .text t => t == s
  | _ => false

/-- An integer, where a truth value counts as 0 or 1. -/
def toInt? : Value → Option Int
  | .bool b => some (if b then 1 else 0)
  | .int i => some i
  | _ => none

mutual
/-- Equality by value: numbers by their numeric value, records field by field. -/
def same : Value → Value → Bool
  | .null, .null => true
  | .text s, .text t => s == t
  | .list xs, .list ys => sameItems xs ys
  | .record xs, .record ys => xs.length == ys.length && sameFields xs ys
  | .rgb r g b, .rgb r' g' b' => r == r' && g == g' && b == b'
  | .described s, .described t => s == t
  | .float x, .float y => x.eq y
  | .float x, v => match v.toInt? with
    | some i => x.eqInt i
    | none => false
  | .bool b, v => match v with
    | .float y => y.eqInt (if b then 1 else 0)
    | _ => v.toInt? == some (if b then 1 else 0)
  | .int i, v => match v with
    | .float y => y.eqInt i
    | _ => v.toInt? == some i
  | _, _ => false

/-- Equality of lists, member by member. -/
def sameItems : List Value → List Value → Bool
  | [], [] => true
  | x :: xs, y :: ys => same x y && sameItems xs ys
  | _, _ => false

/-- Every field of the first has an equal field in the second. -/
def sameFields : List (String × Value) → List (String × Value) → Bool
  | [], _ => true
  | (k, x) :: xs, ys => (match ys.lookup k with
    | some y => same x y
    | none => false) && sameFields xs ys
end

/-- An integer as a double, if it is one of moderate size. -/
def double (i : Int) : Except Fault Binary64 :=
  (Binary64.ofInt? i).elim (.error .tooLarge) .ok

/-- A number as a double. -/
def toBinary64 : Value → Except Fault Binary64
  | .float x => .ok x
  | v => match v.toInt? with
    | some i => double i
    | none => .error .notANumber

/-- A sum or difference of two numbers: exact on integers, a double as soon as one of them is. -/
def arith (onInts : Int → Int → Int) (onDoubles : Binary64 → Binary64 → Binary64) (v w : Value) :
    Except Fault Value :=
  match v.toInt?, w.toInt? with
  | some i, some j => .ok (.int (onInts i j))
  | _, _ => do
    let x ← v.toBinary64
    let y ← w.toBinary64
    return .float (onDoubles x y)

/-- The sum of two numbers. -/
def add : Value → Value → Except Fault Value :=
  arith (· + ·) (· + ·)

/-- The difference of two numbers. -/
def sub : Value → Value → Except Fault Value :=
  arith (· - ·) (· - ·)

/-- The members of a value: items of a list, characters of a text, keys of a record. -/
def members : Value → Except Fault (List Value)
  | .list items => .ok items
  | .text s => .ok (s.toList.map fun c => .text (String.singleton c))
  | .record fields => .ok (fields.map fun (k, _) => .text k)
  | .rgb r g b => .ok [.int r, .int g, .int b]
  | _ => .error .notASequence

/-- How many members a value has. -/
def size (v : Value) : Except Fault Nat := do
  return (← v.members).length

/-- The member at a position; a record has keys and no positions. -/
def item (v : Value) (i : Nat) : Except Fault Value :=
  match v with
  | .record _ => .error .noSuchKey
  | _ => do
    match (← v.members)[i]? with
    | some x => .ok x
    | none => .error .noSuchMember

/-- The member at a position, or null when the value is too short for it. -/
def itemOrNull (v : Value) (i : Nat) : Except Fault Value := do
  if i < (← v.size) then v.item i else return .null

/-- The fields of a record. -/
def fields : Value → Except Fault (List (String × Value))
  | .record fields => .ok fields
  | _ => .error .notARecord

/-- A field of a record, or `default` when it is not there. -/
def get (v : Value) (key : String) (default : Value) : Except Fault Value := do
  return ((← v.fields).lookup key).getD default

/-- A field that has to be there. -/
def require (v : Value) (key : String) : Except Fault Value := do
  match (← v.fields).lookup key with
  | some x => .ok x
  | none => .error .noSuchKey

end Value

end ScratchExport
