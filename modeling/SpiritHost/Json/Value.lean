import SpiritHost.Decimal.Shortest

/-!
# JSON values

Arguments and results that cross the host's boundary as JSON. A number is an integer as long as it
was written as one and fits a 64-bit word, signed or unsigned; every other number is a 64-bit
float. An object is canonical if its keys are in order and differ.
-/

namespace SpiritHost

/-- A JSON number: an integer between `-2 ^ 63` and `2 ^ 64 - 1`, or the bits of a finite float. -/
inductive Json.Number where
  | int (value : Int)
  | float (bits : UInt64)
deriving DecidableEq, Repr

/-- A JSON value. -/
inductive Json where
  | null
  | bool (value : Bool)
  | number (value : Json.Number)
  | string (value : String)
  | array (items : List Json)
  | object (members : List (String × Json))
deriving Repr

namespace Json

/-- An integer as a value. -/
def int (value : Int) : Json := .number (.int value)

/-- A float as a value; JSON has no form for one that is not finite. -/
def ofFloatBits (bits : UInt64) : Json :=
  match Decimal.Binary64.ofBits bits with
  | .finite .. => .number (.float bits)
  | _ => .null

namespace Number

/-- A number that is an integer of 64 signed bits. -/
def toInt64? : Number → Option Int
  | int n => if -9223372036854775808 ≤ n ∧ n < 9223372036854775808 then some n else none
  | float _ => none

/-- The float nearest to a number. -/
def toFloatBits : Number → UInt64
  | int n => (Float.ofInt n).toBits
  | float bits => bits

end Number

/-- Members with a key put in its place in the order, replacing an earlier value of the key. -/
def insertMember (key : String) (value : Json) : List (String × Json) → List (String × Json)
  | [] => [(key, value)]
  | (k, v) :: rest =>
    if key < k then (key, value) :: (k, v) :: rest
    else if key = k then (key, value) :: rest
    else (k, v) :: insertMember key value rest

mutual

/-- The value with the keys of every object sorted; of equal keys the last one counts. -/
def canonical : Json → Json
  | null => null
  | bool b => bool b
  | number n => number n
  | string s => string s
  | array items => array (canonicalItems items)
  | object members => object (canonicalMembers members [])

/-- The items of an array in canonical form. -/
def canonicalItems : List Json → List Json
  | [] => []
  | item :: rest => item.canonical :: canonicalItems rest

/-- The members of an object in canonical form, added to the ones before. -/
def canonicalMembers : List (String × Json) → List (String × Json) → List (String × Json)
  | [], sorted => sorted
  | (key, value) :: rest, sorted => canonicalMembers rest (insertMember key value.canonical sorted)

end

end Json

end SpiritHost
