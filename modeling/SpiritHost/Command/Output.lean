import SpiritHost.Error

/-!
# Output

What the program writes: text for the reader of its results, and faults. A fault is shown as one
message after a fixed word, and so is a panic.
-/

namespace SpiritHost.Command

/-- Why the program could not do what it was asked. -/
inductive Fault where
  /-- The text given as arguments spells no JSON array. -/
  | argumentsNotArray
  /-- There is no function to call by default. -/
  | noFunctions
  /-- The target of a call has no dot. -/
  | targetWithoutDot
  /-- An operation failed. -/
  | failed (error : Error)

/-- The fault in words. -/
def Fault.message : Fault → String
  | argumentsNotArray => "--args must be a JSON array"
  | noFunctions => "spirit exports no functions"
  | targetWithoutDot => "Invalid target format. Use 'spirit.function'."
  | failed error => error.message

/-- The program did not fail but panicked. -/
def Fault.isPanic : Fault → Bool
  | failed error => error.isPanic
  | _ => false

/-- A piece of output. -/
inductive Output where
  /-- A text of one or more lines. -/
  | text (text : String)
  /-- A text about wrong use of the session. -/
  | hint (text : String)
  | fault (fault : Fault)

namespace Output

/-- The word before the message of a fault. -/
def faultWord : String := "Error: "

/-- The words before the message of a panic. -/
def panicWords : String := "thread 'main' panicked: "

/-- The output tells of a panic. -/
def isPanic : Output → Bool
  | fault f => f.isPanic
  | _ => false

/-- The output as it is written. -/
def written : Output → String
  | text t => t
  | hint t => t
  | fault f => (if f.isPanic then panicWords else faultWord) ++ f.message

end Output

end SpiritHost.Command
