import Std.Data.TreeSet
import SpiritHost.Wasm.Module

/-!
# Liveness

What the code after a point may still need: local variables, and the instance, through which code
calls functions and reaches memories and global variables. The analysis goes backward through the
tree of the code. A loop needs no repetition: what one round needs before setting it is all that
another round can need at its start.
-/

namespace SpiritHost.Wasm

/-- What code may need. -/
structure Live where
  /-- Local variables by index. -/
  locals : Std.TreeSet Nat
  /-- Functions, memories or global variables. -/
  linked : Bool

namespace Live

/-- Nothing is needed: the end of a function. -/
def nothing : Live := ⟨∅, false⟩

/-- What either of two continuations needs. -/
def union (a b : Live) : Live := ⟨a.locals ∪ b.locals, a.linked || b.linked⟩

/-- Before a variable is read. -/
def reading (l : Live) (index : Nat) : Live := { l with locals := l.locals.insert index }

/-- Before a variable is set. -/
def setting (l : Live) (index : Nat) : Live := { l with locals := l.locals.erase index }

/-- Before the instance is used. -/
def linking (l : Live) : Live := { l with linked := true }

/-- What the target of a branch needs. -/
def atLabel (labels : List Live) (label : Nat) : Live := labels.getD label nothing

/-- A variable that is read is needed. -/
theorem mem_reading (l : Live) (index : Nat) : index ∈ (l.reading index).locals := by
  simp [reading]

/-- A variable that is set is not needed before. -/
theorem notMem_setting (l : Live) (index : Nat) : index ∉ (l.setting index).locals := by
  simp [setting]

end Live

mutual

/-- What an instruction and the code after it need, given what the code after it needs and what
the targets of branches need, innermost first. -/
def Instr.live (labels : List Live) (after : Live) : Instr → Live
  | .unreachable | .ret => .nothing
  | .block _ body => liveSequence (after :: labels) after body
  | .loop _ body => liveSequence (.nothing :: labels) after body
  | .ifElse _ whenTrue whenFalse =>
    (liveSequence (after :: labels) after whenTrue).union
      (liveSequence (after :: labels) after whenFalse)
  | .br label => .atLabel labels label
  | .brIf label => after.union (.atLabel labels label)
  | .brTable targets otherwise =>
    targets.foldr (fun target l => (Live.atLabel labels target).union l)
      (.atLabel labels otherwise)
  | .localGet i => after.reading i
  | .localSet i | .localTee i => after.setting i
  | .call _ | .callIndirect _ _ | .globalGet _ | .globalSet _ | .load _ _ | .store _ _
  | .memorySize _ | .memoryGrow _ => after.linking
  | .nop | .drop | .select _ | .const _ | .refIsNull | .unary _ | .binary _ => after

/-- What a sequence of instructions and the code after it need. -/
def liveSequence (labels : List Live) (after : Live) : List Instr → Live
  | [] => after
  | i :: rest => i.live labels (liveSequence labels after rest)

end

end SpiritHost.Wasm
