/-!
# Interrupt handles

An interrupt can be raised through any of several handles that share a line. A line that is raised
stays raised.
-/
namespace TinyPascal

/-- The lines, each raised or not, and the line that each handle is on. -/
structure Interrupts where
  lines : Array Bool := #[false]
  handles : Array Nat := #[0]
deriving DecidableEq, Repr

namespace Interrupts

def isRaised (interrupts : Interrupts) (handle : Nat) : Bool :=
  ((interrupts.handles[handle]?).bind fun line => interrupts.lines[line]?).getD false

/-- Adds a handle on a line of its own. -/
def addLine (interrupts : Interrupts) : Interrupts where
  lines := interrupts.lines.push false
  handles := interrupts.handles.push interrupts.lines.size

/-- Adds a handle on the line of another handle. -/
def share (interrupts : Interrupts) (handle : Nat) : Interrupts :=
  match interrupts.handles[handle]? with
  | some line => { interrupts with handles := interrupts.handles.push line }
  | none => interrupts

/-- Raises the line of a handle, and tells whether it was raised before. -/
def raise (interrupts : Interrupts) (handle : Nat) : Bool × Interrupts :=
  match interrupts.handles[handle]? with
  | some line =>
    (interrupts.isRaised handle,
      { interrupts with lines := interrupts.lines.setIfInBounds line true })
  | none => (false, interrupts)

def raised (interrupts : Interrupts) : List Bool :=
  interrupts.handles.toList.map fun line => interrupts.lines.getD line false

end Interrupts

end TinyPascal
