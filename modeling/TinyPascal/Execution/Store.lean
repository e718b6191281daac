import TinyPascal.Execution.Fault
import TinyPascal.Typing.Symbols

/-!
# Stores

A store holds the values of a fixed set of variables. Assignment changes values and never the set.
-/
namespace TinyPascal

/-- The values of the variables, in order of the code points of their names. -/
abbrev Store := Std.TreeMap String Value

namespace Store

/-- The store in which a run starts: every declared name holds zero, whatever its type. -/
def ofSymbols (symbols : SymbolTable) : Store :=
  symbols.map fun _ _ => .int 0

def fetch (store : Store) (name : String) : Except RuntimeFault Value :=
  match store[name]? with
  | some value => .ok value
  | none => .error (.unboundVariable name)

def assign (store : Store) (name : String) (value : Value) : Except RuntimeFault Store :=
  if store.contains name then
    .ok (store.insert name value)
  else
    .error (.unboundVariable name)

end Store

end TinyPascal
