import TinyPascal.Console.Basic

/-!
# Rehearsed consoles

A console whose lines, failures and interrupts are all laid down beforehand. Calls are numbered from
one, on each channel by itself. A call may raise the interrupt and may fail, and a failing call to
read takes no line.
-/
namespace TinyPascal

/-- The call numbers at which something happens, on each channel. -/
structure CallNumbers where
  read : Option Nat := none
  write : Option Nat := none
  warn : Option Nat := none
  consult : Option Nat := none
deriving DecidableEq, Repr

/-- The lines to come (absent for an end of input at that read), the calls made so far, and the
calls that fail or raise the interrupt. -/
structure Rehearsal where
  input : List (Option String)
  failing : CallNumbers
  raising : CallNumbers
  reads : Nat := 0
  writes : Nat := 0
  warns : Nat := 0
deriving DecidableEq, Repr

namespace Rehearsal

def console : Console Rehearsal where
  readLine _ r :=
    let call := r.reads + 1
    let raises := r.raising.read == some call
    if r.failing.read = some call then
      ({ result := .error "read failed", raises }, { r with reads := call })
    else
      ({ result := .ok (r.input.headD none), raises },
        { r with reads := call, input := r.input.tail })
  writeLine _ r :=
    let call := r.writes + 1
    let result := if r.failing.write = some call then .error "write failed" else .ok ()
    ({ result, raises := r.raising.write == some call }, { r with writes := call })
  warn _ r :=
    let call := r.warns + 1
    let result := if r.failing.warn = some call then .error "warn failed" else .ok ()
    ({ result, raises := r.raising.warn == some call }, { r with warns := call })

end Rehearsal

/-- Decisions laid down beforehand, the decisions made so far, and the one that raises the
interrupt. -/
structure Decisions where
  answers : List Bool
  raising : Option Nat := none
  consults : Nat := 0
deriving DecidableEq, Repr

namespace Decisions

/-- The adviser that follows the decisions and then says no. -/
def adviser : Adviser Decisions where
  consult _ d :=
    let call := d.consults + 1
    ({ result := d.answers.headD false, raises := d.raising == some call },
      { d with answers := d.answers.tail, consults := call })

end Decisions

end TinyPascal
