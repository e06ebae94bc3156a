import LineBasic.Fault

namespace LineBasic

/-- Checks output that is a test script: a line `*name` opens a test, a line `:text` says what is
expected, and the line after that is the result. -/
structure Checker where
  test : Option String
  expected : Option String
  line : String
  deriving DecidableEq, Repr

namespace Checker

def empty : Checker := ⟨none, none, ""⟩

def named (s : Option String) : Bool := s.getD "" != ""

def report (test expected result : String) : String :=
  "TEST: " ++ test ++ "\n" ++
    if result = expected then "\tPASSED\n"
    else "\tFAILED\n\tExpected: " ++ expected ++ "\n\tResult:   " ++ result ++ "\n"

def finishLine (c : Checker) : Except (Fault × String) (Checker × String) :=
  match c.line.toList with
  | '*' :: name =>
      if named c.test || named c.expected then throw (.testPending, "")
      else pure ({ c with test := some (String.ofList name), line := "" }, "")
  | ':' :: text =>
      if c.test = none then throw (.testMissing, "")
      else if named c.expected then throw (.resultPending, "")
      else pure ({ c with expected := some (String.ofList text), line := "" }, "")
  | _ =>
      match c.test, c.expected with
      | some test, some expected =>
          if c.line = expected then pure (empty, report test expected c.line)
          else throw (.testFailed, report test expected c.line)
      | _, _ => throw (.testUnset, "")

def append (c : Checker) (s : String) : Checker := { c with line := c.line ++ s }

end Checker

end LineBasic
