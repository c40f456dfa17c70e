import ParseX.Model.Domain

/-! # Findings

What every check of the library reports. -/
namespace ParseX

inductive Severity where
  | error
  | warning
  deriving DecidableEq, Repr

structure ValidationError where
  severity : Severity := .error
  code : String := ""
  message : String := ""
  location : Option RawSpan := none
  path : Option String := none
  expectedType : Option String := none
  actualType : Option String := none
  deriving DecidableEq, Repr

structure ValidationResult where
  errors : List ValidationError := []
  deriving DecidableEq, Repr

def ValidationResult.hasErrors (result : ValidationResult) : Bool :=
  result.errors.any fun err => err.severity = .error

end ParseX
