import Mathlib.Data.List.Infix
import ParseX.Parser.ParseBytes
import ParseX.Schema.SchemaRegistry
import ParseX.Write.WriteFile

/-! # Exceptions and exit codes

What the engine throws, by the classes that `classify` tells apart, and the exit code of each. -/
namespace ParseX
open Cpp

inductive ParseErrorReason where
  | io
  | syntaxError
  deriving DecidableEq, Repr

inductive ExceptionKind where
  | cliParse
  | parse (reason : ParseErrorReason)
  | schemaResolution (reason : SchemaResolutionReason)
  | unsupportedRelease
  | danglingFileReference
  | write
  | filesystem
  | iosFailure
  /-- Any other `std::exception`. -/
  | other
  deriving DecidableEq, Repr

/-- A `std::exception` by its class and its text. -/
structure EngineException where
  kind : ExceptionKind
  what : String
  deriving DecidableEq, Repr

/-! ## Exit codes -/

inductive ExitCode where
  | ok
  | usage
  | dataErr
  | ioErr
  | software
  deriving DecidableEq, Repr

/-- The number of the process. -/
def ExitCode.status : ExitCode → Nat
  | .ok => 0
  | .usage => 64
  | .dataErr => 65
  | .ioErr => 74
  | .software => 70

/-- `msg.find(part) != npos`. -/
def mentions (msg part : String) : Bool := decide (part.toList <:+: msg.toList)

def classify (ex : EngineException) : ExitCode :=
  match ex.kind with
  | .cliParse => .usage
  | .parse .io => .ioErr
  | .parse .syntaxError => .dataErr
  | .schemaResolution reason => if reason = .schemaFileMissing then .ioErr else .dataErr
  | .unsupportedRelease | .danglingFileReference | .write => .dataErr
  | .filesystem | .iosFailure => .ioErr
  | .other =>
    if mentions ex.what "failed to write" || mentions ex.what "failed to move" then .ioErr
    else .software

theorem classify_ne_ok (ex : EngineException) : classify ex ≠ .ok := by
  unfold classify
  split <;> (try split) <;> simp

theorem status_ne_zero {code : ExitCode} (h : code ≠ .ok) : code.status ≠ 0 := by
  cases code with
  | ok => exact absurd rfl h
  | _ => decide

/-! ## What the failures of the engine are thrown as -/

def ParseFailure.exception : ParseFailure → EngineException
  | .noSchemaLocation path => ⟨.other, "parsex: cannot determine AUTOSAR release for '" ++ path ++
      "': root element has no xsi:schemaLocation"⟩
  | .unsupportedRelease schemaFilename => ⟨.unsupportedRelease, "UnsupportedReleaseError: schema '" ++
      schemaFilename ++ "' is not a supported AUTOSAR release (supported: 4.2.2-R21-11)"⟩

def reasonName : SchemaResolutionReason → String
  | .unsupportedRelease => "UnsupportedRelease"
  | .schemaFileMissing => "SchemaFileMissing"
  | .schemaFileCorrupt => "SchemaFileCorrupt"

def SchemaResolutionError.exception (failure : SchemaResolutionError) : EngineException where
  kind := .schemaResolution failure.reason
  what := "SchemaResolutionError[" ++ reasonName failure.reason ++ "] release '" ++ failure.release ++
    "': " ++ failure.detail

/-- The constructor of `WriteError`. -/
def writeErrorMessage (result : ValidationResult) : String :=
  result.errors.foldl (fun message err => message ++ " [" ++ err.code ++ "] " ++ err.message)
    "parsex: cannot write project:"

def SaveFailure.exception : SaveFailure → EngineException
  | .document (.writeError result) => ⟨.write, writeErrorMessage result⟩
  | .document .blankText =>
    ⟨.other, "parsex: whitespace-only text node found (would defeat the pretty-printer)"⟩
  | .tree message => ⟨.other, message⟩
  | .unwritable path =>
    ⟨.other, "parsex: failed to write XML file '" ++ path ++ "' (unwritable path or I/O error)"⟩
  | .notMoved path message =>
    ⟨.other, "parsex: failed to move written file into place '" ++ path ++ "': " ++ message⟩

end ParseX
