import InlineComponents.Compilation.Basic
import InlineComponents.Extraction
import InlineComponents.OutputContract
import InlineComponents.Package.Manifest
import InlineComponents.Wire.Record

/-!
# Why a build fails

Each failure of a build has a wording, a stable code and, where it concerns the source of one
module, the file of that module.
-/

namespace InlineComponents

/-- The wording of an extraction fault. -/
def ExtractionFault.message : ExtractionFault → String
  | invalidName name =>
    "invalid sub-component name \"" ++ name ++
      "\", expected an upper-camel identifier such as \"Card\""
  | nestedBlock outer inner =>
    "sub-component \"" ++ inner ++ "\" is declared inside \"" ++ outer ++
      "\"; sub-components cannot be nested"
  | unterminatedBlock name => "sub-component \"" ++ name ++ "\" is never closed"
  | duplicateName name => "sub-component \"" ++ name ++ "\" is declared more than once"
  | unmatchedClose offset =>
    "closing sub-component marker at offset " ++ toString offset ++ " has no opening marker"

/-- The code of an extraction fault. -/
def ExtractionFault.code : ExtractionFault → String
  | invalidName _ => "COMPOSE-001"
  | nestedBlock _ _ => "COMPOSE-002"
  | unterminatedBlock _ => "COMPOSE-003"
  | duplicateName _ => "COMPOSE-004"
  | unmatchedClose _ => "COMPOSE-005"

/-- A failure of a build. -/
inductive BuildError where
  | extraction (file : String) (fault : ExtractionFault)
  | parentCompile (file : String) (error : CompileError)
  | preprocess (file : String) (error : CompileError)
  | contract (file : String) (violation : ContractViolation)
  | resolve (specifier : String) (failure : LookupFailure)
  | options (error : ReadError)
  deriving DecidableEq, Repr

namespace BuildError

/-- The wording of a failure. -/
def message : BuildError → String
  | extraction file fault => file ++ ": " ++ fault.message
  | parentCompile file error => file ++ ": " ++ error.message
  | preprocess file error => file ++ ": preprocessing failed: " ++ error.message
  | contract file violation =>
    file ++ ": compiler output does not match the expected shape: " ++ violation.message
  | resolve specifier failure =>
    "failed to resolve \"" ++ specifier ++ "\": " ++ failure.message
  | options error => "invalid plugin options: " ++ error.message

/-- The code of a failure, which does not change between versions. -/
def code : BuildError → String
  | extraction _ fault => fault.code
  | parentCompile _ _ => "COMPOSE-010"
  | preprocess _ _ => "COMPOSE-011"
  | contract _ _ => "COMPOSE-020"
  | resolve _ _ => "COMPOSE-030"
  | options _ => "COMPOSE-040"

/-- The file whose module failed, if the failure concerns one. -/
def file? : BuildError → Option String
  | extraction file _ => some file
  | parentCompile file _ => some file
  | preprocess file _ => some file
  | contract file _ => some file
  | resolve _ _ => none
  | options _ => none

end BuildError

end InlineComponents
