import Gatehouse.Json.Render
import Gatehouse.Resource.Definition

/-!
# The command line

`crds` prints the definitions that a cluster needs before it can hold the kinds watched here, one
document after the other.
-/

namespace Gatehouse.CommandLine

open Resource

/-- What an invocation prints. -/
inductive Output where
  | text (s : String)
  | refusal (message : String)
  deriving DecidableEq, Repr

/-- The definitions to install, one document after the other. -/
def definitions : String :=
  String.join ([repoConfigDefinition, pipelineJobDefinition].map fun d => d.toJson.pretty ++ "\n")

/-- What to print for the given arguments. -/
def output : List String → Output
  | ["crds"] => .text definitions
  | _ => .refusal "usage: gatehouse crds"

end Gatehouse.CommandLine

/-- Print the answer to the arguments; a refusal goes to standard error. -/
def main (args : List String) : IO UInt32 :=
  match Gatehouse.CommandLine.output args with
  | .text s => do
    IO.print s
    return 0
  | .refusal message => do
    IO.eprintln message
    return 2
