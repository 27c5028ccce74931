/-!
# Failures

Edits are never failures: one that cannot be made is refused. Failures come from text that has to
be read: the name of a kind, a field of a node, a document, a file.
-/

namespace Stepflow

inductive Failure where
  | unknownKind (text : String)
  | invalidConfig (node key : String)
  | undecodable
  | unreadable
deriving DecidableEq, Repr

def Failure.message : Failure → String
  | .unknownKind text => s!"Unknown node kind: '{text}'"
  | .invalidConfig node key =>
    s!"Invalid config '{key}' on node '{node}': expected a string, number or boolean"
  | .undecodable => "The document cannot be decoded"
  | .unreadable => "The file cannot be read"

end Stepflow
