import Stepflow.Text.Blank
import Stepflow.Text.Lower
import Stepflow.Workflow.Node

/-!
# Suggestions

A service may propose what to insert on an edge. Its answer is any text, so it only ever picks one
of the kinds that may be inserted; every other answer means an action.
-/

namespace Stepflow

namespace NodeKind

/-- The kind when nothing usable is proposed. -/
def fallback : NodeKind := .action

/-- The insertable kind named by a text, apart from white space around it and from the case of its
letters. -/
def ofSuggestion (text : String) : NodeKind :=
  match NodeKind.parse (.ofList (lower (trim text.toList))) with
  | .ok kind => if kind.insertable then kind else fallback
  | .error _ => fallback

end NodeKind

end Stepflow
