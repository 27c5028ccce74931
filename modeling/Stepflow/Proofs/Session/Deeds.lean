import Stepflow.Canvas.Edit
import Stepflow.Proofs.Run.Phases

/-!
# Deeds

What happens in a session as data: edits and control calls in any order. Unlike commands, calls
see the canvas as the edits before them have left it.

* `carryOut`: one deed after the other, with all that they emit;
* `coherent_carryOut`: status, current node and pending step fit together after any deeds.
-/

namespace Stepflow

/-- A control call or a step of the debugger of a session. -/
inductive Control where
  | start (workflow : String)
  | stop
  | resume
  | step (workflow : String)
  | runPending

def Control.on (c : Canvas) : Control → Command
  | .start workflow => .start c workflow
  | .stop => .stop
  | .resume => .resume
  | .step workflow => .step c workflow
  | .runPending => .runPending c

/-- What happens in a session. -/
inductive Deed where
  | edit (fresh : Nat → String) (e : Edit)
  | call (call : Control)

/-- One deed after the other. Calls see the canvas as the edits before them have left it. -/
def carryOut (c : Canvas) (d : Debugger) : List Deed → Canvas × Emission
  | [] => (c, ⟨d, []⟩)
  | .edit fresh e :: rest => carryOut (c.perform fresh e).canvas d rest
  | .call call :: rest =>
    let first := d.obey (call.on c)
    let others := carryOut c first.debugger rest
    (others.1, ⟨others.2.debugger, first.events ++ others.2.events⟩)

theorem coherent_carryOut {d : Debugger} (fit : d.Coherent) (c : Canvas) (deeds : List Deed) :
    (carryOut c d deeds).2.debugger.Coherent := by
  induction deeds generalizing c d with
  | nil => exact fit
  | cons deed rest ih =>
    cases deed with
    | edit fresh e => exact ih fit (c.perform fresh e).canvas
    | call call => exact ih (Debugger.coherent_obey fit (call.on c)) c

end Stepflow
