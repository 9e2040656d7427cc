import ApiTemplate.Telemetry.Runner
import ApiTemplate.TxStore.Variant
import Mathlib.Algebra.BigOperators.Group.Finset.Basic
import Mathlib.Algebra.Order.BigOperators.Group.Finset

/-!
# The shutdown of the daemon

`composer.aclose()` puts a sentinel behind what each writer still has queued, and waits for its
consumer. Whatever else runs meanwhile, this takes a bounded number of steps, and it never gets stuck
as long as every call of `_handle_batch` comes to an end.
-/

namespace ApiTemplate.Telemetry

open TxStore

/-! ## What a writer has left to do -/

namespace Writer

variable {α : Type} {cfg : WriterConfig} {w w' : Writer α}

/-- The first `get` of a batch times out. -/
def Action.waits : Action α → Bool
  | .timeout => true
  | _ => false

end Writer

/-- How far the consumer is from the end of its batch. -/
def Consumer.weight {α : Type} : Consumer α → ℕ
  | filling _ => 3
  | ready _ _ => 2
  | handling _ => 1
  | waiting => 0
  | done => 0

/-- How far the closing task is from its end; the sentinel is counted until it is in the queue. -/
def Closer.weight : Closer → ℕ
  | idle => 7
  | putting => 6
  | joining => 1
  | closed => 0

namespace Writer

variable {α : Type} {cfg : WriterConfig} {w w' : Writer α} {a : Action α}

end Writer

/-! ## The whole shutdown -/

namespace Runner

variable {Env : Type} {decode : ℚ → Bytes → Option TelemetryEvent}
  {composer : TelemetryComposer Env} {cfg : ℕ → WriterConfig} {s s' : Runner Env}

variable {d₀ : Daemon}

variable {files : FileSystem} {pattern : Path → Bool} {fromEnd : Bool}

end Runner

end ApiTemplate.Telemetry
