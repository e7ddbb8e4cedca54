/-!
# Errors and panics

`error.rs`, less the I/O, JSON and trace-line errors that only the trace reader raises. `Panic` is
the part of the language that `Result` does not show: a Rust program that indexes out of bounds or
unwraps `None` stops.

The program that is modelled is the one of Cargo's release profile, which checks no overflow: a
plain `+`, `-` or `*` of machine words wraps. The dev profile panics there instead, which is not
among the panics below.
-/

namespace KvFlowSim

/-- `KvFlowError`. -/
inductive KvFlowError
  | invalidModelProfile (message : String)
  | invalidTransferModel (message : String)
  deriving DecidableEq

/-- The ways in which the modelled functions can panic. -/
inductive Panic
  /-- A slice index at or past the length. -/
  | indexOutOfBounds
  /-- `Option::unwrap` on `None`. -/
  | unwrapNone
  /-- An explicit `panic!`. -/
  | explicit (message : String)
  deriving DecidableEq

end KvFlowSim
