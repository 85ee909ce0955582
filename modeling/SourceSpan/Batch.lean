import SourceSpan.Report

/-!
# Batches

The spans of several values are computed by a number of workers. The values do not depend on each
other and the results are handed out in the order of the values, so the outcome is that of computing
one value after the other: all spans, or the fault of the first value that has one.
-/

namespace SourceSpan

open Schema

/-- Why a batch has no outcome. -/
inductive BatchFault where
  /-- The options were refused. -/
  | options (rejection : Rejection)
  /-- There is nobody to do the work. -/
  | noWorkers
  /-- A value has no span. -/
  | value (fault : Fault)

def spansOf (settings : Settings) (given : GivenOptions) (workers : Option Int)
    (values : List Value) (machine : optParam Machine .standard) : Except BatchFault (List Span) :=
  match given.resolve settings with
  | .error rejection => .error (.options rejection)
  | .ok options =>
    if workers.getD settings.maxWorkers ≤ 0 then .error .noWorkers
    else (values.mapM (options.spanOf · machine)).mapError .value

def BatchFault.report : BatchFault → Report
  | .options rejection => .rejected rejection
  | .noWorkers => .badValue [.text "max_workers must be greater than 0"]
  | .value fault => fault.report

end SourceSpan
