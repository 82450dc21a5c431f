import SubstModel.Failure

/-!
# Outcomes — results that may be failures

The steps of a host program are combined with these, where it chains them by callbacks of its own.  A callback may
have effects in any monad `m`, and each combinator says when it is called.

* `Outcome.bindM` — the callback goes on from a result; a failure is kept, and nothing is called;
* `Outcome.mapM` — the callback changes a result; a failure is kept, and nothing is called;
* `Outcome.foldM` — exactly one of two callbacks is called;
* `Outcome.traverseM` — the callback goes over a list up to its first failure;
* `Outcome.isResult`, `Outcome.isFailure` — the two cases told apart.
-/

namespace SubstModel.Outcome

variable {α β : Type} {m : Type → Type} [Monad m]

/-- The outcome is a result. -/
def isResult : Outcome α → Bool
  | .ok _ => true
  | .error _ => false

/-- The outcome is a failure. -/
def isFailure (r : Outcome α) : Bool :=
  !r.isResult

/-- Goes on from a result; a failure stays as it is. -/
def bindM (r : Outcome α) (next : α → m (Outcome β)) : m (Outcome β) :=
  match r with
  | .ok a => next a
  | .error e => pure (.error e)

/-- Changes a result; a failure stays as it is. -/
def mapM (r : Outcome α) (change : α → m β) : m (Outcome β) :=
  r.bindM fun a => .ok <$> change a

/-- One value for either case. -/
def foldM (r : Outcome α) (onResult : α → m β) (onFailure : Failure → m β) : m β :=
  match r with
  | .ok a => onResult a
  | .error e => onFailure e

/-- The results of a step over a list, or the first failure, after which the step is not called again. -/
def traverseM (items : List α) (step : α → m (Outcome β)) : m (Outcome (List β)) :=
  match items with
  | [] => pure (.ok [])
  | a :: rest => do
    let first ← step a
    first.bindM fun b => do
      let others ← traverseM rest step
      others.bindM fun bs => pure (.ok (b :: bs))

end SubstModel.Outcome
