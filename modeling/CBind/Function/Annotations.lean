/-!
# What directives say about a function

A function runs on the calling thread unless it is annotated otherwise, and its cost is unspecified
unless it is annotated as low or high.
-/

namespace CBind

/-- Where a call of a function runs. -/
inductive Policy where
  | sync
  | async
deriving DecidableEq, Repr

/-- The declared expense of one call. -/
inductive Cost where
  | low
  | high
  | unspecified
deriving DecidableEq, Repr

/-- Name a policy in reports. -/
def Policy.spelling : Policy → String
  | sync => "sync"
  | async => "async"

/-- Name a cost in reports. -/
def Cost.spelling : Cost → String
  | low => "low"
  | high => "high"
  | unspecified => "unspecified"

/-- The settings that the directives above a function choose. -/
structure Annotations where
  policy : Policy := .sync
  cost : Cost := .unspecified
deriving DecidableEq, Repr

end CBind
