import UrlFilter.Query

/-!
# Usage of insights

The same insights can be handed to several filters and controls, one after the other. What these
use is recorded, also where they turn out to be none.
-/

namespace UrlFilter

/-- Something that records insights. -/
inductive Usage where
  /-- A field and a tag are recorded. -/
  | record (mark : Mark)
  /-- A text is read as a filter. -/
  | filter (depthLimit : Int) (text : String)
  /-- Control segments are applied. -/
  | controls (segments : List String)
deriving DecidableEq, Repr

namespace Usage

/-- The usage, but for its result. -/
def run : Usage → EStateM QueryFailure Insights Unit
  | .record mark => modify fun insights => insights.record mark
  | .filter depthLimit text => fun insights =>
    match (parseFilter depthLimit text).run insights with
    | .ok _ after => .ok () after
    | .error failure after => .error (.filter failure) after
  | .controls segments => fun insights =>
    match (Query.readControls segments).run ⟨insights, []⟩ with
    | .ok _ trace => .ok () trace.insights
    | .error failure trace => .error failure trace.insights

/-- The insights behind the usage, whether it succeeds or fails. -/
def leave (insights : Insights) (usage : Usage) : Insights :=
  match usage.run insights with
  | .ok _ after => after
  | .error _ after => after

/-- The insights behind several usages, in order. -/
def leaveAll (insights : Insights) (usages : List Usage) : Insights :=
  usages.foldl leave insights

end Usage

end UrlFilter
