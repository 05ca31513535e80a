import QueryPanel.Draft.Compile
import QueryPanel.Series.Point

/-!
# Stores

A store takes requests and answers them with data or a failure. What it answers is laid down
beforehand, reply after reply, so a store is the replies it has not given yet, together with the
requests it has received. A store that has run out of replies fails.
-/

namespace QueryPanel

/-- A group of a breakdown. -/
structure BreakdownRow where
  name : String
  value : Double
  deriving DecidableEq

/-- The data that a store answers with. -/
inductive StoreData where
  | timeseries (points : List Point)
  | breakdown (rows : List BreakdownRow)
  deriving DecidableEq

/-- The mode of the requests that data answers. -/
def StoreData.mode : StoreData → Mode
  | .timeseries _ => .timeseries
  | .breakdown _ => .breakdown

/-- What a store answers. -/
inductive StoreReply where
  | data (data : StoreData)
  /-- Why the store failed, the outermost reason first. -/
  | failure (reasons : List String)
  deriving DecidableEq

/-- A store, by the replies it has still to give and the requests it has received. -/
structure Store where
  replies : List StoreReply
  received : List StoreRequest := []

namespace Store

/-- What a store answers when no reply is laid down. -/
def outOfReplies : StoreReply :=
  .failure ["no reply scripted"]

/-- The reply to a request, and the store after it. -/
def call (s : Store) (r : StoreRequest) : StoreReply × Store :=
  (s.replies.headD outOfReplies, ⟨s.replies.tail, s.received ++ [r]⟩)

end Store

end QueryPanel
