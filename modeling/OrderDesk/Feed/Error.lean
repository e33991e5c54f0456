import OrderDesk.Desk.Error
import OrderDesk.Event.Basic
import OrderDesk.Json.Error

/-!
# Failing feeds

How the source of messages fails, and what stops the reader of the feed.
-/

namespace OrderDesk

/-- **A failed source** of messages. -/
inductive SourceError where
  | receive (reason : String)
  | commit (topic : String) (partition offset : Int) (reason : String)
  deriving DecidableEq, Repr

/-- The wording of a failed source. -/
def SourceError.message : SourceError → String
  | receive reason => "Failed to receive message: " ++ reason
  | commit topic partition offset reason =>
    "Failed to commit offset " ++ toString offset ++ " on " ++ topic ++ "/"
      ++ toString partition ++ ": " ++ reason

/-- **What stops the reader of the feed.** -/
inductive FeedError where
  /-- A payload that is no event. -/
  | decode (topic : String) (partition offset : Int) (reason : Json.Error)
  /-- An event that the desk could not apply for now. -/
  | handler (order : Uuid) (reason : DeskError)
  | source (reason : SourceError)
  deriving DecidableEq

/-- The wording of what stops the reader. -/
def FeedError.message : FeedError → String
  | decode topic partition offset reason =>
    "Failed to decode OrderAssembled at " ++ topic ++ "/" ++ toString partition ++ "@"
      ++ toString offset ++ ": " ++ reason.message
  | handler order reason => "Handler failed for order " ++ order.toText ++ ": " ++ reason.message
  | source reason => reason.message

/-- The wording of the cause behind it; a failed source stands for itself. -/
def FeedError.cause? : FeedError → Option String
  | decode _ _ _ reason => some reason.message
  | handler _ reason => some reason.message
  | source _ => none

end OrderDesk
