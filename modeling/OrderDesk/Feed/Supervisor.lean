import OrderDesk.Feed.Consumer

/-!
# The supervisor of the feed

Whenever the reader stops by a failure, or no source can be made for it, a new source is made and
the messages that were not committed come again. The supervisor is done once a source says that its
feed is closed.

## Main definitions

* `Attempt`: how one attempt ends
* `Supervisor.run`: attempts until the feed is closed
-/

namespace OrderDesk

/-- **How an attempt ends**: without a source, or as the reader ended. -/
inductive Attempt where
  | noSource (reason : String)
  | ended (outcome : Consumer.Outcome)

namespace Supervisor

/-- Whether the feed is closed after an attempt. -/
def isLast : Attempt → Bool
  | .ended (.ok _) => true
  | _ => false

/-- **Attempts until the feed is closed**, from the attempt `number` on and at most `attempts` of
them; there is no outcome if an attempt has none or the feed goes on. -/
def run {σ : Type} (attempt : Nat → σ → Option Attempt × σ) (number : Nat) :
    Nat → σ → Option Unit × σ
  | 0, s => (none, s)
  | attempts + 1, s =>
    match attempt number s with
    | (none, s) => (none, s)
    | (some a, s) => if isLast a then (some (), s) else run attempt (number + 1) attempts s

end Supervisor

end OrderDesk
