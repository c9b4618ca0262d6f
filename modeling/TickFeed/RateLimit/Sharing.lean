import TickFeed.RateLimit.Limits
import TickFeed.RateLimit.Run

/-! # Callers of the broker's limits

The callers of all classes share one set of limits and come one after the other, each
to the bucket of its class. A call that blocks is served when its sleep is over; it is
written down as one step. -/

namespace TickFeed

inductive BucketUse where
  | call (call : BucketCall)
  /-- Tokens, however long they take to come in. The first attempt finds what has come
  in since the last refill. -/
  | block (arrival : Binary64) (n : UInt32)

/-- What is seen of a use: what the caller is told, and the tokens that are there then. -/
structure BucketSight where
  answer : BucketAnswer
  tokens : Binary64
deriving DecidableEq

namespace Bucket

def use (b : Bucket) : BucketUse → Bucket × BucketAnswer
  | .call call => b.serve call
  | .block arrival n =>
    let now := b.refill arrival
    match now.acquireBlocking? n with
    | some rest => (rest, .granted (min n b.capacity))
    | none => (now, .endless)

def useAll (b : Bucket) (uses : List BucketUse) : Bucket :=
  uses.foldl (fun b u => (b.use u).1) b

def sights (b : Bucket) : List BucketUse → List BucketSight
  | [] => []
  | u :: uses => ⟨(b.use u).2, (b.use u).1.tokens⟩ :: (b.use u).1.sights uses

end Bucket

namespace BrokerLimits

def limiter (l : BrokerLimits) (c : CallClass) : Bucket := l.get c

def use (l : BrokerLimits) (c : CallClass) (u : BucketUse) : BrokerLimits × BucketAnswer :=
  let served := (l.limiter c).use u
  (l.set c served.1, served.2)

def useAll (l : BrokerLimits) (uses : List (CallClass × BucketUse)) : BrokerLimits :=
  uses.foldl (fun l u => (l.use u.1 u.2).1) l

def sights (l : BrokerLimits) : List (CallClass × BucketUse) → List (CallClass × BucketSight)
  | [] => []
  | (c, u) :: uses =>
    (c, ⟨(l.use c u).2, ((l.use c u).1.limiter c).tokens⟩) :: (l.use c u).1.sights uses

end BrokerLimits

end TickFeed
