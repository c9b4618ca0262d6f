import TickFeed.RateLimit.Bucket

/-! # Calls of a bucket

Those who share a bucket call it one after the other. Time shows only in the tokens
that come in, so a call says how many have come in since the last refill, and a call
that waits says how many come in during each of its sleeps. A caller that sleeps while
others are served makes one call for each of its attempts. -/

namespace TickFeed

inductive BucketRequest where
  /-- Tokens at once, or none. -/
  | acquire (n : UInt32)
  /-- Tokens, with one more attempt after each of the sleeps, in which so much comes
  in. After the last one the caller waits no longer. -/
  | wait (n : UInt32) (sleeps : List Binary64)
  /-- To know how many tokens there are. It is no refill. -/
  | available

structure BucketCall where
  /-- What has come in since the last refill. -/
  arrival : Binary64
  request : BucketRequest

inductive BucketAnswer where
  | granted (n : UInt32)
  | refused
  /-- No length of time is long enough for the tokens that are missing. -/
  | endless
  | available (tokens : Binary64)
deriving DecidableEq

/-- Everything that comes in before a call and during it. -/
def BucketCall.arrivals (call : BucketCall) : List Binary64 :=
  match call.request with
  | .wait _ sleeps => call.arrival :: sleeps
  | .acquire _ | .available => [call.arrival]

namespace Bucket

/-- What an attempt to take `n` tokens leaves behind, and what the caller is told. -/
def conclude (b : Bucket) (n : UInt32) : Attempt → Bucket × BucketAnswer
  | .granted rest => (rest, .granted n)
  | .refused _ => (b, .refused)
  | .endless => (b, .endless)

/-- The attempts of a call that waits: one now, and after a refusal one more at the end
of the next sleep. The last one counts, and the bucket is what it found. -/
def attempts (attempt : Bucket → Attempt) (b : Bucket) : (sleeps : List Binary64) →
    Bucket × Attempt
  | [] => (b, attempt b)
  | amount :: sleeps =>
    match attempt b with
    | .refused _ => attempts attempt (b.refill amount) sleeps
    | outcome => (b, outcome)

/-- A call that waits. It asks for no more than the capacity. -/
def waitFor (b : Bucket) (n : UInt32) (sleeps : List Binary64) : Bucket × BucketAnswer :=
  let last := attempts (fun now => now.acquireWaiting n) b sleeps
  last.1.conclude (min n b.capacity) last.2

def serve (b : Bucket) (call : BucketCall) : Bucket × BucketAnswer :=
  let now := b.refill call.arrival
  match call.request with
  | .acquire n => now.conclude n (now.acquire n)
  | .wait n sleeps => now.waitFor n sleeps
  | .available => (b, .available now.tokens)

def run (b : Bucket) (calls : List BucketCall) : Bucket :=
  calls.foldl (fun b call => (b.serve call).1) b

def answers (b : Bucket) : List BucketCall → List BucketAnswer
  | [] => []
  | call :: calls => (b.serve call).2 :: (b.serve call).1.answers calls

end Bucket

end TickFeed
