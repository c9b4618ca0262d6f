import TickFeed.Binary64.Arithmetic
import TickFeed.Binary64.Shortest
import TickFeed.Duration

/-! # Token buckets

A bucket holds tokens up to its capacity, fills at a steady rate and is full at
first. A call takes as many tokens as it costs, or is told how long the missing
ones take to come in. That time may be longer than a length of time can be;
such a call has no answer, and the bucket stays as it was. -/

namespace TickFeed

structure Bucket where
  /-- Tokens that come in per second. -/
  rate : Binary64
  /-- The most tokens that it holds. -/
  capacity : UInt32
  tokens : Binary64
deriving DecidableEq

inductive BucketError where
  | invalidRate (rate : Binary64)
  | invalidCapacity (capacity : UInt32)
deriving DecidableEq

def BucketError.message : BucketError → String
  | .invalidRate rate =>
    "rate must be a positive, finite number of tokens per second, got " ++ rate.plainText
  | .invalidCapacity capacity => "capacity must be at least 1 token, got " ++ toString capacity.toNat

/-- What comes of asking for tokens. -/
inductive Attempt where
  | granted (rest : Bucket)
  /-- There are too few; the missing ones take this long. -/
  | refused (wait : Duration)
  /-- There are too few, and no length of time is long enough for the others. -/
  | endless
deriving DecidableEq

namespace Bucket

def count (n : UInt32) : Binary64 := .ofNat n.toNat

/-- A full bucket. -/
def full (rate : Binary64) (capacity : UInt32) : Except BucketError Bucket :=
  if ¬rate.isFinite ∨ ¬Binary64.lt 0 rate then .error (.invalidRate rate)
  else if capacity = 0 then .error (.invalidCapacity capacity)
  else .ok ⟨rate, capacity, count capacity⟩

/-- Tokens come in; what is beyond the capacity is lost. -/
def refill (b : Bucket) (amount : Binary64) : Bucket :=
  { b with tokens := Binary64.min (count b.capacity) (b.tokens + amount) }

/-- Nobody waits for less than a millisecond. -/
def shortestWait : Duration := .ofMilliseconds 1

/-- How long `missing` tokens take to come in. -/
def wait? (b : Bucket) (missing : Binary64) : Option Duration :=
  (Duration.ofBinary64? (missing / b.rate)).map (max shortestWait)

def take (b : Bucket) (n : Binary64) : Attempt :=
  if Binary64.le n b.tokens then .granted { b with tokens := b.tokens - n }
  else
    match b.wait? (n - b.tokens) with
    | some d => .refused d
    | none => .endless

/-- A call that does not wait. It fails when it asks for more than there is. -/
def acquire (b : Bucket) (n : UInt32) : Attempt := b.take (count n)

/-- The tokens of a call that waits: one that asks for more than the capacity
gets a full bucket. -/
def clamp (b : Bucket) (n : UInt32) : Binary64 := count (min n b.capacity)

def acquireWaiting (b : Bucket) (n : UInt32) : Attempt := b.take (b.clamp n)

/-- The bucket that an attempt leaves if its caller sleeps until the missing tokens are
there, and then takes them all. -/
def settle? (b : Bucket) : Attempt → Option Bucket
  | .granted rest => some rest
  | .refused _ => some { b with tokens := 0 }
  | .endless => none

def acquireBlocking? (b : Bucket) (n : UInt32) : Option Bucket := b.settle? (b.acquireWaiting n)

/-- The whole tokens that are there. -/
def available (b : Bucket) : Nat := b.tokens.truncate (2 ^ 64 - 1)

end Bucket

end TickFeed
