import TickFeed.Binary64.Reader
import TickFeed.Environment
import TickFeed.Json.Record
import TickFeed.RateLimit.Bucket
import TickFeed.RateLimit.CallClass

/-! # The broker's limits

A rate and a burst for each class of calls, from a document or from variables,
and the buckets that enforce them. -/

namespace TickFeed

structure RateLimit where
  /-- Calls per second. -/
  rate : Binary64
  /-- Calls at once. -/
  capacity : UInt32
deriving DecidableEq

abbrev RateLimitConfig := PerClass RateLimit

def RateLimit.ofDocument? (d : Json.Document) : Option RateLimit := do
  let r ← d.record? ["rate", "capacity"] false
  return ⟨← r.required "rate" Json.Document.binary64?,
    ← r.required "capacity" Json.Document.uint32?⟩

namespace RateLimitConfig

def default : RateLimitConfig where
  historical := ⟨3, 3⟩
  orderPlacement := ⟨10, 10⟩
  quote := ⟨10, 10⟩

/-- The limits in a document. A class that it leaves out has its default. -/
def ofDocument? (d : Json.Document) : Option RateLimitConfig := do
  let r ← d.record? (CallClass.all.map CallClass.name) false
  let limit := fun (c : CallClass) => r.defaulted c.name (default.get c) RateLimit.ofDocument?
  return ⟨← limit .historical, ← limit .orderPlacement, ← limit .quote⟩

def read? (s : String) : Option RateLimitConfig := (Json.Document.read? s).bind ofDocument?

/-- What the names of the variables of a class begin with. -/
def variableStem : CallClass → String
  | .historical => "RATE_LIMIT_HISTORICAL"
  | .orderPlacement => "RATE_LIMIT_ORDER"
  | .quote => "RATE_LIMIT_QUOTE"

def ofEnvironment (env : Environment) : RateLimitConfig :=
  default.update fun c limit =>
    { rate := env.overlay (variableStem c ++ "_RATE") Binary64.read? limit.rate
      capacity := env.overlay (variableStem c ++ "_BURST") Text.uint32? limit.capacity }

end RateLimitConfig

structure LimitError where
  callClass : CallClass
  reason : BucketError
deriving DecidableEq

def LimitError.message (e : LimitError) : String :=
  "invalid limit for " ++ e.callClass.name ++ ": " ++ e.reason.message

abbrev BrokerLimits := PerClass Bucket

namespace BrokerLimits

def bucket (config : RateLimitConfig) (c : CallClass) : Except LimitError Bucket :=
  (Bucket.full (config.get c).rate (config.get c).capacity).mapError (⟨c, ·⟩)

/-- A full bucket for each class. The first class without one is the error. -/
def ofConfig (config : RateLimitConfig) : Except LimitError BrokerLimits := do
  return ⟨← bucket config .historical, ← bucket config .orderPlacement, ← bucket config .quote⟩

end BrokerLimits

end TickFeed
