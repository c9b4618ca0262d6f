import TickFeed.Tick.Basic

/-! # Broadcast to listeners

Ticks go to any number of listeners over one ring of fixed capacity. Nobody
waits for a listener: one that falls behind by more than the ring holds learns
how many ticks it lost and goes on with the oldest that is kept. -/

namespace TickFeed

structure Broadcast where
  capacity : Nat
  /-- How many ticks have been sent. -/
  sent : Nat
  /-- The ticks that the ring holds, the latest first. -/
  ring : List Tick
deriving DecidableEq

/-- The place of a listener: the number of ticks sent before the one it gets
next. -/
structure Listener where
  next : Nat
deriving DecidableEq

inductive Received where
  | tick (tick : Tick)
  /-- So many ticks are lost to this listener. -/
  | lagged (lost : Nat)
deriving DecidableEq

namespace Broadcast

def name : String := "ui-broadcast"

/-- The capacity from which on a ring is larger than memory can be. -/
def capacityLimit : Nat := 2 ^ 56

/-- An empty ring for at least so many ticks, and at least one; its capacity is
the next power of two. -/
def ofBuffer? (buffer : Nat) : Option Broadcast :=
  let capacity := (max buffer 1).nextPowerOfTwo
  if capacity < capacityLimit then some ⟨capacity, 0, []⟩ else none

def send (b : Broadcast) (tick : Tick) : Broadcast :=
  { b with sent := b.sent + 1, ring := (tick :: b.ring).take b.capacity }

def listen (b : Broadcast) : Listener := ⟨b.sent⟩

/-- All that waits for a listener. -/
def receive (b : Broadcast) (l : Listener) : Listener × List Received :=
  let waiting := b.sent - l.next
  let kept := (b.ring.take waiting).reverse
  let lost := waiting - kept.length
  (b.listen, (if lost = 0 then [] else [.lagged lost]) ++ kept.map .tick)

end Broadcast

end TickFeed
