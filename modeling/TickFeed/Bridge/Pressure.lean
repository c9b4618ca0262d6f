import TickFeed.Binary64.Arithmetic

/-! # Queue pressure

How full a queue is, in percent, and the band that this falls into. Bands only
inform: nothing about how ticks are taken or handed on depends on them. A
monitor remembers the band it saw last and counts how often the queue became
critical. -/

namespace TickFeed

inductive PressureBand where
  /-- Below the threshold of the warning band. -/
  | normal
  | warning
  /-- Above the critical threshold. -/
  | critical
deriving DecidableEq, Inhabited

def PressureBand.name : PressureBand → String
  | .normal => "normal"
  | .warning => "warning"
  | .critical => "critical"

/-- Where the bands begin, in percent. -/
structure BandThresholds where
  warning : Binary64 := 80
  critical : Binary64 := 95
deriving DecidableEq

namespace BandThresholds

/-- The part of a queue that is taken, in percent; `0` for one without room. -/
def utilization (depth capacity : Nat) : Binary64 :=
  if capacity = 0 then 0 else .ofNat depth / .ofNat capacity * 100

/-- The band of a queue. The warning band includes its threshold, the critical
band does not. -/
def classify (t : BandThresholds) (depth capacity : Nat) : PressureBand :=
  let percent := utilization depth capacity
  if Binary64.lt t.critical percent then .critical
  else if Binary64.le t.warning percent then .warning
  else .normal

end BandThresholds

structure BandMonitor where
  thresholds : BandThresholds
  /-- The band that was seen last. -/
  current : PressureBand := .normal
  /-- How often the critical band was entered. -/
  criticalEpisodes : Nat := 0
deriving DecidableEq

namespace BandMonitor

/-- Look at a queue; the answer is its band when that is another one than before. -/
def observe (m : BandMonitor) (depth capacity : Nat) : BandMonitor × Option PressureBand :=
  let band := m.thresholds.classify depth capacity
  if band = m.current then (m, none)
  else
    let entered := if band = .critical then 1 else 0
    ({ m with current := band, criticalEpisodes := m.criticalEpisodes + entered }, some band)

end BandMonitor

end TickFeed
