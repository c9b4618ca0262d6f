/-! # Powers

A power of a natural number or of an integer is the one of core, in every
module: also where another notion of power is in scope that agrees with it. So
a statement about a definition of this library speaks of the same power as the
definition. -/

attribute [instance (2000), default_instance (20000)] instPowNat
