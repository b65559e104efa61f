/-!
Contract: powers and sums of numbers.

Owns: the instances by which they are read. They are those of the core library, also beside a
library that has others.
-/

attribute [instance (high), default_instance (high + 1)] instPowNat
attribute [instance (high)] Zero.ofOfNat0
