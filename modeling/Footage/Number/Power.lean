/-!
# Powers

How a power of naturals is read.  There can be more than one instance for it, and the one of the
core language is preferred, so that a power means the same in every module.
-/

attribute [instance (high), default_instance high] instPowNat
