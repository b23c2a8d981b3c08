/-! # Powers

Powers of naturals and integers are the core power of the number type, whatever algebraic
structure is loaded beside it, also where the exponent is a bare literal: a bound such as
`2 ^ 64` or a scale factor `10 ^ k` then elaborates to the same term in every module that
reads it, and evaluates with the kernel's arithmetic.
-/

namespace PoolTreasury

-- tried before the power of integers, so that a literal base is still a natural
@[default_instance 10001]
instance (priority := high) natCorePow : Pow Nat Nat := instPowNat

@[default_instance high]
instance (priority := high) intCorePow : Pow Int Nat := instPowNat

end PoolTreasury
