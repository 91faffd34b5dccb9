set_option autoImplicit false

/-! # Powers

Numbers here have powers with the exponents that the core library gives them. A library of algebra
brings powers of its own, which are the same ones under another name; so that what is written
`2 ^ 32` has one meaning in every module, whatever that module imports, the core ones go first.
-/

attribute [default_instance 20000] instPowNat
attribute [
instance 20000] instPowNat
