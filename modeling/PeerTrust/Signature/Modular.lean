/-!
# Modular arithmetic

## Main definitions

* `Modular.pow` — powers by repeated squaring
* `Modular.inverse` — inverses modulo a prime
* `Modular.sub` — differences that stay in range
-/

namespace PeerTrust.Modular

/-- `base` to the power `exponent`, modulo `modulus`. -/
def pow (modulus base exponent : Nat) : Nat :=
  if exponent = 0 then 1 % modulus
  else
    let half := pow modulus (base * base % modulus) (exponent / 2)
    if exponent % 2 = 1 then base * half % modulus else half
termination_by exponent

/-- The inverse of a number modulo a prime, as its power to the prime less two. -/
def inverse (prime a : Nat) : Nat := pow prime (a % prime) (prime - 2)

/-- `a - b` modulo `modulus`, for `b` below the modulus. -/
def sub (modulus a b : Nat) : Nat := (a + (modulus - b)) % modulus

end PeerTrust.Modular
