/-
SshAuthority/Crypto/Modular.lean

Arithmetic modulo a number: powers by repeated squaring, and from them the
inverses and square roots that prime fields need.
-/

namespace SshAuthority.Modular

/-- The power `base^e` modulo `m`. -/
def pow (m base e : Nat) : Nat :=
  if e = 0 then 1 % m
  else
    let half := pow m (base * base % m) (e / 2)
    if e % 2 = 1 then half * base % m else half
termination_by e
decreasing_by omega

/-- The inverse of `x` modulo a prime `p`; zero for multiples of `p`. -/
def inverse (p x : Nat) : Nat := pow p (x % p) (p - 2)

/-- The difference `x - y` modulo `m`. -/
def sub (m x y : Nat) : Nat := (x + (m - y % m)) % m

/-- A square root of `x` modulo a prime `p` that leaves 3 when divided by 4, if
there is one. -/
def sqrt? (p x : Nat) : Option Nat :=
  let r := pow p x ((p + 1) / 4)
  if r * r % p = x % p then some r else none

/-- The odd part of `n`, and how often two divides it. -/
def oddPart (n : Nat) : Nat × Nat :=
  if n = 0 then (0, 0)
  else if n % 2 = 1 then (n, 0)
  else
    let (odd, twos) := oddPart (n / 2)
    (odd, twos + 1)
termination_by n
decreasing_by omega

/-- Whether one of the first `count` squarings of `x` is `n - 1`. -/
def reachesMinusOne (n : Nat) : (count x : Nat) → Bool
  | 0, _ => false
  | count + 1, x => x = n - 1 || reachesMinusOne n count (x * x % n)

/-- The bases of the primality test. -/
def witnesses : List Nat := [2, 3, 5, 7, 11, 13, 17, 19, 23, 29, 31, 37]

/-- Whether `n` passes the strong probable prime test to every base in `witnesses`. -/
def isProbablePrime (n : Nat) : Bool :=
  if n < 2 then false
  else if witnesses.contains n then true
  else if witnesses.any (n % · = 0) then false
  else
    let (odd, twos) := oddPart (n - 1)
    witnesses.all fun a =>
      let x := pow n a odd
      x = 1 || reachesMinusOne n twos x

end SshAuthority.Modular
