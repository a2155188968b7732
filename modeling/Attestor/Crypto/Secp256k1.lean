/-!
The curve secp256k1: the points of y² = x³ + 7 over a prime field, with a base point of prime order.
Points are kept as X / Z², Y / Z³, so that adding them needs no inverse; the point at infinity has Z = 0.
-/

namespace Attestor.Crypto.Secp256k1

/-- The number of elements of the field. -/
def fieldPrime : Nat :=
  0xfffffffffffffffffffffffffffffffffffffffffffffffffffffffefffffc2f

/-- The order of the base point. -/
def order : Nat :=
  0xfffffffffffffffffffffffffffffffebaaedce6af48a03bbfd25e8cd0364141

/-- A power modulo `m`, by repeated squaring. -/
def powMod (base exponent m : Nat) : Nat :=
  if exponent = 0 then 1 % m
  else
    let half := powMod base (exponent / 2) m
    let square := half * half % m
    if exponent % 2 = 1 then square * base % m else square
termination_by exponent

/-- The inverse modulo a prime, which is a power by Fermat's little theorem. -/
def invMod (a prime : Nat) : Nat :=
  powMod (a % prime) (prime - 2) prime

/-- A difference modulo the field's prime; both operands are below it. -/
def subField (a b : Nat) : Nat :=
  (a + (fieldPrime - b)) % fieldPrime

/-- A point X / Z², Y / Z³. -/
structure Point where
  x : Nat
  y : Nat
  z : Nat
  deriving DecidableEq, Repr

/-- The neutral element. -/
def infinity : Point := ⟨1, 1, 0⟩

/-- The base point. -/
def base : Point :=
  ⟨0x79be667ef9dcbbac55a06295ce870b07029bfcdb2dce28d959f2815b16f81798,
   0x483ada7726a3c4655da4fbfc0e1108a8fd17b448a68554199c47d08ffb10d4b8, 1⟩

/-- Twice a point. -/
def double (p : Point) : Point :=
  let q := fieldPrime
  let yy := p.y * p.y % q
  let s := 4 * p.x * yy % q
  let m := 3 * p.x * p.x % q
  let x := subField (m * m % q) (2 * s % q)
  let y := subField (m * subField s x % q) (8 * yy * yy % q)
  ⟨x, y, 2 * p.y * p.z % q⟩

/-- The sum of two points. -/
def add (p r : Point) : Point :=
  let q := fieldPrime
  if p.z = 0 then r
  else if r.z = 0 then p
  else
    let pz := p.z * p.z % q
    let rz := r.z * r.z % q
    let u1 := p.x * rz % q
    let u2 := r.x * pz % q
    let s1 := p.y * (rz * r.z % q) % q
    let s2 := r.y * (pz * p.z % q) % q
    if u1 = u2 then
      if s1 = s2 then double p else infinity
    else
      let h := subField u2 u1
      let t := subField s2 s1
      let hh := h * h % q
      let hhh := h * hh % q
      let v := u1 * hh % q
      let x := subField (subField (t * t % q) hhh) (2 * v % q)
      let y := subField (t * subField v x % q) (s1 * hhh % q)
      ⟨x, y, h * p.z % q * r.z % q⟩

/-- A multiple of a point, by doubling and adding. -/
def multiple (k : Nat) (p : Point) : Point :=
  if k = 0 then infinity
  else
    let twice := double (multiple (k / 2) p)
    if k % 2 = 1 then add twice p else twice
termination_by k

/-- The coordinates of a point other than infinity. -/
def coordinates (p : Point) : Nat × Nat :=
  let zi := invMod p.z fieldPrime
  let zz := zi * zi % fieldPrime
  (p.x * zz % fieldPrime, p.y * (zz * zi % fieldPrime) % fieldPrime)

end Attestor.Crypto.Secp256k1
