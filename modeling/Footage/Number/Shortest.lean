import Footage.Number.Binary64
/-!
# The shortest decimal of a double

Every real number in a certain interval around a double rounds to that double.  The decimal
that stands for the double has the fewest digits of all decimals in the interval, and is the one
nearest to the double among those.  `Shortest.decimal` finds it by exact arithmetic: for one,
two, … seventeen digits it looks at the two neighbours of the double on the grid of decimals
with that many digits, and the first grid with a neighbour in the interval decides.
-/

namespace Footage.Number.Shortest

/-- `digits · 10 ^ exponent`. -/
structure Decimal where
  digits : Nat
  exponent : Int
deriving DecidableEq, Repr

/-- A positive magnitude `m · 2 ^ e` as a quotient of naturals. -/
def quotient (m : Nat) (e : Int) : Nat × Nat :=
  if 0 ≤ e then (m * 2 ^ e.toNat, 1) else (m, 2 ^ (-e).toNat)

/-- `10 ^ t ≤ num / den`. -/
def reaches (num den : Nat) (t : Int) : Bool :=
  if 0 ≤ t then den * 10 ^ t.toNat ≤ num else den ≤ num * 10 ^ (-t).toNat

/-- The greatest of `t`, …, `t + steps` that the quotient reaches, when it reaches `t`. -/
def climb (num den : Nat) : Nat → Int → Int
  | 0, t => t
  | steps + 1, t => if reaches num den (t + 1) then climb num den steps (t + 1) else t

/-- The greatest `t` with `10 ^ t ≤ num / den`. -/
def order (num den : Nat) : Int :=
  let bits : Int := (Nat.log2 num : Int) - Nat.log2 den - 1
  climb num den 4 (bits * 30103 / 100000 - 1)

/-- Whether `digits · 10 ^ p` rounds to the double `m · 2 ^ e`: it lies between the midpoints to
the neighbouring doubles, which themselves count when `m` is even.  Below a power of two the
neighbour is only half as far. -/
def rounds (m : Nat) (e : Int) (digits : Nat) (p : Int) : Bool :=
  let narrow := m == 2 ^ 52 && -1074 < e
  -- All three numbers in units of `2 ^ (e - 2)`, times `10 ^ -p` when `p` is negative.
  let grid := if 0 ≤ p then 10 ^ p.toNat else 1
  let unit := if 0 ≤ p then 1 else 10 ^ (-p).toNat
  let up := if e - 2 < 0 then 2 ^ (2 - e).toNat else 1
  let down := if e - 2 < 0 then 1 else 2 ^ (e - 2).toNat
  let candidate := digits * grid * up
  let lower := (4 * m - if narrow then 1 else 2) * unit * down
  let upper := (4 * m + 2) * unit * down
  if m % 2 == 0 then lower ≤ candidate && candidate ≤ upper
  else lower < candidate && candidate < upper

/-- The neighbour of `m · 2 ^ e` that represents it on the grid of multiples of `10 ^ p`, if one
does: of two, the nearer one, a tie to the even digit. -/
def onGrid (m : Nat) (e : Int) (p : Int) : Option Nat :=
  let (num, den) := quotient m e
  let num := if 0 ≤ p then num else num * 10 ^ (-p).toNat
  let den := if 0 ≤ p then den * 10 ^ p.toNat else den
  let low := num / den
  let near := roundDiv num den
  let far := if near = low then low + 1 else low
  if rounds m e near p then some near
  else if rounds m e far p then some far
  else none

/-- The decimal on the first grid that has one, from the grid of `10 ^ p` on. -/
def search (m : Nat) (e : Int) : Nat → Int → Decimal
  | 0, p => let (num, den) := quotient m e
            ⟨if 0 ≤ p then roundDiv num (den * 10 ^ p.toNat)
              else roundDiv (num * 10 ^ (-p).toNat) den, p⟩
  | grids + 1, p =>
    match onGrid m e p with
    | some digits => ⟨digits, p⟩
    | none => search m e grids (p - 1)

/-- The shortest decimal of the positive double `m · 2 ^ e`. -/
def decimal (m : Nat) (e : Int) : Decimal :=
  let (num, den) := quotient m e
  search m e 16 (order num den)

end Footage.Number.Shortest
