/-!
# Decimal numerals

`digits n` is the shortest numeral of `n`; `value? s` reads any non-empty run of ASCII digits,
leading zeros included.
-/

namespace ComponentScan.Text.Decimal

/-- The ASCII digit of a number below ten. -/
def digit (n : Nat) : Char :=
  Char.ofNat (48 + n)

/-- The numeral of a number, without leading zeros. -/
def digits (n : Nat) : List Char :=
  if n < 10 then [digit n] else digits (n / 10) ++ [digit (n % 10)]
termination_by n
decreasing_by omega

/-- The value of an ASCII digit. -/
def digitValue? (c : Char) : Option Nat :=
  if '0' ≤ c ∧ c ≤ '9' then some (c.toNat - 48) else none

/-- Reads on from the value of the digits so far. -/
def valueFrom? (acc : Nat) : List Char → Option Nat
  | [] => some acc
  | c :: r => (digitValue? c).bind fun d => valueFrom? (10 * acc + d) r

/-- The value of a non-empty run of ASCII digits. -/
def value? : List Char → Option Nat
  | [] => none
  | s => valueFrom? 0 s

end ComponentScan.Text.Decimal
