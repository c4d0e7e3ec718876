/-!
# Double precision numbers with their exact values

Every finite double is a whole number of units of `2^-1074`, the smallest positive double. A
`Magnitude` holds that number of units together with the proof that the double format has it: at
most 53 significant bits, below `2^1024`. Comparison, integrality and truncation are therefore
integer arithmetic, and rounding is one division to nearest, ties to even.
-/

namespace DocShape

/-- The quotient to the nearest integer, a half going to the even neighbour. -/
def roundHalfEven (num den : Nat) : Nat :=
  let q := num / den
  let r := num % den
  if 2 * r < den then q else if den < 2 * r then q + 1 else q + q % 2

/-- A decimal numeral: `digits * 10 ^ exponent`. -/
structure Decimal where
  digits : Nat
  exponent : Int
deriving DecidableEq, Repr

namespace Magnitude

/-- A unit is one over two to this power. -/
def unitBits : Nat := 1074

/-- How many units make one. -/
def unitsPerOne : Nat := Nat.pow 2 unitBits

/-- Doubles end below two to this power, counted in units. -/
def limitBits : Nat := 1024 + unitBits

/-- The first number of units that is too large for a double. -/
def limit : Nat := Nat.pow 2 limitBits

/-- Doubles near `units` lie `2 ^ spacing units` units apart, so that 53 bits are significant. -/
def spacing (units : Nat) : Nat := units.log2 + 1 - 53

/-- The double format has this number of units. -/
def Representable (units : Nat) : Prop := units < limit ∧ Nat.pow 2 (spacing units) ∣ units

instance (units : Nat) : Decidable (Representable units) :=
  inferInstanceAs (Decidable (_ ∧ _))

end Magnitude

/-- The absolute value of a finite double. -/
structure Magnitude where
  units : Nat
  representable : Magnitude.Representable units
deriving DecidableEq

namespace Magnitude

theorem limit_pos : 0 < limit := by
  unfold limit
  generalize limitBits = n
  exact Nat.pow_pos Nat.two_pos

theorem representable_zero : Representable 0 := ⟨limit_pos, Nat.dvd_zero _⟩

/-- Nothing. -/
def zero : Magnitude := ⟨0, representable_zero⟩

instance : Inhabited Magnitude := ⟨zero⟩

/-- The magnitude with this number of units, where the format has it. -/
def ofUnits? (units : Nat) : Option Magnitude :=
  if h : Representable units then some ⟨units, h⟩ else none

/-- The double nearest to a quotient, ties to even; none from `2^1024` on. -/
def ofRatio? (num den : Nat) : Option Magnitude :=
  let scaled := num * unitsPerOne
  let step := Nat.pow 2 (spacing (scaled / den))
  ofUnits? (roundHalfEven scaled (den * step) * step)

/-- The double nearest to a decimal numeral; none if it is too large. The first two tests only
keep the powers small: they hold where the quotient would be out of range or rounds to zero. -/
def ofDecimal? (d : Decimal) : Option Magnitude :=
  if d.digits = 0 then some zero
  else if 310 ≤ (3 * d.digits.log2 / 10 : Int) + d.exponent then none
  else if ((d.digits.log2 + 1) / 3 + 1 : Int) + d.exponent < -330 then some zero
  else match d.exponent with
    | .ofNat e => ofRatio? (d.digits * Nat.pow 10 e) 1
    | .negSucc e => ofRatio? d.digits (Nat.pow 10 (e + 1))

/-- The whole part. -/
def floor (m : Magnitude) : Nat := m.units / unitsPerOne

/-- No fraction. -/
def IsIntegral (m : Magnitude) : Prop := unitsPerOne ∣ m.units

instance (m : Magnitude) : Decidable m.IsIntegral := inferInstanceAs (Decidable (_ ∣ _))

end Magnitude

/-- A double precision number. There is one NaN, and zero has a sign. -/
inductive Binary64 where
  | nan
  | infinite (negative : Bool)
  | finite (negative : Bool) (magnitude : Magnitude)
deriving DecidableEq

namespace Binary64

instance : Inhabited Binary64 := ⟨.nan⟩

/-- Neither NaN nor infinite. -/
def isFinite : Binary64 → Bool
  | finite _ _ => true
  | _ => false

/-- With the sign turned. -/
def neg : Binary64 → Binary64
  | nan => nan
  | infinite s => infinite !s
  | finite s m => finite (!s) m

/-- The number of units with its sign, for finite numbers. -/
def units? : Binary64 → Option Int
  | finite false m => some m.units
  | finite true m => some (-m.units)
  | _ => none

/-- A finite number without a fraction. -/
def isIntegral : Binary64 → Bool
  | finite _ m => decide m.IsIntegral
  | _ => false

/-- The finite number cut to an integer toward zero. -/
def truncate? : Binary64 → Option Int
  | finite false m => some m.floor
  | finite true m => some (-m.floor)
  | _ => none

/-- The double nearest to a quotient with a sign; too large becomes infinite. -/
def ofRatio (negative : Bool) (num den : Nat) : Binary64 :=
  match Magnitude.ofRatio? num den with
  | some m => finite negative m
  | none => infinite negative

/-- The double nearest to a decimal numeral with a sign; too large becomes infinite. -/
def ofDecimal (negative : Bool) (d : Decimal) : Binary64 :=
  match Magnitude.ofDecimal? d with
  | some m => finite negative m
  | none => infinite negative

/-- The sum, rounded. -/
def add : Binary64 → Binary64 → Binary64
  | nan, _ => nan
  | _, nan => nan
  | infinite s, infinite t => if s = t then infinite s else nan
  | infinite s, finite _ _ => infinite s
  | finite _ _, infinite t => infinite t
  | finite s m, finite t n =>
    let signed (negative : Bool) (units : Nat) : Int := if negative then -(units : Int) else units
    let sum := signed s m.units + signed t n.units
    if sum = 0 then finite (s && t) Magnitude.zero
    else ofRatio (sum < 0) sum.natAbs Magnitude.unitsPerOne

/-- The product with a natural number, rounded. -/
def scale (x : Binary64) (n : Nat) : Binary64 :=
  match x with
  | nan => nan
  | infinite s => if n = 0 then nan else infinite s
  | finite s m => ofRatio s (m.units * n) Magnitude.unitsPerOne

end Binary64

end DocShape
