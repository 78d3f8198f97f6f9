import CommandTemplate.Decimal.Shortest

/-!
# Layouts of floating-point numbers

A layout decides which numbers are written out in full and which with an exponent, and which of
two equally near decimals stands for a number.  A number that is written out has a point with a
digit on either side; an exponent has a sign and no leading zeros, and the digits before it have a
point only if there is more than one.
-/

namespace CommandTemplate

/-- How numbers are written. -/
structure FloatLayout where
  /-- The least power of ten of the first digit of a number that is written out in full. -/
  least : Option Int
  /-- The greatest power of ten of the first digit of a number that is written out in full. -/
  greatest : Option Int
  /-- The choice among equally near decimals. -/
  tie : Tie

namespace FloatLayout

/-- Whether a number whose first digit has the given power of ten is written out in full. -/
def isPositional (layout : FloatLayout) (leading : Int) : Bool :=
  layout.least.all (· ≤ leading) && layout.greatest.all (leading ≤ ·)

/-- A decimal written out in full; `leading` is the power of ten of its first digit. -/
def positional (digits : Text) (leading : Int) : Text :=
  if leading < 0 then
    '0' :: '.' :: (List.replicate (-leading - 1).toNat '0' ++ digits)
  else
    let places := leading.toNat + 1
    let whole := digits.take places ++ List.replicate (places - digits.length) '0'
    let fraction := digits.drop places
    whole ++ '.' :: (if fraction = [] then ['0'] else fraction)

def scientific (digits : Text) (leading : Int) : Text :=
  let fraction := digits.drop 1
  let point := if fraction = [] then [] else '.' :: fraction
  let sign := if leading < 0 then '-' else '+'
  digits.take 1 ++ point ++ 'e' :: sign :: Text.ofNat leading.natAbs

def magnitude (layout : FloatLayout) (x : Binary64) : Text :=
  if x.isZero then
    ['0', '.', '0']
  else
    let decimal := x.shortest layout.tie
    let digits := Text.ofNat decimal.digits
    let leading := decimal.exponent + digits.length - 1
    if layout.isPositional leading then positional digits leading else scientific digits leading

def render (layout : FloatLayout) (x : Binary64) : Text :=
  if x.negative then '-' :: layout.magnitude x else layout.magnitude x

end FloatLayout
end CommandTemplate
