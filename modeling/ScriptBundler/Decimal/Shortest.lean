/-!
# Shortest decimals — a binary fraction in as few digits as read back

A finite double is `m * 2 ^ q`. The reals that round to it form an interval, its ends included when
`m` is even. Of the decimal grids with one, two, … digits the first that has a point in the
interval gives the digits, and of two points the nearer one.
-/

namespace ScriptBundler.Decimal

/-- A double taken apart. -/
inductive Shape where
  | notANumber
  | infinite (negative : Bool)
  /-- The value `m * 2 ^ (q - 1074)`; the flag tells that the next double below is nearer than the
  one above. -/
  | finite (negative : Bool) (m q : Nat) (narrowBelow : Bool)

/-- Takes a double's bits apart. -/
def Shape.ofBits (bits : Nat) : Shape :=
  let negative := bits / Nat.pow 2 63 % 2 = 1
  let exponent := bits / Nat.pow 2 52 % Nat.pow 2 11
  let fraction := bits % Nat.pow 2 52
  if exponent = 2047 then
    if fraction = 0 then .infinite negative else .notANumber
  else if exponent = 0 then .finite negative fraction 0 false
  else .finite negative (Nat.pow 2 52 + fraction) (exponent - 1) (fraction = 0 && exponent > 1)

/-- A decimal: the digits of `digits`, with the point after the first `point` of them (before or
beyond them if `point` lies outside). -/
structure Digits where
  /-- The digits as one number, which ends in no zero unless it is zero. -/
  digits : Nat
  /-- How many digits stand before the point. -/
  point : Int
  deriving DecidableEq

/-- How many decimal digits a number has; zero has none. -/
def width (n : Nat) : Nat :=
  if n = 0 then 0 else (Nat.toDigits 10 n).length

/-- A positive fraction `num / den` scaled by a power of ten. -/
def scaled (num den : Nat) : Int → Nat × Nat
  | .ofNat k => (num * Nat.pow 10 k, den)
  | .negSucc k => (num, den * Nat.pow 10 (k + 1))

/-- The power of ten above a positive fraction: the least `k` with `num / den < 10 ^ k`. -/
def magnitude (num den : Nat) : Int :=
  let guess : Int := (width num : Int) - (width den : Int)
  let (a, b) := scaled num den (-guess)
  if a < b then guess else guess + 1

/-- The point of the grid with `count` digits that lies in the interval around `num / den`, the
nearer one if there are two. The interval reaches `below` and `above` (over the same `den`). -/
def gridPoint? (num den below above : Nat) (closed : Bool) (power : Int) (count : Nat) :
    Option Nat :=
  let shift := (count : Int) - power
  let (n, d) := scaled num den shift
  let low := n / d
  let reach (margin : Nat) : Nat × Nat := scaled margin den shift
  let (marginBelow, dBelow) := reach below
  let (marginAbove, dAbove) := reach above
  -- `low` is at distance `n - low * d`, its successor at `(low + 1) * d - n`, both over `d`
  let down := n - low * d
  let up := (low + 1) * d - n
  let fits (distance margin margin' : Nat) : Bool :=
    if closed then distance * margin' ≤ margin * d else distance * margin' < margin * d
  let lowFits := low != 0 && fits down marginBelow dBelow
  let highFits := fits up marginAbove dAbove
  if lowFits && (!highFits || down < up || (down == up && low % 2 == 0)) then some low
  else if highFits then some (low + 1)
  else none

/-- A number without the zeros it ends in; `fuel` bounds how many there may be. -/
def dropZeros : Nat → Nat → Nat
  | 0, n => n
  | fuel + 1, n => if n ≠ 0 ∧ n % 10 = 0 then dropZeros fuel (n / 10) else n

/-- The fewest digits that read back as the positive double `m * 2 ^ (q - 1074)`. -/
def shortest (m q : Nat) (narrowBelow : Bool) : Digits :=
  -- over the denominator `4 * 2 ^ 1074` both half gaps are whole
  let num := 4 * m * Nat.pow 2 q
  let den := 4 * Nat.pow 2 1074
  let above := 2 * Nat.pow 2 q
  let below := if narrowBelow then Nat.pow 2 q else 2 * Nat.pow 2 q
  let power := magnitude num den
  let found := (List.range 17).findSome? fun k =>
    (gridPoint? num den below above (m % 2 = 0) power (k + 1)).map (k + 1, ·)
  match found with
  | none => ⟨0, 0⟩
  | some (count, n) =>
    let point := power + ((width n : Int) - (count : Int))
    ⟨dropZeros 20 n, point⟩

/-- Zeros in a row. -/
def zeros (n : Nat) : String :=
  String.ofList (List.replicate n '0')

/-- A decimal with all its places, at least one on either side of the point. -/
def Digits.positional (d : Digits) : String :=
  let text := toString d.digits
  let length : Int := text.length
  if d.point ≤ 0 then "0." ++ zeros (-d.point).toNat ++ text
  else if d.point < length then
    String.ofList (text.toList.take d.point.toNat) ++ "." ++
      String.ofList (text.toList.drop d.point.toNat)
  else text ++ zeros (d.point - length).toNat ++ ".0"

/-- A decimal with one digit before the point and a power of ten. -/
def Digits.scientific (d : Digits) : String :=
  let exponent := d.point - 1
  let power := (if exponent < 0 then "e-" else "e+") ++ toString exponent.natAbs
  match (toString d.digits).toList with
  | [] => power
  | [c] => String.singleton c ++ power
  | c :: rest => String.singleton c ++ "." ++ String.ofList rest ++ power

/-- How a double is written out. -/
structure Style where
  /-- Whether a magnitude is written with all its places. -/
  positional : Int → Bool
  /-- The name of what is no number. -/
  notANumber : String := "NaN"
  /-- The name of infinity. -/
  infinite : String := "inf"

/-- Every place is written, whatever the magnitude. -/
def Style.plain : Style := ⟨fun _ => true, "NaN", "inf"⟩

/-- Magnitudes from `0.00001` up to sixteen digits are written with all their places. -/
def Style.compact : Style := ⟨fun point => -5 < point ∧ point ≤ 16, "NaN", "inf"⟩

/-- A double in a style. -/
def Style.write (style : Style) (x : Float) : String :=
  match Shape.ofBits x.toBits.toNat with
  | .notANumber => style.notANumber
  | .infinite negative => (if negative then "-" else "") ++ style.infinite
  | .finite negative m q narrow =>
    let sign := if negative then "-" else ""
    if m = 0 then sign ++ "0.0"
    else
      let d := shortest m q narrow
      sign ++ if style.positional d.point then d.positional else d.scientific

end ScriptBundler.Decimal
