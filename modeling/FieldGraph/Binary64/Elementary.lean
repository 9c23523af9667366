import FieldGraph.Binary64.Arithmetic

/-!
# Elementary functions in double precision

Exponential, logarithm and the circular functions deliver the nearest double
to the exact result. A function value is enclosed between two rationals that
integer series give; the enclosure is sharpened until both ends round alike.
Away from the arguments with a rational result the exact result is irrational,
so it is inexact and an enclosure of enough digits always settles it.
-/

namespace FieldGraph.Binary64

/-! ## Fixed-point series

An integer `a` at `w` digits stands for `a / 2 ^ w`. Every term is rounded
toward zero, so a sum of `n` terms is off by at most a few `n` units. -/

def sumSeries (next : Nat → Int → Int) (weigh : Nat → Int → Int) : Nat → Nat → Int → Int
  | 0, _, _ => 0
  | fuel + 1, n, t => if t = 0 then 0 else weigh n t + sumSeries next weigh fuel (n + 1) (next n t)

def expSeries (w : Nat) (r : Int) : Int :=
  sumSeries (fun n t => Int.tdiv (t * r) (powerOfTwo w * (n + 1))) (fun _ t => t)
    (w + 2) 0 (powerOfTwo w)

def atanhSeries (w : Nat) (z : Int) : Int :=
  let square := Int.tdiv (z * z) (powerOfTwo w)
  sumSeries (fun _ t => Int.tdiv (t * square) (powerOfTwo w)) (fun n t => Int.tdiv t (2 * n + 1))
    (w + 2) 0 z

def atanInverseSeries (w k : Nat) : Int :=
  sumSeries (fun _ t => Int.tdiv t (-(k * k : Nat))) (fun n t => Int.tdiv t (2 * n + 1))
    (w + 2) 0 (Int.tdiv (powerOfTwo w) k)

def sinSeries (w : Nat) (r : Int) : Int :=
  let square := Int.tdiv (r * r) (powerOfTwo w)
  sumSeries (fun n t => -Int.tdiv (t * square) (powerOfTwo w * ((2 * n + 2) * (2 * n + 3))))
    (fun _ t => t) (w + 2) 0 r

def cosSeries (w : Nat) (r : Int) : Int :=
  let square := Int.tdiv (r * r) (powerOfTwo w)
  sumSeries (fun n t => -Int.tdiv (t * square) (powerOfTwo w * ((2 * n + 1) * (2 * n + 2))))
    (fun _ t => t) (w + 2) 0 (powerOfTwo w)

/-- `log 2 = 2 atanh (1 / 3)`. -/
def logTwo (w : Nat) : Int := 2 * atanhSeries w (Int.tdiv (powerOfTwo w) 3)

/-- Half of `π = 16 atan (1 / 5) - 4 atan (1 / 239)`. -/
def halfPi (w : Nat) : Int := 8 * atanInverseSeries w 5 - 2 * atanInverseSeries w 239

/-! ## Enclosures -/

structure Enclosure where
  lower : Rat
  upper : Rat

/-- Digits kept beyond the precision asked for; they absorb the errors of the series. -/
def guardDigits : Nat := 64

def Enclosure.around (p : Nat) (a : Int) : Enclosure :=
  let scale : Rat := (powerOfTwo (p + guardDigits) : Rat)
  let error : Int := powerOfTwo (guardDigits - 8)
  ⟨((a - error : Int) : Rat) / scale, ((a + error : Int) : Rat) / scale⟩

def Enclosure.div? (x y : Enclosure) : Option Enclosure :=
  if y.lower ≤ 0 ∧ 0 ≤ y.upper then none
  else
    let a := x.lower / y.lower
    let b := x.lower / y.upper
    let c := x.upper / y.lower
    let d := x.upper / y.upper
    let least (s t : Rat) : Rat := if s ≤ t then s else t
    let most (s t : Rat) : Rat := if s ≤ t then t else s
    some ⟨least (least a b) (least c d), most (most a b) (most c d)⟩

def roundInexact (q : Rat) : Flagged Binary64 :=
  if q = 0 then ⟨zero false, ∅⟩
  else if q < 0 then roundSigned true true (-q)
  else roundSigned false true q

/-- Sharpen an enclosure, doubling the precision, until both its ends round alike. -/
def settle (enclose : Nat → Option Enclosure) : Nat → Nat → Flagged Binary64
  | 0, _ => ⟨defaultNaN, ∅⟩
  | fuel + 1, p =>
    match enclose p with
    | none => settle enclose fuel (2 * p)
    | some e =>
      let low := roundInexact e.lower
      if low.value = (roundInexact e.upper).value then low
      else settle enclose fuel (2 * p)

def settled (enclose : Nat → Option Enclosure) : Flagged Binary64 := settle enclose 10 96

def fixed (w : Nat) (q : Rat) : Int := (q * (powerOfTwo w : Rat)).floor

/-! ## Exponential and logarithm -/

/-- `exp x = 2 ^ k * exp (x - k log 2)` with `k` next to `x / log 2`. -/
def encloseExp (x : Rat) (p : Nat) : Option Enclosure :=
  let w := p + guardDigits
  let unit := logTwo w
  let a := fixed w x
  let k := (2 * a + unit) / (2 * unit)
  let e := Enclosure.around p (expSeries w (a - k * unit))
  let scale := (2 : Rat) ^ k
  some ⟨e.lower * scale, e.upper * scale⟩

/-- Beyond `1000` on either side every exponential over- or underflows alike. -/
def exp (x : Binary64) : Flagged Binary64 :=
  withOperands x x <|
    if x.isInfinite then (if x.isNegative then ⟨zero false, ∅⟩ else ⟨x, ∅⟩)
    else if x.isZero then ⟨ofRat 1, ∅⟩
    else
      let q := x.toRat
      settled (encloseExp (if q < -1000 then -1000 else if 1000 < q then 1000 else q))

/-- `log x = k log 2 + 2 atanh ((m - 1) / (m + 1))` with `x = 2 ^ k * m`, `3 / 4 ≤ m < 3 / 2`. -/
def encloseLog (x : Rat) (p : Nat) : Option Enclosure :=
  let w := p + guardDigits
  let e := binaryExponent x
  let m := x / (2 : Rat) ^ e
  let k := if m < 3 / 2 then e else e + 1
  let m := x / (2 : Rat) ^ k
  some (Enclosure.around p
    (k * logTwo w + 2 * atanhSeries w (fixed w ((m - 1) / (m + 1)))))

def log (x : Binary64) : Flagged Binary64 :=
  withOperands x x <|
    if x.isZero then ⟨infinity true, { divideByZero := true }⟩
    else if x.isNegative then invalidOperation
    else if x.isInfinite then ⟨x, ∅⟩
    else if x.toRat = 1 then ⟨zero false, ∅⟩
    else settled (encloseLog x.toRat)

/-! ## Circular functions -/

/-- The quarter turns in `x`, counted to the nearest, and the remaining angle at `w` digits. -/
def reduceAngle (w : Nat) (x : Rat) : Int × Int :=
  let extra := (binaryExponent x.abs + 32).toNat
  let quarter := halfPi (w + extra)
  let a := fixed (w + extra) x
  let turns := (2 * a + quarter) / (2 * quarter)
  (turns, (a - turns * quarter) / powerOfTwo extra)

def encloseSine (shift : Int) (x : Rat) (p : Nat) : Option Enclosure :=
  let w := p + guardDigits
  let (turns, r) := reduceAngle w x
  let quadrant := (turns + shift) % 4
  some (Enclosure.around p
    (if quadrant = 0 then sinSeries w r
     else if quadrant = 1 then cosSeries w r
     else if quadrant = 2 then -sinSeries w r
     else -cosSeries w r))

/-- A circular function: invalid at infinity and `atZero` at zero. -/
def circular (atZero : Binary64 → Binary64) (enclose : Rat → Nat → Option Enclosure)
    (x : Binary64) : Flagged Binary64 :=
  withOperands x x <|
    if x.isInfinite then invalidOperation
    else if x.isZero then ⟨atZero x, ∅⟩
    else settled (enclose x.toRat)

def sin : Binary64 → Flagged Binary64 := circular id (encloseSine 0)

def cos : Binary64 → Flagged Binary64 := circular (fun _ => ofRat 1) (encloseSine 1)

def tan : Binary64 → Flagged Binary64 :=
  circular id fun x p => do (← encloseSine 0 x p).div? (← encloseSine 1 x p)

end FieldGraph.Binary64
