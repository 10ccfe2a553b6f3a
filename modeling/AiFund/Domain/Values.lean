import AiFund.Library.FixedPoint
import Mathlib.Algebra.Order.Field.Rat

/-!
# Python values

JSON as the code receives it, the parts of `decimal.Decimal` and `datetime.date` that it parses JSON
into, and what a numeric column makes of a decimal.
-/

namespace AiFund

/-! ## Text -/

/-- The code points of `str.isspace`. -/
def isSpace (c : Char) : Bool :=
  let n := c.toNat
  (9 ≤ n && n ≤ 13) || (28 ≤ n && n ≤ 32) || (8192 ≤ n && n ≤ 8202) ||
    n ∈ [133, 160, 5760, 8232, 8233, 8239, 8287, 12288]

/-- `str.strip`. -/
def strip (text : List Char) : List Char :=
  ((text.dropWhile isSpace).reverse.dropWhile isSpace).reverse

/-- The zeros of the runs of decimal digits that Unicode 15 has beyond ASCII. -/
def digitZeros : List Nat :=
  [0x660, 0x6f0, 0x7c0, 0x966, 0x9e6, 0xa66, 0xae6, 0xb66, 0xbe6, 0xc66, 0xce6, 0xd66, 0xde6,
   0xe50, 0xed0, 0xf20, 0x1040, 0x1090, 0x17e0, 0x1810, 0x1946, 0x19d0, 0x1a80, 0x1a90, 0x1b50,
   0x1bb0, 0x1c40, 0x1c50, 0xa620, 0xa8d0, 0xa900, 0xa9d0, 0xa9f0, 0xaa50, 0xabf0, 0xff10,
   0x104a0, 0x10d30, 0x11066, 0x110f0, 0x11136, 0x111d0, 0x112f0, 0x11450, 0x114d0, 0x11650,
   0x116c0, 0x11730, 0x118e0, 0x11950, 0x11c50, 0x11d50, 0x11da0, 0x11f50, 0x16a60, 0x16ac0,
   0x16b50, 0x1d7ce, 0x1d7d8, 0x1d7e2, 0x1d7ec, 0x1d7f6, 0x1e140, 0x1e2f0, 0x1e4f0, 0x1e950,
   0x1fbf0]

/-- The ASCII digit of a decimal digit; every other character is left as it is. -/
def asciiDigit (c : Char) : Char :=
  if c.toNat < 128 then c
  else
    match digitZeros.find? fun first => first ≤ c.toNat && c.toNat < first + 10 with
    | some first => Char.ofNat ('0'.toNat + (c.toNat - first))
    | none => c

/-! ## Decimal -/

inductive Decimal where
  | finite (coeff exp : Int)
  | infinity (negative : Bool)
  | nan
  deriving DecidableEq

namespace Decimal

/-- The value of a finite decimal. -/
def toRat? : Decimal → Option ℚ
  | .finite coeff exp =>
      some (if 0 ≤ exp then coeff * 10 ^ exp.toNat else coeff / 10 ^ (-exp).toNat)
  | _ => none

/-- `bool(d)`: a NaN is true. -/
def truthy : Decimal → Bool
  | .finite coeff _ => coeff ≠ 0
  | _ => true

def digitsToNat (digits : List Char) : Nat :=
  digits.foldl (fun n c => n * 10 + (c.toNat - '0'.toNat)) 0

/-- The exponent of a numeral, with the exponent sign: `rest` is empty or starts at the `e`. -/
def parseExponent : List Char → Option Int
  | [] => some 0
  | e :: rest =>
      if e = 'e' ∨ e = 'E' then
        match rest with
        | '-' :: digits =>
            if digits ≠ [] ∧ digits.all Char.isDigit then some (-(digitsToNat digits : Int)) else none
        | '+' :: digits =>
            if digits ≠ [] ∧ digits.all Char.isDigit then some (digitsToNat digits) else none
        | digits =>
            if digits ≠ [] ∧ digits.all Char.isDigit then some (digitsToNat digits) else none
      else none

def parseUnsigned (negative : Bool) (text : List Char) : Option Decimal :=
  let sign : Int := if negative then -1 else 1
  let lower := text.map Char.toLower
  if lower = "inf".toList ∨ lower = "infinity".toList then some (.infinity negative)
  else if lower.take 3 = "nan".toList ∧ (lower.drop 3).all Char.isDigit then some .nan
  else if lower.take 4 = "snan".toList ∧ (lower.drop 4).all Char.isDigit then some .nan
  else
    let whole := text.takeWhile Char.isDigit
    let rest := text.dropWhile Char.isDigit
    let fraction := if rest.head? = some '.' then rest.tail.takeWhile Char.isDigit else []
    let rest := if rest.head? = some '.' then rest.tail.dropWhile Char.isDigit else rest
    if whole = [] ∧ fraction = [] then none
    else (parseExponent rest).map fun exp =>
      .finite (sign * digitsToNat (whole ++ fraction)) (exp - fraction.length)

/-- `Decimal(text)`; `none` where it raises `InvalidOperation`. -/
def parse (text : String) : Option Decimal :=
  match ((strip text.toList).map asciiDigit).filter (· ≠ '_') with
  | '-' :: rest => parseUnsigned true rest
  | '+' :: rest => parseUnsigned false rest
  | rest => parseUnsigned false rest

/-- `str(d)` in scientific notation as the decimal specification writes it. -/
def pyStr : Decimal → String
  | .infinity negative => if negative then "-Infinity" else "Infinity"
  | .nan => "NaN"
  | .finite coeff exp =>
      let sign := if coeff < 0 then "-" else ""
      let digits := toString coeff.natAbs
      let leftDigits : Int := exp + digits.length
      if exp = 0 then sign ++ digits
      else if exp < 0 ∧ -6 < leftDigits then
        if 0 < leftDigits then
          sign ++ String.ofList (digits.toList.take leftDigits.toNat) ++ "." ++
            String.ofList (digits.toList.drop leftDigits.toNat)
        else sign ++ "0." ++ String.ofList (List.replicate (-leftDigits).toNat '0') ++ digits
      else
        let mantissa :=
          if digits.length = 1 then digits
          else String.ofList (digits.toList.take 1) ++ "." ++ String.ofList (digits.toList.drop 1)
        let power := leftDigits - 1
        sign ++ mantissa ++ "E" ++ (if power < 0 then "-" else "+") ++ toString power.natAbs

/-- A finite decimal is its value. -/
def worth (d : Decimal) : ℚ ⊕ Decimal := d.toRat?.elim (.inr d) .inl

end Decimal

/-! ## Numeric columns -/

/-- `Numeric(precision, scale)`. -/
structure Numeric where
  precision : Nat
  scale : Nat

namespace Numeric

open FixedPoint

def price : Numeric := ⟨20, 6⟩

def cost : Numeric := ⟨12, 6⟩

def prob : Numeric := ⟨5, 4⟩

/-- Returns and errors of scored predictions. -/
def ratio : Numeric := ⟨10, 6⟩

variable (column : Numeric)

def unit : ℚ := 1 / 10 ^ column.scale

/-- A number is rounded as it is stored. -/
def rounded (q : ℚ) : ℚ := toGrid column.unit q

theorem unit_ne_zero : column.unit ≠ 0 := by simp [unit]

theorem rounded_eq_self_iff {q : ℚ} : column.rounded q = q ↔ OnGrid column.unit q :=
  toGrid_eq_self_iff column.unit_ne_zero

theorem rounded_add {p q : ℚ} (hgrid : OnGrid column.unit p) (hp : 0 ≤ p) (hq : 0 ≤ q) :
    column.rounded (p + q) = p + column.rounded q :=
  toGrid_add (by simp [unit]) hgrid hp hq

/-- What is stored of a decimal. -/
def stored (d : Decimal) : Decimal :=
  match d.toRat? with
  | some q => .finite (nearest (q / column.unit)) (-column.scale)
  | none => d

theorem toRat?_stored (d : Decimal) : (column.stored d).toRat? = d.toRat?.map column.rounded := by
  unfold stored
  cases hq : d.toRat? with
  | none => exact hq
  | some q =>
      have hscale : ((10 : ℚ) ^ (- -(column.scale : Int)).toNat)⁻¹ = column.unit := by
        simp [unit]
      simp only [Decimal.toRat?, Option.map_some, rounded, toGrid]
      split_ifs with hzero
      · have hnone : column.scale = 0 := by omega
        simp [unit, hnone]
      · rw [div_eq_mul_inv, hscale]

theorem worth_stored (d : Decimal) :
    (column.stored d).worth = Sum.map column.rounded id d.worth := by
  unfold Decimal.worth
  rw [toRat?_stored]
  cases hq : d.toRat? with
  | none => simp [stored, hq]
  | some q => rfl

/-- The decimal has no more digits after the point than the column. -/
def Keeps (d : Decimal) : Prop := ∀ q, d.toRat? = some q → OnGrid column.unit q

theorem worth_stored_eq_iff {d : Decimal} :
    Sum.map column.rounded id d.worth = d.worth ↔ column.Keeps d := by
  unfold Keeps Decimal.worth
  cases hq : d.toRat? with
  | none => simp
  | some q => simp [rounded_eq_self_iff]

/-- The column has room for the number; it takes a NaN, but no infinity. -/
def holds : Decimal → Bool
  | .infinity _ => false
  | .nan => true
  | d => d.toRat?.all fun q => |q| < 10 ^ (column.precision - column.scale)

end Numeric

/-! ## Dates -/

structure Date where
  year : Nat
  month : Nat
  day : Nat
  deriving DecidableEq

namespace Date

def isLeap (year : Nat) : Bool := year % 4 == 0 && (year % 100 != 0 || year % 400 == 0)

def daysInMonth (year month : Nat) : Nat :=
  if month = 2 then (if isLeap year then 29 else 28)
  else if month = 4 ∨ month = 6 ∨ month = 9 ∨ month = 11 then 30 else 31

def mk? (year month day : Nat) : Option Date :=
  if 1 ≤ year ∧ year ≤ 9999 ∧ 1 ≤ month ∧ month ≤ 12 ∧ 1 ≤ day ∧ day ≤ daysInMonth year month then
    some ⟨year, month, day⟩
  else none

/-- The ordinal of 1 January, where 1 January of year 1 has ordinal 1. -/
def yearOrdinal (year : Nat) : Nat :=
  (year - 1) * 365 + (year - 1) / 4 - (year - 1) / 100 + (year - 1) / 400 + 1

def ofOrdinal (ordinal : Nat) : Date :=
  -- counted from 1 March of year 0, so that the leap day is the last of its year
  let z := ordinal + 305
  let doe := z % 146097
  let yoe := (doe - doe / 1460 + doe / 36524 - doe / 146096) / 365
  let doy := doe - (365 * yoe + yoe / 4 - yoe / 100)
  let mp := (5 * doy + 2) / 153
  let month := if mp < 10 then mp + 3 else mp - 9
  ⟨yoe + z / 146097 * 400 + (if month ≤ 2 then 1 else 0), month, doy - (153 * mp + 2) / 5 + 1⟩

def ofIsoWeek? (year week day : Nat) : Option Date :=
  let firstDay := yearOrdinal year
  let firstWeekday := (firstDay + 6) % 7
  let longYear := firstWeekday = 3 ∨ (firstWeekday = 2 ∧ isLeap year)
  if 1 ≤ year ∧ 1 ≤ week ∧ (week ≤ 52 ∨ (week = 53 ∧ longYear)) ∧ 1 ≤ day ∧ day ≤ 7 then
    let monday := firstDay + (if 3 < firstWeekday then 7 else 0)
    let date := ofOrdinal (monday + (week - 1) * 7 + (day - 1) - firstWeekday)
    mk? date.year date.month date.day
  else none

def number? (text : List Char) : Option Nat :=
  if text.all Char.isDigit then some (Decimal.digitsToNat text) else none

/-- `date.fromisoformat`: the ISO 8601 calendar and week dates, basic or extended. -/
def fromIsoFormat (text : String) : Option Date :=
  match text.toList with
  | [y₁, y₂, y₃, y₄, '-', 'W', w₁, w₂] => do
      ofIsoWeek? (← number? [y₁, y₂, y₃, y₄]) (← number? [w₁, w₂]) 1
  | [y₁, y₂, y₃, y₄, '-', 'W', w₁, w₂, '-', d] => do
      ofIsoWeek? (← number? [y₁, y₂, y₃, y₄]) (← number? [w₁, w₂]) (← number? [d])
  | [y₁, y₂, y₃, y₄, 'W', w₁, w₂] => do
      ofIsoWeek? (← number? [y₁, y₂, y₃, y₄]) (← number? [w₁, w₂]) 1
  | [y₁, y₂, y₃, y₄, 'W', w₁, w₂, d] => do
      ofIsoWeek? (← number? [y₁, y₂, y₃, y₄]) (← number? [w₁, w₂]) (← number? [d])
  | [y₁, y₂, y₃, y₄, '-', m₁, m₂, '-', d₁, d₂] => do
      mk? (← number? [y₁, y₂, y₃, y₄]) (← number? [m₁, m₂]) (← number? [d₁, d₂])
  | [y₁, y₂, y₃, y₄, m₁, m₂, d₁, d₂] => do
      mk? (← number? [y₁, y₂, y₃, y₄]) (← number? [m₁, m₂]) (← number? [d₁, d₂])
  | _ => none

def pad (width n : Nat) : String :=
  let digits := (toString n).toList
  String.ofList (List.replicate (width - digits.length) '0' ++ digits)

def isoFormat (date : Date) : String :=
  pad 4 date.year ++ "-" ++ pad 2 date.month ++ "-" ++ pad 2 date.day

end Date

/-- Aware UTC datetimes, in seconds since the epoch. -/
abbrev Time := ℚ

/-- `datetime.min.replace(tzinfo=UTC)`. -/
def datetimeMin : Time := -62135596800

/-- `datetime.max.replace(tzinfo=UTC)`. -/
def datetimeMax : Time := 253402300799999999 / 1000000

/-- The calendar date of a time: ordinal 719163 is 1 January 1970. -/
def Time.date (time : Time) : Date := Date.ofOrdinal ((time / 86400).floor + 719163).toNat

/-! ## JSON -/

inductive Json where
  | null
  | bool (b : Bool)
  | int (n : Int)
  /-- A float, as the text of its shortest repr. -/
  | float (repr : String)
  | str (s : String)
  | arr (items : List Json)
  | obj (fields : List (String × Json))

/-- A JSON dict: the keys are distinct. -/
abbrev JsonObject := List (String × Json)

namespace Json

def truthy : Json → Bool
  | .null => false
  | .bool b => b
  | .int n => n ≠ 0
  | .float repr => (Decimal.parse repr).any Decimal.truthy
  | .str s => s ≠ ""
  | .arr items => !items.isEmpty
  | .obj fields => !fields.isEmpty

/-- `x or y` for a JSON `x`. -/
def orElse (x y : Json) : Json := if x.truthy then x else y

def quote (s : String) : String := "'" ++ s ++ "'"

mutual

/-- `repr`, up to escapes inside strings. -/
def repr : Json → String
  | .null => "None"
  | .bool b => if b then "True" else "False"
  | .int n => toString n
  | .float text => text
  | .str s => quote s
  | .arr items => "[" ++ ", ".intercalate (reprItems items) ++ "]"
  | .obj fields => "\x7b" ++ ", ".intercalate (reprFields fields) ++ "\x7d"

def reprItems : List Json → List String
  | [] => []
  | item :: items => item.repr :: reprItems items

def reprFields : List (String × Json) → List String
  | [] => []
  | (key, item) :: fields => (quote key ++ ": " ++ item.repr) :: reprFields fields

end

def pyStr : Json → String
  | .str s => s
  | value => value.repr

/-- `len`-free view as an `int`, as slicing and `max` take it: a bool is an int. -/
def toInt? : Json → Option Int
  | .int n => some n
  | .bool b => some (if b then 1 else 0)
  | _ => none

end Json

/-- `fields.get(key)`, with `None` for a missing key. -/
def JsonObject.get (fields : JsonObject) (key : String) : Json :=
  (List.lookup key fields).getD .null

/-- `fields.setdefault(key, value)`. -/
def JsonObject.setDefault (fields : JsonObject) (key : String) (value : Json) : JsonObject :=
  if (List.lookup key fields).isSome then fields else fields ++ [(key, value)]

def optStr : Option String → Json
  | none => .null
  | some s => .str s

end AiFund
