import HeaderBindings.Text.Integer

/-!
# Numbers, dates and times

Which texts are numbers, dates and times in the configuration format.  No setting is a number, so
of a number only matters whether it can be read: one that cannot, because it is too large or has
other characters behind an underscore, spoils the document if it is looked at.  Of a date its
canonical text is kept, which writes all dates in one way.
-/

set_option autoImplicit false

namespace HeaderBindings.Toml

/-! ## Integers -/

/-- The number written with digits of the given base and single underscores between them. -/
def digitRun? (base : Nat) (t : Text) : Option Nat :=
  if (t.splitOn '_').any List.isEmpty then none else natural? base (t.filter (· != '_'))

/-- The text begins with a sign. -/
def isSigned (t : Text) : Bool := t.head? == some '+' || t.head? == some '-'

/-- The text without a sign in front of it. -/
def unsigned (t : Text) : Text := if isSigned t then t.tail else t

/-- A decimal integer without its sign.  It starts with a zero only if it is zero. -/
def decimal? (t : Text) : Option Nat :=
  if t.head? == some '0' && t != ['0'] then none else digitRun? 10 t

/-- An integer. -/
def integer? (t : Text) : Option Int :=
  match t with
  | '0' :: 'x' :: digits => (digitRun? 16 digits).map Int.ofNat
  | '0' :: 'o' :: digits => (digitRun? 8 digits).map Int.ofNat
  | '0' :: 'b' :: digits => (digitRun? 2 digits).map Int.ofNat
  | _ =>
    (decimal? (unsigned t)).map fun n ↦ if t.head? = some '-' then -(n : Int) else n

/-- The integer can be read: 128 bits hold it, with or without a sign. -/
def fitsInteger (v : Int) : Bool := -Int.pow 2 127 ≤ v && v < Int.pow 2 128

/-- Every underscore of the text stands between hexadecimal digits. -/
def underscoresInside (t : Text) : Bool :=
  let isDigit (c : Char) : Bool := (natural? 16 [c]).isSome
  let pieces := t.splitOn '_'
  pieces.tail.all (·.head?.any isDigit) && pieces.dropLast.all (·.getLast?.any isDigit)

/-- The text has the outer form of an integer, whose digits are checked only when it is read: the
mark of a base alone, or decimal digits followed by an underscore and further characters, among
which are none that a fraction or a date would have. -/
def resemblesInteger (t : Text) : Bool :=
  let (digits, rest) := (unsigned t).span Char.isDigit
  t == "0x" || t == "0o" || t == "0b" ||
  (digits.head? != some '0' && rest.head? == some '_' && underscoresInside (unsigned t) &&
    rest.all fun c ↦ c != '.' && c != 'e' && c != 'E' && c != ' ')

/-! ## Fractions -/

/-- A decimal number without sign: all its digits read as one integer, how many digits there are,
and the power of ten that the integer is to be multiplied by. -/
structure Decimal where
  mantissa : Nat
  digits : Nat
  exponent : Int

/-- The exponent of a number, after its letter. -/
def exponent? (t : Text) : Option Int :=
  (digitRun? 10 (unsigned t)).map fun n ↦ if t.head? = some '-' then -(n : Int) else n

/-- A number with a fraction, an exponent or both. -/
def fraction? (t : Text) : Option Decimal := do
  let isLetter (c : Char) : Bool := c == 'e' || c == 'E'
  let (number, power) := (unsigned t).span fun c ↦ !isLetter c
  let (whole, part) := number.span (· != '.')
  let _ ← decimal? whole
  let _ ← if part.isEmpty then some 0 else digitRun? 10 part.tail
  let exponent ← if power.isEmpty then some 0 else exponent? power.tail
  if part.isEmpty && power.isEmpty then none
  let digits (t : Text) : Text := t.filter Char.isDigit
  let mantissa ← natural? 10 (digits number)
  some ⟨mantissa, (digits number).length, exponent - (digits part).length⟩

/-- The number stays below the first one that a double of finite size is not the nearest to.  Its
order of magnitude tells for most; only next to the limit the number itself is compared. -/
def Decimal.isFinite (d : Decimal) : Bool :=
  let limit := (Nat.pow 2 54 - 1) * Nat.pow 2 970
  d.mantissa == 0 || d.digits + d.exponent ≤ 308 ||
  match d.exponent with
  | .ofNat e => e ≤ 308 && d.mantissa * Nat.pow 10 e < limit
  | .negSucc e => d.mantissa < limit * Nat.pow 10 (e + 1)

/-- A number, and whether it can be read. -/
def number? (t : Text) : Option Bool :=
  match integer? t with
  | some v => some (fitsInteger v)
  | none =>
    if unsigned t = "inf" ∨ unsigned t = "nan" then some true
    else if resemblesInteger t then some false
    else (fraction? t).map Decimal.isFinite

/-! ## Dates and times -/

/-- A number of exactly so many digits in front of the text, and the rest. -/
def fixedNumber? (digits : Nat) (t : Text) : Option (Nat × Text) :=
  let front := t.take digits
  if front.length = digits ∧ front.all Char.isDigit then
    (natural? 10 front).map fun n ↦ (n, t.drop digits)
  else none

/-- The number of days of a month. -/
def daysOfMonth (year month : Nat) : Nat :=
  if month = 2 then
    if year % 4 = 0 ∧ (year % 100 ≠ 0 ∨ year % 400 = 0) then 29 else 28
  else if month = 4 ∨ month = 6 ∨ month = 9 ∨ month = 11 then 30
  else 31

/-- What follows a date. -/
def afterDate? (t : Text) : Option Text := do
  let (year, t) ← fixedNumber? 4 t
  let (month, t) ← fixedNumber? 2 (← t.afterLead? "-")
  let (day, t) ← fixedNumber? 2 (← t.afterLead? "-")
  if 1 ≤ month ∧ month ≤ 12 ∧ 1 ≤ day ∧ day ≤ daysOfMonth year month then some t else none

/-- The fraction of a second in its canonical form, in nanoseconds without zeros at its end. -/
def secondFraction (digits : Text) : Text :=
  match Text.dropTail (· == '0') (digits.take 9) with
  | [] => ['0']
  | digits => digits

/-- What comes behind the minutes of a time, in its canonical form, and the rest. -/
def seconds? (t : Text) : Option (Text × Text) :=
  match t with
  | ':' :: t => do
    let (second, rest) ← fixedNumber? 2 t
    if 60 < second then none
    let shown := ':' :: t.take 2
    match rest with
    | '.' :: rest =>
      let (digits, rest) := rest.span Char.isDigit
      if digits.isEmpty then none else some (shown ++ '.' :: secondFraction digits, rest)
    | rest => some (shown, rest)
  | t => some ([], t)

/-- A time in its canonical form, and the rest.  The seconds may be missing. -/
def time? (t : Text) : Option (Text × Text) := do
  let (hour, rest) ← fixedNumber? 2 t
  let (minute, rest) ← fixedNumber? 2 (← rest.afterLead? ":")
  if 23 < hour ∨ 59 < minute then none
  let (shown, rest) ← seconds? rest
  some (t.take 5 ++ shown, rest)

/-- The offset of a time from universal time in its canonical form; it may be missing. -/
def offset? (t : Text) : Option Text :=
  match t with
  | [] => some []
  | ['Z'] => some ['Z']
  | ['z'] => some ['Z']
  | sign :: t => do
    let (hours, rest) ← fixedNumber? 2 t
    let (minutes, rest) ← fixedNumber? 2 (← rest.afterLead? ":")
    if !isSigned [sign] || 23 < hours || 59 < minutes || !rest.isEmpty then none
    some ((if hours = 0 ∧ minutes = 0 then '+' else sign) :: t)

/-- A date, a time, or a date and a time, in its canonical form. -/
def date? (t : Text) : Option Text :=
  match time? t with
  | some (time, []) => some time
  | _ =>
    match afterDate? t with
    | none => none
    | some [] => some t
    | some (c :: rest) => do
      if c ≠ 'T' ∧ c ≠ 't' ∧ c ≠ ' ' then none
      let (time, rest) ← time? rest
      let offset ← offset? rest
      some (t.take 10 ++ 'T' :: time ++ offset)

end HeaderBindings.Toml
