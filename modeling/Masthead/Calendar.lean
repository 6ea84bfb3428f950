import Masthead.Text.Quoted

/-! Dates and times as configuration files hold them, with the two ways they are written: the ISO
form, and the constructor form shown in messages. -/

namespace Masthead

structure Date where
  year : Nat
  month : Nat
  day : Nat
deriving DecidableEq, Repr

structure TimeOfDay where
  hour : Nat
  minute : Nat
  second : Nat
  microsecond : Nat
deriving DecidableEq, Repr

structure Zone where
  minutes : Int
  name : Text
deriving DecidableEq, Repr

structure Moment where
  date : Date
  time : TimeOfDay
  zone : Option Zone
deriving DecidableEq, Repr

def daysIn (year month : Nat) : Nat :=
  if month = 2 then
    (if (year % 4 = 0 ∧ year % 100 ≠ 0) ∨ year % 400 = 0 then 29 else 28)
  else if month = 4 ∨ month = 6 ∨ month = 9 ∨ month = 11 then 30
  else 31

def Date.isValid (d : Date) : Bool :=
  1 ≤ d.year && d.year ≤ 9999 && 1 ≤ d.month && d.month ≤ 12 && 1 ≤ d.day &&
    d.day ≤ daysIn d.year d.month

def TimeOfDay.isValid (t : TimeOfDay) : Bool := t.hour < 24 && t.minute < 60 && t.second < 60

def Date.iso (d : Date) : Text :=
  Text.ofNatPadded 4 d.year ++ "-" ++ Text.ofNatPadded 2 d.month ++ "-" ++ Text.ofNatPadded 2 d.day

def TimeOfDay.iso (t : TimeOfDay) : Text :=
  Text.ofNatPadded 2 t.hour ++ ":" ++ Text.ofNatPadded 2 t.minute ++ ":" ++
    Text.ofNatPadded 2 t.second ++
    (if t.microsecond = 0 then [] else '.' :: Text.ofNatPadded 6 t.microsecond)

def Zone.iso (z : Zone) : Text :=
  let n := z.minutes.natAbs
  (if z.minutes < 0 then '-' else '+') :: Text.ofNatPadded 2 (n / 60) ++ ":" ++
    Text.ofNatPadded 2 (n % 60)

def Moment.iso (m : Moment) : Text :=
  m.date.iso ++ "T" ++ m.time.iso ++ (match m.zone with | none => [] | some z => z.iso)

private def argumentList (ns : List Nat) : Text := Text.join ", ".toList (ns.map Text.ofNat)

def Date.shown (d : Date) : Text :=
  "datetime.date(" ++ argumentList [d.year, d.month, d.day] ++ ")"

def TimeOfDay.tail (t : TimeOfDay) : List Nat :=
  if t.microsecond ≠ 0 then [t.second, t.microsecond]
  else if t.second ≠ 0 then [t.second]
  else []

def TimeOfDay.shown (t : TimeOfDay) : Text :=
  "datetime.time(" ++ argumentList ([t.hour, t.minute] ++ t.tail) ++ ")"

/-- A negative distance is shown as a day back and seconds forward. -/
def Zone.shown (z : Zone) : Text :=
  let delta : Text :=
    if z.minutes = 0 then "0"
    else if z.minutes < 0 then "days=-1, seconds=" ++ Text.ofInt (86400 + 60 * z.minutes)
    else "seconds=" ++ Text.ofInt (60 * z.minutes)
  "datetime.timezone(datetime.timedelta(" ++ delta ++ "), " ++ Text.quoted z.name ++ ")"

def Moment.shown (m : Moment) : Text :=
  "datetime.datetime(" ++
    argumentList ([m.date.year, m.date.month, m.date.day, m.time.hour, m.time.minute] ++
      m.time.tail) ++
    (match m.zone with | none => [] | some z => ", tzinfo=" ++ z.shown) ++ ")"

end Masthead
