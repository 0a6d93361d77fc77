import SignatureLine.Toml.Reader

/-!
# TOML dates and times

Dates, times, and both with or without an offset. Only their form is checked: nothing reads their
values.
-/

namespace SignatureLine.Toml

open Reader

def daysInMonth (year month : Nat) : Nat :=
  if month = 2 then
    if year % 4 = 0 ∧ (year % 100 ≠ 0 ∨ year % 400 = 0) then 29 else 28
  else if month = 4 ∨ month = 6 ∨ month = 9 ∨ month = 11 then 30
  else 31

def date : Reader Unit := do
  let year ← digits 4
  accept '-'
  let month ← digits 2
  guard (1 ≤ month ∧ month ≤ 12)
  accept '-'
  let day ← digits 2
  guard (1 ≤ day ∧ day ≤ daysInMonth year month)

def hourAndMinute : Reader Unit := do
  guard ((← digits 2) ≤ 23)
  accept ':'
  guard ((← digits 2) ≤ 59)

/-- A time of the day, which may be a leap second. -/
def time : Reader Unit := do
  hourAndMinute
  accept ':'
  guard ((← digits 2) ≤ 60)
  let _ ← optional do
    accept '.'
    takeWhile1 Text.isDigit

def offset : Reader Unit := do
  match ← next with
  | 'Z' | 'z' => pure ()
  | '+' | '-' => hourAndMinute
  | _ => failure

/-- A date, a time, or a date and a time with or without an offset. -/
def datetime : Reader Unit :=
  dateFirst <|> time
where
  dateFirst : Reader Unit := do
    date
    let _ ← optional do
      let _ ← satisfy fun c => c == 'T' || c == 't' || c == ' '
      time
      optional offset

end SignatureLine.Toml
