/-!
# LeakScan.Clock

Points in time as text.

* `civilDate` — year, month and day of a day counted from 1970-01-01.
* `timestamp` — a point in time in coordinated universal time.
-/

namespace LeakScan

/-- Days are counted in eras of 400 years that begin in March, so that a leap day ends a year. -/
def civilDate (day : Nat) : Nat × Nat × Nat :=
  let z := day + 719468
  let era := z / 146097
  let dayOfEra := z % 146097
  let yearOfEra := (dayOfEra - dayOfEra / 1460 + dayOfEra / 36524 - dayOfEra / 146096) / 365
  let dayOfYear := dayOfEra - (365 * yearOfEra + yearOfEra / 4 - yearOfEra / 100)
  let m := (5 * dayOfYear + 2) / 153
  let month := if m < 10 then m + 3 else m - 9
  let year := yearOfEra + era * 400 + if month ≤ 2 then 1 else 0
  (year, month, dayOfYear - (153 * m + 2) / 5 + 1)

/-- A number with leading zeros. -/
def zeroPadded (width n : Nat) : String :=
  let digits := (Nat.toDigits 10 n)
  String.ofList (List.replicate (width - digits.length) '0' ++ digits)

/-- Seconds since the start of 1970, and billionths of a second. -/
def timestamp (seconds nanoseconds : Nat) : String :=
  let (year, month, day) := civilDate (seconds / 86400)
  let rest := seconds % 86400
  s!"{zeroPadded 4 year}-{zeroPadded 2 month}-{zeroPadded 2 day}T{zeroPadded 2 (rest / 3600)}:" ++
    s!"{zeroPadded 2 (rest / 60 % 60)}:{zeroPadded 2 (rest % 60)}.{zeroPadded 9 nanoseconds}Z"

end LeakScan
