/-!
# Time

An instant is a count of milliseconds from the beginning of 1970.  It is written as a date and a time
of day, with microseconds only when they are not zero.

* `Instant`: an instant.
* `civil`: the year, month and day of a day number.
* `Instant.iso`: the written form.
-/

namespace PaperTrading

/-- **An instant,** in milliseconds from the beginning of 1970. -/
structure Instant where
  milliseconds : Int
  deriving DecidableEq, Repr, Inhabited

/-- **The date of a day,** counted from the beginning of 1970.  Years are counted from March on, so
that a leap day is the last of its year; 400 years have 146097 days. -/
def civil (day : Int) : Int × Int × Int :=
  let z := day + 719468
  let era := z.fdiv 146097
  let doe := z - era * 146097
  let yoe := (doe - doe / 1460 + doe / 36524 - doe / 146096) / 365
  let doy := doe - (365 * yoe + yoe / 4 - yoe / 100)
  let mp := (5 * doy + 2) / 153
  let d := doy - (153 * mp + 2) / 5 + 1
  let m := if mp < 10 then mp + 3 else mp - 9
  (yoe + era * 400 + (if m ≤ 2 then 1 else 0), m, d)

/-- A number with zeros in front up to a width. -/
def padded (width : Nat) (n : Int) : String :=
  let s := toString n
  String.ofList (List.replicate (width - s.length) '0') ++ s

namespace Instant

/-- **The written form of an instant.** -/
def iso (t : Instant) : String :=
  let s := t.milliseconds.fdiv 1000
  let ms := t.milliseconds - s * 1000
  let (y, m, d) := civil (s.fdiv 86400)
  let r := s - s.fdiv 86400 * 86400
  padded 4 y ++ "-" ++ padded 2 m ++ "-" ++ padded 2 d ++ "T" ++ padded 2 (r / 3600) ++ ":"
    ++ padded 2 (r / 60 % 60) ++ ":" ++ padded 2 (r % 60)
    ++ (if ms = 0 then "" else "." ++ padded 6 (ms * 1000)) ++ "+00:00"

instance : LE Instant := ⟨fun a b => a.milliseconds ≤ b.milliseconds⟩

instance (a b : Instant) : Decidable (a ≤ b) :=
  inferInstanceAs (Decidable (a.milliseconds ≤ b.milliseconds))

example : iso ⟨1735689600000⟩ = "2025-01-01T00:00:00+00:00"
    ∧ iso ⟨951782400125⟩ = "2000-02-29T00:00:00.125000+00:00" := by decide +kernel

end Instant

end PaperTrading
