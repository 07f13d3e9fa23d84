import Courier.Time.Calendar

/-! # The calendar — day numbers and dates determine each other

    A day number splits into eras of 400 years, centuries, groups of four
    years, years and days.  The years are counted from March, so that the
    day a leap year adds is the last one of all; with that, the length of a
    month depends on its index alone. -/

namespace Courier.Date

/-- A date is valid when its month is one and its day is in it. -/
theorem isValid_iff {d : Date} : d.isValid = true ↔
    1 ≤ d.month ∧ d.month ≤ 12 ∧ 1 ≤ d.day ∧ d.day ≤ daysInMonth d.year d.month := by
  simp only [isValid, Bool.and_eq_true, decide_eq_true_eq, and_assoc]

theorem daysInMonth_le (year : Int) (month : Nat) : daysInMonth year month ≤ 31 := by
  rw [daysInMonth]
  split
  · split <;> decide
  · split <;> decide

/-- The parts of a day number: which era, century, group of four years, year and day. -/
structure Parts (n : Int) (era century four one : Int) (ofYear : Nat) : Prop where
  sum : n + epochShift = era * 146097 + century * 36524 + four * 1461 + one * 365 + ofYear
  century_mem : 0 ≤ century ∧ century ≤ 3
  four_mem : 0 ≤ four ∧ four ≤ 24
  one_mem : 0 ≤ one ∧ one ≤ 3
  ofYear_le : ofYear ≤ 365
  last : ofYear = 365 → one = 3 ∧ (four = 24 → century = 3)

/-- The month at an index that counts from March. -/
def monthAt (index : Nat) : Nat := if index < 10 then index + 3 else index - 9

/-- The date in a year that starts in March, by its day. -/
def inMonth (year : Int) (index day : Nat) : Date :=
  ⟨if monthAt index ≤ 2 then year + 1 else year, monthAt index, day⟩

/-- Every day number has parts, and its date is read off them. -/
theorem parts_ofDays (n : Int) :
    ∃ era century four one : Int, ∃ ofYear : Nat, Parts n era century four one ofYear ∧
      ofDays n = inMonth (era * 400 + century * 100 + four * 4 + one) ((5 * ofYear + 2) / 153)
        (ofYear - daysBeforeMonth ((5 * ofYear + 2) / 153) + 1) := by
  refine ⟨_, _, _, _, _, ?_, rfl⟩
  constructor <;> simp only [daysPerEra, epochShift] <;> omega

theorem monthAt_add_nine {index : Nat} (h : index < 12) : (monthAt index + 9) % 12 = index := by
  rw [monthAt]
  split <;> omega

/-- The days of a date, counted by eras of 400 years. -/
theorem toDays_inMonth (year : Int) {index : Nat} (h : index < 12) (day : Nat) :
    (inMonth year index day).toDays
      = year / 400 * daysPerEra + (year % 400 * 365 + year % 400 / 4 - year % 400 / 100)
        + daysBeforeMonth index + day - 1 - epochShift := by
  have hi : ((inMonth year index day).month + 9) % 12 = index := monthAt_add_nine h
  have hy : (if (inMonth year index day).month ≤ 2 then (inMonth year index day).year - 1
      else (inMonth year index day).year) = year := by
    show (if monthAt index ≤ 2 then (if monthAt index ≤ 2 then year + 1 else year) - 1
      else (if monthAt index ≤ 2 then year + 1 else year)) = year
    split <;> omega
  simp only [toDays, hi, hy]
  rfl

theorem daysBeforeMonth_le (d : Nat) : daysBeforeMonth ((5 * d + 2) / 153) ≤ d := by
  rw [daysBeforeMonth]
  omega

/-- **DAY NUMBER ROUND TRIP**: counting the days of a date leads back to its day number. -/
theorem toDays_ofDays (n : Int) : (ofDays n).toDays = n := by
  obtain ⟨era, century, four, one, ofYear, parts, eq⟩ := parts_ofDays n
  obtain ⟨sum, hc, hf, ho, hd, -⟩ := parts
  have hle := daysBeforeMonth_le ofYear
  rw [eq, toDays_inMonth _ (by omega)]
  -- what is left is linear in the parts
  simp only [epochShift, daysPerEra] at *
  omega

/-- A day of the year that starts in March lies within its month; the last day of all needs a
    leap year. -/
theorem daysInMonth_ge (y : Int) (d : Nat) (h : d ≤ 365)
    (leap : d = 365 → isLeapYear (y + 1) = true) :
    d - daysBeforeMonth ((5 * d + 2) / 153) + 1
      ≤ daysInMonth (inMonth y ((5 * d + 2) / 153) 1).year (monthAt ((5 * d + 2) / 153)) := by
  rw [daysInMonth, inMonth, daysBeforeMonth, monthAt]
  by_cases hi : (5 * d + 2) / 153 < 10
  · simp only [if_pos hi]
    grind
  · simp only [if_neg hi]
    grind

/-- Where the parts leave a last day of February, the year has one. -/
theorem isLeapYear_of_parts {n era century four one : Int} {d : Nat}
    (parts : Parts n era century four one d) (h : d = 365) :
    isLeapYear (era * 400 + century * 100 + four * 4 + one + 1) = true := by
  obtain ⟨-, hc, hf, ho, -, last⟩ := parts
  obtain ⟨h1, h2⟩ := last h
  have h4 : (era * 400 + century * 100 + four * 4 + one + 1) % 4 = 0 := by omega
  have h100 : (era * 400 + century * 100 + four * 4 + one + 1) % 100 ≠ 0
      ∨ (era * 400 + century * 100 + four * 4 + one + 1) % 400 = 0 := by omega
  simpa [isLeapYear, h4] using h100

/-- The date of every day number exists. -/
theorem isValid_ofDays (n : Int) : (ofDays n).isValid = true := by
  obtain ⟨era, century, four, one, d, parts, eq⟩ := parts_ofDays n
  have hd := daysInMonth_ge _ d parts.ofYear_le (isLeapYear_of_parts parts)
  have := parts.ofYear_le
  have hm : 1 ≤ monthAt ((5 * d + 2) / 153) ∧ monthAt ((5 * d + 2) / 153) ≤ 12 := by
    rw [monthAt]
    split <;> omega
  rw [eq]
  simp only [isValid, Bool.and_eq_true, decide_eq_true_eq]
  exact ⟨⟨⟨hm.1, hm.2⟩, Nat.le_add_left 1 _⟩, hd⟩

/-- A day is in a year before a given one just if it comes before the first day of that year. -/
theorem year_ofDays_lt_iff (n year : Int) :
    (ofDays n).year < year ↔ n < (⟨year, 1, 1⟩ : Date).toDays := by
  obtain ⟨era, century, four, one, ofYear, parts, eq⟩ := parts_ofDays n
  obtain ⟨sum, hc, hf, ho, hd, last⟩ := parts
  have first : (⟨year, 1, 1⟩ : Date).toDays = (year - 1) / 400 * 146097
      + ((year - 1) % 400 * 365 + (year - 1) % 400 / 4 - (year - 1) % 400 / 100) + 306
      - 719468 := by
    simp [toDays, daysBeforeMonth, daysPerEra, epochShift]
  -- January and February are the last months of the year before
  have shown : (ofDays n).year = era * 400 + century * 100 + four * 4 + one
      + if ofYear < 306 then 0 else 1 := by
    rw [eq]
    show (if monthAt ((5 * ofYear + 2) / 153) ≤ 2 then _ + 1 else _) = _
    rw [monthAt]
    split <;> split <;> split <;> omega
  rw [first, shown]
  simp only [epochShift] at sum
  split <;> omega

end Courier.Date
