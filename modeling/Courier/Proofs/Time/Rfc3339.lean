import Courier.Proofs.Text.Numeral
import Courier.Proofs.Time.Calendar
import Courier.Proofs.Time.Instant
import Courier.Time.Rfc3339

/-! # Timestamps — what is written of an instant is read back

    A timestamp is a date, a time of day, a fraction of nine, six, three or
    no digits, and an offset.  In the years 0 to 9999 each part has a fixed
    place, so reading finds every one of them; outside, a sign comes in
    front and reading refuses the text. -/

namespace Courier.Rfc3339

open Numeral

/-- A run of digits continues the number read so far. -/
theorem digits?_append {ds : List Char} (h : AllDigits ds) (acc : Nat) (rest : List Char) :
    digits? ds.length acc (ds ++ rest) = some (Nat.ofDigitChars 10 ds acc, rest) := by
  induction ds generalizing acc with
  | nil => rfl
  | cons d ds ih =>
      show (digit? d).bind (fun v => digits? ds.length (10 * acc + v) (ds ++ rest)) = _
      rw [digit?_of_isDigit (h d (List.mem_cons_self ..))]
      show digits? ds.length _ (ds ++ rest) = _
      rw [ih (fun c hc => h c (List.mem_cons_of_mem _ hc)), Nat.ofDigitChars_cons]

/-- Exactly the digits of a padded number are taken. -/
theorem digits?_padded {width n : Nat} (hw : 0 < width) (h : Fits width n) (rest : List Char) :
    digits? width 0 ((padded width n).toList ++ rest) = some (n, rest) := by
  have hd := digits?_append (allDigits_padded width n) 0 rest
  rwa [length_padded hw h, ofDigitChars_padded] at hd

theorem after?_self (c : Char) (rest : List Char) : after? c (c :: rest) = some rest := by
  show (if c = c then some rest else none) = some rest
  rw [if_pos rfl]

/-- Three numbers with a mark between them are read back. -/
theorem triple?_padded {width a b c : Nat} (hw : 0 < width) (ha : Fits width a)
    (hb : Fits 2 b) (hc : Fits 2 c) (mark : Char) (rest : List Char) :
    triple? width mark ((padded width a).toList ++ mark :: ((padded 2 b).toList
      ++ mark :: ((padded 2 c).toList ++ rest))) = some ((a, b, c), rest) := by
  simp only [triple?, digits?_padded hw ha, digits?_padded Nat.zero_lt_two hb,
    digits?_padded Nat.zero_lt_two hc, after?_self, Option.bind_eq_bind, Option.bind_some]

/-- Digits of a fraction stand for as many leading digits of the nanoseconds. -/
theorem nanos?_padded {width n : Nat} (hw : 0 < width) (h9 : width ≤ 9) (h : Fits width n)
    {c : Char} (hc : digit? c = none) (rest : List Char) :
    nanos? ((padded width n).toList ++ c :: rest)
      = some (n * Nat.pow 10 (9 - width), c :: rest) := by
  have hl := length_padded hw h
  have hd := allDigits_padded width n
  -- the digits end where the fraction does
  have htake : ((padded width n).toList ++ c :: rest).takeWhile (fun c => (digit? c).isSome)
      = (padded width n).toList := by
    rw [List.takeWhile_append_of_pos, List.takeWhile_cons_of_neg, List.append_nil]
    · rw [hc]
      exact Bool.false_ne_true
    · intro d hd'
      rw [digit?_of_isDigit (hd d hd')]
      rfl
  -- nine of them count, with zeros where there are fewer
  have hnine : ((padded width n).toList ++ List.replicate 9 '0').take 9
      = (padded width n).toList ++ List.replicate (9 - width) '0' := by
    rw [List.take_append, hl, List.take_of_length_le (by omega), List.take_replicate,
      Nat.min_eq_left (by omega)]
  have hall : AllDigits ((padded width n).toList ++ List.replicate (9 - width) '0') := by
    intro d hd'
    rcases List.mem_append.mp hd' with hd' | hd'
    · exact hd d hd'
    · rw [(List.mem_replicate.mp hd').2]
      rfl
  have hread := digits?_append hall 0 []
  rw [List.append_nil, List.length_append, hl, List.length_replicate,
    show width + (9 - width) = 9 by omega, Nat.ofDigitChars_append, ofDigitChars_padded,
    Nat.ofDigitChars_replicate_zero] at hread
  have hne : (padded width n).toList.isEmpty = false := by
    cases hp : (padded width n).toList with
    | nil =>
        rw [hp] at hl
        exact absurd hl (by simp; omega)
    | cons d ds => rfl
  rw [nanos?]
  simp only [htake, hne, hnine, hread]
  rw [if_neg Bool.false_ne_true, List.drop_left, Nat.mul_comm]
  rfl

/-- A fraction is read back, whichever of its widths was chosen. -/
theorem fraction?_fraction {nanos : Nat} (h : nanos < 1000000000) {c : Char} (hc : digit? c = none)
    (hdot : c ≠ '.') (rest : List Char) :
    fraction? ((fraction nanos).toList ++ c :: rest) = some (nanos, c :: rest) := by
  have read (width n : Nat) (hw : 0 < width) (h9 : width ≤ 9) (hn : Fits width n)
      (heq : n * Nat.pow 10 (9 - width) = nanos) :
      fraction? (("." ++ padded width n).toList ++ c :: rest) = some (nanos, c :: rest) := by
    have hdot : (".".toList ++ (padded width n).toList) ++ c :: rest
        = '.' :: ((padded width n).toList ++ c :: rest) := rfl
    rw [String.toList_append, hdot, fraction?, nanos?_padded hw h9 hn hc, heq]
  rw [fraction]
  -- no fraction, or the shortest of three, six and nine digits that is exact
  by_cases h0 : nanos = 0
  · rw [if_pos h0, h0]
    show fraction? (c :: rest) = _
    unfold fraction?
    split
    · next heq => exact absurd (List.cons.inj heq).1 hdot
    · rfl
  · rw [if_neg h0]
    by_cases h3 : nanos % 1000000 = 0
    · rw [if_pos h3]
      exact read 3 (nanos / 1000000) (by decide) (by decide) (show _ < 1000 by omega)
        (show _ * 1000000 = _ by omega)
    · rw [if_neg h3]
      by_cases h6 : nanos % 1000 = 0
      · rw [if_pos h6]
        exact read 6 (nanos / 1000) (by decide) (by decide) (show _ < 1000000 by omega)
          (show _ * 1000 = _ by omega)
      · rw [if_neg h6]
        exact read 9 nanos (by decide) (by decide) h (Nat.mul_one nanos)

/-- The year of an instant in universal time. -/
def yearOf (t : Instant) : Int := (Date.ofDays (t.secs / secondsPerDay)).year

/-- The years 0 to 9999 last from the first second of the one to the last second of the other. -/
theorem yearOf_mem_iff (t : Instant) : (0 ≤ yearOf t ∧ yearOf t ≤ 9999) ↔
    -62167219200 ≤ t.secs ∧ t.secs < 253402300800 := by
  have first := Date.year_ofDays_lt_iff (t.secs / secondsPerDay) 0
  have behind := Date.year_ofDays_lt_iff (t.secs / secondsPerDay) 10000
  rw [show (⟨0, 1, 1⟩ : Date).toDays = -719528 by decide] at first
  rw [show (⟨10000, 1, 1⟩ : Date).toDays = 2932897 by decide] at behind
  simp only [yearOf, secondsPerDay] at *
  omega

/-- What is left of an instant behind its day: hour, minute, second and nanoseconds, where a leap
    second counts as second sixty. -/
structure TimeOfDay (t : Instant) (hour minute second nanos : Nat) : Prop where
  hour_lt : hour < 24
  minute_lt : minute < 60
  nanos_lt : nanos < 1000000000
  secs : t.secs % 86400
    = (hour * 3600 + minute * 60 + (if second = 60 then 59 else second) : Nat)
  nanos_eq : t.nanos = nanos + (if second = 60 then 1000000000 else 0)
  second_le : second ≤ 60

/-- Every instant has a time of day. -/
theorem timeOfDay (t : Instant) :
    TimeOfDay t ((t.secs % secondsPerDay).toNat / 3600) ((t.secs % secondsPerDay).toNat / 60 % 60)
      ((t.secs % secondsPerDay).toNat % 60 + if t.inLeapSecond then 1 else 0)
      (if t.inLeapSecond then t.nanos - Span.perSecond else t.nanos) := by
  have hn := t.nanos_lt
  by_cases hleap : t.inLeapSecond = true
  · -- leap seconds come behind second fifty-nine only
    have h9 : 1000000000 ≤ t.nanos := of_decide_eq_true hleap
    have h59 := t.leap h9
    have hs : (t.secs % secondsPerDay).toNat % 60 = 59 := by
      simp only [secondsPerDay]
      omega
    rw [if_pos hleap, if_pos hleap, hs]
    simp only [secondsPerDay, Span.perSecond] at *
    exact ⟨by omega, by omega, by omega, by rw [if_pos rfl]; omega, by rw [if_pos rfl]; omega,
      by omega⟩
  · have h9 : t.nanos < 1000000000 := Nat.lt_of_not_le fun h => hleap (decide_eq_true h)
    rw [if_neg hleap, if_neg hleap]
    simp only [secondsPerDay] at *
    exact ⟨by omega, by omega, by omega, by rw [if_neg (by omega)]; omega,
      by rw [if_neg (by omega)]; omega, by omega⟩

/-- The text of a date and a time of day, with a numeric offset of zero. -/
def written (date : Date) (hour minute second nanos : Nat) : List Char :=
  (padded 4 date.year.toNat).toList ++ '-' :: ((padded 2 date.month).toList
    ++ '-' :: ((padded 2 date.day).toList ++ 'T' :: ((padded 2 hour).toList
    ++ ':' :: ((padded 2 minute).toList ++ ':' :: ((padded 2 second).toList
    ++ ((fraction nanos).toList ++ '+' :: ['0', '0', ':', '0', '0']))))))

/-- Instants of the years 0 to 9999 are written with all their parts in place. -/
theorem toList_format {t : Instant} (h : 0 ≤ yearOf t ∧ yearOf t ≤ 9999) :
    (format t).toList = written (Date.ofDays (t.secs / secondsPerDay))
      ((t.secs % secondsPerDay).toNat / 3600) ((t.secs % secondsPerDay).toNat / 60 % 60)
      ((t.secs % secondsPerDay).toNat % 60 + if t.inLeapSecond then 1 else 0)
      (if t.inLeapSecond then t.nanos - Span.perSecond else t.nanos) := by
  rw [yearOf] at h
  simp only [written, format, dateAndTime, year, if_pos h, String.toList_append,
    List.append_assoc, show "-".toList = ['-'] from rfl, show "T".toList = ['T'] from rfl,
    show ":".toList = [':'] from rfl,
    show "+00:00".toList = ['+', '0', '0', ':', '0', '0'] from rfl,
    List.cons_append, List.nil_append]

/-- Reading what is written finds its parts again. -/
theorem parse?_written {s : String} {date : Date} {hour minute second nanos : Nat}
    (text : s.toList = written date hour minute second nanos)
    (hvalid : date.isValid = true) (hy : 0 ≤ date.year ∧ date.year ≤ 9999)
    (hh : hour < 24) (hmin : minute < 60) (hs : second ≤ 60) (hn : nanos < 1000000000) :
    parse? s = Instant.ofParts?
      (date.toDays * secondsPerDay
        + (hour * 3600 + minute * 60 + (if second = 60 then 59 else second) : Nat))
      (nanos + if second = 60 then Span.perSecond else 0) := by
  obtain ⟨y, m, d⟩ := date
  obtain ⟨-, hm, -, hd⟩ := Date.isValid_iff.mp hvalid
  have hd31 := Date.daysInMonth_le y m
  dsimp only at hy hm hd
  have hyear : (y.toNat : Int) = y := Int.toNat_of_nonneg hy.1
  have hoff : offset? ['+', '0', '0', ':', '0', '0'] = some (0, []) := by decide
  rw [parse?, text]
  simp only [written, Option.bind_eq_bind, Option.bind_some,
    triple?_padded (by decide : 0 < 4) (show y.toNat < 10000 by omega) (show m < 100 by omega)
      (show d < 100 by omega),
    triple?_padded Nat.zero_lt_two (show hour < 100 by omega) (show minute < 100 by omega)
      (show second < 100 by omega),
    fraction?_fraction hn (rfl : digit? '+' = none) (by decide), hoff, true_or, if_true, hyear,
    hvalid]
  rw [if_neg]
  · simp
  · simp
    omega

/-- **TIMESTAMP ROUND TRIP**: an instant of the years 0 to 9999 is read back from its text. -/
theorem parse?_format (t : Instant) (h : 0 ≤ yearOf t ∧ yearOf t ≤ 9999) :
    parse? (format t) = some t := by
  have parts := timeOfDay t
  have hdays := Date.toDays_ofDays (t.secs / secondsPerDay)
  rw [parse?_written (toList_format h) (Date.isValid_ofDays _) h parts.hour_lt parts.minute_lt
    parts.second_le parts.nanos_lt, ← parts.secs, ← parts.nanos_eq, hdays]
  have hsecs : t.secs / secondsPerDay * secondsPerDay + t.secs % 86400 = t.secs := by
    simp only [secondsPerDay]
    omega
  rw [hsecs]
  exact Instant.ofParts?_self t

/-- A text with a sign in front is no timestamp. -/
theorem parse?_of_sign {s : String} {sign : Char} {rest : List Char}
    (text : s.toList = sign :: rest) (unreadable : digit? sign = none) : parse? s = none := by
  have first : triple? 4 '-' (sign :: rest) = none := by
    simp only [triple?, digits?, unreadable, Option.bind_none, Option.bind_eq_bind]
  simp only [parse?, text, first, Option.bind_none, Option.bind_eq_bind]

/-- The text of an instant starts with its year. -/
theorem exists_toList_format (t : Instant) :
    ∃ rest, (format t).toList = (year (yearOf t)).toList ++ rest := by
  refine ⟨?rest, ?text⟩
  case text =>
    simp only [format, dateAndTime, String.toList_append, List.append_assoc]
    rfl

/-- Outside the years 0 to 9999, a year has a sign in front. -/
theorem exists_toList_year {y : Int} (outside : ¬(0 ≤ y ∧ y ≤ 9999)) :
    ∃ sign rest, (year y).toList = sign :: rest ∧ digit? sign = none := by
  rw [year, if_neg outside, String.toList_append]
  split
  · exact ⟨'-', _, rfl, by decide⟩
  · exact ⟨'+', _, rfl, by decide⟩

/-- Only instants of the years 0 to 9999 are read back from their texts. -/
theorem eq_of_parse?_format {t u : Instant} (read : parse? (format t) = some u) :
    u = t ∧ 0 ≤ yearOf t ∧ yearOf t ≤ 9999 := by
  by_cases inside : 0 ≤ yearOf t ∧ yearOf t ≤ 9999
  · exact ⟨Option.some.inj (read.symm.trans (parse?_format t inside)), inside⟩
  · obtain ⟨rest, text⟩ := exists_toList_format t
    obtain ⟨sign, more, signed, unreadable⟩ := exists_toList_year inside
    rw [signed] at text
    exact nomatch (parse?_of_sign text unreadable).symm.trans read

/-- An instant of a year that timestamps can show is not behind the line. -/
theorem not_isBefore_of_yearOf_le {t : Instant} (readable : yearOf t ≤ 9999) :
    Instant.latest.isBefore t = false := by
  refine Bool.eq_false_iff.mpr fun behind => ?_
  rw [Instant.isBefore_iff] at behind
  have inRange := t.secs_le
  -- only a leap second in the last second of the line is behind it
  have last : t.secs = Instant.latest.secs := by
    simp only [Instant.latest] at behind ⊢
    omega
  have year : yearOf t = 262142 := by
    rw [yearOf, last]
    decide
  omega

end Courier.Rfc3339
