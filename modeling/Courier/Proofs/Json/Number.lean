import Courier.Proofs.Json.Reader

/-! # JSON numbers — whole numbers are read, and all numbers are passed over

    The decimal digits of a whole number are gathered into that number as
    long as it fits a word; where they end, nothing that goes on with a
    number follows.  Passing over a number checks its parts one after the
    other: the whole part, a fraction, an exponent. -/

namespace Courier.Json

open Utf8 Reader

/-! ## Digits -/

theorem toNat_of_isDigit {c : Char} (h : c.isDigit = true) : 48 ≤ c.toNat ∧ c.toNat ≤ 57 := by
  simp only [Char.isDigit, Bool.and_eq_true, decide_eq_true_eq, ge_iff_le,
    UInt32.le_iff_toNat_le] at h
  exact h

theorem toNat_ascii {c : Char} (small : c.toNat < 0x80) : (ascii c).toNat = c.toNat :=
  toNat_ofNat_of_lt (by omega)

/-- An ASCII character is no other character. -/
theorem is_ascii_of_ne {c d : Char} (small : c.toNat < 0x80) (ne : c ≠ d) :
    is (ascii c) d = false := by
  refine decide_eq_false fun same => ne (Char.toNat_inj.mp ?_)
  rw [← toNat_ascii small]
  exact same

/-- A small character's byte is a digit exactly when the character is one. -/
theorem isDigit_ascii {c : Char} (small : c.toNat < 0x80) :
    isDigit (ascii c) = true ↔ 48 ≤ c.toNat ∧ c.toNat ≤ 57 := by
  rw [isDigit, Bool.and_eq_true, decide_eq_true_eq, decide_eq_true_eq, UInt8.le_iff_toNat_le,
    UInt8.le_iff_toNat_le, toNat_ascii small]
  exact Iff.rfl

/-- A digit is one byte of the same value. -/
theorem byte_of_isDigit {c : Char} (h : c.isDigit = true) : c.toNat < 0x80 ∧
    isDigit (ascii c) = true ∧ digitValue (ascii c) = c.toNat - '0'.toNat := by
  have range := toNat_of_isDigit h
  have small : c.toNat < 0x80 := by omega
  refine ⟨small, (isDigit_ascii small).mpr range, ?_⟩
  rw [digitValue, toNat_ascii small]
  rfl

/-- Encoded digits are digits. -/
theorem isDigit_of_mem_encode {cs : List Char} (h : Numeral.AllDigits cs) :
    ∀ b ∈ encode cs, isDigit b = true := by
  refine forall_mem_encode fun c mem => ?_
  obtain ⟨small, digit, -⟩ := byte_of_isDigit (h c mem)
  exact ⟨small, digit⟩

/-- Whether the bytes do not begin with a digit. -/
def Stops (rest : List UInt8) : Prop := ∀ b, rest.head? = some b → isDigit b = false

theorem Ends.stops {rest : List UInt8} (h : Ends rest) : Stops rest :=
  fun b head => (h b head).1

/-- Digits stop before a small character that is none. -/
theorem stops_cons {c : Char} (small : c.toNat < 0x80) (h : c.isDigit = false)
    (rest : List UInt8) : Stops (ascii c :: rest) := by
  intro b head
  obtain rfl : ascii c = b := Option.some.inj head
  refine Bool.eq_false_iff.mpr fun digit => ?_
  have range := (isDigit_ascii small).mp digit
  have isDigit : c.isDigit = true := by
    simp only [Char.isDigit, Bool.and_eq_true, decide_eq_true_eq, ge_iff_le,
      UInt32.le_iff_toNat_le]
    exact range
  exact nomatch h.symm.trans isDigit

/-- All the digits ahead are passed over. -/
theorem skipWhile_digits {cs : List Char} (h : Numeral.AllDigits cs) {rest : List UInt8}
    (stops : Stops rest) (p : Place) :
    Reader.skipWhile isDigit ⟨encode cs ++ rest, p⟩
      = (.ok (encode cs).length, ⟨rest, (encode cs).foldl Place.after p⟩) :=
  skipWhile_all (isDigit_of_mem_encode h) stops p

/-! ## Gathering digits -/

/-- More digits make no number smaller. -/
theorem le_ofDigitChars (cs : List Char) (value : Nat) : value ≤ Nat.ofDigitChars 10 cs value := by
  induction cs generalizing value with
  | nil => exact Nat.le_refl _
  | cons c cs ih =>
      rw [Nat.ofDigitChars_cons]
      exact Nat.le_trans (by omega) (ih _)

/-- Digits are gathered as long as what they come to stays within the limit. -/
theorem gather_digits {limit : Nat} {cs : List Char} (h : Numeral.AllDigits cs) {rest : List UInt8}
    (stops : Stops rest) : ∀ count value, Nat.ofDigitChars 10 cs value ≤ limit →
      gather limit count value (encode cs ++ rest)
        = (count + cs.length, Nat.ofDigitChars 10 cs value, false) := by
  induction cs with
  | nil =>
      intro count value _
      cases rest with
      | nil => rfl
      | cons b rest =>
          show gather limit count value (b :: rest) = _
          rw [gather, stops b rfl, if_neg Bool.false_ne_true]
          rfl
  | cons c cs ih =>
      intro count value fits
      obtain ⟨small, digit, same⟩ := byte_of_isDigit (h c List.mem_cons_self)
      rw [Nat.ofDigitChars_cons] at fits
      -- more digits only make the number larger, so it has stayed within the limit so far
      have inside := Nat.le_trans (le_ofDigitChars cs _) fits
      rw [encode_ascii small, List.cons_append, gather, if_pos digit, same, Nat.mul_comm value 10,
        if_pos inside, ih (fun c hc => h c (List.mem_cons_of_mem _ hc)) _ _ fits,
        Nat.ofDigitChars_cons, List.length_cons, Nat.add_assoc, Nat.add_comm 1]

/-- Passing over a byte as often as there are bytes leaves what is behind them. -/
theorem foldl_skip {α : Type} {bs rest : List UInt8} : ∀ {steps : List α} {p : Place},
    steps.length = bs.length → ∃ p', steps.foldl (fun c _ => c.skip) ⟨bs ++ rest, p⟩
      = (⟨rest, p'⟩ : Cursor) := by
  induction bs with
  | nil =>
      intro steps p same
      rw [List.length_eq_zero_iff.mp same]
      exact ⟨p, rfl⟩
  | cons b bs ih =>
      intro steps p same
      cases steps with
      | nil => exact nomatch same
      | cons step steps =>
          rw [List.foldl_cons]
          exact ih (Nat.succ.inj same)

/-- A digit takes one byte. -/
theorem length_encode_of_isDigit {cs : List Char} (h : Numeral.AllDigits cs) :
    (encode cs).length = cs.length := by
  induction cs with
  | nil => rfl
  | cons c cs ih =>
      obtain ⟨small, -⟩ := byte_of_isDigit (h c List.mem_cons_self)
      rw [encode_ascii small, List.length_cons, List.length_cons,
        ih fun c hc => h c (List.mem_cons_of_mem _ hc)]

/-- Digits that fit are gathered into their value. -/
theorem gatherDigits_digits {limit value : Nat} {cs : List Char} (h : Numeral.AllDigits cs)
    (fits : Nat.ofDigitChars 10 cs value ≤ limit) {rest : List UInt8} (stops : Stops rest)
    (p : Place) : ∃ p', gatherDigits limit value ⟨encode cs ++ rest, p⟩
      = (.ok (cs.length, Nat.ofDigitChars 10 cs value, false), ⟨rest, p'⟩) := by
  have found := gather_digits h stops 0 value fits
  rw [Nat.zero_add] at found
  have steps : (List.range cs.length).length = (encode cs).length := by
    rw [List.length_range, length_encode_of_isDigit h]
  obtain ⟨p', behind⟩ : ∃ p', (List.range cs.length).foldl (fun c _ => c.skip)
      ⟨encode cs ++ rest, p⟩ = (⟨rest, p'⟩ : Cursor) := foldl_skip steps
  refine ⟨p', ?_⟩
  rw [gatherDigits]
  dsimp only
  rw [found, behind]

/-! ## Reading whole numbers -/

/-- The digits of a number are a whole part. -/
theorem isWhole_toDigits (n : Nat) : IsWhole (Nat.toDigits 10 n) := by
  -- the first digit is that of the tenth part, down to a number of one digit
  have leads : ∀ n : Nat, 0 < n → ∃ c cs, Nat.toDigits 10 n = c :: cs ∧ c ≠ '0' := by
    intro n
    induction n using Nat.strongRecOn with
    | _ n ih =>
        intro positive
        rw [Nat.toDigits_eq_if (by decide)]
        split
        · next small =>
            have one : ∀ n < 10, 0 < n → n.digitChar ≠ '0' := by decide
            exact ⟨_, _, rfl, one n small positive⟩
        · next large =>
            obtain ⟨c, cs, front, nonzero⟩ := ih (n / 10) (by omega) (by omega)
            rw [front]
            exact ⟨c, _, rfl, nonzero⟩
  have digits := Numeral.allDigits_toDigits n
  rcases Nat.eq_zero_or_pos n with rfl | positive
  · rw [Nat.toDigits_zero]
    exact .zero
  · obtain ⟨c, cs, form, nonzero⟩ := leads n positive
    rw [form] at digits ⊢
    exact .digits (digits c List.mem_cons_self) nonzero
      fun c hc => digits c (List.mem_cons_of_mem _ hc)

/-- Where the number has ended, its whole part is the number. -/
theorem readTail_of_ends {rest : List UInt8} (ends : Ends rest) (positive : Bool) (digits : Nat)
    (power : Int) (whole : Reader Number) (p : Place) :
    readTail positive digits power whole ⟨rest, p⟩ = whole ⟨rest, p⟩ := by
  cases rest with
  | nil => rfl
  | cons b rest =>
      obtain ⟨-, point, e, E⟩ := ends b rfl
      rw [readTail, bind_of_ok _ (peek_cons _ _ _)]
      dsimp only
      rw [point, e, E, if_neg Bool.false_ne_true, if_neg (by decide)]

/-- A whole number that fits a word is read as what its digits come to. -/
theorem takes_readNumber {cs : List Char} (h : IsWhole cs)
    (fits : Nat.ofDigitChars 10 cs 0 ≤ wordLimit) (positive : Bool) :
    (readNumber positive).TakesBefore (encode cs)
      (wholeNumber positive (Nat.ofDigitChars 10 cs 0)) := by
  intro rest ends place
  cases h with
  | zero =>
      refine ⟨place.after (ascii '0'), ?_⟩
      rw [encode_ascii (by decide), show encode [] = [] from rfl, List.singleton_append,
        readNumber, bind_of_ok _ (take_cons _ _ _)]
      dsimp only
      rw [if_pos (by decide)]
      cases rest with
      | nil => rfl
      | cons b rest =>
          rw [bind_of_ok _ (peek_cons _ _ _)]
          dsimp only
          rw [(ends b rfl).1, if_neg Bool.false_ne_true, readTail_of_ends ends]
          rfl
  | @digits c cs first nonzero all =>
      obtain ⟨small, digit, same⟩ := byte_of_isDigit first
      have value : Nat.ofDigitChars 10 (c :: cs) 0
          = Nat.ofDigitChars 10 cs (digitValue (ascii c)) := by
        rw [Nat.ofDigitChars_cons, same, Nat.mul_zero, Nat.zero_add]
      rw [value] at fits ⊢
      obtain ⟨p, hp⟩ := gatherDigits_digits all fits ends.stops (place.after (ascii c))
      refine ⟨p, ?_⟩
      rw [encode_ascii small, List.cons_append, readNumber, bind_of_ok _ (take_cons _ _ _)]
      dsimp only
      rw [is_ascii_of_ne small nonzero, if_neg Bool.false_ne_true, if_pos digit,
        bind_of_ok _ hp]
      dsimp only
      rw [if_neg Bool.false_ne_true, readTail_of_ends ends]
      rfl

/-- A whole number within a word is read from its decimal digits. -/
theorem takes_readNumber_toDigits {n : Nat} (fits : n ≤ wordLimit) (positive : Bool) :
    (readNumber positive).TakesBefore (encode (Nat.toDigits 10 n)) (wholeNumber positive n) := by
  have read := takes_readNumber (isWhole_toDigits n)
    (by rw [Nat.ofDigitChars_ten_toDigits]; exact fits) positive
  rw [Nat.ofDigitChars_ten_toDigits] at read
  exact read

/-- The first digit of a whole part. -/
theorem IsWhole.head {cs : List Char} (h : IsWhole cs) :
    ∃ c rest, cs = c :: rest ∧ c.isDigit = true := by
  cases h with
  | zero => exact ⟨_, _, rfl, rfl⟩
  | digits first => exact ⟨_, _, rfl, first⟩

section WholeBy

variable {α : Type} (wanted : String) {accept : Int → Option α} {a : α} {ws : List Char}

/-- A whole number of 64 bits is read behind any white space, where it is accepted. -/
theorem takes_wholeBy_whole {digits : List Char} (whole : IsWhole digits)
    (accepted : accept (Nat.ofDigitChars 10 digits 0 : Nat) = some a)
    (fits : Nat.ofDigitChars 10 digits 0 ≤ wordLimit) (space : IsSpacing ws) :
    (wholeBy wanted accept).TakesBefore (encode (ws ++ digits)) a := by
  intro rest ends place
  obtain ⟨p, hp⟩ := takes_readNumber whole fits true rest ends
    ((encode ws).foldl Place.after place)
  have back : (UInt64.ofNat (Nat.ofDigitChars 10 digits 0)).toNat = Nat.ofDigitChars 10 digits 0 :=
    UInt64.toNat_ofNat_of_lt' (Nat.lt_succ_of_le fits)
  obtain ⟨c, cs, head, first⟩ := whole.head
  obtain ⟨small, digit, -⟩ := byte_of_isDigit first
  -- the first digit is ahead, which is neither white space nor a sign
  have noSpace : isSpace (ascii c) = false := by
    have range := toNat_of_isDigit first
    have clear : ∀ n < 58, 48 ≤ n → isSpace (UInt8.ofNat n) = false := by decide
    exact clear c.toNat (by omega) range.1
  have noMinus : is (ascii c) '-' = false := by
    refine is_ascii_of_ne small ?_
    rintro rfl
    exact absurd (toNat_of_isDigit first) (by decide)
  have bytes : encode digits = ascii c :: encode cs := by rw [head, encode_ascii small]
  refine ⟨p, ?_⟩
  rw [encode_append, List.append_assoc]
  rw [bytes, List.cons_append] at hp ⊢
  rw [wholeBy, bind_of_ok _ (valueStart_spacing space noSpace _ _)]
  dsimp only
  rw [noMinus, if_neg Bool.false_ne_true, if_pos digit, bind_of_ok _ hp]
  refine placed_of_ok ?_
  dsimp only [wholeNumber]
  rw [if_pos rfl]
  dsimp only
  rw [back, accepted]
  rfl

/-- A natural number of 64 bits in decimal is one. -/
theorem takes_wholeBy_ofNat {n : Nat} (accepted : accept (Int.ofNat n) = some a)
    (fits : n ≤ wordLimit) (space : IsSpacing ws) :
    (wholeBy wanted accept).TakesBefore (encode (ws ++ Nat.toDigits 10 n)) a := by
  refine takes_wholeBy_whole wanted (isWhole_toDigits n) ?_ ?_ space
  · rw [Nat.ofDigitChars_ten_toDigits]
    exact accepted
  · rwa [Nat.ofDigitChars_ten_toDigits]

/-- So is a negative one. -/
theorem takes_wholeBy_negSucc {n : Nat} (accepted : accept (Int.negSucc n) = some a)
    (low : n + 1 ≤ 9223372036854775808) (space : IsSpacing ws) :
    (wholeBy wanted accept).TakesBefore (encode (ws ++ '-' :: Nat.toDigits 10 (n + 1))) a := by
  intro rest ends place
  have fits : n + 1 ≤ wordLimit := Nat.le_trans low (by decide)
  obtain ⟨p, hp⟩ := takes_readNumber_toDigits fits false rest ends
    (((encode ws).foldl Place.after place).after (ascii '-'))
  refine ⟨p, ?_⟩
  rw [encode_append, encode_ascii (by decide), List.append_assoc, List.cons_append, wholeBy,
    bind_of_ok _ (valueStart_spacing space (by decide) _ _)]
  dsimp only
  rw [if_pos (by decide), bind_of_ok _ (skip_cons _ _ _), bind_of_ok _ hp]
  refine placed_of_ok ?_
  dsimp only [wholeNumber]
  rw [if_neg Bool.false_ne_true, if_pos ⟨Nat.succ_pos n, low⟩]
  dsimp only
  rw [show -((n + 1 : Nat) : Int) = Int.negSucc n from rfl, accepted]
  rfl

/-- A negative number is written as a minus sign and digits. -/
theorem toList_toString_negSucc (n : Nat) :
    (toString (Int.negSucc n)).toList = '-' :: Nat.toDigits 10 (n + 1) := by
  show ("-" ++ String.ofList (Nat.toDigits 10 (n + 1))).toList = _
  rw [String.toList_append, String.toList_ofList, String.toList_ofList, List.singleton_append]

/-- A number of 64 bits in decimal is read behind any white space, where it is accepted. -/
theorem takes_wholeBy {n : Int} (accepted : accept n = some a) (low : -9223372036854775808 ≤ n)
    (high : n ≤ wordLimit) (space : IsSpacing ws) :
    (wholeBy wanted accept).TakesBefore (encode (ws ++ (toString n).toList)) a := by
  cases n with
  | ofNat n =>
      have form : (toString (Int.ofNat n)).toList = Nat.toDigits 10 n := String.toList_ofList
      rw [form]
      exact takes_wholeBy_ofNat wanted accepted (Int.ofNat_le.mp high) space
  | negSucc n =>
      rw [toList_toString_negSucc]
      exact takes_wholeBy_negSucc wanted accepted (by omega) space

end WholeBy

/-- A 32-bit signed number is read back. -/
theorem takes_int32 (n : Int32) {ws : List Char} (space : IsSpacing ws) :
    int32.TakesBefore (encode (ws ++ (toString n.toInt).toList)) n := by
  have low := n.le_toInt
  have high := n.toInt_lt
  refine takes_wholeBy "i32" ?_ (by omega) (by rw [wordLimit]; omega) space
  rw [if_pos ⟨by omega, by omega⟩, Int32.ofInt_toInt]

/-! ## Parts of a double -/

/-- Reads the digits of an exponent behind its sign. -/
def readPower (positive : Bool) (digits : Nat) (start : Int) (up : Bool) : Reader Number := do
  match ← Reader.take with
  | none => Reader.fail .endInValue
  | some b =>
    if isDigit b then
      let (_, power, more) ← gatherDigits 2147483647 (digitValue b)
      if more then
        Reader.skip
        if digits ≠ 0 ∧ up then Reader.fail .numberOutOfRange
        else
          let _ ← Reader.skipWhile isDigit
          pure (.real (.signed (!positive) (.finite 0)))
      else assemble positive digits (if up then start + power else start - power)
    else Reader.fail .badNumber

/-- Reads what follows the digits of a fraction; without any there has to be one. -/
def readScale (positive : Bool) (digits : Nat) (start : Int) (count : Nat) (more : Bool) :
    Reader Number := do
  if count = 0 ∧ !more then
    match ← Reader.peek with
    | some _ => Reader.failAhead .badNumber
    | none => Reader.failAhead .endInValue
  else if ← exponentAhead then readExponent positive digits (start - count)
  else assemble positive digits (start - count)

/-! ## Passing over numbers -/

/-- Passes over what may follow the whole part of a number. -/
def skipTail : Reader Unit := do
  match ← Reader.peek with
  | some b =>
    if is b '.' then skipFraction
    else if is b 'e' || is b 'E' then skipExponent
  | none => pure ()

/-- Passes over the digits of an exponent, behind its sign. -/
def skipPower : Reader Unit := do
  match ← Reader.take with
  | some b =>
    if isDigit b then
      let _ ← Reader.skipWhile isDigit
    else Reader.fail .badNumber
  | none => Reader.fail .badNumber

/-- The mark of an exponent is one byte, and no point. -/
theorem byte_of_mark {e : Char} (mark : e = 'e' ∨ e = 'E') : e.toNat < 0x80 ∧
    is (ascii e) '.' = false ∧ (is (ascii e) 'e' || is (ascii e) 'E') = true := by
  rcases mark with rfl | rfl
  · decide
  · decide

/-- The digits of an exponent are passed over. -/
theorem takes_skipPower {c : Char} {cs : List Char} (first : c.isDigit = true)
    (all : Numeral.AllDigits cs) : skipPower.TakesBefore (encode (c :: cs)) () := by
  intro rest ends place
  obtain ⟨small, digit, -⟩ := byte_of_isDigit first
  refine ⟨(encode cs).foldl Place.after (place.after (ascii c)), ?_⟩
  rw [encode_ascii small, List.cons_append, skipPower, bind_of_ok _ (take_cons _ _ _)]
  dsimp only
  rw [if_pos digit, bind_of_ok _ (skipWhile_digits all ends.stops _)]
  rfl

/-- The sign of an exponent is passed over; it has none where a digit is ahead. -/
theorem takes_skipExponent {e c : Char} {sign cs : List Char} (mark : e = 'e' ∨ e = 'E')
    (signed : sign = [] ∨ sign = ['+'] ∨ sign = ['-']) (first : c.isDigit = true)
    (all : Numeral.AllDigits cs) :
    skipExponent.TakesBefore (encode (e :: (sign ++ c :: cs))) () := by
  intro rest ends place
  obtain ⟨small, digit, -⟩ := byte_of_isDigit first
  have power := takes_skipPower first all rest ends
  rw [encode_ascii small, List.cons_append] at power
  rw [encode_ascii (byte_of_mark mark).1, encode_append, encode_ascii small, List.cons_append,
    List.append_assoc, List.cons_append, skipExponent, bind_of_ok _ (skip_cons _ _ _)]
  rcases signed with rfl | signed
  · have unsigned (d : Char) (ne : ¬(48 ≤ d.toNat ∧ d.toNat ≤ 57)) : is (ascii c) d = false := by
      refine is_ascii_of_ne small ?_
      rintro rfl
      exact ne (toNat_of_isDigit first)
    obtain ⟨p, hp⟩ := power (place.after (ascii e))
    refine ⟨p, ?_⟩
    show (Reader.peek >>= _) ⟨ascii c :: (encode cs ++ rest), _⟩ = _
    rw [bind_of_ok _ (peek_cons _ _ _)]
    dsimp only
    rw [unsigned '+' (by decide), unsigned '-' (by decide), if_neg (by decide)]
    exact hp
  · -- either sign is passed over alike
    obtain ⟨s, smallSign, isSign, rfl⟩ : ∃ s : Char, s.toNat < 0x80 ∧
        (is (ascii s) '+' || is (ascii s) '-') = true ∧ sign = [s] := by
      rcases signed with rfl | rfl
      · exact ⟨'+', by decide, by decide, rfl⟩
      · exact ⟨'-', by decide, by decide, rfl⟩
    obtain ⟨p, hp⟩ := power ((place.after (ascii e)).after (ascii s))
    refine ⟨p, ?_⟩
    rw [encode_ascii smallSign, List.cons_append, bind_of_ok _ (peek_cons _ _ _)]
    dsimp only
    rw [if_pos isSign, bind_of_ok _ (skip_cons _ _ _)]
    exact hp

/-- Digits end where an exponent begins, or the number. -/
theorem IsExponent.stops {cs : List Char} (h : IsExponent cs) {rest : List UInt8}
    (ends : Ends rest) : Stops (encode cs ++ rest) := by
  cases h with
  | none => exact ends.stops
  | mark mark =>
      rcases mark with rfl | rfl
      · rw [encode_ascii (by decide)]
        exact stops_cons (by decide) (by decide) _
      · rw [encode_ascii (by decide)]
        exact stops_cons (by decide) (by decide) _

/-- No exponent is ahead where a number may end. -/
theorem exponentAhead_of_ends {rest : List UInt8} (ends : Ends rest) (p : Place) :
    exponentAhead ⟨rest, p⟩ = (.ok false, ⟨rest, p⟩) := by
  cases rest with
  | nil => rfl
  | cons b rest =>
      obtain ⟨-, -, e, E⟩ := ends b rfl
      rw [exponentAhead, bind_of_ok _ (peek_cons _ _ _)]
      dsimp only
      rw [e, E]
      rfl

/-- An exponent is ahead where its letter is. -/
theorem exponentAhead_mark {e : Char} (mark : e = 'e' ∨ e = 'E') (rest : List UInt8)
    (p : Place) : exponentAhead ⟨ascii e :: rest, p⟩ = (.ok true, ⟨ascii e :: rest, p⟩) := by
  rw [exponentAhead, bind_of_ok _ (peek_cons _ _ _)]
  dsimp only
  rw [(byte_of_mark mark).2.2]
  rfl

/-- A fraction is passed over, with the exponent behind it. -/
theorem takes_skipFraction {c : Char} {cs exponent : List Char} (first : c.isDigit = true)
    (all : Numeral.AllDigits cs) (h : IsExponent exponent) :
    skipFraction.TakesBefore (encode ('.' :: (c :: cs ++ exponent))) () := by
  intro rest ends place
  have digits : Numeral.AllDigits (c :: cs) := by
    intro d hd
    rcases List.mem_cons.mp hd with rfl | hd
    · exact first
    · exact all d hd
  have some : ¬(encode (c :: cs)).length = 0 := by
    rw [length_encode_of_isDigit digits]
    exact Nat.succ_ne_zero _
  rw [encode_ascii (by decide), encode_append, List.cons_append, List.append_assoc, skipFraction,
    bind_of_ok _ (skip_cons _ _ _), bind_of_ok _ (skipWhile_digits digits (h.stops ends) _),
    if_neg some]
  cases h with
  | none =>
      refine ⟨(encode (c :: cs)).foldl Place.after (place.after (ascii '.')), ?_⟩
      show (exponentAhead >>= _) ⟨rest, _⟩ = _
      rw [bind_of_ok _ (exponentAhead_of_ends ends _), if_neg Bool.false_ne_true]
      rfl
  | @mark e d sign ds mark signed first all =>
      obtain ⟨p, hp⟩ := takes_skipExponent mark signed first all rest ends
        ((encode (c :: cs)).foldl Place.after (place.after (ascii '.')))
      rw [encode_ascii (byte_of_mark mark).1, List.cons_append] at hp ⊢
      refine ⟨p, ?_⟩
      rw [bind_of_ok _ (exponentAhead_mark mark _ _), if_pos rfl]
      exact hp

/-- What follows the digits of a number is passed over. -/
theorem takes_skipTail {fraction exponent : List Char} (hf : IsFraction fraction)
    (he : IsExponent exponent) : skipTail.TakesBefore (encode (fraction ++ exponent)) () := by
  intro rest ends place
  cases hf with
  | none =>
      cases he with
      | none =>
          refine ⟨place, ?_⟩
          show skipTail ⟨rest, place⟩ = _
          cases rest with
          | nil => rfl
          | cons b rest =>
              obtain ⟨-, point, e, E⟩ := ends b rfl
              rw [skipTail, bind_of_ok _ (peek_cons _ _ _)]
              dsimp only
              rw [point, e, E, if_neg Bool.false_ne_true, if_neg (by decide)]
              rfl
      | @mark e c sign cs mark signed first all =>
          obtain ⟨p, hp⟩ := takes_skipExponent mark signed first all rest ends place
          obtain ⟨small, noPoint, marks⟩ := byte_of_mark mark
          refine ⟨p, ?_⟩
          rw [List.nil_append]
          rw [encode_ascii small, List.cons_append] at hp ⊢
          rw [skipTail, bind_of_ok _ (peek_cons _ _ _)]
          dsimp only
          rw [noPoint, if_neg Bool.false_ne_true, if_pos marks]
          exact hp
  | @point c cs first all =>
      obtain ⟨p, hp⟩ := takes_skipFraction first all he rest ends place
      refine ⟨p, ?_⟩
      show skipTail ⟨encode ('.' :: (c :: cs ++ exponent)) ++ rest, place⟩ = _
      rw [encode_ascii (by decide), List.cons_append] at hp ⊢
      rw [skipTail, bind_of_ok _ (peek_cons _ _ _)]
      dsimp only
      rw [if_pos (by decide)]
      exact hp

/-- Behind the whole part of a number only its tail is left. -/
theorem skipNumber_whole {cs : List Char} (h : IsWhole cs) {rest : List UInt8}
    (stops : Stops rest) (p : Place) :
    ∃ p', skipNumber ⟨encode cs ++ rest, p⟩ = skipTail ⟨rest, p'⟩ := by
  cases h with
  | zero =>
      refine ⟨p.after (ascii '0'), ?_⟩
      rw [encode_ascii (by decide), show encode [] = [] from rfl, List.singleton_append,
        skipNumber, bind_of_ok _ (take_cons _ _ _)]
      dsimp only
      rw [if_pos (by decide)]
      cases rest with
      | nil => rfl
      | cons b rest =>
          rw [bind_of_ok _ (peek_cons _ _ _)]
          dsimp only
          rw [stops b rfl, if_neg Bool.false_ne_true]
          rfl
  | @digits c cs first nonzero all =>
      obtain ⟨small, digit, -⟩ := byte_of_isDigit first
      refine ⟨(encode cs).foldl Place.after (p.after (ascii c)), ?_⟩
      rw [encode_ascii small, List.cons_append, skipNumber, bind_of_ok _ (take_cons _ _ _)]
      dsimp only
      rw [is_ascii_of_ne small nonzero, if_neg Bool.false_ne_true, if_pos digit,
        bind_of_ok _ (skipWhile_digits all stops _)]
      rfl

/-- Every number is passed over behind its sign. -/
theorem takes_skipNumber {cs : List Char} (h : IsUnsigned cs) :
    skipNumber.TakesBefore (encode cs) () := by
  intro rest ends place
  cases h with
  | @parts whole fraction exponent isWhole isFraction isExponent =>
      have stops : Stops (encode (fraction ++ exponent) ++ rest) := by
        cases isFraction with
        | none => exact isExponent.stops ends
        | point =>
            rw [List.cons_append, encode_ascii (by decide)]
            exact stops_cons (by decide) (by decide) _
      obtain ⟨p, hp⟩ := skipNumber_whole isWhole stops place
      obtain ⟨q, hq⟩ := takes_skipTail isFraction isExponent rest ends p
      refine ⟨q, ?_⟩
      rw [encode_append, List.append_assoc, hp, hq]

end Courier.Json
