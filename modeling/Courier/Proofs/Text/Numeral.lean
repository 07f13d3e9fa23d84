import Courier.Text.Numeral

/-! # Padded numerals — fixed width in, the same number out

    A number below ten to the width is written in exactly that many ASCII
    digits, and those digits stand for it again.  The texts of instants are
    made of such numerals. -/

namespace Courier.Numeral

/-- Pushing a character adds it at the end, as often as asked. -/
theorem toList_pushn (s : String) (c : Char) (k : Nat) :
    (s.pushn c k).toList = s.toList ++ List.replicate k c := by
  induction k with
  | zero => simp [String.pushn_eq_repeat_push, Nat.repeat]
  | succ k ih =>
      rw [String.pushn_eq_repeat_push] at ih ⊢
      simp only [Nat.repeat, String.toList_push, ih, List.replicate_succ', List.append_assoc]

theorem digit?_of_isDigit {c : Char} (h : c.isDigit = true) :
    digit? c = some (c.toNat - '0'.toNat) := by
  rw [digit?, if_pos]
  simpa [Char.isDigit, Char.le_def] using h

theorem digit?_of_not_isDigit {c : Char} (h : ¬c.isDigit = true) : digit? c = none := by
  rw [digit?, if_neg]
  simpa [Char.isDigit, Char.le_def] using h

/-- Whether every character is an ASCII digit. -/
def AllDigits (cs : List Char) : Prop := ∀ c ∈ cs, c.isDigit = true

theorem allDigits_toDigits (n : Nat) : AllDigits (Nat.toDigits 10 n) :=
  fun _ h => Nat.isDigit_of_mem_toDigits (by decide) (by decide) h

/-- A padded number is its digits behind the zeros that its width still wants. -/
theorem toList_padded (width n : Nat) : (padded width n).toList
    = List.replicate (width - (Nat.toDigits 10 n).length) '0' ++ Nat.toDigits 10 n := by
  have hd : toString n = String.ofList (Nat.toDigits 10 n) := rfl
  simp only [padded, hd, String.toList_append, toList_pushn, String.toList_ofList,
    String.length_ofList]
  rfl

theorem allDigits_padded (width n : Nat) : AllDigits (padded width n).toList := by
  intro c h
  rw [toList_padded] at h
  rcases List.mem_append.mp h with h | h
  · rw [(List.mem_replicate.mp h).2]
    rfl
  · exact allDigits_toDigits n c h

/-- Whether a number has no more digits than a width. -/
def Fits (width n : Nat) : Prop := n < Nat.pow 10 width

/-- A number that fits its width is written in exactly that width. -/
theorem length_padded {width n : Nat} (hw : 0 < width) (h : Fits width n) :
    (padded width n).toList.length = width := by
  have hl := (Nat.length_toDigits_le_iff (by decide) hw).mpr h
  rw [toList_padded, List.length_append, List.length_replicate]
  omega

/-- Leading zeros count for nothing. -/
theorem ofDigitChars_padded (width n : Nat) :
    Nat.ofDigitChars 10 (padded width n).toList 0 = n := by
  rw [toList_padded, Nat.ofDigitChars_append, Nat.ofDigitChars_replicate_zero, Nat.mul_zero,
    Nat.ofDigitChars_ten_toDigits]

/-! ## Reading -/

/-- Digits go on with a number, and nothing else does. -/
theorem continued?_eq_some_iff {cs : List Char} {n m : Nat} :
    continued? n cs = some m ↔ AllDigits cs ∧ Nat.ofDigitChars 10 cs n = m := by
  induction cs generalizing n with
  | nil =>
      have none : AllDigits [] := fun c mem => nomatch mem
      exact ⟨fun same => ⟨none, Option.some.inj same⟩, fun h => congrArg some h.2⟩
  | cons c cs ih =>
      rw [continued?]
      by_cases digit : c.isDigit = true
      · have both : AllDigits (c :: cs) ↔ AllDigits cs :=
          ⟨fun all d mem => all d (List.mem_cons_of_mem _ mem),
            fun all => List.forall_mem_cons.mpr ⟨digit, all⟩⟩
        rw [digit?_of_isDigit digit, Option.bind_some, ih, Nat.ofDigitChars_cons, both]
      · rw [digit?_of_not_isDigit digit, Option.bind_none]
        constructor
        · exact fun none => nomatch none
        · exact fun h => absurd (h.1 c List.mem_cons_self) digit

/-- A natural number is read from one or more digits, as their value. -/
theorem natural?_eq_some_iff {cs : List Char} {n : Nat} :
    natural? cs = some n ↔ cs ≠ [] ∧ AllDigits cs ∧ Nat.ofDigitChars 10 cs 0 = n := by
  cases cs with
  | nil =>
      constructor
      · exact fun none => nomatch none
      · exact fun h => absurd rfl h.1
  | cons c cs =>
      show continued? 0 (c :: cs) = some n ↔ _
      rw [continued?_eq_some_iff]
      exact ⟨fun h => ⟨List.cons_ne_nil c cs, h⟩, And.right⟩

/-- **WORDS**: a number is read off digits with at most one plus sign in front, where it is below
    the limit. -/
theorem word?_eq_some_iff {bits n : Nat} {cs : List Char} : word? bits cs = some n ↔
    n < Nat.pow 2 bits ∧ ∃ sign digits, cs = sign ++ digits ∧ (sign = [] ∨ sign = ['+']) ∧
      digits ≠ [] ∧ AllDigits digits ∧ Nat.ofDigitChars 10 digits 0 = n := by
  unfold word?
  rw [Option.filter_eq_some_iff, decide_eq_true_eq, and_comm]
  refine and_congr_right fun _ => ?_
  constructor
  · intro read
    split at read
    · next rest => exact ⟨['+'], rest, rfl, Or.inr rfl, natural?_eq_some_iff.mp read⟩
    · exact ⟨[], cs, rfl, Or.inl rfl, natural?_eq_some_iff.mp read⟩
  · rintro ⟨sign, digits, rfl, rfl | rfl, nonempty, all, value⟩
    · rw [List.nil_append]
      split
      · exact absurd (all '+' List.mem_cons_self) (by decide)
      · exact natural?_eq_some_iff.mpr ⟨nonempty, all, value⟩
    · exact natural?_eq_some_iff.mpr ⟨nonempty, all, value⟩

end Courier.Numeral
