import Courier.Text.Escaped
import Mathlib.Data.List.Basic

/-! # Escaped text — what is read between quotes

    Reading a text up to its closing quote takes just the characters that
    stand for it: plain ones, letters of escapes, and numbers of four or
    eight digits (`readQuoted_eq_some_iff`). -/

namespace Courier.Text

/-- The letters in front of the digits of a character's number, and how many digits these are. -/
def numberLetters : List (Char × Nat) := [('u', 4), ('U', 8)]

/-- Characters, and the ways to write them up to and with the closing quote. -/
inductive Quotes (plain : Char → Bool) : List Char → List Char → Prop where
  | done : Quotes plain [] ['"']
  | plain {c : Char} {cs body : List Char} (isPlain : plain c = true) (quote : c ≠ '"')
      (escape : c ≠ '\\') (rest : Quotes plain cs body) : Quotes plain (c :: cs) (c :: body)
  | letter {x c : Char} {cs body : List Char} (escape : escapedChar? x = some c)
      (rest : Quotes plain cs body) : Quotes plain (c :: cs) ('\\' :: x :: body)
  | number {x c : Char} {digits cs body : List Char}
      (long : (x, digits.length) ∈ numberLetters) (escape : numberedChar? digits = some c)
      (rest : Quotes plain cs body) : Quotes plain (c :: cs) ('\\' :: x :: (digits ++ body))

variable {plain : Char → Bool} {cs text rest : List Char}

/-- What is pushed onto a text is a character in front of it. -/
theorem exists_of_push {c : Option Char} {behind : Option (List Char × List Char)}
    (h : push c behind = some (text, rest)) :
    ∃ d tail, c = some d ∧ behind = some (tail, rest) ∧ text = d :: tail := by
  cases c with
  | none => exact nomatch h
  | some d =>
      cases behind with
      | none => exact nomatch h
      | some read =>
          obtain ⟨rfl, rfl⟩ := Prod.mk.inj (Option.some.inj h)
          exact ⟨d, read.1, rfl, rfl, rfl⟩

/-- What was read as a quoted text spells it, up to its quote. -/
theorem exists_quotes_of_read (h : readQuoted plain cs = some (text, rest)) :
    ∃ body, cs = body ++ rest ∧ Quotes plain text body := by
  -- the cases are those of the reader: an end, an escape of either length, a letter, a plain one
  fun_induction readQuoted plain cs generalizing text rest with
  | case1 => exact nomatch h
  | case2 behind =>
      obtain ⟨rfl, rfl⟩ := Prod.mk.inj (Option.some.inj h)
      exact ⟨['"'], rfl, .done⟩
  | case3 a b c d more _ ih =>
      obtain ⟨e, tail, escape, read, rfl⟩ := exists_of_push h
      obtain ⟨body, rfl, quotes⟩ := ih read
      have long : ('u', [a, b, c, d].length) ∈ numberLetters := List.Mem.head _
      exact ⟨_, rfl, .number long escape quotes⟩
  | case4 a b c d e f g h' more _ ih =>
      obtain ⟨x, tail, escape, read, rfl⟩ := exists_of_push h
      obtain ⟨body, rfl, quotes⟩ := ih read
      have long : ('U', [a, b, c, d, e, f, g, h'].length) ∈ numberLetters :=
        List.Mem.tail _ (List.Mem.head _)
      exact ⟨_, rfl, .number long escape quotes⟩
  | case5 x more _ _ _ ih =>
      obtain ⟨c, tail, escape, read, rfl⟩ := exists_of_push h
      obtain ⟨body, rfl, quotes⟩ := ih read
      exact ⟨_, rfl, .letter escape quotes⟩
  | case6 => exact nomatch h
  | case7 c more quote escape isPlain ih =>
      obtain ⟨d, tail, same, read, rfl⟩ := exists_of_push h
      obtain rfl := Option.some.inj same
      obtain ⟨body, rfl, quotes⟩ := ih read
      exact ⟨_, rfl, .plain isPlain quote escape quotes⟩
  | case8 => exact nomatch h

/-- What spells a text is read as it. -/
theorem Quotes.read {body : List Char} (h : Quotes plain text body) (rest : List Char) :
    readQuoted plain (body ++ rest) = some (text, rest) := by
  induction h with
  | done =>
      rw [List.cons_append, readQuoted.eq_def]
      rfl
  | plain isPlain quote escape _ ih =>
      rw [List.cons_append, readQuoted.eq_def]
      simp only [if_neg quote, if_neg escape, if_pos isPlain, ih, push]
  | @letter x c cs body escape _ ih =>
      rw [List.cons_append, List.cons_append, readQuoted.eq_def]
      simp only [if_true, if_neg (show ¬('\\' = '"') by decide)]
      split
      -- neither letter in front of a number is one of an escape
      · next same => exact nomatch (List.cons.inj same).1 ▸ escape
      · next same => exact nomatch (List.cons.inj same).1 ▸ escape
      · next same =>
          obtain ⟨rfl, rfl⟩ := List.cons.inj same
          rw [escape, ih, push]
      · next same => exact nomatch same
  | @number x c digits cs body long escape _ ih =>
      simp only [numberLetters, List.mem_cons, Prod.mk.injEq, List.not_mem_nil, or_false] at long
      obtain ⟨rfl, four⟩ | ⟨rfl, eight⟩ := long
      · obtain ⟨a, b, c, d, rfl⟩ := List.length_eq_four.mp four
        rw [List.cons_append, List.cons_append, readQuoted.eq_def]
        simp only [List.cons_append, List.nil_append, if_true,
          if_neg (show ¬('\\' = '"') by decide), escape, ih, push]
      · obtain ⟨a, b, c, d, first⟩ := List.length_eq_four.mp
          (show (digits.take 4).length = 4 by rw [List.length_take, eight]; rfl)
        obtain ⟨e, f, g, h, second⟩ := List.length_eq_four.mp
          (show (digits.drop 4).length = 4 by rw [List.length_drop, eight])
        obtain rfl : digits = [a, b, c, d] ++ [e, f, g, h] :=
          (List.take_append_drop 4 digits).symm.trans (first ▸ second ▸ rfl)
        rw [List.cons_append, List.cons_append, readQuoted.eq_def]
        simp only [List.cons_append, List.nil_append, if_true,
          if_neg (show ¬('\\' = '"') by decide)] at escape ⊢
        rw [escape, ih, push]

/-- **BETWEEN QUOTES**: reading up to the closing quote succeeds on the characters that stand for a
    text, and takes nothing else. -/
theorem readQuoted_eq_some_iff :
    readQuoted plain cs = some (text, rest) ↔ ∃ body, cs = body ++ rest ∧ Quotes plain text body :=
  ⟨exists_quotes_of_read, fun ⟨_, whole, quotes⟩ => whole ▸ quotes.read rest⟩

end Courier.Text
