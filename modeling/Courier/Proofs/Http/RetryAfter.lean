import Courier.Proofs.Text.Blank
import Courier.Proofs.Text.Numeral
import Courier.Proofs.Text.Octets
import Courier.Proofs.Token.Hints

/-! # Retry-After — which bytes ask for a wait, and for which

    The wait that an answer asks for stands in the first field of a name, in
    any case of its letters.  The forms of a wait are a grammar of their own:
    spaces and tabs, at most one plus sign, one or more digits, spaces and
    tabs.  Reading goes from the bytes to the text, trims it and reads a
    number; each of these steps is turned round once, and together they
    accept the grammar and nothing else. -/

namespace Courier

open Utf8

/-! ## Fields -/

/-- Whether two names differ in the case of ASCII letters at most. -/
def Headers.SameName (a b : String) : Prop :=
  a.toList.map Char.toLower = b.toList.map Char.toLower

/-- Whether the first field of a name has the given value; whatever comes later does not count. -/
def Headers.Leads (fields : Headers) (name : String) (value : List UInt8) : Prop :=
  ∃ before spelled after, fields = before ++ (spelled, value) :: after ∧
    SameName spelled name ∧ ∀ field ∈ before, ¬SameName field.1 name

/-- The first value of a header is the one that leads. -/
theorem Headers.first?_eq_some_iff {fields : Headers} {name : String} {value : List UInt8} :
    fields.first? name = some value ↔ fields.Leads name value := by
  rw [first?_eq, Option.map_eq_some_iff]
  constructor
  · rintro ⟨⟨spelled, _⟩, found, rfl⟩
    obtain ⟨same, before, after, whole, earlier⟩ := List.find?_eq_some_iff_append.mp found
    refine ⟨before, spelled, after, whole, eq_of_beq same, fun field mem equal => ?_⟩
    have other := earlier field mem
    rw [Bool.not_eq_true', beq_eq_false_iff_ne] at other
    exact other equal
  · rintro ⟨before, spelled, after, rfl, same, earlier⟩
    refine ⟨(spelled, value), List.find?_eq_some_iff_append.mpr
      ⟨beq_iff_eq.mpr same, before, after, rfl, fun field mem => ?_⟩, rfl⟩
    rw [Bool.not_eq_true', beq_eq_false_iff_ne]
    exact earlier field mem

/-! ## Forms of a wait -/

/-- Spaces and tabs. -/
def IsPadding (cs : List Char) : Prop := ∀ c ∈ cs, c = ' ' ∨ c = '\t'

/-- The values that ask for a wait of `n` seconds: a decimal number with any zeros in front, at
    most one plus sign before it, and spaces and tabs around both. -/
inductive WaitForm (n : Nat) : List UInt8 → Prop where
  | digits {before sign cs after : List Char} (front : IsPadding before)
      (signed : sign = [] ∨ sign = ['+']) (nonempty : cs ≠ []) (all : Numeral.AllDigits cs)
      (value : Nat.ofDigitChars 10 cs 0 = n) (back : IsPadding after) :
      WaitForm n (encode (before ++ (sign ++ cs) ++ after))

/-- The characters that are trimmed off a value. -/
def isSpacing (c : Char) : Bool := c == ' ' || c == '\t'

theorem isSpacing_iff {c : Char} : isSpacing c = true ↔ c = ' ' ∨ c = '\t' := by
  rw [isSpacing, Bool.or_eq_true, beq_iff_eq, beq_iff_eq]

/-- Trimming leaves exactly the core that spacing surrounds. -/
theorem trimSpacing_eq_iff {cs core : List Char} :
    trimSpacing cs = core ↔ Text.Strips isSpacing cs core := Text.strips_iff.symm

/-- Whether a character is readable: visible ASCII, a space or a tab. -/
def IsReadable (c : Char) : Prop := c = '\t' ∨ (32 ≤ c.toNat ∧ c.toNat < 127)

/-- Bytes are read as the characters of their numbers, where all of these are readable. -/
theorem readableText?_eq_some_iff {bytes : List UInt8} {cs : List Char} :
    readableText? bytes = some cs ↔ octets bytes = cs ∧ ∀ c ∈ cs, IsReadable c := by
  have byte (b : UInt8) : isReadableByte b = true ↔ IsReadable (octet b) := by
    have tab : octet b = '\t' ↔ b = 9 := ⟨fun same => octet_inj same, fun same => same ▸ rfl⟩
    rw [isReadableByte, IsReadable, tab, toNat_octet, Bool.or_eq_true, Bool.and_eq_true,
      beq_iff_eq, decide_eq_true_eq, decide_eq_true_eq, UInt8.le_iff_toNat_le,
      UInt8.lt_iff_toNat_lt]
    exact Iff.rfl
  have all : bytes.all isReadableByte = true ↔ ∀ c ∈ octets bytes, IsReadable c := by
    rw [List.all_eq_true, octets, List.forall_mem_map]
    exact forall₂_congr fun b _ => byte b
  rw [readableText?]
  constructor
  · intro read
    obtain ⟨readable, same⟩ := Option.ite_none_right_eq_some.mp read
    obtain rfl := Option.some.inj same
    exact ⟨rfl, all.mp readable⟩
  · rintro ⟨rfl, readable⟩
    exact if_pos (all.mpr readable)

theorem IsReadable.ascii {c : Char} (h : IsReadable c) : c.toNat < 0x80 := by
  rcases h with rfl | ⟨-, high⟩
  · decide
  · omega

theorem IsPadding.isReadable {cs : List Char} (h : IsPadding cs) : ∀ c ∈ cs, IsReadable c := by
  intro c mem
  rcases h c mem with rfl | rfl
  · exact Or.inr (by decide)
  · exact Or.inl rfl

/-- A number with its sign is readable, and is not trimmed. -/
theorem signed_clean {sign cs : List Char} (signed : sign = [] ∨ sign = ['+'])
    (all : Numeral.AllDigits cs) :
    ∀ c ∈ sign ++ cs, IsReadable c ∧ isSpacing c = false := by
  have digit {c : Char} (h : c.isDigit = true) : IsReadable c ∧ isSpacing c = false := by
    have range : 48 ≤ c.toNat ∧ c.toNat ≤ 57 := by
      simpa [Char.isDigit, UInt32.le_iff_toNat_le] using h
    refine ⟨Or.inr ⟨by omega, by omega⟩, Bool.eq_false_iff.mpr fun spacing => ?_⟩
    rcases isSpacing_iff.mp spacing with rfl | rfl
    · exact absurd range (by decide)
    · exact absurd range (by decide)
  intro c mem
  rcases List.mem_append.mp mem with mem | mem
  · rcases signed with rfl | rfl
    · exact nomatch mem
    · obtain rfl := List.mem_singleton.mp mem
      exact ⟨Or.inr (by decide), by decide⟩
  · exact digit (all c mem)

/-- **FORMS OF A WAIT**: what is readable, trimmed and then a number of 64 bits is written in one of
    these forms, and each form of a number below that limit is read. -/
theorem waitForm_iff {n : Nat} {value : List UInt8} :
    (∃ text, readableText? value = some text ∧ Numeral.word? 64 (trimSpacing text) = some n) ↔
      n < Nat.pow 2 64 ∧ WaitForm n value := by
  constructor
  · rintro ⟨text, readable, number⟩
    obtain ⟨same, clean⟩ := readableText?_eq_some_iff.mp readable
    obtain ⟨fits, sign, cs, form, signed, nonempty, all, sum⟩ :=
      Numeral.word?_eq_some_iff.mp number
    -- the spacing around the number is what trimming took away
    obtain ⟨⟨before, after, whole, front, back⟩, -, -⟩ := trimSpacing_eq_iff.mp form
    refine ⟨fits, ?_⟩
    rw [eq_encode_of_octets (fun c mem => (clean c mem).ascii) same, whole]
    exact .digits (fun c mem => isSpacing_iff.mp (front c mem)) signed nonempty all sum
      fun c mem => isSpacing_iff.mp (back c mem)
  · rintro ⟨fits, form⟩
    cases form with
    | @digits before sign cs after front signed nonempty all sum back =>
        have clean := signed_clean signed all
        have readable : ∀ c ∈ before ++ (sign ++ cs) ++ after, IsReadable c := by
          intro c mem
          rcases List.mem_append.mp mem with mem | mem
          · rcases List.mem_append.mp mem with mem | mem
            · exact front.isReadable c mem
            · exact (clean c mem).1
          · exact back.isReadable c mem
        refine ⟨_, readableText?_eq_some_iff.mpr
          ⟨octets_encode fun c mem => (readable c mem).ascii, readable⟩, ?_⟩
        have trimmed : trimSpacing (before ++ (sign ++ cs) ++ after) = sign ++ cs :=
          trimSpacing_eq_iff.mpr {
            around := ⟨before, after, rfl, fun c mem => isSpacing_iff.mpr (front c mem),
              fun c mem => isSpacing_iff.mpr (back c mem)⟩
            head := fun c mem => (clean c (List.mem_of_head? mem)).2
            last := fun c mem => (clean c (List.mem_of_getLast? mem)).2 }
        rw [trimmed]
        exact Numeral.word?_eq_some_iff.mpr ⟨fits, sign, cs, rfl, signed, nonempty, all, sum⟩

/-- A wait is asked for by a form of it in the first field of the name. -/
theorem Headers.asksFor_iff {fields : Headers} {seconds : UInt64} : fields.AsksFor seconds ↔
    ∃ value, fields.Leads "retry-after" value ∧ WaitForm seconds.toNat value := by
  have form {value : List UInt8} : (∃ text, readableText? value = some text ∧
      Numeral.word? 64 (trimSpacing text) = some seconds.toNat) ↔ WaitForm seconds.toNat value := by
    rw [waitForm_iff]
    exact and_iff_right seconds.toNat_lt
  constructor
  · rintro ⟨value, text, first, readable, number⟩
    exact ⟨value, first?_eq_some_iff.mp first, form.mp ⟨text, readable, number⟩⟩
  · rintro ⟨value, leads, written⟩
    obtain ⟨text, readable, number⟩ := form.mpr written
    exact ⟨value, text, first?_eq_some_iff.mpr leads, readable, number⟩

/-- **RETRY-AFTER**: whatever fields come with an answer, it is worth another attempt just under
    the statuses 408, 429, 502 and 503.  Under these the verdict carries a wait of so many seconds
    exactly where the first field of that name is a form of that number, which 64 bits hold; so
    every other value of it, and a number only in a later field, carries none. -/
theorem Verdict.classify_follows_grammar (status : Status) (fields : Headers) :
    ((classify status fields).isRetryable = true ↔
      status.code = 408 ∨ status.code = 429 ∨ status.code = 502 ∨ status.code = 503) ∧
    ∀ wait, (classify status fields).hint = some wait ↔
      (classify status fields).isRetryable = true ∧ ∃ (seconds : UInt64) (value : List UInt8),
        fields.Leads "retry-after" value ∧ WaitForm seconds.toNat value ∧
        wait = .ofSeconds seconds := by
  have worth : (classify status fields).isRetryable = true ↔
      status.code ∈ retryableStatuses := isRetryable_classify status fields
  refine ⟨?_, fun wait => ?_⟩
  · rw [worth]
    simp only [retryableStatuses, List.mem_cons, List.not_mem_nil, or_false]
  · rw [hint_classify, Option.ite_none_right_eq_some, retryAfter?_eq_some_iff, worth]
    refine and_congr_right fun _ => exists_congr fun seconds => ?_
    rw [Headers.asksFor_iff]
    constructor
    · rintro ⟨⟨value, leads, form⟩, same⟩
      exact ⟨value, leads, form, same⟩
    · rintro ⟨value, leads, form, same⟩
      exact ⟨⟨value, leads, form⟩, same⟩

end Courier
