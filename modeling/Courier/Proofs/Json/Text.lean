import Courier.Proofs.Json.Reader
import Courier.Proofs.Text.Octets

/-! # JSON texts — every way to write a text is read as that text

    A character is written as itself or behind a backslash, and the reader
    tells the two apart by the backslash; so the reading of a whole text
    follows from that of one character.  The compact form is one of these
    ways.  Passing over a text looks at bytes instead of characters, and so
    lets through more than stands for one. -/

namespace Courier.Json

open Utf8 Reader

/-! ## Hexadecimal numbers -/

/-- A hexadecimal digit goes by its code, as the byte of one does. -/
theorem hexDigit?_eq (c : Char) : Numeral.hexDigit? c =
    if 48 ≤ c.toNat ∧ c.toNat ≤ 57 then some (c.toNat - 48)
    else if 97 ≤ c.toNat ∧ c.toNat ≤ 102 then some (c.toNat - 87)
    else if 65 ≤ c.toNat ∧ c.toNat ≤ 70 then some (c.toNat - 55)
    else none := by
  simp only [Numeral.hexDigit?, Char.le_def, UInt32.le_iff_toNat_le]
  rfl

/-- A hexadecimal digit is one byte, of the same value. -/
theorem hexValue?_of_hexDigit? {c : Char} {n : Nat} (h : Numeral.hexDigit? c = some n) :
    c.toNat < 0x80 ∧ hexValue? (ascii c) = some n := by
  have byte (small : c.toNat < 0x80) : (ascii c).toNat = c.toNat :=
    toNat_ofNat_of_lt (by omega)
  rw [hexDigit?_eq] at h
  unfold hexValue?
  split at h
  · next digit =>
      rw [byte (by omega)]
      exact ⟨by omega, (if_pos digit).trans h⟩
  · next noDigit =>
      split at h
      · next lower =>
          rw [byte (by omega)]
          exact ⟨by omega, (if_neg noDigit).trans ((if_pos lower).trans h)⟩
      · next noLower =>
          split at h
          · next upper =>
              rw [byte (by omega)]
              exact ⟨by omega, (if_neg noDigit).trans ((if_neg noLower).trans
                ((if_pos upper).trans h))⟩
          · exact nomatch h

/-- Four hexadecimal digits are four bytes, which are read as their number. -/
theorem takes_readHex {n : Nat} {hs : List Char} (h : IsHex n hs) :
    Reader.Takes readHex (encode hs) n := by
  cases h with
  | @digits a b c d i j k l first second third fourth =>
      obtain ⟨ha, hi⟩ := hexValue?_of_hexDigit? first
      obtain ⟨hb, hj⟩ := hexValue?_of_hexDigit? second
      obtain ⟨hc, hk⟩ := hexValue?_of_hexDigit? third
      obtain ⟨hd, hl⟩ := hexValue?_of_hexDigit? fourth
      intro rest place
      rw [encode_ascii ha, encode_ascii hb, encode_ascii hc, encode_ascii hd]
      refine ⟨(((place.after (ascii a)).after (ascii b)).after (ascii c)).after (ascii d), ?_⟩
      simp only [readHex, List.cons_append, hi, hj, hk, hl]
      rfl

theorem IsHex.small {n : Nat} {hs : List Char} (h : IsHex n hs) : ∀ c ∈ hs, c.toNat < 0x80 := by
  cases h with
  | digits first second third fourth =>
      simp only [List.forall_mem_cons]
      exact ⟨(hexValue?_of_hexDigit? first).1, (hexValue?_of_hexDigit? second).1,
        (hexValue?_of_hexDigit? third).1, (hexValue?_of_hexDigit? fourth).1,
        fun c mem => nomatch mem⟩

/-! ## Escapes -/

/-- The letter of an escape is ASCII, marks no number, and is looked up as what it stands for. -/
theorem letter_of_mem {x c : Char} (h : (x, c) ∈ letterEscapes) :
    x.toNat < 0x80 ∧ is (ascii x) 'u' = false ∧ escaped? (ascii x) = some c := by
  have letters : ∀ e ∈ letterEscapes, e.1.toNat < 0x80 ∧ is (ascii e.1) 'u' = false ∧
      escaped? (ascii e.1) = some e.2 := by decide
  exact letters (x, c) h

/-- A letter escape is read as what it stands for. -/
theorem takes_readEscape_letter {x c : Char} (h : (x, c) ∈ letterEscapes) :
    readEscape.Takes (encode [x]) c := by
  obtain ⟨small, noNumber, found⟩ := letter_of_mem h
  rw [encode_ascii small]
  refine (takes_take (ascii x)).bind (y := []) ?_
  dsimp only
  rw [if_neg (by rw [noNumber]; exact Bool.false_ne_true), found]
  exact takes_pure c

theorem takes_pairByte {c : Char} (h : is (ascii c) c = true) :
    (pairByte c).Takes [ascii c] () := by
  intro rest place
  refine ⟨place.after (ascii c), ?_⟩
  rw [pairByte, List.singleton_append, bind_of_ok _ (peek_cons _ _ _)]
  dsimp only
  rw [bind_of_ok _ (skip_cons _ _ _), if_pos h]
  rfl

/-- The number of a character is read as that character. -/
theorem takes_readNumbered {c : Char} {hs : List Char} (h : IsHex c.toNat hs) :
    Reader.Takes readNumbered (encode hs) c := by
  have valid := toNat_valid c
  rw [← List.append_nil (encode hs), readNumbered]
  refine (takes_readHex h).bind ?_
  rw [if_neg (by omega), if_pos (by omega), Char.ofNat_toNat]
  exact takes_pure c

/-- The numbers of two surrogates are read as the character that they stand for together. -/
theorem takes_readNumbered_pair {c : Char} {high low : Nat} {hs ls : List Char}
    (upper : IsHex high hs) (lower : IsHex low ls) (leads : 0xD800 ≤ high ∧ high ≤ 0xDBFF)
    (trails : 0xDC00 ≤ low ∧ low ≤ 0xDFFF)
    (sum : c.toNat = (high - 0xD800) * 0x400 + (low - 0xDC00) + 0x10000) :
    Reader.Takes readNumbered (encode (hs ++ '\\' :: 'u' :: ls)) c := by
  rw [encode_append, encode_ascii (by decide), encode_ascii (by decide), readNumbered]
  refine (takes_readHex upper).bind ?_
  rw [if_neg (by omega), if_neg (by omega)]
  refine (takes_pairByte (by decide)).bind (x := [ascii '\\']) ?_
  refine (takes_pairByte (by decide)).bind (x := [ascii 'u']) (y := encode ls) ?_
  rw [← List.append_nil (encode ls)]
  refine (takes_readHex lower).bind ?_
  rw [if_pos trails, ← sum, Char.ofNat_toNat]
  exact takes_pure c

/-- Behind the mark of a number stands the number. -/
theorem takes_readEscape_number {c : Char} {cs : List Char}
    (h : Reader.Takes readNumbered (encode cs) c) : readEscape.Takes (encode ('u' :: cs)) c := by
  rw [encode_ascii (by decide)]
  refine (takes_take (ascii 'u')).bind (x := [ascii 'u']) ?_
  dsimp only
  rw [if_pos (by decide)]
  exact h

/-- A character of a text is written as itself, or behind a backslash as an escape of it. -/
theorem CharForm.cases {c : Char} {cs : List Char} (h : CharForm c cs) :
    (cs = [c] ∧ IsPlain c) ∨ ∃ es, cs = '\\' :: es ∧ readEscape.Takes (encode es) c := by
  cases h with
  | plain plain => exact Or.inl ⟨rfl, plain⟩
  | letter escape => exact Or.inr ⟨_, rfl, takes_readEscape_letter escape⟩
  | number hex => exact Or.inr ⟨_, rfl, takes_readEscape_number (takes_readNumbered hex)⟩
  | pair upper lower leads trails sum =>
      exact Or.inr ⟨_, rfl, takes_readEscape_number
        (takes_readNumbered_pair upper lower leads trails sum)⟩

/-! ## Plain characters -/

/-- The bytes of a character outside ASCII lie outside ASCII. -/
theorem le_toNat_of_mem_utf8EncodeChar {c : Char} (h : 0x80 ≤ c.toNat) :
    ∀ b ∈ String.utf8EncodeChar c, 0x80 ≤ b.toNat := by
  have valid := toNat_valid c
  have byte {n : Nat} (low : 0x80 ≤ n) (high : n < 256) : 0x80 ≤ (UInt8.ofNat n).toNat := by
    rw [toNat_ofNat_of_lt high]
    exact low
  -- every byte is a marker of at least 0x80 plus bits of the character
  intro b hb
  rw [utf8EncodeChar_eq, if_neg (by omega)] at hb
  split at hb
  · simp only [List.mem_cons, List.not_mem_nil, or_false] at hb
    rcases hb with rfl | rfl
    · exact byte (by omega) (by omega)
    · exact byte (by omega) (by omega)
  · split at hb
    · simp only [List.mem_cons, List.not_mem_nil, or_false] at hb
      rcases hb with rfl | rfl | rfl
      · exact byte (by omega) (by omega)
      · exact byte (by omega) (by omega)
      · exact byte (by omega) (by omega)
    · simp only [List.mem_cons, List.not_mem_nil, or_false] at hb
      rcases hb with rfl | rfl | rfl | rfl
      · exact byte (by omega) (by omega)
      · exact byte (by omega) (by omega)
      · exact byte (by omega) (by omega)
      · exact byte (by omega) (by omega)

/-- No byte of a plain character is one that a text must escape. -/
theorem IsPlain.bytes {c : Char} (h : IsPlain c) : ∀ b ∈ String.utf8EncodeChar c,
    ¬ b < 32 ∧ is b '"' = false ∧ is b '\\' = false := by
  obtain ⟨h32, hq, hb⟩ := h
  intro b mem
  -- an ASCII character is its only byte, and any other has no ASCII byte
  have same : b.toNat = c.toNat ∨ 0x80 ≤ b.toNat := by
    by_cases small : c.toNat < 0x80
    · rw [utf8EncodeChar_eq, if_pos (by omega)] at mem
      rw [List.mem_singleton.mp mem]
      exact Or.inl (toNat_ofNat_of_lt (by omega))
    · exact Or.inr (le_toNat_of_mem_utf8EncodeChar (by omega) b mem)
  have other (d : Char) (small : d.toNat < 0x80) (ne : c ≠ d) : is b d = false := by
    refine decide_eq_false fun heq => ?_
    rcases same with same | large
    · exact ne (Char.toNat_inj.mp (same.symm.trans heq))
    · omega
  refine ⟨?_, other '"' (by decide) hq, other '\\' (by decide) hb⟩
  intro control
  have small : b.toNat < 32 := UInt8.lt_iff_toNat_lt.mp control
  omega

/-- Nor is one that stands for a plain character as a byte. -/
theorem IsPlain.narrow {c : Char} (h : IsPlain c) :
    ¬Utf8.narrow c < 32 ∧ is (Utf8.narrow c) '"' = false ∧ is (Utf8.narrow c) '\\' = false := by
  obtain ⟨above, quote, backslash⟩ := h
  by_cases small : c.toNat < 0x80
  · have bytes := IsPlain.bytes ⟨above, quote, backslash⟩ (ascii c)
    rw [narrow_ascii small]
    refine bytes ?_
    rw [utf8EncodeChar_eq, if_pos (by omega)]
    exact List.mem_singleton_self _
  · have large : 0x80 ≤ (Utf8.narrow c).toNat := by
      unfold Utf8.narrow
      split
      · next byte =>
          rw [ascii, toNat_ofNat_of_lt byte]
          omega
      · decide
    have other (d : Char) (small : d.toNat < 0x80) : is (Utf8.narrow c) d = false :=
      decide_eq_false (by omega)
    refine ⟨fun control => ?_, other '"' (by decide), other '\\' (by decide)⟩
    have below : (Utf8.narrow c).toNat < 32 := UInt8.lt_iff_toNat_lt.mp control
    omega

/-- Whether a byte is a character is seen on the character that it stands for. -/
theorem is_iff {b : UInt8} {c : Char} : is b c = true ↔ octet b = c := by
  rw [is, beq_iff_eq, ← toNat_octet]
  exact Char.toNat_inj

/-- A byte that is neither control, quote nor backslash is a plain character. -/
theorem isPlain_octet {b : UInt8}
    (h : ¬b < 32 ∧ is b '"' = false ∧ is b '\\' = false) : IsPlain (octet b) := by
  obtain ⟨control, quote, backslash⟩ := h
  refine ⟨?_, fun same => ?_, fun same => ?_⟩
  · rw [toNat_octet]
    exact Nat.not_lt.mp fun low => control (UInt8.lt_iff_toNat_lt.mpr low)
  · exact nomatch quote.symm.trans (is_iff.mpr same)
  · exact nomatch backslash.symm.trans (is_iff.mpr same)

/-- A character behind its first byte takes the bytes that are left of it. -/
theorem takes_readChar {c : Char} {b : UInt8} {bs : List UInt8}
    (h : ∀ rest, next b (bs ++ rest) = (some c, rest)) : (readChar b).Takes bs c := by
  intro rest place
  refine ⟨{ place with column := place.column + (c.utf8Size - 1) }, ?_⟩
  rw [readChar]
  dsimp only
  rw [h]

/-! ## Whole texts -/

/-- The characters of a text are read back one by one, up to the closing quote. -/
theorem takes_textChars {cs form : List Char} (h : CharsForm cs form) :
    ∀ fuel : List UInt8, cs.length < fuel.length →
      (textChars fuel).Takes (encode (form ++ ['"'])) cs := by
  induction h with
  | nil =>
      intro fuel hf
      cases fuel with
      | nil => exact absurd hf (Nat.not_lt_zero _)
      | cons _ fuel =>
          show (textChars (_ :: fuel)).Takes (encode ['"']) []
          rw [encode_ascii (by decide)]
          refine (takes_take (ascii '"')).bind (y := []) ?_
          dsimp only
          rw [if_pos (by decide)]
          exact takes_pure []
  | @cons c cs x y first _ ih =>
      intro fuel hf
      cases fuel with
      | nil => exact absurd hf (Nat.not_lt_zero _)
      | cons _ fuel =>
          have rest := ih fuel (Nat.lt_of_succ_lt_succ hf)
          -- whatever takes the first character off, the induction takes the others
          have tail {r : Reader Char} {bs : List UInt8} (hr : r.Takes bs c) :
              (r >>= fun c => textChars fuel >>= fun rest => pure (c :: rest)).Takes
                (bs ++ encode (y ++ ['"'])) (c :: cs) := by
            refine hr.bind ?_
            rw [← List.append_nil (encode _)]
            exact rest.bind (takes_pure (c :: cs))
          rw [List.append_assoc, encode_append]
          rcases first.cases with ⟨rfl, plain⟩ | ⟨es, rfl, reads⟩
          · obtain ⟨b, bs, hbytes, hnext⟩ := next_utf8EncodeChar c
            have mem : b ∈ String.utf8EncodeChar c := by
              rw [hbytes]
              exact List.mem_cons_self
            obtain ⟨control, quote, backslash⟩ := plain.bytes b mem
            rw [encode_cons, hbytes, show encode [] = [] from rfl, List.append_nil]
            refine (takes_take b).bind ?_
            dsimp only
            rw [quote, backslash, if_neg Bool.false_ne_true, if_neg control,
              if_neg Bool.false_ne_true]
            exact tail (takes_readChar hnext)
          · rw [encode_ascii (by decide)]
            refine (takes_take (ascii '\\')).bind ?_
            dsimp only
            rw [if_neg (by decide), if_neg (by decide), if_pos (by decide)]
            exact tail reads

/-- Every character is written as at least one. -/
theorem CharsForm.length_le {cs form : List Char} (h : CharsForm cs form) :
    cs.length ≤ form.length := by
  induction h with
  | nil => exact Nat.le_refl _
  | @cons c cs x y first _ ih =>
      have one : 1 ≤ x.length := by
        rcases first.cases with ⟨rfl, -⟩ | ⟨es, rfl, -⟩
        · exact Nat.le_refl _
        · exact Nat.le_add_left ..
      rw [List.length_append, List.length_cons]
      omega

/-- A text is read back from behind its opening quote. -/
theorem takes_readText {s : String} {body : List Char} (h : CharsForm s.toList body) :
    readText.Takes (encode (body ++ ['"'])) s := by
  intro rest place
  -- each character took at least one byte, so the bytes are fuel enough
  have fuel : s.toList.length < (encode (body ++ ['"']) ++ rest).length := by
    have chars := h.length_le
    have bytes := length_le_encode (body ++ ['"'])
    rw [List.length_append, List.length_singleton] at bytes
    rw [List.length_append]
    omega
  have read := (takes_textChars h _ fuel).bind
    (f := fun cs => (pure (String.ofList cs) : Reader String)) (takes_pure _)
  rw [List.append_nil, String.ofList_toList] at read
  exact read rest place

/-- A member's name is read from whatever spells it. -/
theorem takes_memberName {s : String} {cs : List Char} (h : TextForm s cs) :
    memberName.Takes (encode cs) s := by
  obtain ⟨body, form, rfl⟩ := h
  rw [encode_ascii (by decide)]
  exact (takes_skip _).bind (takes_readText form)

/-- A text is read back behind any white space, in whatever way it is written. -/
theorem takes_text {s : String} {ws cs : List Char} (space : IsSpacing ws) (h : TextForm s cs) :
    text.Takes (encode (ws ++ cs)) s := by
  obtain ⟨body, form, rfl⟩ := h
  intro rest place
  rw [encode_append, encode_ascii (by decide), List.append_assoc, List.cons_append, text,
    bind_of_ok _ (valueStart_spacing space (by decide) _ _), if_pos (by decide),
    bind_of_ok _ (skip_cons _ _ _)]
  exact takes_readText form rest _

/-! ## The compact form -/

theorem hexDigit?_hexDigit : ∀ n < 16, Numeral.hexDigit? (hexDigit n) = some n := by decide

/-- A control is written by its number where it has no letter. -/
theorem isHex_control {n : Nat} (h : n < 32) :
    IsHex n ['0', '0', hexDigit (n / 16), hexDigit (n % 16)] := by
  have zero : Numeral.hexDigit? '0' = some 0 := by decide
  have form := IsHex.digits zero zero (hexDigit?_hexDigit (n / 16) (by omega))
    (hexDigit?_hexDigit (n % 16) (by omega))
  rw [show ((0 * 16 + 0) * 16 + n / 16) * 16 + n % 16 = n by omega] at form
  exact form

theorem charForm_encodeChar (c : Char) : CharForm c (encodeChar c) := by
  unfold encodeChar
  split
  · exact .letter (by decide)
  · exact .letter (by decide)
  · exact .letter (by decide)
  · exact .letter (by decide)
  · exact .letter (by decide)
  · exact .letter (by decide)
  · exact .letter (by decide)
  · next hq hb _ _ _ _ _ =>
      by_cases control : c.toNat < 32
      · rw [if_pos control]
        exact .number (isHex_control control)
      · rw [if_neg control]
        exact .plain ⟨by omega, hq, hb⟩

/-- What is written between quotes is one way to write the text. -/
theorem textForm_encodeText (s : String) : TextForm s (encodeText s) := by
  have chars (cs : List Char) : CharsForm cs (cs.flatMap encodeChar) := by
    induction cs with
    | nil => exact .nil
    | cons c cs ih =>
        rw [List.flatMap_cons]
        exact .cons (charForm_encodeChar c) ih
  exact ⟨_, chars s.toList, rfl⟩

/-! ## Passing over texts -/

/-- A byte that is no control, quote or backslash is passed over. -/
theorem skipText_plain {b : UInt8} (plain : ¬b < 32 ∧ is b '"' = false ∧ is b '\\' = false)
    (fuel : List UInt8) (a : UInt8) (rest : List UInt8) (p : Place) :
    skipText (a :: fuel) ⟨b :: rest, p⟩ = skipText fuel ⟨rest, p.after b⟩ := by
  obtain ⟨control, quote, backslash⟩ := plain
  rw [skipText, bind_of_ok _ (peek_cons _ _ _)]
  dsimp only
  rw [if_neg control, bind_of_ok _ (skip_cons _ _ _), quote, backslash,
    if_neg Bool.false_ne_true, if_neg Bool.false_ne_true]

/-- Passing over an escape: its backslash, and what its mark asks for. -/
theorem skipText_escape (fuel : List UInt8) (a : UInt8) (rest : List UInt8) (p : Place) :
    skipText (a :: fuel) ⟨ascii '\\' :: rest, p⟩ = (do
      match ← Reader.take with
      | none => Reader.fail .endInText
      | some mark =>
        if is mark 'u' then
          let _ ← readHex
          skipText fuel
        else if (escaped? mark).isSome then skipText fuel
        else Reader.fail .badEscape) ⟨rest, p.after (ascii '\\')⟩ := by
  rw [skipText, bind_of_ok _ (peek_cons _ _ _)]
  dsimp only
  rw [if_neg (by decide), bind_of_ok _ (skip_cons _ _ _), if_neg (by decide)]
  exact congrFun (if_pos (by decide)) _

/-- An escape with one letter is passed over. -/
theorem skipText_letter {x c : Char} (escape : (x, c) ∈ letterEscapes) (fuel : List UInt8)
    (a : UInt8) (rest : List UInt8) (p : Place) :
    skipText (a :: fuel) ⟨ascii '\\' :: ascii x :: rest, p⟩
      = skipText fuel ⟨rest, (p.after (ascii '\\')).after (ascii x)⟩ := by
  obtain ⟨-, noNumber, found⟩ := letter_of_mem escape
  rw [skipText_escape, bind_of_ok _ (take_cons _ _ _)]
  dsimp only
  rw [noNumber, if_neg Bool.false_ne_true, found]
  rfl

/-- An escape with four digits is passed over. -/
theorem skipText_number {n : Nat} {hs : List Char} (hex : IsHex n hs) (fuel : List UInt8)
    (a : UInt8) (rest : List UInt8) (p : Place) :
    ∃ q, skipText (a :: fuel) ⟨ascii '\\' :: ascii 'u' :: (encode hs ++ rest), p⟩
      = skipText fuel ⟨rest, q⟩ := by
  obtain ⟨q, read⟩ := takes_readHex hex rest ((p.after (ascii '\\')).after (ascii 'u'))
  refine ⟨q, ?_⟩
  rw [skipText_escape, bind_of_ok _ (take_cons _ _ _)]
  dsimp only
  rw [if_pos (by decide), bind_of_ok _ read]

/-- Everything between quotes is passed over up to the closing quote, with one byte of fuel for
    each byte. -/
theorem takes_skipText {body : List Char} (h : IsTextBody body) : ∀ fuel : List UInt8,
    body.length < fuel.length → (skipText fuel).Takes (narrows (body ++ ['"'])) () := by
  -- on the fuel, with one case for each form of a character
  intro fuel
  induction fuel generalizing body with
  | nil => exact fun enough => absurd enough (Nat.not_lt_zero _)
  | cons a fuel ih =>
      intro enough rest place
      rw [List.length_cons] at enough
      cases h with
      | nil =>
          refine ⟨place.after (ascii '"'), ?_⟩
          rw [List.nil_append, narrows_ascii (by decide), List.cons_append, skipText,
            bind_of_ok _ (peek_cons _ _ _)]
          dsimp only
          rw [if_neg (by decide), bind_of_ok _ (skip_cons _ _ _), if_pos (by decide)]
          rfl
      | @plain c cs plain others =>
          obtain ⟨p, hp⟩ := ih others (Nat.lt_of_succ_lt_succ enough) rest (place.after (narrow c))
          refine ⟨p, ?_⟩
          show skipText (a :: fuel) ⟨narrow c :: (narrows (cs ++ ['"']) ++ rest), place⟩ = _
          rw [skipText_plain plain.narrow]
          exact hp
      | @letter x c cs escape others =>
          rw [List.length_cons, List.length_cons] at enough
          obtain ⟨p, hp⟩ := ih others (by omega) rest
            ((place.after (ascii '\\')).after (ascii x))
          refine ⟨p, ?_⟩
          rw [List.cons_append, List.cons_append, narrows_ascii (by decide),
            narrows_ascii (letter_of_mem escape).1, List.cons_append, List.cons_append,
            skipText_letter escape]
          exact hp
      | @number n hs cs hex others =>
          rw [List.length_cons, List.length_cons, List.length_append] at enough
          obtain ⟨p, hp⟩ := skipText_number hex fuel a (narrows (cs ++ ['"']) ++ rest) place
          obtain ⟨q, hq⟩ := ih others (by omega) rest p
          refine ⟨q, ?_⟩
          rw [List.cons_append, List.cons_append, List.append_assoc, narrows_ascii (by decide),
            narrows_ascii (by decide), narrows_append, narrows_eq_encode hex.small,
            List.cons_append, List.cons_append, List.append_assoc, hp]
          exact hq

end Courier.Json
