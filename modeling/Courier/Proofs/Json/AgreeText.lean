import Courier.Proofs.Json.Agree
import Courier.Proofs.Json.Sound

/-! # Two runs over texts — where a text may end

    The bytes ahead are the same up to a member's name and the colon behind
    it.  A text that is open somewhere before the name ends before the quote
    that opens the name, at that quote, or, where that quote is escaped and
    part of the text, at the one that closes the name.  It ends nowhere else,
    and in the last case it ends in the name. -/

namespace Courier.Json

open Utf8 Reader

variable {α : Type} {F : Cursor → Cursor → Prop}

/-! ## Escapes and characters -/

/-- The first bytes of both texts have the same line breaks. -/
theorem SameLines.take {s t : List UInt8} (h : SameLines s t) (n : Nat) :
    SameLines (s.take n) (t.take n) := by
  rw [SameLines, List.map_take, List.map_take, h]

/-- Where one of the next four bytes is no digit, there is no number. -/
theorem readHex_of_none {bs : List UInt8} (h : ∃ b ∈ bs.take 4, hexValue? b = none) (p : Place) :
    readHex ⟨bs, p⟩ = Reader.fail (if bs.length < 4 then .endInText else .badEscape)
      ⟨bs.drop 4, (bs.take 4).foldl Place.after p⟩ := by
  obtain ⟨x, mem, noDigit⟩ := h
  -- fewer than four bytes end the text; of four, one is no digit
  rcases bs with _ | ⟨a, _ | ⟨b, _ | ⟨c, _ | ⟨d, bs⟩⟩⟩⟩
  · rfl
  · rfl
  · rfl
  · rfl
  · rw [if_neg (by simp)]
    rw [readHex]
    dsimp only
    split
    · next first second third fourth =>
        simp only [List.take_succ_cons, List.take_zero, List.mem_cons, List.not_mem_nil,
          or_false] at mem
        rcases mem with rfl | rfl | rfl | rfl
        · exact absurd (first.symm.trans noDigit) (Option.some_ne_none _)
        · exact absurd (second.symm.trans noDigit) (Option.some_ne_none _)
        · exact absurd (third.symm.trans noDigit) (Option.some_ne_none _)
        · exact absurd (fourth.symm.trans noDigit) (Option.some_ne_none _)
    · rfl

theorem steady_readHex : readHex.Steady := by
  intro F s t same x p
  -- the quote is no digit, so where it is among the four both runs fail
  by_cases inside : 4 ≤ x.length
  · rcases x with _ | ⟨a, _ | ⟨b, _ | ⟨c, _ | ⟨d, x⟩⟩⟩⟩
    · exact absurd inside (by decide)
    · exact absurd inside (by simp)
    · exact absurd inside (by simp)
    · exact absurd inside (by simp)
    · simp only [List.cons_append, readHex]
      split
      · exact .ok ⟨rfl, x, _, rfl, rfl⟩
      · exact .fail _ rfl
  · have noDigit (s : List UInt8) : ∃ b ∈ (x ++ quote :: s).take 4, hexValue? b = none := by
      refine ⟨quote, ?_, by decide⟩
      rw [List.take_append, List.mem_append]
      refine Or.inr ?_
      obtain ⟨n, some⟩ : ∃ n, 4 - x.length = n + 1 := ⟨3 - x.length, by omega⟩
      rw [some, List.take_succ_cons]
      exact List.mem_cons_self
    have whole : SameLines (x ++ quote :: s) (x ++ quote :: t) := (same.front [quote]).front x
    rw [readHex_of_none (noDigit s), readHex_of_none (noDigit t), whole.length]
    exact .fail _ ((whole.take 4).foldl_after p)

theorem steady_pairByte {c : Char} (h : c ≠ '"') : (pairByte c).Steady := by
  intro F s t same x p
  cases x with
  | nil =>
      have other : is quote c = false := is_ascii_of_ne (by decide) h.symm
      have fails (s : List UInt8) : pairByte c ⟨quote :: s, p⟩
          = Reader.fail .halfSurrogate ⟨s, p.after quote⟩ := by
        rw [pairByte, bind_of_ok _ (peek_cons _ _ _)]
        dsimp only
        rw [bind_of_ok _ (skip_cons _ _ _), other, if_neg Bool.false_ne_true]
      rw [List.nil_append, List.nil_append, fails, fails]
      exact .fail _ rfl
  | cons b x =>
      show Agree F _ ((if is b c then pure () else Reader.fail .halfSurrogate) ⟨x ++ quote :: s, _⟩)
        ((if is b c then pure () else Reader.fail .halfSurrogate) ⟨x ++ quote :: t, _⟩)
      split
      · exact steady_pure () F s t same x _
      · exact steady_fail _ F s t same x _

theorem steady_readNumbered : readNumbered.Steady := by
  refine steady_readHex.bind fun n => ?_
  split
  · exact steady_fail _
  · split
    · exact steady_pure _
    · refine (steady_pairByte (by decide)).bind fun _ => ?_
      refine (steady_pairByte (by decide)).bind fun _ => ?_
      refine steady_readHex.bind fun m => ?_
      split
      · exact steady_pure _
      · exact steady_fail _

/-- An escape ends before the quote, unless it is the quote that is escaped. -/
theorem agree_readEscape {s t : List UInt8} (same : SameLines s t) (x : List UInt8) (p : Place) :
    Agree F (fun a b c d => a = b ∧ (Beside s t c d ∨ (a = '"' ∧ Before s t c d)))
      (readEscape ⟨x ++ quote :: s, p⟩) (readEscape ⟨x ++ quote :: t, p⟩) := by
  cases x with
  | nil => exact .ok ⟨rfl, Or.inr ⟨rfl, _, rfl, rfl⟩⟩
  | cons mark x =>
      have before {r : Reader Char} (steady : r.Steady) : Agree F
          (fun a b c d => a = b ∧ (Beside s t c d ∨ (a = '"' ∧ Before s t c d)))
          (r ⟨x ++ quote :: s, p.after mark⟩) (r ⟨x ++ quote :: t, p.after mark⟩) :=
        (steady F s t same x _).mono fun _ _ _ _ h => ⟨h.1, Or.inl h.2⟩
      rw [List.cons_append, List.cons_append, readEscape, bind_of_ok _ (take_cons _ _ _),
        bind_of_ok _ (take_cons _ _ _)]
      dsimp only
      split
      · exact before steady_readNumbered
      · cases escaped? mark with
        | none => exact before (steady_fail _)
        | some c => exact before (steady_pure c)

theorem steady_readChar (b : UInt8) : (readChar b).Steady := by
  intro F s t same x p
  rw [readChar, readChar]
  dsimp only
  rw [next_append (by decide), next_append (by decide)]
  cases (next b x).1 with
  | none => exact .fail _ rfl
  | some c => exact .ok ⟨rfl, _, _, rfl, rfl⟩

/-! ## Reading a text -/

/-- The fuel of a text is how many bytes it has, whatever they are. -/
theorem textChars_congr {fuel fuel' : List UInt8} (h : fuel.length = fuel'.length) :
    textChars fuel = textChars fuel' := by
  induction fuel generalizing fuel' with
  | nil => rw [List.eq_nil_of_length_eq_zero h.symm]
  | cons a fuel ih =>
      cases fuel' with
      | nil => exact nomatch h
      | cons a' fuel' => rw [textChars, textChars, ih (Nat.succ.inj h)]

/-- What takes its bytes in both runs comes to the same place, where the runs agree. -/
theorem both_of_takes {r : Reader α} {bs : List UInt8} {a : α} (takes : r.Takes bs a)
    {Q : α → α → Cursor → Cursor → Prop} {s t : List UInt8} {p : Place}
    (agree : Agree F Q (r ⟨bs ++ s, p⟩) (r ⟨bs ++ t, p⟩))
    (places : ∀ a b c d, Q a b c d → c.place = d.place) :
    ∃ q, r ⟨bs ++ s, p⟩ = (.ok a, ⟨s, q⟩) ∧ r ⟨bs ++ t, p⟩ = (.ok a, ⟨t, q⟩) := by
  obtain ⟨q, left⟩ := takes s p
  obtain ⟨q', right⟩ := takes t p
  rw [left, right] at agree
  cases agree with
  | ok h =>
      obtain rfl : q = q' := places _ _ _ _ h
      exact ⟨q, left, right⟩

/-- One round: the closing quote, a control, or a character and the rest of the text. -/
theorem textChars_cons (a : UInt8) (fuel : List UInt8) (b : UInt8) (rest : List UInt8) (p : Place) :
    textChars (a :: fuel) ⟨b :: rest, p⟩ = (if is b '"' then pure []
      else if b < 32 then Reader.fail .controlInText
      else do
        let c ← if is b '\\' then readEscape else readChar b
        let others ← textChars fuel
        pure (c :: others) : Reader (List Char)) ⟨rest, p.after b⟩ := by
  rw [textChars, bind_of_ok _ (take_cons _ _ _)]

section Texts

variable {name form : List Char} {s t : List UInt8}

/-- The name is still ahead, with or without its opening quote. -/
def NameAhead (form : List Char) (s t : List UInt8) (c d : Cursor) : Prop :=
  Beside (encode form ++ quote :: s) (encode form ++ quote :: t) c d ∨
    Before (encode form ++ quote :: s) (encode form ++ quote :: t) c d

/-- Equally many bytes are left in both runs where the name is ahead. -/
theorem NameAhead.length {c d : Cursor} (same : SameLines s t) (h : NameAhead form s t c d) :
    c.rest.length = d.rest.length := by
  rcases h with ⟨x, p, rfl, rfl⟩ | ⟨p, rfl, rfl⟩
  · simp [same.length]
  · simp [same.length]

/-- Where a text has ended: with the name still ahead, or behind the name and in it. -/
def TextEnds (name form : List Char) (s t : List UInt8) (xs : List Char) (c d : Cursor) : Prop :=
  NameAhead form s t c d ∨ (Before s t c d ∧ name <:+ xs)

/-- One more character in front of what was read leaves the runs where they are. -/
theorem TextEnds.cons {xs : List Char} {c d : Cursor} (h : TextEnds name form s t xs c d)
    (x : Char) : TextEnds name form s t (x :: xs) c d :=
  h.imp id fun ⟨ends, tail⟩ => ⟨ends, tail.trans (List.suffix_cons x xs)⟩

/-- The first character of a name is read in both runs, plain or escaped, and the others behind
    it. -/
theorem agree_textChars_first {c : Char} {x y : List Char} (first : CharForm c x)
    (same : SameLines s t) (a : UInt8) (fuel : List UInt8) (p : Place)
    {Q : List Char → List Char → Cursor → Cursor → Prop}
    (others : ∀ q, Agree F (fun xs ys => Q (c :: xs) (c :: ys))
      (textChars fuel ⟨encode y ++ quote :: s, q⟩) (textChars fuel ⟨encode y ++ quote :: t, q⟩)) :
    Agree F Q (textChars (a :: fuel) ⟨encode (x ++ y) ++ quote :: s, p⟩)
      (textChars (a :: fuel) ⟨encode (x ++ y) ++ quote :: t, p⟩) := by
  -- whatever takes the character, comes to the same place in both runs
  have tail {r : Reader Char} {c₁ c₂ : Cursor} {q : Place}
      (left : r c₁ = (.ok c, ⟨encode y ++ quote :: s, q⟩))
      (right : r c₂ = (.ok c, ⟨encode y ++ quote :: t, q⟩)) :
      Agree F Q ((r >>= fun c => textChars fuel >>= fun others => pure (c :: others)) c₁)
        ((r >>= fun c => textChars fuel >>= fun others => pure (c :: others)) c₂) := by
    rw [bind_of_ok _ left, bind_of_ok _ right]
    exact (others q).bind fun _ _ _ _ h => .ok h
  rcases first.cases with ⟨rfl, plain⟩ | ⟨es, rfl, reads⟩
  · obtain ⟨b, bs, bytes, next⟩ := next_utf8EncodeChar c
    have mem : b ∈ String.utf8EncodeChar c := by
      rw [bytes]
      exact List.mem_cons_self
    obtain ⟨control, noQuote, noSlash⟩ := plain.bytes b mem
    have agree : Agree F (Level s t) (readChar b ⟨bs ++ (encode y ++ quote :: s), p.after b⟩)
        (readChar b ⟨bs ++ (encode y ++ quote :: t), p.after b⟩) := by
      rw [← List.append_assoc, ← List.append_assoc]
      exact steady_readChar b F s t same _ _
    obtain ⟨q, left, right⟩ :=
      both_of_takes (takes_readChar next) agree fun _ _ _ _ h => h.2.place
    have bytes : encode ([c] ++ y) = b :: (bs ++ encode y) := by
      rw [List.singleton_append, encode_cons, bytes, List.cons_append]
    rw [bytes, List.cons_append, List.cons_append, List.append_assoc, List.append_assoc,
      textChars_cons, textChars_cons, noQuote, noSlash]
    simp only [if_neg control, Bool.false_eq_true, if_false]
    exact tail left right
  · have agree : Agree F (fun _ _ c d => c.place = d.place)
        (readEscape ⟨encode es ++ (encode y ++ quote :: s), p.after (ascii '\\')⟩)
        (readEscape ⟨encode es ++ (encode y ++ quote :: t), p.after (ascii '\\')⟩) := by
      rw [← List.append_assoc, ← List.append_assoc]
      refine (agree_readEscape same _ _).mono fun _ _ _ _ h => ?_
      exact h.2.elim Beside.place fun h => h.2.place
    obtain ⟨q, left, right⟩ := both_of_takes reads agree fun _ _ _ _ h => h
    have bytes : encode ('\\' :: es ++ y) = ascii '\\' :: (encode es ++ encode y) := by
      rw [List.cons_append, encode_ascii (by decide), encode_append]
    rw [bytes, List.cons_append, List.cons_append, List.append_assoc, List.append_assoc,
      textChars_cons, textChars_cons, show is (ascii '\\') '"' = false by decide,
      show is (ascii '\\') '\\' = true by decide]
    simp only [show ¬ascii '\\' < 32 by decide, Bool.false_eq_true, if_false, if_true]
    exact tail left right

/-- The name is read in both runs, unless the fuel runs out. -/
theorem agree_textChars_name (spelled : CharsForm name form) (same : SameLines s t) :
    ∀ (fuel : List UInt8) (p : Place),
      Agree F (fun xs ys c d => xs = name ∧ ys = name ∧ Before s t c d)
        (textChars fuel ⟨encode form ++ quote :: s, p⟩)
        (textChars fuel ⟨encode form ++ quote :: t, p⟩) := by
  induction spelled with
  | nil =>
      intro fuel p
      cases fuel with
      | nil => exact .fail _ rfl
      | cons a fuel => exact .ok ⟨rfl, rfl, _, rfl, rfl⟩
  | cons first _ ih =>
      intro fuel p
      cases fuel with
      | nil => exact .fail _ rfl
      | cons a fuel =>
          refine agree_textChars_first first same a fuel p fun q => (ih fuel q).mono ?_
          rintro _ _ _ _ ⟨rfl, rfl, ends⟩
          exact ⟨rfl, rfl, ends⟩

/-- **WHERE TEXTS END**: a text that is open before the name is read alike in both runs, and ends
    before the name or with it. -/
theorem agree_textChars (spelled : CharsForm name form) (same : SameLines s t) :
    ∀ (fuel x : List UInt8) (p : Place),
      Agree F (fun xs ys c d => xs = ys ∧ TextEnds name form s t xs c d)
        (textChars fuel ⟨x ++ quote :: (encode form ++ quote :: s), p⟩)
        (textChars fuel ⟨x ++ quote :: (encode form ++ quote :: t), p⟩) := by
  have behind : SameLines (encode form ++ quote :: s) (encode form ++ quote :: t) :=
    (same.front [quote]).front (encode form)
  -- on the fuel, one character a round; the first quote ends the text unless it is escaped
  intro fuel
  induction fuel with
  | nil => exact fun _ _ => .fail _ rfl
  | cons a fuel ih =>
      intro x p
      have others {c : Char} {c₁ c₂ : Cursor}
          (h : Agree F (fun xs ys c d => xs = ys ∧ TextEnds name form s t xs c d)
            (textChars fuel c₁) (textChars fuel c₂)) :
          Agree F (fun xs ys c d => xs = ys ∧ TextEnds name form s t xs c d)
            ((textChars fuel >>= fun others => pure (c :: others)) c₁)
            ((textChars fuel >>= fun others => pure (c :: others)) c₂) := by
        refine h.bind ?_
        rintro xs _ _ _ ⟨rfl, ends⟩
        exact .ok ⟨rfl, ends.cons c⟩
      cases x with
      | nil => exact .ok ⟨rfl, Or.inl (Or.inr ⟨_, rfl, rfl⟩)⟩
      | cons b x =>
          rw [List.cons_append, List.cons_append, textChars_cons, textChars_cons]
          split
          · exact .ok ⟨rfl, Or.inl (Or.inl ⟨x, _, rfl, rfl⟩)⟩
          split
          · exact .fail _ rfl
          split
          · refine (agree_readEscape behind x _).bind ?_
            rintro c _ _ _ ⟨rfl, ⟨y, q, rfl, rfl⟩ | ⟨-, q, rfl, rfl⟩⟩
            · exact others (ih y q)
            · -- the quote is escaped, so the text goes on with the name
              refine others ((agree_textChars_name spelled same fuel q).mono ?_)
              rintro xs ys d e ⟨rfl, rfl, ends⟩
              exact ⟨rfl, Or.inr ⟨ends, List.suffix_refl _⟩⟩
          · refine (steady_readChar b F _ _ behind x _).bind ?_
            rintro c _ _ _ ⟨rfl, y, q, rfl, rfl⟩
            exact others (ih y q)

/-- A string is read alike, be it the member's name or one before it. -/
theorem agree_readText (spelled : CharsForm name form) (same : SameLines s t) {c d : Cursor}
    (h : NameAhead form s t c d) :
    Agree F (fun a b c d => a = b ∧ TextEnds name form s t a.toList c d)
      (readText c) (readText d) := by
  have chars : Agree F (fun xs ys c d => xs = ys ∧ TextEnds name form s t xs c d)
      (textChars c.rest c) (textChars d.rest d) := by
    rw [textChars_congr (h.length same)]
    rcases h with ⟨x, p, rfl, rfl⟩ | ⟨p, rfl, rfl⟩
    · exact agree_textChars spelled same _ x p
    · refine (agree_textChars_name spelled same _ p).mono ?_
      rintro xs ys d e ⟨rfl, rfl, ends⟩
      exact ⟨rfl, Or.inr ⟨ends, List.suffix_refl _⟩⟩
  show Agree F _ ((textChars c.rest >>= fun cs => pure (String.ofList cs)) c)
    ((textChars d.rest >>= fun cs => pure (String.ofList cs)) d)
  refine chars.bind ?_
  rintro xs _ _ _ ⟨rfl, ends⟩
  exact .ok ⟨rfl, by rwa [String.toList_ofList]⟩

/-! ## Passing over a text -/

/-- What is written for characters may stand between quotes. -/
theorem CharsForm.isTextBody (h : CharsForm name form) : IsTextBody form := by
  induction h with
  | nil => exact .nil
  | cons first _ ih =>
      cases first with
      | plain plain => exact .plain plain ih
      | letter escape => exact .letter escape ih
      | number hex => exact .number hex ih
      | pair upper lower =>
          have body := IsTextBody.number upper (.number lower ih)
          simpa only [List.cons_append, List.append_assoc] using body

/-- One round: a control, the closing quote, an escape, or a byte that is passed over. -/
theorem skipText_cons (a : UInt8) (fuel : List UInt8) (b : UInt8) (rest : List UInt8) (p : Place) :
    skipText (a :: fuel) ⟨b :: rest, p⟩ =
      if b < 32 then Reader.fail .controlInText ⟨b :: rest, p⟩
      else (if is b '"' then pure ()
        else if is b '\\' then do
          match ← Reader.take with
          | none => Reader.fail .endInText
          | some mark =>
            if is mark 'u' then
              let _ ← readHex
              skipText fuel
            else if (escaped? mark).isSome then skipText fuel
            else Reader.fail .badEscape
        else skipText fuel : Reader Unit) ⟨rest, p.after b⟩ := by
  rw [skipText, bind_of_ok _ (peek_cons _ _ _)]
  dsimp only
  split
  · rfl
  · exact bind_of_ok _ (skip_cons _ _ _)

/-- The fuel of a text that is passed over is how many bytes it has, whatever they are. -/
theorem skipText_congr {fuel fuel' : List UInt8} (h : fuel.length = fuel'.length) :
    skipText fuel = skipText fuel' := by
  induction fuel generalizing fuel' with
  | nil => rw [List.eq_nil_of_length_eq_zero h.symm]
  | cons a fuel ih =>
      cases fuel' with
      | nil => exact nomatch h
      | cons a' fuel' => rw [skipText, skipText, ih (Nat.succ.inj h)]

/-- A body is passed over in both runs, unless the fuel runs out. -/
theorem agree_skipText_body {body : List Char} (h : IsTextBody body) (same : SameLines s t) :
    ∀ (fuel : List UInt8) (p : Place),
      Agree F (fun _ _ c d => Before s t c d)
        (skipText fuel ⟨narrows body ++ quote :: s, p⟩)
        (skipText fuel ⟨narrows body ++ quote :: t, p⟩) := by
  -- on the fuel, with one case for each form of a character
  intro fuel
  induction fuel generalizing body with
  | nil => exact fun _ => .fail _ rfl
  | cons a fuel ih =>
      intro p
      cases h with
      | nil => exact .ok ⟨_, rfl, rfl⟩
      | @plain c cs plain rest =>
          show Agree F _ (skipText (a :: fuel) ⟨narrow c :: (narrows cs ++ quote :: s), p⟩)
            (skipText (a :: fuel) ⟨narrow c :: (narrows cs ++ quote :: t), p⟩)
          rw [skipText_plain plain.narrow, skipText_plain plain.narrow]
          exact ih rest _
      | @letter x c cs escape rest =>
          rw [narrows_ascii (by decide), narrows_ascii (letter_of_mem escape).1]
          simp only [List.cons_append, skipText_letter escape]
          exact ih rest _
      | @number n hs cs hex rest =>
          have agree : Agree F (Level s t)
              (readHex ⟨encode hs ++ (narrows cs ++ quote :: s),
                (p.after (ascii '\\')).after (ascii 'u')⟩)
              (readHex ⟨encode hs ++ (narrows cs ++ quote :: t),
                (p.after (ascii '\\')).after (ascii 'u')⟩) := by
            rw [← List.append_assoc, ← List.append_assoc]
            exact steady_readHex F s t same _ _
          obtain ⟨q, left, right⟩ :=
            both_of_takes (takes_readHex hex) agree fun _ _ _ _ h => h.2.place
          rw [narrows_ascii (by decide), narrows_ascii (by decide), narrows_append,
            narrows_eq_encode hex.small]
          simp only [List.cons_append, List.append_assoc, skipText_escape]
          rw [bind_of_ok _ (take_cons _ _ _), bind_of_ok _ (take_cons _ _ _)]
          dsimp only
          rw [if_pos (by decide), bind_of_ok _ left, bind_of_ok _ right]
          exact ih rest q

/-- The member's name is passed over alike, and ends before the two texts. -/
theorem agree_skipText_name (spelled : CharsForm name form) (same : SameLines s t)
    (fuel : List UInt8) (p : Place) :
    Agree F (fun _ _ c d => Before s t c d) (skipText fuel ⟨encode form ++ quote :: s, p⟩)
      (skipText fuel ⟨encode form ++ quote :: t, p⟩) := by
  have bytes : encode form = narrows (widened form) := (narrows_octets _).symm
  rw [bytes]
  exact agree_skipText_body spelled.isTextBody.widened same fuel p

/-- Behind a text that was passed over, the name is ahead or was its end. -/
def Behind (form : List Char) (s t : List UInt8) (c d : Cursor) : Prop :=
  NameAhead form s t c d ∨ Before s t c d

/-- Runs behind a string that was read stand behind it as for any text. -/
theorem TextEnds.behind {xs : List Char} {c d : Cursor} (h : TextEnds name form s t xs c d) :
    Behind form s t c d := h.imp id And.left

/-- A text that is passed over ends in the same places. -/
theorem agree_skipText (spelled : CharsForm name form) (same : SameLines s t) :
    ∀ (fuel x : List UInt8) (p : Place),
      Agree F (fun _ _ c d => Behind form s t c d)
        (skipText fuel ⟨x ++ quote :: (encode form ++ quote :: s), p⟩)
        (skipText fuel ⟨x ++ quote :: (encode form ++ quote :: t), p⟩) := by
  have behind : SameLines (encode form ++ quote :: s) (encode form ++ quote :: t) :=
    (same.front [quote]).front (encode form)
  intro fuel
  induction fuel with
  | nil => exact fun _ _ => .fail _ rfl
  | cons a fuel ih =>
      intro x p
      cases x with
      | nil => exact .ok (Or.inl (Or.inr ⟨_, rfl, rfl⟩))
      | cons b x =>
          rw [List.cons_append, List.cons_append, skipText_cons, skipText_cons]
          split
          · exact .fail _ rfl
          split
          · exact .ok (Or.inl (Or.inl ⟨x, _, rfl, rfl⟩))
          split
          · cases x with
            | nil =>
                -- the quote is escaped, so the text goes on with the name
                exact (agree_skipText_name spelled same fuel _).mono
                  fun _ _ _ _ ends => Or.inr ends
            | cons mark x =>
                show Agree F _ ((if is mark 'u' then readHex >>= fun _ => skipText fuel
                    else if (escaped? mark).isSome then skipText fuel
                    else Reader.fail .badEscape) ⟨x ++ quote :: _, _⟩)
                  ((if is mark 'u' then readHex >>= fun _ => skipText fuel
                    else if (escaped? mark).isSome then skipText fuel
                    else Reader.fail .badEscape) ⟨x ++ quote :: _, _⟩)
                split
                · refine (steady_readHex F _ _ behind x _).bind ?_
                  rintro _ _ _ _ ⟨-, y, q, rfl, rfl⟩
                  exact ih y q
                split
                · exact ih x _
                · exact .fail _ rfl
          · exact ih x _

/-- A string is passed over alike, be it the member's name or one before it. -/
theorem agree_skipText_ahead (spelled : CharsForm name form) (same : SameLines s t) {c d : Cursor}
    (h : NameAhead form s t c d) :
    Agree F (fun _ _ c d => Behind form s t c d) ((do skipText (← Reader.ahead)) c)
      ((do skipText (← Reader.ahead)) d) := by
  show Agree F _ (skipText c.rest c) (skipText d.rest d)
  rw [skipText_congr (h.length same)]
  rcases h with ⟨x, p, rfl, rfl⟩ | ⟨p, rfl, rfl⟩
  · exact agree_skipText spelled same _ x p
  · exact (agree_skipText_name spelled same _ p).mono fun _ _ _ _ ends => Or.inr ends

end Texts

end Courier.Json
