import Courier.Proofs.Json.AgreeText
import Courier.Proofs.Json.Bracket

/-! # Two runs over one member — texts that differ in one string

    Two texts are the same but for the string that one member holds.  Until
    the name of that member has been read the runs are alike, byte by byte.
    Behind it stands a colon, so whoever does not look for one fails in both
    runs; whoever does comes to the string, and has it in one piece.  From
    there on the runs are at the same place of the same bytes. -/

namespace Courier.Json

open Utf8 Reader

variable {α β : Type} {F : Cursor → Cursor → Prop}

/-! ## The byte ahead -/

/-- Behind white space `y` is ahead in both runs: a byte before the quote, or the quote. -/
def Facing (s t : List UInt8) (y : UInt8) (c d : Cursor) : Prop :=
  ∃ q, (∃ x, c = ⟨y :: (x ++ quote :: s), q⟩ ∧ d = ⟨y :: (x ++ quote :: t), q⟩) ∨
    (y = quote ∧ c = ⟨quote :: s, q⟩ ∧ d = ⟨quote :: t, q⟩)

namespace Facing

variable {s t : List UInt8} {y : UInt8} {c d : Cursor}

theorem beside (h : Facing s t y c d) : Beside s t c d := by
  obtain ⟨q, ⟨x, rfl, rfl⟩ | ⟨rfl, rfl, rfl⟩⟩ := h
  · exact ⟨y :: x, q, rfl, rfl⟩
  · exact ⟨[], q, rfl, rfl⟩

theorem peek (h : Facing s t y c d) : c.peek? = some y ∧ d.peek? = some y := by
  obtain ⟨q, ⟨x, rfl, rfl⟩ | ⟨rfl, rfl, rfl⟩⟩ := h
  · exact ⟨rfl, rfl⟩
  · exact ⟨rfl, rfl⟩

theorem skip (h : Facing s t y c d) (other : is y '"' = false) : Beside s t c.skip d.skip := by
  obtain ⟨q, ⟨x, rfl, rfl⟩ | ⟨rfl, rfl, rfl⟩⟩ := h
  · exact ⟨x, q.after y, rfl, rfl⟩
  · exact nomatch other

theorem skip_quote (h : Facing s t y c d) :
    Beside s t c.skip d.skip ∨ Before s t c.skip d.skip := by
  obtain ⟨q, ⟨x, rfl, rfl⟩ | ⟨rfl, rfl, rfl⟩⟩ := h
  · exact Or.inl ⟨x, q.after y, rfl, rfl⟩
  · exact Or.inr ⟨q.after quote, rfl, rfl⟩

theorem place (h : Facing s t y c d) : c.skip.place = d.skip.place := h.beside.skip_place

end Facing

/-- A byte that is one character is no other. -/
theorem is_other {b : UInt8} {c c' : Char} (h : is b c = true) (ne : c ≠ c') :
    is b c' = false :=
  Bool.eq_false_iff.mpr fun same => ne ((is_iff.mp h).symm.trans (is_iff.mp same))

/-- White space is passed over alike. -/
theorem peekToken_beside {s t : List UInt8} {c d : Cursor} (h : Beside s t c d) :
    ∃ y c' d', peekToken c = (.ok (some y), c') ∧ peekToken d = (.ok (some y), d') ∧
      Facing s t y c' d' := by
  obtain ⟨x, p, rfl, rfl⟩ := h
  obtain ⟨taken, left⟩ := takeWhile_quote (show isSpace quote = false by decide) x s
  obtain ⟨taken', left'⟩ := takeWhile_quote (show isSpace quote = false by decide) x t
  have passed (s' : List UInt8) (rest : List UInt8) (taken : (x ++ quote :: s').takeWhile isSpace
        = x.takeWhile isSpace) (left : (x ++ quote :: s').dropWhile isSpace = rest) :
      peekToken ⟨x ++ quote :: s', p⟩
        = (.ok rest.head?, ⟨rest, (x.takeWhile isSpace).foldl Place.after p⟩) := by
    rw [← left, ← taken]
    rfl
  -- either all that is left is white space, up to the quote, or a byte is ahead of it
  cases rest : x.dropWhile isSpace with
  | nil =>
      rw [rest] at left left'
      exact ⟨quote, _, _, passed s _ taken left, passed t _ taken' left', _,
        Or.inr ⟨rfl, rfl, rfl⟩⟩
  | cons y x' =>
      rw [rest] at left left'
      exact ⟨y, _, _, passed s _ taken left, passed t _ taken' left', _,
        Or.inl ⟨x', rfl, rfl⟩⟩

/-- What looks for the byte behind white space may go by it. -/
theorem agree_peekToken {s t : List UInt8} {c d : Cursor} (h : Beside s t c d)
    {f f' : Option UInt8 → Reader α} {Q : α → α → Cursor → Cursor → Prop}
    (next : ∀ y c d, Facing s t y c d → Agree F Q (f (some y) c) (f' (some y) d)) :
    Agree F Q ((peekToken >>= f) c) ((peekToken >>= f') d) := by
  obtain ⟨y, c', d', left, right, facing⟩ := peekToken_beside h
  rw [bind_of_ok _ left, bind_of_ok _ right]
  exact next y c' d' facing

/-- A value starts with the byte that is ahead behind white space. -/
theorem valueStart_of_peekToken {c c' : Cursor} {b : UInt8} (h : peekToken c = (.ok (some b), c')) :
    valueStart c = (.ok b, c') := by
  rw [valueStart, bind_of_ok _ h]
  rfl

/-- What follows the start of a value agrees where it agrees for every byte that may be ahead. -/
theorem agree_valueStart {s t : List UInt8} {c d : Cursor} (h : Beside s t c d)
    {f f' : UInt8 → Reader α} {Q : α → α → Cursor → Cursor → Prop}
    (next : ∀ y c d, Facing s t y c d → Agree F Q (f y c) (f' y d)) :
    Agree F Q ((valueStart >>= f) c) ((valueStart >>= f') d) := by
  obtain ⟨y, c', d', left, right, facing⟩ := peekToken_beside h
  rw [bind_of_ok _ (valueStart_of_peekToken left), bind_of_ok _ (valueStart_of_peekToken right)]
  exact next y c' d' facing

/-! ## The member -/

/-- Two texts from the quote of a member's name on, the same but for the string that the member
    holds: how the name and the colon are written, both strings, and what follows them. -/
structure Varied where
  name : List Char
  form : List Char
  spelled : CharsForm name form
  begins : ∃ x xs, name = x :: xs ∧ x.isAlphanum = true
  gap : List Char
  gap' : List Char
  space : IsSpacing gap ∧ IsSpacing gap'
  first : List Char
  second : List Char
  plain : ∀ c ∈ first ++ second, c.isAlphanum = true
  fits : first.length = second.length
  rest : List UInt8

namespace Varied

variable (w : Varied)

/-- From the string on, without its opening quote. -/
def held (text : List Char) : List UInt8 := encode text ++ quote :: w.rest

/-- From behind the colon on. -/
def value (text : List Char) : List UInt8 := encode w.gap' ++ quote :: w.held text

/-- From behind the name on. -/
def tail (text : List Char) : List UInt8 := encode w.gap ++ ascii ':' :: w.value text

/-- From the name on, without its opening quote. -/
def ending (text : List Char) : List UInt8 := encode w.form ++ quote :: w.tail text

/-- The code points of letters and digits, among which the backslash is not. -/
theorem range_of_isAlphanum {c : Char} (h : c.isAlphanum = true) :
    48 ≤ c.toNat ∧ c.toNat < 123 ∧ c.toNat ≠ 92 := by
  have span {a b : UInt32} (within : (decide (a ≤ c.val) && decide (c.val ≤ b)) = true) :
      a.toNat ≤ c.toNat ∧ c.toNat ≤ b.toNat := by
    obtain ⟨below, above⟩ := Bool.and_eq_true _ _ ▸ within
    exact ⟨UInt32.le_iff_toNat_le.mp (of_decide_eq_true below),
      UInt32.le_iff_toNat_le.mp (of_decide_eq_true above)⟩
  change ((decide (65 ≤ c.val ∧ c.val ≤ 90) ||
    decide (97 ≤ c.val) && decide (c.val ≤ 122)) ||
    decide (48 ≤ c.val) && decide (c.val ≤ 57)) = true at h
  rcases Bool.or_eq_true _ _ ▸ h with letter | digit
  · rcases Bool.or_eq_true _ _ ▸ letter with upper | lower
    · have range : 65 ≤ c.toNat ∧ c.toNat ≤ 90 :=
        (of_decide_eq_true upper).imp UInt32.le_iff_toNat_le.mp UInt32.le_iff_toNat_le.mp
      omega
    · have range : 97 ≤ c.toNat ∧ c.toNat ≤ 122 := span lower
      omega
  · have range : 48 ≤ c.toNat ∧ c.toNat ≤ 57 := span digit
    omega

/-- Letters and digits are written as they are, and break no line. -/
theorem plain_of_isAlphanum {c : Char} (h : c.isAlphanum = true) :
    c.toNat < 0x80 ∧ IsPlain c ∧ (ascii c == 10) = false := by
  have range := range_of_isAlphanum h
  refine ⟨by omega, ⟨by omega, ?_, ?_⟩, ?_⟩
  · rintro rfl
    exact absurd range (by decide)
  · rintro rfl
    exact absurd range (by decide)
  · refine beq_eq_false_iff_ne.mpr fun line => ?_
    have byte := congrArg UInt8.toNat line
    rw [toNat_ascii (by omega)] at byte
    rw [byte] at range
    exact absurd range (by decide)

/-- Equally many letters and digits have the same line breaks when encoded: none. -/
theorem same_encode {us vs : List Char} (plain : ∀ c ∈ us ++ vs, c.isAlphanum = true)
    (fits : us.length = vs.length) : SameLines (encode us) (encode vs) := by
  have unbroken {cs : List Char} (plain : ∀ c ∈ cs, c.isAlphanum = true) :
      (encode cs).map (· == 10) = List.replicate cs.length false := by
    induction cs with
    | nil => rfl
    | cons c cs ih =>
        obtain ⟨first, others⟩ := List.forall_mem_cons.mp plain
        obtain ⟨small, -, noLine⟩ := plain_of_isAlphanum first
        rw [encode_ascii small, List.map_cons, noLine, ih others]
        rfl
  obtain ⟨left, right⟩ := List.forall_mem_append.mp plain
  rw [SameLines, unbroken left, unbroken right, fits]

theorem same_held : SameLines (w.held w.first) (w.held w.second) :=
  (same_encode w.plain w.fits).append rfl

theorem same_value : SameLines (w.value w.first) (w.value w.second) :=
  (w.same_held.front [quote]).front _

theorem same_tail : SameLines (w.tail w.first) (w.tail w.second) :=
  (w.same_value.front [ascii ':']).front _

theorem same_ending : SameLines (w.ending w.first) (w.ending w.second) :=
  (w.same_tail.front [quote]).front _

/-! ### Where two runs may stand -/

/-- At one place, or both before the member. -/
def Loose (c d : Cursor) : Prop := c = d ∨ Beside (w.ending w.first) (w.ending w.second) c d

/-- Behind a text: at one place, before the member, at its name, or behind its name. -/
def Past (c d : Cursor) : Prop :=
  c = d ∨ Behind w.form (w.tail w.first) (w.tail w.second) c d

/-- Ahead of a value: at one place, before the member, or before the string that it holds. -/
def Ready (c d : Cursor) : Prop :=
  w.Loose c d ∨ Before (w.value w.first) (w.value w.second) c d

/-- At one place, or with the string still ahead. -/
def Open (c d : Cursor) : Prop := c = d ∨ Beside (w.held w.first) (w.held w.second) c d

variable {w} {c d : Cursor}

theorem Loose.past (h : w.Loose c d) : w.Past c d := h.imp id fun h => Or.inl (Or.inl h)

theorem open_of_ending (h : Before (w.ending w.first) (w.ending w.second) c d) : w.Open c d := by
  obtain ⟨p, rfl, rfl⟩ := h
  refine Or.inr ⟨encode w.form ++ quote :: (encode w.gap ++ ascii ':' :: encode w.gap'), p, ?_, ?_⟩
  · simp [ending, tail, value]
  · simp [ending, tail, value]

theorem open_of_value (h : Before (w.value w.first) (w.value w.second) c d) : w.Open c d := by
  obtain ⟨p, rfl, rfl⟩ := h
  exact Or.inr ⟨encode w.gap', p, rfl, rfl⟩

theorem open_of_tail (h : Before (w.tail w.first) (w.tail w.second) c d) : w.Open c d := by
  obtain ⟨p, rfl, rfl⟩ := h
  refine Or.inr ⟨encode w.gap ++ ascii ':' :: encode w.gap', p, ?_, ?_⟩
  · simp [tail, value]
  · simp [tail, value]

theorem Loose.open (h : w.Loose c d) : w.Open c d := by
  rcases h with rfl | ⟨x, p, rfl, rfl⟩
  · exact Or.inl rfl
  · refine Or.inr ⟨x ++ quote :: (encode w.form ++ quote :: (encode w.gap ++ ascii ':' ::
      encode w.gap')), p, ?_, ?_⟩
    · simp [ending, tail, value]
    · simp [ending, tail, value]

theorem Past.open (h : w.Past c d) : w.Open c d := by
  rcases h with rfl | (h | h) | h
  · exact Or.inl rfl
  · exact Loose.open (Or.inr h)
  · exact open_of_ending h
  · exact open_of_tail h

theorem Ready.open (h : w.Ready c d) : w.Open c d := h.elim Loose.open open_of_value

theorem Open.skip_place (h : w.Open c d) : c.skip.place = d.skip.place := by
  rcases h with rfl | h
  · rfl
  · exact h.skip_place

theorem Open.place (h : w.Open c d) : c.place = d.place := by
  rcases h with rfl | h
  · rfl
  · exact h.place

/-! ### Behind the name -/

/-- No byte that is looked for between the members of an object, or the items of a list. -/
def IsNoMark (b : UInt8) : Prop := is b '"' = false ∧ is b ',' = false ∧ is b ']' = false ∧
  is b '\x7d' = false

/-- The name begins with a letter or digit, or with an escape. -/
theorem form_head (w : Varied) : ∃ b bs, encode w.form = b :: bs ∧ isSpace b = false ∧
    is b ':' = false ∧ IsNoMark b := by
  obtain ⟨x, xs, name, alphanum⟩ := w.begins
  have spelled := w.spelled
  rw [name] at spelled
  generalize w.form = form at spelled ⊢
  -- the name begins with a letter or a digit, written as itself or as an escape
  cases spelled with
  | cons first _ =>
      rcases first.cases with ⟨rfl, -⟩ | ⟨es, rfl, -⟩
      · obtain ⟨small, -⟩ := plain_of_isAlphanum alphanum
        have other (c : Char) (h : c.isAlphanum = false) : is (ascii x) c = false := by
          refine is_ascii_of_ne small ?_
          rintro rfl
          exact nomatch h.symm.trans alphanum
        have noSpace : isSpace (ascii x) = false := by
          have range := range_of_isAlphanum alphanum
          have clear : ∀ n < 123, 48 ≤ n → isSpace (UInt8.ofNat n) = false := by decide
          exact clear x.toNat range.2.1 range.1
        exact ⟨_, _, encode_ascii small _, noSpace, other ':' (by decide), other '"' (by decide),
          other ',' (by decide), other ']' (by decide), other '\x7d' (by decide)⟩
      · exact ⟨_, _, encode_ascii (by decide) _, by decide, by decide, by decide, by decide,
          by decide, by decide⟩

/-- Where the name is ahead, or the colon behind it, no mark is. -/
theorem peekToken_noMark (h : Before (w.ending w.first) (w.ending w.second) c d ∨
    Before (w.tail w.first) (w.tail w.second) c d) : ∃ b c' d',
      peekToken c = (.ok (some b), c') ∧ peekToken d = (.ok (some b), d') ∧
      c'.skip.place = d'.skip.place ∧ IsNoMark b := by
  rcases h with ⟨p, rfl, rfl⟩ | ⟨p, rfl, rfl⟩
  · obtain ⟨b, bs, head, noSpace, -, noMark⟩ := form_head w
    have ahead (text : List Char) : peekToken ⟨w.ending text, p⟩
        = (.ok (some b), ⟨b :: (bs ++ quote :: w.tail text), p⟩) := by
      rw [ending, head, List.cons_append]
      exact peekToken_cons noSpace _ p
    exact ⟨b, _, _, ahead w.first, ahead w.second, rfl, noMark⟩
  · have colon (text : List Char) : peekToken ⟨w.tail text, p⟩ = (.ok (some (ascii ':')),
        ⟨ascii ':' :: w.value text, (encode w.gap).foldl Place.after p⟩) :=
      peekToken_spacing w.space.1 (by decide) _ p
    exact ⟨_, _, _, colon w.first, colon w.second, rfl, by decide, by decide, by decide,
      by decide⟩

/-- Behind a text, whoever looks for a mark goes on alike, or not at all. -/
theorem agree_past (h : w.Past c d) {f : Option UInt8 → Reader α}
    {Q : α → α → Cursor → Cursor → Prop}
    (hF : ∀ c, F c c) (hQ : ∀ a c, Q a a c c)
    (facing : ∀ y c d, Facing (w.ending w.first) (w.ending w.second) y c d →
      Agree F Q (f (some y) c) (f (some y) d))
    (none : ∀ b c d, c.skip.place = d.skip.place → IsNoMark b →
      Agree F Q (f (some b) c) (f (some b) d)) :
    Agree F Q ((peekToken >>= f) c) ((peekToken >>= f) d) := by
  rcases h with rfl | (h | h) | h
  · exact .refl hF hQ _
  · exact agree_peekToken h facing
  · obtain ⟨b, c', d', left, right, place, noMark⟩ := peekToken_noMark (Or.inl h)
    rw [bind_of_ok _ left, bind_of_ok _ right]
    exact none b c' d' place noMark
  · obtain ⟨b, c', d', left, right, place, noMark⟩ := peekToken_noMark (Or.inr h)
    rw [bind_of_ok _ left, bind_of_ok _ right]
    exact none b c' d' place noMark

/-- Where the name is still ahead, so is the member behind a colon. -/
theorem agree_colon_ahead (hF : ∀ c, F c c)
    (h : c = d ∨ NameAhead w.form (w.tail w.first) (w.tail w.second) c d) :
    Agree F (fun _ _ => w.Loose) (colon c) (colon d) := by
  rcases h with rfl | h | ⟨p, rfl, rfl⟩
  · exact .refl hF (fun _ _ => Or.inl rfl) _
  · refine agree_peekToken h fun y c d facing => ?_
    dsimp only
    split
    · next mark => exact .ok (Or.inr (facing.skip (is_other mark (by decide))))
    · exact .failAhead _ facing.place
  · obtain ⟨b, bs, head, noSpace, noColon, -⟩ := form_head w
    have fails (text : List Char) : colon ⟨w.ending text, p⟩
        = Reader.failAhead .wantColon ⟨b :: (bs ++ quote :: w.tail text), p⟩ := by
      rw [colon, ending, head, List.cons_append, bind_of_ok _ (peekToken_cons noSpace _ p)]
      dsimp only
      rw [noColon, if_neg Bool.false_ne_true]
    exact (fails w.first).symm ▸ (fails w.second).symm ▸ .failAhead _ rfl

/-- The colon behind the name is the one before the string. -/
theorem agree_colon_name (h : Before (w.tail w.first) (w.tail w.second) c d) :
    Agree F (fun _ _ => Before (w.value w.first) (w.value w.second)) (colon c) (colon d) := by
  obtain ⟨p, rfl, rfl⟩ := h
  have passes (text : List Char) : colon ⟨w.tail text, p⟩ = (.ok (), ⟨w.value text,
      ((encode w.gap).foldl Place.after p).after (ascii ':')⟩) := by
    rw [colon, tail, bind_of_ok _ (peekToken_spacing w.space.1 (by decide) _ p)]
    dsimp only
    rw [if_pos (by decide), skip_cons]
  rw [passes, passes]
  exact .ok ⟨_, rfl, rfl⟩

/-- The colon is read alike, and leads both runs ahead of a value. -/
theorem agree_colon (hF : ∀ c, F c c) (h : w.Past c d) :
    Agree F (fun _ _ => w.Ready) (colon c) (colon d) := by
  rcases h with rfl | h | h
  · exact (agree_colon_ahead hF (Or.inl rfl)).mono fun _ _ _ _ => Or.inl
  · exact (agree_colon_ahead hF (Or.inr h)).mono fun _ _ _ _ => Or.inl
  · exact (agree_colon_name h).mono fun _ _ _ _ => Or.inr

/-! ### The string -/

/-- Letters and digits are read one by one, up to the quote. -/
theorem textChars_letters {cs : List Char} (plain : ∀ c ∈ cs, c.isAlphanum = true)
    (rest : List UInt8) : ∀ fuel : List UInt8, cs.length < fuel.length → ∀ p,
      textChars fuel ⟨encode cs ++ quote :: rest, p⟩
        = (.ok cs, ⟨rest, ((encode cs).foldl Place.after p).after quote⟩) := by
  -- on the letters, none of which needs an escape
  induction cs with
  | nil =>
      intro fuel more p
      obtain ⟨a, fuel, rfl⟩ := List.exists_cons_of_length_pos (Nat.zero_lt_of_lt more)
      rfl
  | cons c cs ih =>
      intro fuel more p
      obtain ⟨first, others⟩ := List.forall_mem_cons.mp plain
      obtain ⟨small, isPlain, -⟩ := plain_of_isAlphanum first
      obtain ⟨a, fuel, rfl⟩ := List.exists_cons_of_length_pos (Nat.zero_lt_of_lt more)
      obtain ⟨control, noQuote, noSlash⟩ := narrow_ascii small ▸ isPlain.narrow
      have read : readChar (ascii c) ⟨encode cs ++ quote :: rest, p.after (ascii c)⟩
          = (.ok c, ⟨encode cs ++ quote :: rest, p.after (ascii c)⟩) := by
        have alone : c.utf8Size - 1 = 0 := by rw [utf8Size_ascii small]
        rw [readChar]
        dsimp only
        rw [next_ascii small]
        dsimp only
        rw [alone, Nat.add_zero]
      rw [encode_ascii small, List.cons_append, textChars_cons, noQuote, noSlash]
      simp only [if_neg control, Bool.false_eq_true, if_false]
      rw [bind_of_ok _ read, bind_of_ok _ (ih others fuel (Nat.lt_of_succ_lt_succ more) _)]
      rfl

/-- They are passed over one by one. -/
theorem skipText_letters {cs : List Char} (plain : ∀ c ∈ cs, c.isAlphanum = true)
    (rest : List UInt8) : ∀ fuel : List UInt8, cs.length < fuel.length → ∀ p,
      skipText fuel ⟨encode cs ++ quote :: rest, p⟩
        = (.ok (), ⟨rest, ((encode cs).foldl Place.after p).after quote⟩) := by
  induction cs with
  | nil =>
      intro fuel more p
      obtain ⟨a, fuel, rfl⟩ := List.exists_cons_of_length_pos (Nat.zero_lt_of_lt more)
      rfl
  | cons c cs ih =>
      intro fuel more p
      obtain ⟨first, others⟩ := List.forall_mem_cons.mp plain
      obtain ⟨small, isPlain, -⟩ := plain_of_isAlphanum first
      obtain ⟨a, fuel, rfl⟩ := List.exists_cons_of_length_pos (Nat.zero_lt_of_lt more)
      rw [encode_ascii small, List.cons_append,
        skipText_plain (narrow_ascii small ▸ isPlain.narrow),
        ih others fuel (Nat.lt_of_succ_lt_succ more)]
      rfl

/-- More bytes are ahead than the string has characters. -/
theorem length_lt_held (text : List Char) : text.length < (w.held text).length := by
  have bytes := length_le_encode text
  rw [held, List.length_append, List.length_cons]
  omega

/-- Both strings end at one place, for they hold letters and digits, equally many. -/
theorem held_place (p : Place) : ((encode w.first).foldl Place.after p).after quote
    = ((encode w.second).foldl Place.after p).after quote := by
  rw [(same_encode w.plain w.fits).foldl_after]

/-- The string is read in both runs, up to the same place. -/
theorem agree_readText_held (h : Before (w.held w.first) (w.held w.second) c d) :
    Agree F (fun a b c d => a = String.ofList w.first ∧ b = String.ofList w.second ∧ c = d)
      (readText c) (readText d) := by
  obtain ⟨p, rfl, rfl⟩ := h
  obtain ⟨first, second⟩ := List.forall_mem_append.mp w.plain
  have read {text : List Char} (plain : ∀ c ∈ text, c.isAlphanum = true) :
      readText ⟨w.held text, p⟩ = (.ok (String.ofList text),
        ⟨w.rest, ((encode text).foldl Place.after p).after quote⟩) := by
    have chars := textChars_letters plain w.rest (w.held text) (length_lt_held text) p
    show ((textChars (w.held text) >>= fun cs => pure (String.ofList cs)) : Reader String) _ = _
    rw [held] at chars ⊢
    rw [bind_of_ok _ chars]
    rfl
  rw [read first, read second]
  exact .ok ⟨rfl, rfl, by rw [held_place]⟩

/-- So is it passed over. -/
theorem agree_skipText_held (h : Before (w.held w.first) (w.held w.second) c d) :
    Agree F (fun _ _ c d => c = d) ((do skipText (← Reader.ahead)) c)
      ((do skipText (← Reader.ahead)) d) := by
  obtain ⟨p, rfl, rfl⟩ := h
  obtain ⟨first, second⟩ := List.forall_mem_append.mp w.plain
  have passed {text : List Char} (plain : ∀ c ∈ text, c.isAlphanum = true) :
      (do skipText (← Reader.ahead)) ⟨w.held text, p⟩
        = (.ok (), ⟨w.rest, ((encode text).foldl Place.after p).after quote⟩) :=
    skipText_letters plain w.rest (w.held text) (length_lt_held text) p
  rw [passed first, passed second]
  exact .ok (by rw [held_place])

/-- Before the string its quote is ahead, behind white space. -/
theorem peekToken_value (h : Before (w.value w.first) (w.value w.second) c d) : ∃ c' d',
    peekToken c = (.ok (some quote), c') ∧ peekToken d = (.ok (some quote), d') ∧
      Before (w.held w.first) (w.held w.second) c'.skip d'.skip := by
  obtain ⟨p, rfl, rfl⟩ := h
  have ahead (text : List Char) := peekToken_spacing w.space.2 (b := quote) (by decide)
    (w.held text) p
  exact ⟨_, _, ahead w.first, ahead w.second, _, rfl, rfl⟩

end Varied

end Courier.Json
