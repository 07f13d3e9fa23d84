import Courier.Proofs.Json.Skip
import Mathlib.Data.List.TakeWhile

/-! # Soundness — what was read was written so

    The converse of reading every form: where a reader succeeds, the bytes
    that it took are a form of what it gave.  Bytes are taken for characters
    one by one, for what is passed over need not be UTF-8; a text that is
    read is, and its form is one of characters.

    Between two brackets the loop that passes over a value keeps a stack.
    What that stack still asks of the bytes is written down as `Closes`, and
    whatever a run has taken closes it. -/

namespace Courier.Json

open Utf8 Reader

variable {α β : Type}

namespace Reader

/-- Readers in sequence succeed exactly when both do. -/
theorem bind_eq_ok {r : Reader α} {f : α → Reader β} {c e : Cursor} {b : β} :
    (r >>= f) c = (.ok b, e) ↔ ∃ a d, r c = (.ok a, d) ∧ f a d = (.ok b, e) := by
  constructor
  · intro h
    simp only [bind] at h
    split at h
    · next a d first => exact ⟨a, d, first, h⟩
    · exact nomatch h
  · rintro ⟨a, d, first, second⟩
    rw [bind_of_ok f first, second]

theorem pure_eq_ok {a b : α} {c d : Cursor} :
    (pure a : Reader α) c = (.ok b, d) ↔ a = b ∧ c = d := by
  constructor
  · intro h
    exact ⟨Except.ok.inj (congrArg Prod.fst h), congrArg Prod.snd h⟩
  · rintro ⟨rfl, rfl⟩
    rfl

/-- A body with its closing bracket succeeds exactly when both do. -/
theorem closedBy_eq_ok {r : Reader α} {close : Reader Unit} {c e : Cursor} {a : α} :
    r.closedBy close c = (.ok a, e) ↔ ∃ d, r c = (.ok a, d) ∧ close d = (.ok (), e) := by
  constructor
  · intro h
    rw [Reader.closedBy] at h
    split at h
    · next b d body =>
        split at h
        · next e' closed =>
            obtain ⟨rfl, rfl⟩ : b = a ∧ e' = e := by simpa using h
            exact ⟨d, body, closed⟩
        · cases h
    · cases h
  · rintro ⟨d, body, closed⟩
    exact closedBy_of_ok body closed

/-- A place for faults changes no success. -/
theorem placed_eq_ok {r : Reader α} {c d : Cursor} {a : α} :
    r.placed c = (.ok a, d) ↔ r c = (.ok a, d) := by
  constructor
  · intro h
    rw [Reader.placed] at h
    split at h
    · cases h
    · exact h
  · exact placed_of_ok

/-- Whether all that a reader gives has a property, wherever it reads. -/
def Gives (P : α → Prop) (r : Reader α) : Prop := ∀ c a d, r c = (.ok a, d) → P a

section Gives

variable {P : α → Prop}

theorem gives_pure {a : α} (h : P a) : (pure a : Reader α).Gives P := by
  intro c b d given
  obtain ⟨rfl, -⟩ := pure_eq_ok.mp given
  exact h

/-- What is given at the end is all that counts. -/
theorem gives_bind {r : Reader β} {f : β → Reader α} (h : ∀ b, (f b).Gives P) :
    (r >>= f).Gives P := by
  intro c a e given
  obtain ⟨b, d, -, second⟩ := bind_eq_ok.mp given
  exact h b d a e second

theorem gives_placed {r : Reader α} (h : r.Gives P) : r.placed.Gives P :=
  fun c a d given => h c a d (placed_eq_ok.mp given)

theorem gives_fail (cause : Cause) : (fail cause : Reader α).Gives P :=
  fun _ _ _ given => nomatch given

theorem gives_failAhead (cause : Cause) : (failAhead cause : Reader α).Gives P :=
  fun _ _ _ given => nomatch given

theorem gives_raise (cause : Cause) : (raise cause : Reader α).Gives P :=
  fun _ _ _ given => nomatch given

end Gives

end Reader

/-! ## Between two cursors -/

/-- The characters `cs` stand between two cursors, byte by byte. -/
def Cursor.Spans (c : Cursor) (cs : List Char) (d : Cursor) : Prop :=
  octets c.rest = cs ++ octets d.rest

namespace Cursor

theorem spans_refl (c : Cursor) : c.Spans [] c := rfl

/-- Characters passed in a row are passed together. -/
theorem Spans.trans {c d e : Cursor} {xs ys : List Char} (h : c.Spans xs d) (h' : d.Spans ys e) :
    c.Spans (xs ++ ys) e := by
  rw [Spans, h, h', List.append_assoc]

/-- One byte is passed as its character. -/
theorem spans_cons (b : UInt8) (bs : List UInt8) (p q : Place) :
    Spans ⟨b :: bs, p⟩ [octet b] ⟨bs, q⟩ := rfl

/-- A byte that is a character is passed as it. -/
theorem spans_is {b : UInt8} {x : Char} (h : is b x = true) (bs : List UInt8) (p q : Place) :
    Spans ⟨b :: bs, p⟩ [x] ⟨bs, q⟩ := by
  rw [← is_iff.mp h]
  exact spans_cons b bs p q

/-- Bytes that were taken off the front. -/
theorem spans_of_rest {c d : Cursor} {bs : List UInt8} (h : c.rest = bs ++ d.rest) :
    c.Spans (octets bs) d := by
  rw [Spans, h, octets_append]

end Cursor

open Cursor

/-! ## White space and tokens -/

theorem isSpacing_octets {bs : List UInt8} (h : ∀ b ∈ bs, isSpace b = true) :
    IsSpacing (octets bs) := by
  intro c mem
  obtain ⟨b, listed, rfl⟩ := List.mem_map.mp mem
  have space := h b listed
  simp only [isSpace, Bool.or_eq_true, beq_iff_eq] at space
  rcases space with ((rfl | rfl) | rfl) | rfl <;> decide

/-- Behind white space the byte ahead decides how reading goes on. -/
theorem of_peekToken {f : Option UInt8 → Reader α} {c d : Cursor} {a : α}
    (h : (peekToken >>= f) c = (.ok a, d)) : ∃ ws t, IsSpacing ws ∧ c.Spans ws t ∧
      (∀ b, t.peek? = some b → isSpace b = false) ∧ f t.peek? t = (.ok a, d) := by
  refine ⟨octets (c.rest.takeWhile isSpace), c.skipWhile isSpace, ?_, ?_, ?_, h⟩
  · exact isSpacing_octets fun b mem => List.mem_takeWhile_imp mem
  · exact spans_of_rest (List.takeWhile_append_dropWhile).symm
  · intro b ahead
    have some : (c.rest.dropWhile isSpace).head? = some b := ahead
    have stop := List.head?_dropWhile_not isSpace c.rest
    rw [some] at stop
    simpa using stop

/-- Where a reader fails without a byte ahead, there is one behind white space. -/
theorem of_token {f : Option UInt8 → Reader α} {c d : Cursor} {a : α}
    (h : (peekToken >>= f) c = (.ok a, d)) (ends : ∀ t, ∃ fault, (f none t).1 = .error fault) :
    ∃ ws b bs p, IsSpacing ws ∧ c.Spans ws ⟨b :: bs, p⟩ ∧ isSpace b = false ∧
      f (some b) ⟨b :: bs, p⟩ = (.ok a, d) := by
  obtain ⟨ws, ⟨bs, p⟩, space, front, stop, h⟩ := of_peekToken h
  cases bs with
  | nil =>
      obtain ⟨fault, failed⟩ := ends ⟨[], p⟩
      exact nomatch failed.symm.trans (congrArg Prod.fst h)
  | cons b bs => exact ⟨ws, b, bs, p, space, front, stop b rfl, h⟩

/-- Where a value starts, white space was passed and the byte ahead is none. -/
theorem valueStart_eq_ok {c d : Cursor} {b : UInt8} (h : valueStart c = (.ok b, d)) :
    ∃ ws bs p, IsSpacing ws ∧ d = ⟨b :: bs, p⟩ ∧ c.Spans ws d ∧ isSpace b = false := by
  obtain ⟨ws, b', bs, p, space, front, stop, h⟩ := of_token h fun _ => ⟨_, rfl⟩
  cases h
  exact ⟨ws, bs, p, space, rfl, front, stop⟩

/-- What was passed over as a colon is one, behind white space. -/
theorem colon_sound {c d : Cursor} (h : colon c = (.ok (), d)) :
    ∃ ws, IsSpacing ws ∧ c.Spans (ws ++ [':']) d := by
  obtain ⟨ws, b, bs, p, space, front, -, h⟩ := of_token h fun _ => ⟨_, rfl⟩
  dsimp only at h
  split at h
  · next mark =>
      cases h
      exact ⟨ws, space, front.trans (spans_is mark ..)⟩
  · exact nomatch h

theorem word_sound {cs : List Char} {c d : Cursor} (h : word cs c = (.ok (), d)) :
    c.Spans cs d := by
  induction cs generalizing c with
  | nil =>
      cases h
      exact spans_refl _
  | cons x cs ih =>
      obtain ⟨o, e, taken, h⟩ := bind_eq_ok.mp h
      obtain ⟨bs, p⟩ := c
      cases bs with
      | nil =>
          cases taken
          exact nomatch h
      | cons b bs =>
          cases taken
          dsimp only [peek?, List.head?] at h
          split at h
          · next mark => exact (spans_is mark ..).trans (ih h)
          · exact nomatch h

/-! ## Texts -/

/-- ASCII characters between two cursors are their own bytes. -/
theorem Cursor.Spans.rest {c d : Cursor} {cs : List Char} (h : c.Spans cs d)
    (small : ∀ x ∈ cs, x.toNat < 0x80) : c.rest = encode cs ++ d.rest := by
  obtain ⟨front, back, rest, first, second⟩ := octets_eq_append_iff.mp h
  rw [rest, eq_encode_of_octets small first, octets_inj second]

/-- A byte with a hexadecimal value is a hexadecimal digit. -/
theorem hexDigit?_of_hexValue? {b : UInt8} {n : Nat} (h : hexValue? b = some n) :
    Numeral.hexDigit? (octet b) = some n := by
  rw [hexDigit?_eq, toNat_octet]
  exact h

/-- What was read as four hexadecimal digits are such digits of the value. -/
theorem readHex_sound {c d : Cursor} {n : Nat} (h : readHex c = (.ok n, d)) :
    ∃ hs, IsHex n hs ∧ c.Spans hs d := by
  obtain ⟨bs, p⟩ := c
  rw [readHex] at h
  split at h
  · next i j k l rest same =>
      dsimp only at same
      subst same
      dsimp only at h
      split at h
      · next i' j' k' l' hi hj hk hl =>
          cases h
          exact ⟨_, .digits (hexDigit?_of_hexValue? hi) (hexDigit?_of_hexValue? hj)
            (hexDigit?_of_hexValue? hk) (hexDigit?_of_hexValue? hl), rfl⟩
      · cases h
  · cases h

theorem IsHex.lt {n : Nat} {hs : List Char} (h : IsHex n hs) : n < 65536 := by
  have digit {c : Char} {k : Nat} (h : Numeral.hexDigit? c = some k) : k < 16 := by
    rw [hexDigit?_eq] at h
    repeat' split at h
    all_goals first
      | simp only [Option.some.injEq] at h
        omega
      | cases h
  cases h with
  | digits first second third fourth =>
      have := digit first
      have := digit second
      have := digit third
      have := digit fourth
      omega

theorem pairByte_sound {x : Char} {c d : Cursor} (h : pairByte x c = (.ok (), d)) :
    c.Spans [x] d := by
  obtain ⟨bs, p⟩ := c
  cases bs with
  | nil => cases h
  | cons b bs =>
      rw [pairByte, bind_of_ok _ (peek_cons _ _ _)] at h
      dsimp only at h
      rw [bind_of_ok _ (skip_cons _ _ _)] at h
      split at h
      · next mark =>
          cases h
          exact spans_is mark ..
      · cases h

/-- The number of a character, or the numbers of two surrogates, behind the mark of a number. -/
theorem readNumbered_sound {c d : Cursor} {x : Char} (h : readNumbered c = (.ok x, d)) :
    ∃ es, CharForm x ('\\' :: 'u' :: es) ∧ (∀ e ∈ es, e.toNat < 0x80) ∧ c.Spans es d := by
  obtain ⟨n, e, first, h⟩ := bind_eq_ok.mp h
  obtain ⟨hs, hex, front⟩ := readHex_sound first
  have bound := hex.lt
  split at h
  · exact nomatch h
  · next noTrail =>
      split at h
      · next single =>
          obtain ⟨rfl, rfl⟩ := pure_eq_ok.mp h
          have number : (Char.ofNat n).toNat = n := by
            refine toNat_ofNat_of_valid ?_
            rw [Nat.isValidChar]
            omega
          refine ⟨hs, .number ?_, hex.small, front⟩
          rwa [number]
      · next lead =>
          obtain ⟨_, e₁, slash, h⟩ := bind_eq_ok.mp h
          obtain ⟨_, e₂, mark, h⟩ := bind_eq_ok.mp h
          obtain ⟨m, e₃, second, h⟩ := bind_eq_ok.mp h
          obtain ⟨ls, lower, back⟩ := readHex_sound second
          split at h
          · next trail =>
              obtain ⟨rfl, rfl⟩ := pure_eq_ok.mp h
              have number : (Char.ofNat ((n - 0xD800) * 0x400 + (m - 0xDC00) + 0x10000)).toNat
                  = (n - 0xD800) * 0x400 + (m - 0xDC00) + 0x10000 := by
                refine toNat_ofNat_of_valid ?_
                rw [Nat.isValidChar]
                omega
              refine ⟨hs ++ '\\' :: 'u' :: ls, .pair hex lower (by omega) trail number, ?_, ?_⟩
              · refine List.forall_mem_append.mpr ⟨hex.small, ?_⟩
                exact List.forall_mem_cons.mpr ⟨by decide, List.forall_mem_cons.mpr
                  ⟨by decide, lower.small⟩⟩
              · exact front.trans ((pairByte_sound slash).trans ((pairByte_sound mark).trans back))
          · exact nomatch h

/-- What a letter behind a backslash stands for is in the table of letter escapes. -/
theorem mem_letterEscapes_of_escaped? {b : UInt8} {x : Char} (h : escaped? b = some x) :
    (octet b, x) ∈ letterEscapes ∧ (octet b).toNat < 0x80 := by
  unfold escaped? at h
  repeat' split at h
  all_goals first
    | next mark =>
        obtain rfl := Option.some.inj h
        rw [is_iff.mp mark]
        decide
    | exact nomatch h

/-- What was read behind a backslash escapes the character. -/
theorem readEscape_sound {c d : Cursor} {x : Char} (h : readEscape c = (.ok x, d)) :
    ∃ es, CharForm x ('\\' :: es) ∧ (∀ e ∈ es, e.toNat < 0x80) ∧ c.Spans es d := by
  obtain ⟨bs, p⟩ := c
  cases bs with
  | nil => exact nomatch h
  | cons b bs =>
      rw [readEscape, bind_of_ok _ (take_cons _ _ _)] at h
      dsimp only at h
      split at h
      · next mark =>
          obtain ⟨es, form, small, front⟩ := readNumbered_sound h
          exact ⟨'u' :: es, form, List.forall_mem_cons.mpr ⟨by decide, small⟩,
            (spans_is mark bs p _).trans front⟩
      · cases known : escaped? b with
        | none =>
            rw [known] at h
            exact nomatch h
        | some y =>
            rw [known] at h
            obtain ⟨rfl, rfl⟩ := pure_eq_ok.mp h
            obtain ⟨escape, small⟩ := mem_letterEscapes_of_escaped? known
            exact ⟨[octet b], .letter escape,
              List.forall_mem_cons.mpr ⟨small, fun _ mem => nomatch mem⟩, spans_cons ..⟩

/-- What was read as a character is its encoding. -/
theorem readChar_sound {b : UInt8} {c d : Cursor} {x : Char} (h : readChar b c = (.ok x, d)) :
    b :: c.rest = String.utf8EncodeChar x ++ d.rest := by
  rcases found : next b c.rest with ⟨o, rest⟩
  rw [readChar, found] at h
  cases o with
  | none => cases h
  | some y =>
      cases h
      exact eq_of_next found

/-- A character that begins with a byte that needs no escape needs none itself. -/
theorem isPlain_of_utf8EncodeChar {x : Char} {b : UInt8} {bs rest : List UInt8}
    (bytes : b :: bs = String.utf8EncodeChar x ++ rest)
    (plain : ¬b < 32 ∧ is b '"' = false ∧ is b '\\' = false) : IsPlain x := by
  by_cases small : x.toNat < 0x80
  · rw [utf8EncodeChar_eq, if_pos (by omega)] at bytes
    obtain rfl : b = ascii x := (List.cons.inj bytes).1
    have same := isPlain_octet plain
    rwa [octet_ascii (by omega)] at same
  · refine ⟨by omega, ?_, ?_⟩
    · rintro rfl
      exact small (by decide)
    · rintro rfl
      exact small (by decide)

/-- A character of an escape, and the bytes of its form. -/
theorem charForm_of_readEscape {b : UInt8} (slash : is b '\\' = true) {bs : List UInt8}
    {p : Place} {d : Cursor} {x : Char} (h : readEscape ⟨bs, p⟩ = (.ok x, d)) :
    ∃ form, CharForm x form ∧ b :: bs = encode form ++ d.rest := by
  obtain ⟨es, form, small, front⟩ := readEscape_sound h
  exact ⟨_, form, ((spans_is slash bs p _).trans front).rest
    (List.forall_mem_cons.mpr ⟨by decide, small⟩)⟩

/-- A character that stands for itself, and its bytes. -/
theorem charForm_of_readChar {b : UInt8} (plain : ¬b < 32 ∧ is b '"' = false ∧ is b '\\' = false)
    {bs : List UInt8} {p : Place} {d : Cursor} {x : Char} (h : readChar b ⟨bs, p⟩ = (.ok x, d)) :
    ∃ form, CharForm x form ∧ b :: bs = encode form ++ d.rest := by
  have bytes := readChar_sound h
  refine ⟨[x], .plain (isPlain_of_utf8EncodeChar bytes plain), ?_⟩
  rw [encode_cons, List.append_assoc]
  exact bytes

/-- The characters of a text, and the bytes of one of their forms up to the closing quote. -/
theorem textChars_sound {fuel : List UInt8} {c d : Cursor} {xs : List Char}
    (h : textChars fuel c = (.ok xs, d)) :
    ∃ form, CharsForm xs form ∧ c.rest = encode (form ++ ['"']) ++ d.rest := by
  induction fuel generalizing c xs with
  | nil => exact nomatch h
  | cons a fuel ih =>
      obtain ⟨bs, p⟩ := c
      cases bs with
      | nil => exact nomatch h
      | cons b bs =>
          rw [textChars, bind_of_ok _ (take_cons _ _ _)] at h
          dsimp only at h
          -- one character in front, whichever way it is written, and the others by induction
          have another {r : Reader Char}
              (form : ∀ {x e}, r ⟨bs, p.after b⟩ = (.ok x, e) →
                ∃ form, CharForm x form ∧ b :: bs = encode form ++ e.rest)
              (h : (r >>= fun x => textChars fuel >>= fun ys => pure (x :: ys)) ⟨bs, p.after b⟩
                = (.ok xs, d)) :
              ∃ form, CharsForm xs form ∧ b :: bs = encode (form ++ ['"']) ++ d.rest := by
            obtain ⟨x, e, first, h⟩ := bind_eq_ok.mp h
            obtain ⟨ys, e', others, h⟩ := bind_eq_ok.mp h
            obtain ⟨rfl, rfl⟩ := pure_eq_ok.mp h
            obtain ⟨xs, one, front⟩ := form first
            obtain ⟨rest, more, back⟩ := ih others
            refine ⟨xs ++ rest, .cons one more, ?_⟩
            rw [front, back, List.append_assoc xs, encode_append xs, List.append_assoc]
          by_cases quote : is b '"' = true
          · rw [if_pos quote] at h
            cases h
            exact ⟨[], .nil, (spans_is quote bs p p).rest (by simp)⟩
          · rw [if_neg quote] at h
            by_cases control : b < 32
            · rw [if_pos control] at h
              exact nomatch h
            · rw [if_neg control] at h
              by_cases slash : is b '\\' = true
              · rw [if_pos slash] at h
                exact another (charForm_of_readEscape slash) h
              · rw [if_neg slash] at h
                exact another (charForm_of_readChar
                  ⟨control, Bool.eq_false_iff.mpr quote, Bool.eq_false_iff.mpr slash⟩) h

/-- What was read as a string spells it, up to the quote. -/
theorem readText_sound {c d : Cursor} {s : String} (h : readText c = (.ok s, d)) :
    ∃ body, CharsForm s.toList body ∧ c.rest = encode (body ++ ['"']) ++ d.rest := by
  obtain ⟨fuel, e, ahead, h⟩ := bind_eq_ok.mp h
  cases ahead
  obtain ⟨xs, e', chars, h⟩ := bind_eq_ok.mp h
  cases h
  rw [String.toList_ofList]
  exact textChars_sound chars

/-- What stands behind an opening quote makes a text with it. -/
theorem textForm_of_readText {b : UInt8} (quote : is b '"' = true) {bs : List UInt8} {p q : Place}
    {d : Cursor} {s : String} (h : readText ⟨bs, p⟩ = (.ok s, d)) :
    ∃ form, TextForm s form ∧ Spans ⟨b :: bs, q⟩ (octets (encode form)) d := by
  obtain ⟨body, chars, rest⟩ := readText_sound h
  refine ⟨_, ⟨body, chars, rfl⟩, spans_of_rest ?_⟩
  have byte : b = ascii '"' := by rw [← is_iff.mp quote, ascii_octet]
  dsimp only at rest ⊢
  rw [rest, byte, encode_ascii (by decide), List.cons_append]

/-- A value of the wrong kind is never read: whatever it is, raising the fault ends it. -/
theorem wrongKind_gives (wanted : String) (P : α → Prop) : (wrongKind wanted).Gives P := by
  refine gives_placed (gives_bind fun o => ?_)
  cases o with
  | none => exact gives_failAhead _
  | some b =>
      dsimp only
      repeat' split
      all_goals first
        | exact gives_raise _
        | exact gives_failAhead _
        | exact gives_bind fun _ => gives_bind fun _ => gives_raise _
        | exact gives_bind fun _ => gives_raise _

/-- What was read as a string is white space and a text that spells it. -/
theorem text_sound {c d : Cursor} {s : String} (h : text c = (.ok s, d)) :
    ∃ ws form, IsSpacing ws ∧ TextForm s form ∧ c.Spans (ws ++ octets (encode form)) d := by
  obtain ⟨b, t, start, h⟩ := bind_eq_ok.mp h
  obtain ⟨ws, bs, p, space, rfl, front, -⟩ := valueStart_eq_ok start
  split at h
  · next quote =>
      obtain ⟨form, isText, back⟩ := textForm_of_readText quote (q := p) h
      exact ⟨ws, form, space, isText, front.trans back⟩
  · exact (wrongKind_gives _ (fun _ => False) _ _ _ h).elim

/-! ## Whole numbers -/

theorem isDigit_octet {b : UInt8} (h : isDigit b = true) : (octet b).isDigit = true := by
  rw [isDigit, Bool.and_eq_true, decide_eq_true_eq, decide_eq_true_eq, UInt8.le_iff_toNat_le,
    UInt8.le_iff_toNat_le] at h
  simp only [Char.isDigit, Bool.and_eq_true, decide_eq_true_eq, ge_iff_le,
    UInt32.le_iff_toNat_le]
  rw [show (octet b).val.toNat = b.toNat from toNat_octet b]
  exact h

/-- Bytes that are digits are digits as characters. -/
theorem allDigits_octets {bs : List UInt8} (h : ∀ b ∈ bs, isDigit b = true) :
    Numeral.AllDigits (octets bs) := by
  intro c mem
  obtain ⟨b, listed, rfl⟩ := List.mem_map.mp mem
  exact isDigit_octet (h b listed)

/-- Digits that were gathered are digits in front, and the value is what they come to. -/
theorem gather_sound {limit : Nat} {bs : List UInt8} {count value count' value' : Nat}
    {more : Bool} (h : gather limit count value bs = (count', value', more)) :
    ∃ front back, bs = front ++ back ∧ (∀ b ∈ front, isDigit b = true) ∧
      count' = count + front.length ∧ value' = Nat.ofDigitChars 10 (octets front) value ∧
      (value ≤ limit → value' ≤ limit) := by
  -- on the bytes; the limit is what keeps the value within a word
  induction bs generalizing count value with
  | nil =>
      obtain ⟨rfl, rfl, -⟩ : count = count' ∧ value = value' ∧ false = more := by
        simpa [gather] using h
      exact ⟨[], [], rfl, List.forall_mem_nil _, rfl, rfl, id⟩
  | cons b bs ih =>
      have stopped {m : Bool} (h : (count, value, m) = (count', value', more)) :
          ∃ front back, b :: bs = front ++ back ∧ (∀ b ∈ front, isDigit b = true) ∧
            count' = count + front.length ∧ value' = Nat.ofDigitChars 10 (octets front) value ∧
            (value ≤ limit → value' ≤ limit) := by
        obtain ⟨rfl, rfl, -⟩ : count = count' ∧ value = value' ∧ m = more := by simpa using h
        exact ⟨[], b :: bs, rfl, List.forall_mem_nil _, rfl, rfl, id⟩
      rw [gather] at h
      split at h
      · next digit =>
          split at h
          · next inside =>
              obtain ⟨front, back, rfl, all, counted, same, bounded⟩ := ih h
              refine ⟨b :: front, back, rfl, List.forall_mem_cons.mpr ⟨digit, all⟩, ?_, ?_,
                fun _ => bounded inside⟩
              · rw [counted, List.length_cons]
                omega
              · rw [same, octets_cons, Nat.ofDigitChars_cons, digitValue, toNat_octet,
                  Nat.mul_comm value]
                rfl
          · exact stopped h
      · exact stopped h

/-- What was gathered is the value of the digits passed over, within the limit. -/
theorem gatherDigits_sound {limit value : Nat} {c d : Cursor} {found : Nat × Nat × Bool}
    (h : gatherDigits limit value c = (.ok found, d)) : ∃ cs, Numeral.AllDigits cs ∧
      c.Spans cs d ∧ found.2.1 = Nat.ofDigitChars 10 cs value ∧
      (value ≤ limit → found.2.1 ≤ limit) := by
  obtain ⟨bs, p⟩ := c
  obtain ⟨front, back, rfl, all, counted, same, bounded⟩ :=
    gather_sound (show gather limit 0 value bs = (_, _, _) from rfl)
  rw [Nat.zero_add] at counted
  obtain ⟨q, skipped⟩ : ∃ q, (List.range front.length).foldl (fun c _ => c.skip)
      ⟨front ++ back, p⟩ = (⟨back, q⟩ : Cursor) := foldl_skip List.length_range
  rw [← counted] at skipped
  have ended : (List.range (gather limit 0 value (front ++ back)).1).foldl
      (fun c _ => c.skip) ⟨front ++ back, p⟩ = d := congrArg Prod.snd h
  rw [skipped] at ended
  obtain rfl : gather limit 0 value (front ++ back) = found :=
    Except.ok.inj (congrArg Prod.fst h)
  exact ⟨octets front, allDigits_octets all, spans_of_rest (by rw [← ended]), same, bounded⟩

/-- Whether a number is neither a word nor a negative whole number. -/
def Number.IsReal : Number → Prop
  | real _ => True
  | _ => False

/-- A number put together of digits and a power is a double. -/
theorem assemble_gives (positive : Bool) (digits : Nat) (power : Int) :
    (assemble positive digits power).Gives Number.IsReal := by
  unfold assemble
  dsimp only
  split
  · cases grow? (.ofNat digits) power.toNat with
    | none => exact gives_fail _
    | some size => exact gives_pure trivial
  · exact gives_pure trivial

/-- A number with an exponent is a real one. -/
theorem readPower_gives (positive : Bool) (digits : Nat) (start : Int) (up : Bool) :
    (readPower positive digits start up).Gives Number.IsReal := by
  refine gives_bind fun o => ?_
  cases o with
  | none => exact gives_fail _
  | some b =>
      dsimp only
      split
      · refine gives_bind fun found => ?_
        split
        · refine gives_bind fun _ => ?_
          split
          · exact gives_fail _
          · exact gives_bind fun _ => gives_pure trivial
        · exact assemble_gives _ _ _
      · exact gives_fail _

/-- A number with an exponent is a real one, whatever its sign. -/
theorem readExponent_gives (positive : Bool) (digits : Nat) (start : Int) :
    (readExponent positive digits start).Gives Number.IsReal := by
  have power := readPower_gives positive digits start
  refine gives_bind fun _ => gives_bind fun o => ?_
  -- whichever sign there is, the same digits follow
  cases o with
  | none => exact gives_bind fun up => power up
  | some b =>
      dsimp only
      split
      · exact gives_bind fun _ => gives_bind fun up => power up
      · split
        · exact gives_bind fun _ => gives_bind fun up => power up
        · exact gives_bind fun up => power up

/-- A number with a point is a real one. -/
theorem readScale_gives (positive : Bool) (digits : Nat) (start : Int) (count : Nat)
    (more : Bool) : (readScale positive digits start count more).Gives Number.IsReal := by
  unfold readScale
  split
  · refine gives_bind fun o => ?_
    cases o with
    | none => exact gives_failAhead _
    | some b => exact gives_failAhead _
  · refine gives_bind fun ahead => ?_
    split
    · exact readExponent_gives _ _ _
    · exact assemble_gives _ _ _

/-- A number with a fraction is a real one. -/
theorem readFraction_gives (positive : Bool) (digits : Nat) (start : Int) :
    (readFraction positive digits start).Gives Number.IsReal := by
  refine gives_bind fun _ => gives_bind fun found => ?_
  obtain ⟨count, digits, more⟩ := found
  have scale := readScale_gives positive digits start count more
  dsimp only
  split
  · exact gives_bind fun _ => scale
  · exact scale

/-- What follows the digits of a whole part makes it a double, or is no part of the number. -/
theorem readTail_sound {positive : Bool} {digits : Nat} {power : Int} {whole : Reader Number}
    {c d : Cursor} {n : Number} (h : readTail positive digits power whole c = (.ok n, d)) :
    n.IsReal ∨ whole c = (.ok n, d) := by
  obtain ⟨o, e, peeked, h⟩ := bind_eq_ok.mp h
  obtain ⟨rfl, rfl⟩ : c.peek? = o ∧ c = e := ⟨Except.ok.inj (congrArg Prod.fst peeked),
    congrArg Prod.snd peeked⟩
  cases ahead : c.peek? with
  | none =>
      rw [ahead] at h
      exact Or.inr h
  | some b =>
      rw [ahead] at h
      dsimp only at h
      split at h
      · exact Or.inl (readFraction_gives _ _ _ _ _ _ h)
      · split at h
        · exact Or.inl (readExponent_gives _ _ _ _ _ _ h)
        · exact Or.inr h

/-- What a number behind its sign comes to: a double, or the digits of a whole number that fits
    a word. -/
def ComesTo (positive : Bool) (n : Number) (c d : Cursor) : Prop :=
  n.IsReal ∨ ∃ cs, IsWhole cs ∧ c.Spans cs d ∧
    n = wholeNumber positive (Nat.ofDigitChars 10 cs 0) ∧ Nat.ofDigitChars 10 cs 0 ≤ wordLimit

/-- A zero in front is the whole number, unless a tail makes it a double. -/
theorem comesTo_of_zero {positive : Bool} {b : UInt8} {bs : List UInt8} {p q : Place}
    {d : Cursor} {n : Number} (zero : is b '0' = true)
    (h : (pure (wholeNumber positive 0) : Reader Number) ⟨bs, q⟩ = (.ok n, d)) :
    ComesTo positive n ⟨b :: bs, p⟩ d := by
  obtain ⟨rfl, rfl⟩ := pure_eq_ok.mp h
  exact Or.inr ⟨['0'], .zero, spans_is zero .., rfl, by decide⟩

/-- Behind a first digit that is no zero, the digits that fit a word are the whole number. -/
theorem comesTo_of_digits {positive : Bool} {b : UInt8} {bs : List UInt8} {p q : Place}
    {d e : Cursor} {n : Number} {found : Nat × Nat × Bool} (digit : isDigit b = true)
    (nonzero : ¬is b '0' = true)
    (gathered : gatherDigits wordLimit (digitValue b) ⟨bs, q⟩ = (.ok found, e))
    (h : (pure (wholeNumber positive found.2.1) : Reader Number) e = (.ok n, d)) :
    ComesTo positive n ⟨b :: bs, p⟩ d := by
  obtain ⟨cs, all, back, same, bounded⟩ := gatherDigits_sound gathered
  obtain ⟨rfl, rfl⟩ := pure_eq_ok.mp h
  have value : Nat.ofDigitChars 10 (octet b :: cs) 0 = found.2.1 := by
    rw [same, Nat.ofDigitChars_cons, digitValue, toNat_octet, Nat.mul_zero, Nat.zero_add]
    rfl
  -- the first digit is below the limit, so what is gathered behind it is too
  have first : digitValue b ≤ wordLimit :=
    Nat.le_trans (Nat.sub_le ..) (Nat.le_trans (Nat.le_of_lt b.toNat_lt) (by decide))
  refine Or.inr ⟨octet b :: cs, .digits (isDigit_octet digit) ?_ all,
    (spans_cons b bs p _).trans back, by rw [value], ?_⟩
  · exact fun same => nonzero (is_iff.mpr same)
  · rw [value]
    exact bounded first

/-- A number behind its sign is a double, or a whole number that fits a word. -/
theorem readNumber_sound {positive : Bool} {c d : Cursor} {n : Number}
    (h : readNumber positive c = (.ok n, d)) : ComesTo positive n c d := by
  obtain ⟨bs, p⟩ := c
  cases bs with
  | nil => cases h
  | cons b bs =>
      rw [readNumber, bind_of_ok _ (take_cons _ _ _)] at h
      dsimp only at h
      split at h
      · next zero =>
          cases bs with
          | nil => exact comesTo_of_zero zero h
          | cons b' bs =>
              rw [bind_of_ok _ (peek_cons _ _ _)] at h
              dsimp only at h
              split at h
              · cases h
              · rcases readTail_sound h with real | h
                · exact Or.inl real
                · exact comesTo_of_zero zero h
      · next nonzero =>
          split at h
          · next digit =>
              obtain ⟨found, e, gathered, h⟩ := bind_eq_ok.mp h
              split at h
              -- more digits than fit a word: only a double is left
              · obtain ⟨extra, e', -, h⟩ := bind_eq_ok.mp h
                rcases readTail_sound h with real | h
                · exact Or.inl real
                · exact Or.inl (assemble_gives _ _ _ _ _ _ h)
              · rcases readTail_sound h with real | h
                · exact Or.inl real
                · exact comesTo_of_digits digit nonzero gathered h
          · cases h

/-- Where no number below zero is accepted, a whole number that is read has no sign. -/
theorem wholeBy_sound {wanted : String} {accept : Int → Option α}
    (negative : ∀ n < 0, accept n = none) {c d : Cursor} {a : α}
    (h : wholeBy wanted accept c = (.ok a, d)) : ∃ ws cs, IsSpacing ws ∧ IsWhole cs ∧
      accept (Nat.ofDigitChars 10 cs 0 : Nat) = some a ∧ c.Spans (ws ++ cs) d := by
  obtain ⟨b, t, start, h⟩ := bind_eq_ok.mp h
  obtain ⟨ws, bs, p, space, rfl, front, -⟩ := valueStart_eq_ok start
  dsimp only at h
  split at h
  · obtain ⟨_, e, -, h⟩ := bind_eq_ok.mp h
    obtain ⟨number, e', read, h⟩ := bind_eq_ok.mp h
    rcases readNumber_sound read with real | ⟨cs, -, -, rfl, -⟩
    · cases number with
      | real => cases h
      | _ => exact real.elim
    -- a number behind a minus is below zero, or a real one, and neither is accepted
    · rw [wholeNumber, if_neg Bool.false_ne_true] at h
      by_cases inside : 0 < Nat.ofDigitChars 10 cs 0 ∧
          Nat.ofDigitChars 10 cs 0 ≤ 9223372036854775808
      · rw [if_pos inside] at h
        dsimp only at h
        rw [negative _ (by omega)] at h
        cases h
      · rw [if_neg inside] at h
        cases h
  · split at h
    · obtain ⟨number, e', read, h⟩ := bind_eq_ok.mp h
      rcases readNumber_sound read with real | ⟨cs, whole, back, rfl, small⟩
      · cases number with
        | real => cases h
        | _ => exact real.elim
      -- the digits fit a word, so the word has their value
      · rw [wordLimit] at small
        have same : (UInt64.ofNat (Nat.ofDigitChars 10 cs 0)).toNat = Nat.ofDigitChars 10 cs 0 := by
          rw [UInt64.toNat_ofNat', Nat.mod_eq_of_lt (by omega)]
        rw [wholeNumber, if_pos rfl] at h
        dsimp only at h
        rw [same] at h
        cases accepted : accept (Nat.ofDigitChars 10 cs 0 : Nat) with
        | none =>
            rw [accepted] at h
            cases h
        | some a' =>
            rw [accepted] at h
            obtain ⟨rfl, rfl⟩ := pure_eq_ok.mp (placed_eq_ok.mp h)
            exact ⟨ws, cs, space, whole, accepted, front.trans back⟩
    · exact (wrongKind_gives _ (fun _ => False) _ _ _ h).elim

/-- A word, and the digits for it. -/
def WordForm (n : UInt64) (cs : List Char) : Prop :=
  IsWhole cs ∧ Nat.ofDigitChars 10 cs 0 = n.toNat

/-- What was read as a word is white space and the digits that write it. -/
theorem word64_sound {c d : Cursor} {n : UInt64} (h : word64 c = (.ok n, d)) :
    ∃ ws cs, IsSpacing ws ∧ WordForm n cs ∧ c.Spans (ws ++ cs) d := by
  obtain ⟨ws, cs, space, whole, accepted, front⟩ :=
    wholeBy_sound (fun n below => if_neg (by omega)) h
  split at accepted
  · next inside =>
      obtain rfl := Option.some.inj accepted
      refine ⟨ws, cs, space, ⟨whole, ?_⟩, front⟩
      rw [Int.toNat_natCast, UInt64.toNat_ofNat', Nat.mod_eq_of_lt (by omega)]
  · exact nomatch accepted

end Courier.Json
