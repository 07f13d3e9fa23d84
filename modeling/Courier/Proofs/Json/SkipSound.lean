import Courier.Proofs.Json.Sound

/-! # Passing over nothing but values — what was skipped is JSON

    The loop that passes over a value keeps a stack of the brackets that are
    open.  What a state still asks of the bytes ahead is written down as
    `SkipState.Asks`: a value and then, for each open bracket, the rest of
    its parts and its end.  A step takes bytes that turn what the next state
    asks into what this one did, so a run that ends has taken a value. -/

namespace Courier.Json

open Utf8 Reader Cursor

/-! ## Tokens -/

/-- Only digits are passed over as such. -/
theorem skipDigits_sound {c d : Cursor} {n : Nat}
    (h : Reader.skipWhile isDigit c = (.ok n, d)) :
    ∃ cs, Numeral.AllDigits cs ∧ cs.length = n ∧ c.Spans cs d := by
  cases h
  refine ⟨octets (c.rest.takeWhile isDigit), ?_, List.length_map .., ?_⟩
  · exact allDigits_octets fun b mem => List.mem_takeWhile_imp mem
  · exact spans_of_rest List.takeWhile_append_dropWhile.symm

/-- What was passed over as a string is the body of one and its quote. -/
theorem skipText_sound {fuel : List UInt8} {c d : Cursor}
    (h : skipText fuel c = (.ok (), d)) :
    ∃ body, IsTextBody body ∧ c.Spans (body ++ ['"']) d := by
  -- on the fuel, one character or escape a round
  induction fuel generalizing c with
  | nil => cases h
  | cons a fuel ih =>
      obtain ⟨bs, p⟩ := c
      cases bs with
      | nil => cases h
      | cons b bs =>
          rw [skipText, bind_of_ok _ (peek_cons _ _ _)] at h
          dsimp only at h
          by_cases control : b < 32
          · rw [if_pos control] at h
            cases h
          · rw [if_neg control, bind_of_ok _ (skip_cons _ _ _)] at h
            by_cases quote : is b '"' = true
            · rw [if_pos quote] at h
              cases h
              exact ⟨[], .nil, spans_is quote ..⟩
            · rw [if_neg quote] at h
              by_cases slash : is b '\\' = true
              · rw [if_pos slash] at h
                cases bs with
                | nil => cases h
                | cons mark bs =>
                    rw [bind_of_ok _ (take_cons _ _ _)] at h
                    dsimp only at h
                    split at h
                    · next number =>
                        obtain ⟨n, e, read, h⟩ := bind_eq_ok.mp h
                        obtain ⟨hs, hex, front⟩ := readHex_sound read
                        obtain ⟨body, isBody, back⟩ := ih h
                        have taken := (spans_is slash _ p (p.after b)).trans
                          ((spans_is number bs _ _).trans (front.trans back))
                        rw [← List.append_assoc hs] at taken
                        exact ⟨_, .number hex isBody, taken⟩
                    · cases known : escaped? mark with
                      | none =>
                          rw [known] at h
                          cases h
                      | some x =>
                          rw [known] at h
                          obtain ⟨body, isBody, back⟩ := ih h
                          exact ⟨_, .letter (mem_letterEscapes_of_escaped? known).1 isBody,
                            (spans_is slash _ p (p.after b)).trans
                              ((spans_cons mark bs _ _).trans back)⟩
              · rw [if_neg slash] at h
                obtain ⟨body, isBody, back⟩ := ih h
                have plain := isPlain_octet
                  ⟨control, Bool.eq_false_iff.mpr quote, Bool.eq_false_iff.mpr slash⟩
                exact ⟨_, .plain plain isBody, (spans_cons b bs p _).trans back⟩

/-- A text is passed over from its quote on, whatever is done behind it. -/
theorem isText_of_skipText {α : Type} {f : Unit → Reader α} {a : α} {b : UInt8}
    (quote : is b '"' = true) {bs : List UInt8} {p : Place} {d : Cursor}
    (h : (Reader.skip >>= fun _ => Reader.ahead >>= fun fuel => skipText fuel >>= f) ⟨b :: bs, p⟩
      = (.ok a, d)) :
    ∃ cs e, IsText cs ∧ Spans ⟨b :: bs, p⟩ cs e ∧ f () e = (.ok a, d) := by
  rw [bind_of_ok _ (skip_cons _ _ _)] at h
  obtain ⟨fuel, e, ahead, h⟩ := bind_eq_ok.mp h
  cases ahead
  obtain ⟨_, e, text, h⟩ := bind_eq_ok.mp h
  obtain ⟨body, isBody, back⟩ := skipText_sound text
  exact ⟨_, e, ⟨body, isBody, rfl⟩, (spans_is quote bs p _).trans back, h⟩

/-- What was passed over as the digits of an exponent is one digit at least. -/
theorem skipPower_sound {c d : Cursor} (h : skipPower c = (.ok (), d)) :
    ∃ x cs, x.isDigit = true ∧ Numeral.AllDigits cs ∧ c.Spans (x :: cs) d := by
  obtain ⟨bs, p⟩ := c
  cases bs with
  | nil => cases h
  | cons b bs =>
      rw [skipPower, bind_of_ok _ (take_cons _ _ _)] at h
      dsimp only at h
      split at h
      · next digit =>
          obtain ⟨n, e, more, h⟩ := bind_eq_ok.mp h
          cases h
          obtain ⟨cs, all, -, back⟩ := skipDigits_sound more
          exact ⟨octet b, cs, isDigit_octet digit, all, (spans_cons b bs p _).trans back⟩
      · cases h

/-- The mark of an exponent is ahead. -/
theorem skipExponent_sound {b : UInt8} (mark : (is b 'e' || is b 'E') = true) {bs : List UInt8}
    {p : Place} {d : Cursor} (h : skipExponent ⟨b :: bs, p⟩ = (.ok (), d)) :
    ∃ cs, IsExponent cs ∧ Spans ⟨b :: bs, p⟩ cs d := by
  have marked : octet b = 'e' ∨ octet b = 'E' := by
    rw [Bool.or_eq_true] at mark
    exact mark.imp is_iff.mp is_iff.mp
  -- whatever the sign is, the same digits have to follow it
  have power {c : Cursor} {sign : List Char} (signed : sign = [] ∨ sign = ['+'] ∨ sign = ['-'])
      (front : Spans ⟨bs, p.after b⟩ sign c) (h : skipPower c = (.ok (), d)) :
      ∃ cs, IsExponent cs ∧ Spans ⟨b :: bs, p⟩ cs d := by
    obtain ⟨x, cs, first, all, back⟩ := skipPower_sound h
    exact ⟨_, .mark marked signed first all, (spans_cons b bs p _).trans (front.trans back)⟩
  rw [skipExponent, bind_of_ok _ (skip_cons _ _ _)] at h
  cases bs with
  | nil => cases h
  | cons b' bs =>
      rw [bind_of_ok _ (peek_cons _ _ _)] at h
      dsimp only at h
      split at h
      · next sign =>
          rw [bind_of_ok _ (skip_cons _ _ _)] at h
          rw [Bool.or_eq_true] at sign
          rcases sign with plus | minus
          · exact power (Or.inr (Or.inl rfl)) (spans_is plus ..) h
          · exact power (Or.inr (Or.inr rfl)) (spans_is minus ..) h
      · exact power (Or.inl rfl) (spans_refl _) h

/-- What was passed over behind a point is a fraction, with its exponent. -/
theorem skipFraction_sound {b : UInt8} (point : is b '.' = true) {bs : List UInt8} {p : Place}
    {d : Cursor} (h : skipFraction ⟨b :: bs, p⟩ = (.ok (), d)) :
    ∃ fraction exponent, IsFraction fraction ∧ IsExponent exponent ∧
      Spans ⟨b :: bs, p⟩ (fraction ++ exponent) d := by
  rw [skipFraction, bind_of_ok _ (skip_cons _ _ _)] at h
  obtain ⟨n, e, digits, h⟩ := bind_eq_ok.mp h
  obtain ⟨cs, all, rfl, front⟩ := skipDigits_sound digits
  split at h
  · cases h
  · next some =>
      have fraction : IsFraction ('.' :: cs) := by
        cases cs with
        | nil => exact absurd rfl some
        | cons x cs => exact .point (all x List.mem_cons_self)
                          fun y mem => all y (List.mem_cons_of_mem _ mem)
      have before := (spans_is point bs p (p.after b)).trans front
      obtain ⟨bs', q⟩ := e
      cases bs' with
      | nil =>
          cases h
          exact ⟨_, [], fraction, .none, by rwa [List.append_nil]⟩
      | cons b' bs' =>
          obtain ⟨ahead, e', mark, h⟩ := bind_eq_ok.mp h
          rw [exponentAhead, bind_of_ok _ (peek_cons _ _ _)] at mark
          obtain ⟨rfl, rfl⟩ := pure_eq_ok.mp mark
          split at h
          · next mark =>
              obtain ⟨es, exponent, back⟩ := skipExponent_sound mark h
              exact ⟨_, es, fraction, exponent, before.trans back⟩
          · cases h
            exact ⟨_, [], fraction, .none, by rwa [List.append_nil]⟩

/-- What was passed over behind a number's digits is a fraction and an exponent. -/
theorem skipTail_sound {c d : Cursor} (h : skipTail c = (.ok (), d)) :
    ∃ fraction exponent, IsFraction fraction ∧ IsExponent exponent ∧
      c.Spans (fraction ++ exponent) d := by
  obtain ⟨bs, p⟩ := c
  cases bs with
  | nil =>
      cases h
      exact ⟨[], [], .none, .none, spans_refl _⟩
  | cons b bs =>
      rw [skipTail, bind_of_ok _ (peek_cons _ _ _)] at h
      dsimp only at h
      split at h
      · next point => exact skipFraction_sound point h
      · split at h
        · next mark =>
            obtain ⟨es, exponent, front⟩ := skipExponent_sound mark h
            exact ⟨[], es, .none, exponent, front⟩
        · cases h
          exact ⟨[], [], .none, .none, spans_refl _⟩

/-- What was passed over as a number is one without its sign. -/
theorem skipNumber_sound {c d : Cursor} (h : skipNumber c = (.ok (), d)) :
    ∃ cs, IsUnsigned cs ∧ c.Spans cs d := by
  -- behind either whole part come the same fraction and exponent
  have parts {whole : List Char} {e : Cursor} (isWhole : IsWhole whole) (front : c.Spans whole e)
      (h : skipTail e = (.ok (), d)) : ∃ cs, IsUnsigned cs ∧ c.Spans cs d := by
    obtain ⟨fraction, exponent, isFraction, isExponent, back⟩ := skipTail_sound h
    exact ⟨_, .parts isWhole isFraction isExponent, front.trans back⟩
  obtain ⟨bs, p⟩ := c
  cases bs with
  | nil => cases h
  | cons b bs =>
      rw [skipNumber, bind_of_ok _ (take_cons _ _ _)] at h
      dsimp only at h
      split at h
      · next zero =>
          cases bs with
          | nil => exact parts .zero (spans_is zero [] p (p.after b)) h
          | cons b' bs =>
              rw [bind_of_ok _ (peek_cons _ _ _)] at h
              dsimp only at h
              split at h
              · cases h
              · exact parts .zero (spans_is zero (b' :: bs) p (p.after b)) h
      · next nonzero =>
          split at h
          · next digit =>
              obtain ⟨n, e, digits, h⟩ := bind_eq_ok.mp h
              obtain ⟨cs, all, -, back⟩ := skipDigits_sound digits
              refine parts (.digits (isDigit_octet digit) (fun same => ?_) all)
                ((spans_cons b bs p _).trans back) h
              exact nonzero (is_iff.mpr same)
          · cases h

/-! ## Brackets -/

/-- A part of a bracket: an item with its white space, or a member. -/
inductive IsPart : Bracket → List Char → Prop where
  | item {item : Spaced} (spaced : item.IsSpaced) (value : IsValue item.core) :
      IsPart .list item.chars
  | pair {pair : Pair} (spaced : pair.IsSpaced) (name : IsText pair.name.core)
      (value : IsValue pair.value.core) : IsPart .object pair.chars

/-- Parts that are items make a list. -/
theorem isValue_of_items {gap : List Char} (space : IsSpacing gap) {parts : List (List Char)}
    (h : ∀ part ∈ parts, IsPart .list part) : IsValue (bracketed '[' ']' gap parts) := by
  have items : ∃ items : List Spaced, parts = items.map Spaced.chars ∧
      ∀ item ∈ items, item.IsSpaced ∧ IsValue item.core := by
    induction parts with
    | nil => exact ⟨[], rfl, fun _ mem => nomatch mem⟩
    | cons part parts ih =>
        obtain ⟨first, others⟩ := List.forall_mem_cons.mp h
        obtain ⟨items, rfl, all⟩ := ih others
        cases first with
        | @item item spaced value =>
            exact ⟨item :: items, rfl, List.forall_mem_cons.mpr ⟨⟨spaced, value⟩, all⟩⟩
  obtain ⟨items, rfl, all⟩ := items
  exact .list space (fun item mem => (all item mem).1) fun item mem => (all item mem).2

/-- Parts that are members make an object. -/
theorem isValue_of_pairs {gap : List Char} (space : IsSpacing gap) {parts : List (List Char)}
    (h : ∀ part ∈ parts, IsPart .object part) :
    IsValue (bracketed '\x7b' '\x7d' gap parts) := by
  have pairs : ∃ pairs : List Pair, parts = pairs.map Pair.chars ∧
      ∀ pair ∈ pairs, pair.IsSpaced ∧ IsText pair.name.core ∧ IsValue pair.value.core := by
    induction parts with
    | nil => exact ⟨[], rfl, fun _ mem => nomatch mem⟩
    | cons part parts ih =>
        obtain ⟨first, others⟩ := List.forall_mem_cons.mp h
        obtain ⟨pairs, rfl, all⟩ := ih others
        cases first with
        | @pair pair spaced name value =>
            exact ⟨pair :: pairs, rfl, List.forall_mem_cons.mpr ⟨⟨spaced, name, value⟩, all⟩⟩
  obtain ⟨pairs, rfl, all⟩ := pairs
  exact .object space (fun pair mem => (all pair mem).1) (fun pair mem => (all pair mem).2.1)
    fun pair mem => (all pair mem).2.2

/-- Parts that fit a bracket make a value. -/
theorem isValue_of_parts {bracket : Bracket} {gap : List Char} (space : IsSpacing gap)
    {parts : List (List Char)} (h : ∀ part ∈ parts, IsPart bracket part) :
    IsValue (bracketed bracket.left bracket.right gap parts) := by
  cases bracket with
  | list => exact isValue_of_items space h
  | object => exact isValue_of_pairs space h

/-! ## What a state asks of the bytes ahead -/

/-- What closes the open brackets behind a value, the innermost first. -/
inductive Closes : List Bracket → List Char → Prop where
  | nil : Closes [] []
  | cons {bracket : Bracket} {outer : List Bracket} {after rest : List Char}
      {parts : List (List Char)} (space : IsSpacing after)
      (all : ∀ part ∈ parts, IsPart bracket part) (closes : Closes outer rest) :
      Closes (bracket :: outer)
        (after ++ (parts.flatMap (',' :: ·) ++ bracket.right :: rest))

/-- What has to be ahead of a state for its run to end behind the value. -/
inductive Asks : Option SkipState → List Char → Prop where
  | done : Asks none []
  | value {opened : List Bracket} {ws cs rest : List Char} (space : IsSpacing ws)
      (value : IsValue cs) (closes : Closes opened rest) :
      Asks (some (.value opened)) (ws ++ (cs ++ rest))
  | first {bracket : Bracket} {outer : List Bracket} {gap rest : List Char}
      {parts : List (List Char)} (space : IsSpacing gap)
      (all : ∀ part ∈ parts, IsPart bracket part) (closes : Closes outer rest) :
      Asks (some (.inside bracket outer false))
        (gap ++ (commaSeparated parts ++ bracket.right :: rest))
  | later {bracket : Bracket} {outer : List Bracket} {cs : List Char}
      (closes : Closes (bracket :: outer) cs) :
      Asks (some (.inside bracket outer true)) cs

/-- Behind a value what was open around it is left to be closed. -/
theorem closes_of_asks {opened : List Bracket} {cs : List Char}
    (h : Asks (afterValue opened) cs) : Closes opened cs := by
  cases opened with
  | nil =>
      cases h
      exact .nil
  | cons bracket outer =>
      cases h with
      | later closes => exact closes

/-- The bytes that lead from one state to another: before what the other asks they are what the
    first one asks. -/
def Leads (s : SkipState) (cs : List Char) (s' : Option SkipState) : Prop :=
  ∀ rest, Asks s' rest → Asks (some s) (cs ++ rest)

/-- A value of one token. -/
theorem leads_value {opened : List Bracket} {ws cs : List Char} (space : IsSpacing ws)
    (value : IsValue cs) : Leads (.value opened) (ws ++ cs) (afterValue opened) := by
  intro rest asks
  rw [List.append_assoc]
  exact .value space value (closes_of_asks asks)

/-- An opening bracket leads inside it. -/
theorem leads_open {bracket : Bracket} {opened : List Bracket} {ws : List Char}
    (space : IsSpacing ws) :
    Leads (.value opened) (ws ++ [bracket.left]) (some (.inside bracket opened false)) := by
  intro rest asks
  cases asks with
  | @first _ _ gap rest parts inner all closes =>
      have form : ws ++ [bracket.left] ++ (gap ++ (commaSeparated parts ++ bracket.right :: rest))
          = ws ++ (bracketed bracket.left bracket.right gap parts ++ rest) := by
        simp only [bracketed, List.append_assoc, List.cons_append, List.nil_append]
      rw [form]
      exact .value space (isValue_of_parts inner all) closes

/-- A closing bracket leads behind its value. -/
theorem leads_close {bracket : Bracket} {outer : List Bracket} (comma : Bool) {ws : List Char}
    (space : IsSpacing ws) :
    Leads (.inside bracket outer comma) (ws ++ [bracket.right]) (afterValue outer) := by
  intro rest asks
  have closes := closes_of_asks asks
  rw [List.append_assoc]
  cases comma with
  | false => exact .first space (List.forall_mem_nil _) closes
  | true => exact .later (.cons space (List.forall_mem_nil _) closes)

/-! ## Steps -/

/-- What was passed over as a member's name is a string and its colon. -/
theorem skipName_sound {c d : Cursor} (h : skipName c = (.ok (), d)) :
    ∃ name : Spaced, name.IsSpaced ∧ IsText name.core ∧ c.Spans (name.chars ++ [':']) d := by
  obtain ⟨ws, b, bs, p, space, front, -, h⟩ := of_token h fun _ => ⟨_, rfl⟩
  dsimp only at h
  split at h
  · next quote =>
      obtain ⟨cs, e, isText, middle, h⟩ := isText_of_skipText quote h
      obtain ⟨after, behind, back⟩ := colon_sound h
      refine ⟨⟨ws, cs, after⟩, ⟨space, behind⟩, isText, ?_⟩
      have spans := front.trans (middle.trans back)
      rwa [show ws ++ (cs ++ (after ++ [':'])) = Spaced.chars ⟨ws, cs, after⟩ ++ [':'] by
        simp only [Spaced.chars, List.append_assoc]] at spans
  · cases h

/-- Where the next part of a bracket is begun, the value that follows ends it. -/
theorem nextInside_sound {bracket : Bracket} {outer : List Bracket} {c d : Cursor}
    {s : SkipState} (h : nextInside bracket outer c = (.ok s, d)) :
    ∃ cs, c.Spans cs d ∧ ∀ rest, Asks (some s) rest → ∃ part parts tail,
      (∀ p ∈ part :: parts, IsPart bracket p) ∧ Closes outer tail ∧
      cs ++ rest = part ++ (parts.flatMap (',' :: ·) ++ bracket.right :: tail) := by
  -- a value is all of an item, and the second half of a member behind its name
  cases bracket with
  | list =>
      rw [nextInside, if_neg (by decide)] at h
      cases h
      refine ⟨[], spans_refl _, fun rest asks => ?_⟩
      cases asks with
      | @value _ ws cs _ space value closes =>
          cases closes with
          | @cons _ _ after tail parts behind all closes =>
              refine ⟨Spaced.chars ⟨ws, cs, after⟩, parts, tail,
                List.forall_mem_cons.mpr ⟨.item ⟨space, behind⟩ value, all⟩, closes, ?_⟩
              simp only [Spaced.chars, List.append_assoc, List.nil_append]
  | object =>
      rw [nextInside, if_pos rfl] at h
      obtain ⟨_, e, named, h⟩ := bind_eq_ok.mp h
      cases h
      obtain ⟨name, nameSpaced, isText, front⟩ := skipName_sound named
      refine ⟨_, front, fun rest asks => ?_⟩
      cases asks with
      | @value _ ws cs _ space value closes =>
          cases closes with
          | @cons _ _ after tail parts behind all closes =>
              refine ⟨Pair.chars ⟨name, ⟨ws, cs, after⟩⟩, parts, tail,
                List.forall_mem_cons.mpr ⟨.pair ⟨nameSpaced, space, behind⟩ isText value, all⟩,
                closes, ?_⟩
              simp only [Pair.chars, Spaced.chars, List.append_assoc, List.cons_append,
                List.nil_append]

/-- Behind a comma the next part is one more. -/
theorem leads_comma {bracket : Bracket} {outer : List Bracket} {ws : List Char}
    (space : IsSpacing ws) {c d : Cursor} {s : Option SkipState}
    (h : (some <$> nextInside bracket outer) c = (.ok s, d)) :
    ∃ cs, c.Spans cs d ∧ Leads (.inside bracket outer true) (ws ++ ([','] ++ cs)) s := by
  obtain ⟨s', e, next, h⟩ := bind_eq_ok.mp h
  obtain ⟨rfl, rfl⟩ := pure_eq_ok.mp h
  obtain ⟨cs, front, asked⟩ := nextInside_sound next
  refine ⟨cs, front, fun rest asks => ?_⟩
  obtain ⟨part, parts, tail, all, closes, form⟩ := asked rest asks
  have whole : ws ++ ([','] ++ cs) ++ rest
      = ws ++ ((part :: parts).flatMap (',' :: ·) ++ bracket.right :: tail) := by
    rw [List.append_assoc, List.append_assoc, form, List.flatMap_cons, List.append_assoc]
    rfl
  rw [whole]
  exact .later (.cons space all closes)

/-- Right behind the opening of a bracket the next part is the first. -/
theorem leads_first {bracket : Bracket} {outer : List Bracket} {ws : List Char}
    (space : IsSpacing ws) {c d : Cursor} {s : Option SkipState}
    (h : (some <$> nextInside bracket outer) c = (.ok s, d)) :
    ∃ cs, c.Spans cs d ∧ Leads (.inside bracket outer false) (ws ++ cs) s := by
  obtain ⟨s', e, next, h⟩ := bind_eq_ok.mp h
  obtain ⟨rfl, rfl⟩ := pure_eq_ok.mp h
  obtain ⟨cs, front, asked⟩ := nextInside_sound next
  refine ⟨cs, front, fun rest asks => ?_⟩
  obtain ⟨part, parts, tail, all, closes, form⟩ := asked rest asks
  have whole : ws ++ cs ++ rest
      = ws ++ (commaSeparated (part :: parts) ++ bracket.right :: tail) := by
    rw [List.append_assoc, form, commaSeparated_cons, List.append_assoc]
  rw [whole]
  exact .first space all closes

/-- A step that starts a value passes over characters that lead where it ends. -/
theorem skipStep_value_sound {opened : List Bracket} {c d : Cursor} {s : Option SkipState}
    (h : skipStep (.value opened) c = (.ok s, d)) :
    ∃ cs, c.Spans cs d ∧ Leads (.value opened) cs s := by
  obtain ⟨ws, b, bs, p, space, front, -, h⟩ := of_token h fun _ => ⟨_, rfl⟩
  dsimp only at h
  -- three things can become of a value: one token is all of it, a word of letters is,
  -- or it opens a bracket
  have token {cs : List Char} {e : Cursor} (value : IsValue cs) (back : Spans ⟨b :: bs, p⟩ cs e)
      (h : (pure (afterValue opened) : Reader (Option SkipState)) e = (.ok s, d)) :
      ∃ cs, c.Spans cs d ∧ Leads (.value opened) cs s := by
    obtain ⟨rfl, rfl⟩ := pure_eq_ok.mp h
    exact ⟨_, front.trans back, leads_value space value⟩
  have wordFrom {x : Char} {cs : List Char} (mark : is b x = true)
      (listed : x :: cs ∈ valueWords)
      (h : (Reader.skip >>= fun _ => word cs >>= fun _ => pure (afterValue opened))
        ⟨b :: bs, p⟩ = (.ok s, d)) : ∃ cs, c.Spans cs d ∧ Leads (.value opened) cs s := by
    rw [bind_of_ok _ (skip_cons _ _ _)] at h
    obtain ⟨_, e, spelled, h⟩ := bind_eq_ok.mp h
    exact token (.word listed) ((spans_is mark bs p _).trans (word_sound spelled)) h
  have opens (bracket : Bracket) (mark : is b bracket.left = true)
      (h : (Reader.skip >>= fun _ => pure (some (.inside bracket opened false)))
        ⟨b :: bs, p⟩ = (.ok s, d)) : ∃ cs, c.Spans cs d ∧ Leads (.value opened) cs s := by
    rw [bind_of_ok _ (skip_cons _ _ _)] at h
    obtain ⟨rfl, rfl⟩ := pure_eq_ok.mp h
    exact ⟨_, front.trans (spans_is mark bs p _), leads_open space⟩
  split at h
  · next mark => exact wordFrom mark (by decide) h
  split at h
  · next mark => exact wordFrom mark (by decide) h
  split at h
  · next mark => exact wordFrom mark (by decide) h
  split at h
  · next minus =>
      rw [bind_of_ok _ (skip_cons _ _ _)] at h
      obtain ⟨_, e, number, h⟩ := bind_eq_ok.mp h
      obtain ⟨cs, unsigned, back⟩ := skipNumber_sound number
      exact token (.negative unsigned) ((spans_is minus bs p _).trans back) h
  split at h
  · obtain ⟨_, e, number, h⟩ := bind_eq_ok.mp h
    obtain ⟨cs, unsigned, back⟩ := skipNumber_sound number
    exact token (.unsigned unsigned) back h
  split at h
  · next quote =>
      obtain ⟨cs, e, isText, back, h⟩ := isText_of_skipText quote h
      exact token (.text isText) back h
  split at h
  · next mark => exact opens .list mark h
  split at h
  · next mark => exact opens .object mark h
  · exact nomatch h

/-- A step inside a bracket passes over characters that lead where it ends. -/
theorem skipStep_inside_sound {bracket : Bracket} {outer : List Bracket} {comma : Bool}
    {c d : Cursor} {s : Option SkipState}
    (stepped : skipStep (.inside bracket outer comma) c = (.ok s, d)) :
    ∃ cs, c.Spans cs d ∧ Leads (.inside bracket outer comma) cs s := by
  obtain ⟨ws, b, bs, p, space, front, -, h⟩ := of_token stepped fun _ => ⟨_, rfl⟩
  dsimp only at h
  rw [bracket.right_eq] at h
  split at h
  · next both =>
      obtain ⟨mark, rfl⟩ := (Bool.and_eq_true _ _).mp both
      rw [bind_of_ok _ (skip_cons _ _ _)] at h
      obtain ⟨cs, back, leads⟩ := leads_comma space h
      exact ⟨_, front.trans ((spans_is mark bs p _).trans back), leads⟩
  split at h
  · next mark =>
      rw [bind_of_ok _ (skip_cons _ _ _)] at h
      obtain ⟨rfl, rfl⟩ := pure_eq_ok.mp h
      exact ⟨_, front.trans (spans_is mark bs p _), leads_close comma space⟩
  split at h
  · exact nomatch h
  · next noComma =>
      obtain rfl : comma = false := Bool.eq_false_iff.mpr noComma
      obtain ⟨cs, back, leads⟩ := leads_first space h
      exact ⟨_, front.trans back, leads⟩

/-- **A STEP**: before what the next state asks, the bytes taken are what this one does. -/
theorem skipStep_sound {s : SkipState} {c d : Cursor} {s' : Option SkipState}
    (h : skipStep s c = (.ok s', d)) : ∃ cs, c.Spans cs d ∧ Leads s cs s' := by
  cases s with
  | value => exact skipStep_value_sound h
  | inside => exact skipStep_inside_sound h

/-! ## Runs -/

/-- Two steps at once pass over characters that lead where they end. -/
theorem skipTwice_sound {s : SkipState} {c d : Cursor} {s' : Option SkipState}
    (h : skipTwice s c = (.ok s', d)) : ∃ cs, c.Spans cs d ∧ Leads s cs s' := by
  obtain ⟨o, e, first, h⟩ := bind_eq_ok.mp h
  obtain ⟨xs, front, leads⟩ := skipStep_sound first
  cases o with
  | none =>
      cases h
      exact ⟨xs, front, leads⟩
  | some t =>
      obtain ⟨ys, back, leads'⟩ := skipStep_sound h
      refine ⟨xs ++ ys, front.trans back, fun rest asks => ?_⟩
      rw [List.append_assoc]
      exact leads _ (leads' rest asks)

/-- **A RUN**: one that ends has taken what its first state asked for. -/
theorem skipFrom_sound {fuel : List UInt8} {s : SkipState} {c d : Cursor}
    (h : skipFrom fuel s c = (.ok (), d)) : ∃ cs, c.Spans cs d ∧ Asks (some s) cs := by
  induction fuel generalizing s c with
  | nil => exact nomatch h
  | cons a fuel ih =>
      obtain ⟨o, e, first, h⟩ := bind_eq_ok.mp h
      obtain ⟨xs, front, leads⟩ := skipTwice_sound first
      cases o with
      | none =>
          cases h
          have asks := leads [] .done
          rw [List.append_nil] at asks
          exact ⟨xs, front, asks⟩
      | some t =>
          obtain ⟨ys, back, asks⟩ := ih h
          exact ⟨xs ++ ys, front.trans back, leads ys asks⟩

/-- **PASSING OVER**: what is passed over is one JSON value behind white space. -/
theorem skipValue_sound {c d : Cursor} (h : skipValue c = (.ok (), d)) :
    ∃ ws cs, IsSpacing ws ∧ IsValue cs ∧ c.Spans (ws ++ cs) d := by
  obtain ⟨fuel, e, ahead, h⟩ := bind_eq_ok.mp h
  cases ahead
  obtain ⟨cs, spans, asks⟩ := skipFrom_sound h
  cases asks with
  | @value _ ws cs rest space value closes =>
      cases closes
      rw [List.append_nil] at spans
      exact ⟨ws, cs, space, value, spans⟩

end Courier.Json
