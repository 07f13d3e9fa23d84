import Courier.Proofs.Json.Number
import Courier.Proofs.Json.Text

/-! # Passing over values — every JSON value, of any shape and depth

    Passing over a value keeps the open brackets on a stack and takes one
    step per token or so.  A value is passed over in at most twice as many
    steps as it has bytes, whatever is open around it, and leaves what was
    open as it was; that is what the fuel of the loop allows for.  The proof
    goes along the grammar, with one lemma for the parts of a bracket. -/

namespace Courier.Json

open Utf8 Reader

/-! ## Steps -/

/-- So many steps lead from one state and cursor to another. -/
inductive Passes : Nat → Option SkipState → Cursor → Option SkipState → Cursor → Prop where
  | done (s : Option SkipState) (c : Cursor) : Passes 0 s c s c
  | step {n : Nat} {s : SkipState} {s' t : Option SkipState} {c c' d : Cursor}
      (first : skipStep s c = (.ok s', c')) (rest : Passes n s' c' t d) :
      Passes (n + 1) (some s) c t d

/-- Steps in a row are steps. -/
theorem Passes.trans {m n : Nat} {s t u : Option SkipState} {c d e : Cursor}
    (h : Passes m s c t d) (h' : Passes n t d u e) : Passes (m + n) s c u e := by
  induction h with
  | done => rwa [Nat.zero_add]
  | step first _ ih =>
      rw [Nat.add_right_comm]
      exact .step first (ih h')

theorem passes_one {s : SkipState} {s' : Option SkipState} {c d : Cursor}
    (h : skipStep s c = (.ok s', d)) : Passes 1 (some s) c s' d := .step h (.done s' d)

/-- Where the steps are at most two for each unit of fuel, the loop comes to their end. -/
theorem skipFrom_of_passes : ∀ (fuel : List UInt8) {n : Nat} {s : SkipState} {c d : Cursor},
    Passes n (some s) c none d → n ≤ 2 * fuel.length → skipFrom fuel s c = (.ok (), d) := by
  intro fuel
  induction fuel with
  | nil =>
      intro n s c d h enough
      cases h with
      | step => exact absurd enough (by rw [List.length_nil]; omega)
  | cons a fuel ih =>
      intro n s c d h enough
      rw [List.length_cons] at enough
      -- a unit of fuel is two steps, unless the value ends with the first of them
      cases h with
      | @step m _ s' _ _ c' _ first rest =>
          cases rest with
          | done =>
              have twice : skipTwice s c = (.ok none, d) := by
                rw [skipTwice, bind_of_ok _ first]
                rfl
              rw [skipFrom, bind_of_ok _ twice]
              rfl
          | @step m s₁ s'' _ _ c'' _ second rest =>
              have twice : skipTwice s c = (.ok s'', c'') := by
                rw [skipTwice, bind_of_ok _ first]
                exact second
              rw [skipFrom, bind_of_ok _ twice]
              cases rest with
              | done => rfl
              | step third rest =>
                  exact ih (.step third rest) (by omega)

/-! ## White space and numbers, byte by byte -/

theorem IsSpacing.narrows {ws : List Char} (h : IsSpacing ws) : narrows ws = encode ws :=
  narrows_eq_encode fun _ mem => (h.byte mem).1

/-- Behind white space the next byte is ahead, the text narrowed. -/
theorem peekToken_narrows {ws : List Char} (space : IsSpacing ws) {b : UInt8}
    (h : isSpace b = false) (rest : List UInt8) (p : Place) :
    peekToken ⟨narrows ws ++ b :: rest, p⟩
      = (.ok (some b), ⟨b :: rest, (narrows ws).foldl Place.after p⟩) := by
  rw [space.narrows]
  exact peekToken_spacing space h rest p

theorem IsWhole.small {cs : List Char} (h : IsWhole cs) : ∀ c ∈ cs, c.toNat < 0x80 := by
  cases h with
  | zero => simp
  | digits first _ rest =>
      exact List.forall_mem_cons.mpr
        ⟨(byte_of_isDigit first).1, fun c mem => (byte_of_isDigit (rest c mem)).1⟩

/-- The characters of a number are ASCII. -/
theorem IsUnsigned.small {cs : List Char} (h : IsUnsigned cs) : ∀ c ∈ cs, c.toNat < 0x80 := by
  have digits {ds : List Char} (all : Numeral.AllDigits ds) : ∀ c ∈ ds, c.toNat < 0x80 :=
    fun c mem => (byte_of_isDigit (all c mem)).1
  have digit {c : Char} (isDigit : c.isDigit = true) : c.toNat < 0x80 := (byte_of_isDigit isDigit).1
  cases h with
  | parts isWhole isFraction isExponent =>
      simp only [List.forall_mem_append]
      refine ⟨isWhole.small, ?_, ?_⟩
      · cases isFraction with
        | none => simp
        | point first rest =>
            exact List.forall_mem_cons.mpr
              ⟨by decide, List.forall_mem_cons.mpr ⟨digit first, digits rest⟩⟩
      · cases isExponent with
        | none => simp
        | mark mark signed first rest =>
            refine List.forall_mem_cons.mpr ⟨(byte_of_mark mark).1, ?_⟩
            refine List.forall_mem_append.mpr
              ⟨?_, List.forall_mem_cons.mpr ⟨digit first, digits rest⟩⟩
            rcases signed with rfl | rfl | rfl <;> simp

/-! ## Single values -/

/-- A word of small characters is read letter by letter. -/
theorem takes_word (cs : List Char) (small : ∀ c ∈ cs, c.toNat < 0x80) :
    (word cs).Takes (narrows cs) () := by
  induction cs with
  | nil => exact takes_pure ()
  | cons c cs ih =>
      rw [narrows_ascii (small c List.mem_cons_self), word]
      refine (takes_take (ascii c)).bind (x := [ascii c]) ?_
      dsimp only
      have same : is (ascii c) c = true :=
        beq_iff_eq.mpr (toNat_ascii (small c List.mem_cons_self))
      rw [if_pos same]
      exact ih fun c hc => small c (List.mem_cons_of_mem _ hc)

/-- A word is passed over letter by letter, of which the first one is known. -/
theorem takes_wordFrom (b : UInt8) {cs : List Char} (small : ∀ c ∈ cs, c.toNat < 0x80)
    {α : Type} (a : α) :
    (do Reader.skip; word cs; pure a : Reader α).Takes (b :: narrows cs) a := by
  have rest : (do word cs; pure a : Reader α).Takes (narrows cs ++ []) a :=
    (takes_word cs small).bind (takes_pure a)
  rw [List.append_nil] at rest
  exact (takes_skip b).bind rest

/-- A fixed word is passed over in one step. -/
theorem skipStep_word {cs : List Char} (h : cs ∈ valueWords) {ws : List Char}
    (space : IsSpacing ws) (opened : List Bracket) (rest : List UInt8) (p : Place) :
    ∃ p', skipStep (.value opened) ⟨narrows (ws ++ cs) ++ rest, p⟩
      = (.ok (afterValue opened), ⟨rest, p'⟩) := by
  simp only [valueWords, List.mem_cons, List.not_mem_nil, or_false] at h
  rcases h with rfl | rfl | rfl
  · rw [narrows_append, narrows_ascii (by decide), List.append_assoc, List.cons_append, skipStep,
      bind_of_ok _ (peekToken_narrows space (by decide) _ _)]
    dsimp only
    rw [if_pos (by decide)]
    exact takes_wordFrom _ (by simp) _ rest _
  · rw [narrows_append, narrows_ascii (by decide), List.append_assoc, List.cons_append, skipStep,
      bind_of_ok _ (peekToken_narrows space (by decide) _ _)]
    dsimp only
    rw [if_neg (by decide), if_pos (by decide)]
    exact takes_wordFrom _ (by simp) _ rest _
  · rw [narrows_append, narrows_ascii (by decide), List.append_assoc, List.cons_append, skipStep,
      bind_of_ok _ (peekToken_narrows space (by decide) _ _)]
    dsimp only
    rw [if_neg (by decide), if_neg (by decide), if_pos (by decide)]
    exact takes_wordFrom _ (by simp) _ rest _

/-- The first digit of a number without its sign. -/
theorem IsUnsigned.head {cs : List Char} (h : IsUnsigned cs) :
    ∃ c rest, cs = c :: rest ∧ c.isDigit = true := by
  cases h with
  | parts isWhole =>
      obtain ⟨c, rest, rfl, first⟩ := isWhole.head
      exact ⟨c, _, rfl, first⟩

/-- A digit is no other token, nor white space. -/
theorem token_of_isDigit {c : Char} (h : c.isDigit = true) : isSpace (ascii c) = false ∧
    is (ascii c) 'n' = false ∧ is (ascii c) 't' = false ∧ is (ascii c) 'f' = false ∧
    is (ascii c) '-' = false ∧ is (ascii c) ']' = false ∧ is (ascii c) '\x7d' = false := by
  have range := toNat_of_isDigit h
  have clear : ∀ n < 58, 48 ≤ n → isSpace (.ofNat n) = false ∧ is (.ofNat n) 'n' = false ∧
      is (.ofNat n) 't' = false ∧ is (.ofNat n) 'f' = false ∧ is (.ofNat n) '-' = false ∧
      is (.ofNat n) ']' = false ∧ is (.ofNat n) '\x7d' = false := by decide
  exact clear c.toNat (by omega) range.1

/-- An unsigned number is passed over in one step. -/
theorem skipStep_unsigned {cs : List Char} (h : IsUnsigned cs) {ws : List Char}
    (space : IsSpacing ws) (opened : List Bracket) {rest : List UInt8} (ends : Ends rest)
    (p : Place) : ∃ p', skipStep (.value opened) ⟨narrows (ws ++ cs) ++ rest, p⟩
      = (.ok (afterValue opened), ⟨rest, p'⟩) := by
  obtain ⟨p', hp⟩ := takes_skipNumber h rest ends ((narrows ws).foldl Place.after p)
  rw [← narrows_eq_encode h.small] at hp
  obtain ⟨c, cs, rfl, first⟩ := h.head
  obtain ⟨small, digit, -⟩ := byte_of_isDigit first
  obtain ⟨noSpace, noN, noT, noF, noMinus, -⟩ := token_of_isDigit first
  refine ⟨p', ?_⟩
  rw [narrows_ascii small, List.cons_append] at hp
  rw [narrows_append, narrows_ascii small, List.append_assoc, List.cons_append, skipStep,
    bind_of_ok _ (peekToken_narrows space noSpace _ _)]
  dsimp only
  rw [noN, noT, noF, noMinus, if_neg Bool.false_ne_true, if_neg Bool.false_ne_true,
    if_neg Bool.false_ne_true, if_neg Bool.false_ne_true, if_pos digit, bind_of_ok _ hp]
  rfl

/-- A negative number is passed over in one step. -/
theorem skipStep_negative {cs : List Char} (h : IsUnsigned cs) {ws : List Char}
    (space : IsSpacing ws) (opened : List Bracket) {rest : List UInt8} (ends : Ends rest)
    (p : Place) : ∃ p', skipStep (.value opened) ⟨narrows (ws ++ '-' :: cs) ++ rest, p⟩
      = (.ok (afterValue opened), ⟨rest, p'⟩) := by
  obtain ⟨p', hp⟩ := takes_skipNumber h rest ends
    (((narrows ws).foldl Place.after p).after (ascii '-'))
  rw [← narrows_eq_encode h.small] at hp
  refine ⟨p', ?_⟩
  rw [narrows_append, narrows_ascii (by decide), List.append_assoc, List.cons_append, skipStep,
    bind_of_ok _ (peekToken_narrows space (by decide) _ _)]
  dsimp only
  rw [if_neg (by decide), if_neg (by decide), if_neg (by decide), if_pos (by decide),
    bind_of_ok _ (skip_cons _ _ _), bind_of_ok _ hp]
  rfl

/-- What is ahead is fuel enough for a text that is ahead. -/
theorem skipText_ahead {body : List Char} (h : IsTextBody body) (rest : List UInt8) (p : Place) :
    ∃ p', (Reader.ahead >>= skipText) ⟨narrows (body ++ ['"']) ++ rest, p⟩
      = (.ok (), ⟨rest, p'⟩) := by
  have fuel : body.length < (narrows (body ++ ['"']) ++ rest).length := by
    rw [List.length_append, length_narrows, List.length_append, List.length_singleton]
    omega
  exact takes_skipText h _ fuel rest p

/-- A string is passed over in one step. -/
theorem skipStep_text {cs : List Char} (h : IsText cs) {ws : List Char} (space : IsSpacing ws)
    (opened : List Bracket) (rest : List UInt8) (p : Place) :
    ∃ p', skipStep (.value opened) ⟨narrows (ws ++ cs) ++ rest, p⟩
      = (.ok (afterValue opened), ⟨rest, p'⟩) := by
  obtain ⟨body, isBody, rfl⟩ := h
  obtain ⟨p', hp⟩ := skipText_ahead isBody rest (((narrows ws).foldl Place.after p).after (ascii '"'))
  refine ⟨p', ?_⟩
  rw [narrows_append, narrows_ascii (by decide), List.append_assoc, List.cons_append, skipStep,
    bind_of_ok _ (peekToken_narrows space (by decide) _ _)]
  dsimp only
  rw [if_neg (by decide), if_neg (by decide), if_neg (by decide), if_neg (by decide),
    if_neg (by decide), if_pos (by decide), bind_of_ok _ (skip_cons _ _ _)]
  have read := bind_of_ok (fun _ => (pure (afterValue opened) : Reader (Option SkipState))) hp
  exact read

/-! ## Brackets -/

/-- The character that opens a bracket. -/
def Bracket.left : Bracket → Char
  | .list => '['
  | .object => '\x7b'

/-- The character that closes a bracket. -/
def Bracket.right : Bracket → Char
  | .list => ']'
  | .object => '\x7d'

/-- The closing bracket that is looked for is that of the opened one. -/
theorem Bracket.right_eq (bracket : Bracket) :
    (if bracket = .list then ']' else '\x7d') = bracket.right := by
  cases bracket <;> rfl

theorem Bracket.right_small (bracket : Bracket) : bracket.right.toNat < 0x80 := by
  cases bracket <;> decide

/-- An opening bracket is passed in one step, which leads inside it. -/
theorem skipStep_open (bracket : Bracket) {ws : List Char} (space : IsSpacing ws)
    (opened : List Bracket) (rest : List UInt8) (p : Place) :
    ∃ p', skipStep (.value opened) ⟨narrows ws ++ ascii bracket.left :: rest, p⟩
      = (.ok (some (.inside bracket opened false)), ⟨rest, p'⟩) := by
  refine ⟨((narrows ws).foldl Place.after p).after (ascii bracket.left), ?_⟩
  cases bracket with
  | list =>
      rw [skipStep, bind_of_ok _ (peekToken_narrows space (by decide) _ _)]
      rfl
  | object =>
      rw [skipStep, bind_of_ok _ (peekToken_narrows space (by decide) _ _)]
      rfl

/-- A closing bracket is passed in one step, which ends the value. -/
theorem skipStep_close (bracket : Bracket) (comma : Bool) {ws : List Char} (space : IsSpacing ws)
    (outer : List Bracket) (rest : List UInt8) (p : Place) :
    ∃ p', skipStep (.inside bracket outer comma) ⟨narrows ws ++ ascii bracket.right :: rest, p⟩
      = (.ok (afterValue outer), ⟨rest, p'⟩) := by
  refine ⟨((narrows ws).foldl Place.after p).after (ascii bracket.right), ?_⟩
  cases bracket with
  | list =>
      rw [skipStep, bind_of_ok _ (peekToken_narrows space (by decide) _ _)]
      rfl
  | object =>
      rw [skipStep, bind_of_ok _ (peekToken_narrows space (by decide) _ _)]
      rfl

theorem map_some_of_ok {α : Type} {r : Reader α} {c d : Cursor} {a : α} (h : r c = (.ok a, d)) :
    (some <$> r) c = (.ok (some a), d) := by
  show (r >>= _) c = _
  rw [bind_of_ok _ h]
  rfl

/-- Behind a comma the next part is passed over. -/
theorem skipStep_comma (bracket : Bracket) {ws : List Char} (space : IsSpacing ws)
    (outer : List Bracket) (rest : List UInt8) (p : Place) :
    ∃ p', skipStep (.inside bracket outer true) ⟨narrows ws ++ ascii ',' :: rest, p⟩
      = (some <$> nextInside bracket outer) ⟨rest, p'⟩ := by
  refine ⟨((narrows ws).foldl Place.after p).after (ascii ','), ?_⟩
  rw [skipStep, bind_of_ok _ (peekToken_narrows space (by decide) _ _)]
  rfl

/-- Right behind the opening of a bracket its first part is passed over. -/
theorem skipStep_first (bracket : Bracket) {ws : List Char} (space : IsSpacing ws) {b : UInt8}
    (noSpace : isSpace b = false) (noEnd : is b bracket.right = false) (outer : List Bracket)
    (rest : List UInt8) (p : Place) :
    ∃ p', skipStep (.inside bracket outer false) ⟨narrows ws ++ b :: rest, p⟩
      = (some <$> nextInside bracket outer) ⟨b :: rest, p'⟩ := by
  refine ⟨(narrows ws).foldl Place.after p, ?_⟩
  rw [skipStep, bind_of_ok _ (peekToken_narrows space noSpace _ _)]
  dsimp only
  rw [Bool.and_false, if_neg Bool.false_ne_true, bracket.right_eq, noEnd, if_neg Bool.false_ne_true,
    if_neg Bool.false_ne_true]

/-- How a part of a bracket is passed over: behind any white space, and up to white space. -/
def PassesPart (bracket : Bracket) (part : List Char) : Prop :=
  ∃ before inner after, part = before ++ (inner ++ after) ∧ IsSpacing before ∧
    IsSpacing after ∧
    (∃ b bs, narrows inner = b :: bs ∧ isSpace b = false ∧ is b bracket.right = false) ∧
    ∀ ws, IsSpacing ws → ∀ outer rest, Ends rest → ∀ p, ∃ n c p',
      n ≤ 2 * (narrows inner).length ∧
      nextInside bracket outer ⟨narrows (ws ++ inner) ++ rest, p⟩
        = (.ok (.value (bracket :: outer)), c) ∧
      Passes n (some (.value (bracket :: outer))) c (some (.inside bracket outer true)) ⟨rest, p'⟩

theorem ends_right (bracket : Bracket) (rest : List UInt8) :
    Ends (ascii bracket.right :: rest) := by
  cases bracket with
  | list => exact ends_cons (by decide) _
  | object => exact ends_cons (by decide) _

/-- What follows a part, a comma or the closing, ends a number. -/
theorem ends_behind (bracket : Bracket) {after : List Char} (space : IsSpacing after)
    {later : List UInt8} (comma : ∀ b, later.head? = some b → b = ascii ',')
    (rest : List UInt8) : Ends (encode after ++ (later ++ ascii bracket.right :: rest)) := by
  refine space.ends ?_
  cases later with
  | nil => exact ends_right bracket rest
  | cons b later =>
      rw [comma b rfl]
      exact ends_cons (by decide) _

/-- Parts behind the first begin with a comma. -/
theorem ends_parts (bracket : Bracket) {after : List Char} (space : IsSpacing after)
    (parts : List (List Char)) (rest : List UInt8) :
    Ends (encode (after ++ parts.flatMap (',' :: ·)) ++ ascii bracket.right :: rest) := by
  rw [encode_append, List.append_assoc]
  refine ends_behind bracket space (fun b head => ?_) rest
  cases parts with
  | nil => exact nomatch head
  | cons part parts =>
      rw [List.flatMap_cons, List.cons_append, encode_ascii (by decide)] at head
      exact (Option.some.inj head).symm

/-- The parts inside a bracket end what stands before them. -/
theorem ends_parts_narrows (bracket : Bracket) {after : List Char} (space : IsSpacing after)
    (parts : List (List Char)) (rest : List UInt8) :
    Ends (narrows (after ++ parts.flatMap (',' :: ·)) ++ ascii bracket.right :: rest) := by
  rw [narrows_append, List.append_assoc, space.narrows]
  refine ends_behind bracket space (fun b head => ?_) rest
  cases parts with
  | nil => exact nomatch head
  | cons part parts =>
      rw [List.flatMap_cons, List.cons_append, narrows_ascii (by decide)] at head
      exact (Option.some.inj head).symm

/-- The parts behind the first, each with its comma, are passed over up to the closing. -/
theorem passes_parts (bracket : Bracket) (outer : List Bracket) (rest : List UInt8)
    {parts : List (List Char)} (h : ∀ part ∈ parts, PassesPart bracket part) :
    ∀ after, IsSpacing after → ∀ p, ∃ n p',
      n ≤ 2 * (narrows (parts.flatMap (',' :: ·))).length + 1 ∧
      Passes n (some (.inside bracket outer true))
        ⟨narrows (after ++ parts.flatMap (',' :: ·)) ++ ascii bracket.right :: rest, p⟩
        (afterValue outer) ⟨rest, p'⟩ := by
  induction parts with
  | nil =>
      intro after space p
      obtain ⟨p', closed⟩ := skipStep_close bracket true space outer rest p
      refine ⟨1, p', Nat.le_add_left .., ?_⟩
      rw [List.flatMap_nil, List.append_nil]
      exact passes_one closed
  | cons part parts ih =>
      intro after space p
      obtain ⟨before, inner, behind, rfl, spaceBefore, spaceBehind, -, passes⟩ :=
        h part List.mem_cons_self
      obtain ⟨p₁, comma⟩ := skipStep_comma bracket space outer
        (narrows (before ++ inner) ++
          (narrows (behind ++ parts.flatMap (',' :: ·)) ++ ascii bracket.right :: rest)) p
      obtain ⟨m, c, p₂, few, next, value⟩ := passes before spaceBefore outer _
        (ends_parts_narrows bracket spaceBehind parts rest) p₁
      obtain ⟨n, p₃, fewer, others⟩ :=
        ih (fun part hp => h part (List.mem_cons_of_mem _ hp)) behind spaceBehind p₂
      rw [map_some_of_ok next] at comma
      -- the step over the comma is paid for by its byte
      refine ⟨m + n + 1, p₃, ?_, ?_⟩
      · rw [List.flatMap_cons, List.cons_append, narrows_ascii (by decide), List.length_cons,
          narrows_append, narrows_append, narrows_append, List.length_append, List.length_append,
          List.length_append]
        omega
      · refine .step ?_ (value.trans others)
        rw [← comma, List.flatMap_cons]
        simp only [narrows_append, narrows_ascii (show ','.toNat < 0x80 by decide),
          List.cons_append, List.append_assoc]

/-- The bytes of a bracket behind white space, with its opening and its closing apart. -/
theorem narrows_bracketed {left right : Char} (small : left.toNat < 0x80 ∧ right.toNat < 0x80)
    (ws gap : List Char) (parts : List (List Char)) (rest : List UInt8) :
    narrows (ws ++ bracketed left right gap parts) ++ rest
      = narrows ws ++ ascii left
        :: (narrows (gap ++ commaSeparated parts) ++ ascii right :: rest) := by
  simp only [bracketed, narrows_append, narrows_ascii small.1, narrows_ascii small.2,
    List.append_assoc, List.cons_append]
  rfl

/-- A bracket is passed over where its parts are, behind any white space. -/
theorem passes_bracketed (bracket : Bracket) {gap : List Char} (space : IsSpacing gap)
    {parts : List (List Char)} (h : ∀ part ∈ parts, PassesPart bracket part) :
    ∀ ws, IsSpacing ws → ∀ opened rest, ∀ p, ∃ n p',
      n ≤ 2 * (narrows (bracketed bracket.left bracket.right gap parts)).length ∧
      Passes n (some (.value opened))
        ⟨narrows (ws ++ bracketed bracket.left bracket.right gap parts) ++ rest, p⟩
        (afterValue opened) ⟨rest, p'⟩ := by
  intro ws spaceBefore opened rest p
  have left : bracket.left.toNat < 0x80 := by
    cases bracket <;> decide
  have close : narrows [bracket.right] = [ascii bracket.right] := by
    rw [narrows_ascii bracket.right_small]
    rfl
  obtain ⟨p₁, opens⟩ := skipStep_open bracket spaceBefore opened
    (narrows gap ++ (narrows (commaSeparated parts) ++ ascii bracket.right :: rest)) p
  rw [narrows_bracketed ⟨left, bracket.right_small⟩, narrows_append gap, List.append_assoc]
  simp only [bracketed, narrows_append, narrows_ascii left, close, List.length_append,
    List.length_cons, List.length_nil]
  cases parts with
  | nil =>
      obtain ⟨p₂, closed⟩ := skipStep_close bracket false space opened rest p₁
      exact ⟨2, p₂, by omega, .step opens (passes_one closed)⟩
  | cons part parts =>
      obtain ⟨before, inner, behind, rfl, spaceFront, spaceBehind, ⟨b, bs, head, noSpace, noEnd⟩,
        passes⟩ := h part List.mem_cons_self
      obtain ⟨p₂, first⟩ := skipStep_first bracket (space.append spaceFront) noSpace noEnd opened
        (bs ++ (narrows (behind ++ parts.flatMap (',' :: ·)) ++ ascii bracket.right :: rest)) p₁
      rw [← List.cons_append, ← head] at first
      obtain ⟨m, c, p₃, few, next, value⟩ := passes [] isSpacing_nil opened _
        (ends_parts_narrows bracket spaceBehind parts rest) p₂
      rw [List.nil_append] at next
      obtain ⟨n, p₄, fewer, others⟩ := passes_parts bracket opened rest
        (fun part hp => h part (List.mem_cons_of_mem _ hp)) behind spaceBehind p₃
      rw [map_some_of_ok next] at first
      have inside : narrows gap ++ (narrows (commaSeparated ((before ++ (inner ++ behind)) :: parts))
            ++ ascii bracket.right :: rest)
          = narrows (gap ++ before) ++ (narrows inner ++
            (narrows (behind ++ parts.flatMap (',' :: ·)) ++ ascii bracket.right :: rest)) := by
        simp only [commaSeparated_cons, narrows_append, List.append_assoc]
      rw [inside] at opens ⊢
      -- one step opens the bracket and one finds the first part; the two brackets pay for them
      refine ⟨m + n + 1 + 1, p₄, ?_, .step opens (.step first (value.trans others))⟩
      simp only [commaSeparated_cons, narrows_append, List.length_append]
      omega

/-! ## All values -/

/-- The first character of a value is ASCII, no white space, and closes no bracket. -/
theorem IsValue.head {cs : List Char} (h : IsValue cs) : ∃ c ds, cs = c :: ds ∧
    c.toNat < 0x80 ∧ isSpace (ascii c) = false ∧ is (ascii c) ']' = false ∧
    is (ascii c) '\x7d' = false := by
  cases h with
  | word word =>
      simp only [valueWords, List.mem_cons, List.not_mem_nil, or_false] at word
      rcases word with rfl | rfl | rfl
      · exact ⟨_, _, rfl, by decide, by decide, by decide, by decide⟩
      · exact ⟨_, _, rfl, by decide, by decide, by decide, by decide⟩
      · exact ⟨_, _, rfl, by decide, by decide, by decide, by decide⟩
  | unsigned number =>
      obtain ⟨c, rest, rfl, first⟩ := number.head
      obtain ⟨noSpace, -, -, -, -, noList, noObject⟩ := token_of_isDigit first
      exact ⟨c, rest, rfl, (byte_of_isDigit first).1, noSpace, noList, noObject⟩
  | negative => exact ⟨_, _, rfl, by decide, by decide, by decide, by decide⟩
  | text text =>
      obtain ⟨body, -, rfl⟩ := text
      exact ⟨_, _, rfl, by decide, by decide, by decide, by decide⟩
  | list => exact ⟨_, _, rfl, by decide, by decide, by decide, by decide⟩
  | object => exact ⟨_, _, rfl, by decide, by decide, by decide, by decide⟩

theorem IsValue.length_pos {cs : List Char} (h : IsValue cs) : 0 < (narrows cs).length := by
  obtain ⟨c, ds, rfl, -⟩ := h.head
  exact Nat.succ_pos _

/-- A value is passed over behind any white space, inside any open brackets. -/
def PassesValue (cs : List Char) : Prop :=
  ∀ ws, IsSpacing ws → ∀ opened rest, Ends rest → ∀ p, ∃ n p', n ≤ 2 * (narrows cs).length ∧
    Passes n (some (.value opened)) ⟨narrows (ws ++ cs) ++ rest, p⟩ (afterValue opened) ⟨rest, p'⟩

/-- An item of a list is passed over as its value is. -/
theorem passesPart_item {item : Spaced} (spaced : item.IsSpaced) (isValue : IsValue item.core)
    (h : PassesValue item.core) : PassesPart .list item.chars := by
  obtain ⟨c, ds, head, small, noSpace, noEnd, -⟩ := isValue.head
  refine ⟨item.before, item.core, item.after, rfl, spaced.1, spaced.2,
    ⟨ascii c, narrows ds, by rw [head, narrows_ascii small], noSpace, noEnd⟩, ?_⟩
  intro ws space outer rest ends p
  obtain ⟨n, p', few, passes⟩ := h ws space (.list :: outer) rest ends p
  exact ⟨n, _, p', few, rfl, passes⟩

/-- The name of a member and its colon are passed over, up to its value. -/
theorem skipName_pair {name : Spaced} (spaced : name.IsSpaced) (isText : IsText name.core)
    {ws : List Char} (space : IsSpacing ws) (rest : List UInt8) (p : Place) :
    ∃ p', skipName ⟨narrows (ws ++ (name.core ++ (name.after ++ [':']))) ++ rest, p⟩
      = (.ok (), ⟨rest, p'⟩) := by
  obtain ⟨body, isBody, form⟩ := isText
  obtain ⟨p₁, named⟩ := skipText_ahead isBody (narrows name.after ++ [ascii ':'] ++ rest)
    (((narrows ws).foldl Place.after p).after (ascii '"'))
  obtain ⟨p₂, parted⟩ := takes_colon spaced.2 rest p₁
  rw [← IsSpacing.narrows spaced.2] at parted
  refine ⟨p₂, ?_⟩
  have bytes : narrows (ws ++ (name.core ++ (name.after ++ [':']))) ++ rest
      = narrows ws ++ ascii '"'
        :: (narrows (body ++ ['"']) ++ (narrows name.after ++ [ascii ':'] ++ rest)) := by
    rw [form]
    simp only [narrows_append, List.cons_append, narrows_ascii (show '"'.toNat < 0x80 by decide),
      List.append_assoc]
    rfl
  rw [bytes, skipName, bind_of_ok _ (peekToken_narrows space (by decide) _ _)]
  -- behind the quote stand the rest of the name and its colon
  have read := bind_of_ok (fun _ => colon) named
  rw [parted] at read
  exact read

/-- A member of an object is passed over as its name and its value are. -/
theorem passesPart_pair {pair : Pair} (spaced : pair.IsSpaced) (isText : IsText pair.name.core)
    (h : PassesValue pair.value.core) : PassesPart .object pair.chars := by
  refine ⟨pair.name.before,
    (pair.name.core ++ (pair.name.after ++ [':'])) ++ (pair.value.before ++ pair.value.core),
    pair.value.after, ?_, spaced.1.1, spaced.2.2, ?_, ?_⟩
  · simp only [Pair.chars, Spaced.chars, List.append_assoc, List.cons_append, List.nil_append]
  · obtain ⟨body, -, form⟩ := isText
    rw [form]
    exact ⟨_, _, narrows_ascii (by decide) _, by decide, by decide⟩
  · intro ws space outer rest ends p
    obtain ⟨p₁, named⟩ := skipName_pair spaced.1 isText space
      (narrows (pair.value.before ++ pair.value.core) ++ rest) p
    obtain ⟨n, p₂, few, passes⟩ := h pair.value.before spaced.2.1 (.object :: outer) rest ends p₁
    refine ⟨n, _, p₂, ?_, ?_, passes⟩
    · simp only [narrows_append, List.length_append]
      omega
    · rw [← List.append_assoc ws, narrows_append, List.append_assoc, nextInside, if_pos rfl,
        bind_of_ok _ named]
      rfl

/-- **PASSING OVER**: every JSON value is passed over in at most two steps for each of its bytes,
    and leaves the brackets around it open. -/
theorem IsValue.passes {cs : List Char} (h : IsValue cs) : PassesValue cs := by
  -- along the grammar: a single value is one step, a bracket as many as its parts and two more
  induction h with
  | word word =>
      intro ws space opened rest _ p
      obtain ⟨p', stepped⟩ := skipStep_word word space opened rest p
      refine ⟨1, p', ?_, passes_one stepped⟩
      have some := (IsValue.word word).length_pos
      omega
  | unsigned number =>
      intro ws space opened rest ends p
      obtain ⟨p', stepped⟩ := skipStep_unsigned number space opened ends p
      refine ⟨1, p', ?_, passes_one stepped⟩
      have some := (IsValue.unsigned number).length_pos
      omega
  | negative number =>
      intro ws space opened rest ends p
      obtain ⟨p', stepped⟩ := skipStep_negative number space opened ends p
      refine ⟨1, p', ?_, passes_one stepped⟩
      rw [narrows_ascii (by decide), List.length_cons]
      omega
  | text text =>
      intro ws space opened rest _ p
      obtain ⟨p', stepped⟩ := skipStep_text text space opened rest p
      refine ⟨1, p', ?_, passes_one stepped⟩
      have some := (IsValue.text text).length_pos
      omega
  | list space spaced values ih =>
      intro ws spaceBefore opened rest _ p
      refine passes_bracketed .list space ?_ ws spaceBefore opened rest p
      intro part mem
      obtain ⟨item, listed, rfl⟩ := List.mem_map.mp mem
      exact passesPart_item (spaced item listed) (values item listed) (ih item listed)
  | object space spaced names values ih =>
      intro ws spaceBefore opened rest _ p
      refine passes_bracketed .object space ?_ ws spaceBefore opened rest p
      intro part mem
      obtain ⟨pair, listed, rfl⟩ := List.mem_map.mp mem
      exact passesPart_pair (spaced pair listed) (names pair listed) (ih pair listed)

/-- A value is passed over behind any white space, where what follows ends a number. -/
theorem takes_skipValue_narrows {cs : List Char} (h : IsValue cs) {ws : List Char}
    (space : IsSpacing ws) : skipValue.TakesBefore (narrows (ws ++ cs)) () := by
  intro rest ends place
  obtain ⟨n, p, few, passes⟩ := h.passes ws space [] rest ends place
  refine ⟨p, ?_⟩
  have enough : n ≤ 2 * (0 :: (narrows (ws ++ cs) ++ rest)).length := by
    rw [List.length_cons, List.length_append, narrows_append, List.length_append]
    omega
  exact skipFrom_of_passes _ passes enough

/-! ## Values in UTF-8 -/

/-- The bytes of characters, each taken for a character. -/
def widened (cs : List Char) : List Char := octets (encode cs)

theorem widened_append (cs ds : List Char) : widened (cs ++ ds) = widened cs ++ widened ds := by
  rw [widened, encode_append, octets_append]
  rfl

/-- A small character is not widened. -/
theorem widened_ascii {c : Char} (h : c.toNat < 0x80) (cs : List Char) :
    widened (c :: cs) = c :: widened cs := by
  rw [widened, encode_ascii h, octets_cons, octet_ascii (by omega)]
  rfl

theorem IsSpacing.widened {ws : List Char} (h : IsSpacing ws) : widened ws = ws :=
  octets_encode fun _ mem => (h.byte mem).1

/-- The bytes of a text body are one. -/
theorem IsTextBody.widened {cs : List Char} (h : IsTextBody cs) : IsTextBody (widened cs) := by
  induction h with
  | nil => exact .nil
  | @plain c cs plain _ ih =>
      have front : ∀ bs : List UInt8, (∀ b ∈ bs, ¬b < 32 ∧ is b '"' = false ∧ is b '\\' = false) →
          IsTextBody (octets bs ++ Json.widened cs) := by
        intro bs
        induction bs with
        | nil => exact fun _ => ih
        | cons b bs rest =>
            intro all
            exact .plain (isPlain_octet (all b List.mem_cons_self))
              (rest fun d mem => all d (List.mem_cons_of_mem _ mem))
      rw [Json.widened, encode_cons, octets_append]
      exact front _ plain.bytes
  | @letter x c cs escape _ ih =>
      rw [widened_ascii (by decide), widened_ascii (letter_of_mem escape).1]
      exact .letter escape ih
  | @number n hs cs hex _ ih =>
      rw [widened_ascii (by decide), widened_ascii (by decide), widened_append,
        show Json.widened hs = hs from octets_encode hex.small]
      exact .number hex ih

theorem IsText.widened {cs : List Char} (h : IsText cs) : IsText (widened cs) := by
  obtain ⟨body, isBody, rfl⟩ := h
  refine ⟨_, isBody.widened, ?_⟩
  rw [widened_ascii (by decide), widened_append]
  rfl

/-- The same token with its characters widened. -/
def Spaced.widened (s : Spaced) : Spaced := { s with core := Json.widened s.core }

/-- What is widened keeps its white space. -/
theorem Spaced.IsSpaced.chars_widened {s : Spaced} (h : s.IsSpaced) :
    Json.widened s.chars = s.widened.chars := by
  rw [Spaced.chars, widened_append, widened_append, IsSpacing.widened h.1, IsSpacing.widened h.2]
  rfl

/-- Brackets are widened part by part. -/
theorem widened_bracketed {left right : Char} (small : left.toNat < 0x80 ∧ right.toNat < 0x80)
    {gap : List Char} (space : IsSpacing gap) (parts : List (List Char)) :
    widened (bracketed left right gap parts)
      = bracketed left right gap (parts.map widened) := by
  have later (parts : List (List Char)) :
      widened (parts.flatMap (',' :: ·)) = (parts.map widened).flatMap (',' :: ·) := by
    induction parts with
    | nil => rfl
    | cons part parts ih =>
        rw [List.flatMap_cons, List.cons_append, widened_ascii (by decide), widened_append, ih]
        rfl
  have separated : widened (commaSeparated parts) = commaSeparated (parts.map widened) := by
    cases parts with
    | nil => rfl
    | cons part parts =>
        rw [commaSeparated_cons, widened_append, later, List.map_cons, commaSeparated_cons]
  rw [bracketed, widened_ascii small.1, widened_append, widened_append, space.widened, separated,
    widened_ascii small.2]
  rfl

/-- **UTF-8 IS NO DIFFERENT**: the bytes of a value, each taken for a character, are a value. -/
theorem IsValue.widened {cs : List Char} (h : IsValue cs) : IsValue (widened cs) := by
  -- on the value: words and numbers are ASCII, so only texts and what holds them change
  induction h with
  | word word =>
      refine .word ?_
      rwa [show Json.widened _ = _ from octets_encode ?_]
      simp only [valueWords, List.mem_cons, List.not_mem_nil, or_false] at word
      rcases word with rfl | rfl | rfl <;> simp
  | unsigned number =>
      rw [show Json.widened _ = _ from octets_encode number.small]
      exact .unsigned number
  | negative number =>
      rw [widened_ascii (by decide), show Json.widened _ = _ from octets_encode number.small]
      exact .negative number
  | text text => exact .text text.widened
  | @list gap items space spaced values ih =>
      rw [widened_bracketed (by decide) space, List.map_map]
      have parts : items.map (Json.widened ∘ Spaced.chars)
          = (items.map Spaced.widened).map Spaced.chars := by
        rw [List.map_map]
        exact List.map_congr_left fun item mem => (spaced item mem).chars_widened
      rw [parts]
      refine .list space ?_ ?_
      · exact List.forall_mem_map.mpr fun item mem => spaced item mem
      · exact List.forall_mem_map.mpr fun item mem => ih item mem
  | @object gap pairs space spaced names values ih =>
      rw [widened_bracketed (by decide) space, List.map_map]
      let widen (p : Pair) : Pair := ⟨p.name.widened, p.value.widened⟩
      have parts : pairs.map (Json.widened ∘ Pair.chars) = (pairs.map widen).map Pair.chars := by
        rw [List.map_map]
        refine List.map_congr_left fun pair mem => ?_
        show Json.widened pair.chars = (widen pair).chars
        rw [Pair.chars, widened_append, widened_ascii (by decide), (spaced pair mem).1.chars_widened,
          (spaced pair mem).2.chars_widened]
        rfl
      rw [parts]
      refine .object space ?_ ?_ ?_
      · exact List.forall_mem_map.mpr fun pair mem => spaced pair mem
      · exact List.forall_mem_map.mpr fun pair mem => (names pair mem).widened
      · exact List.forall_mem_map.mpr fun pair mem => ih pair mem

/-- **VALUES ARE PASSED OVER**: whatever value is ahead, with white space before it. -/
theorem takes_skipValue {cs : List Char} (h : IsValue cs) {ws : List Char}
    (space : IsSpacing ws) : skipValue.TakesBefore (encode (ws ++ cs)) () := by
  have read := takes_skipValue_narrows h.widened space
  have bytes : narrows (ws ++ widened cs) = encode (ws ++ cs) := by
    rw [← space.widened, ← widened_append, widened, narrows_octets]
    rw [space.widened]
  rwa [bytes] at read

end Courier.Json
