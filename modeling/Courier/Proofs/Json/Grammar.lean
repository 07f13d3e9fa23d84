import Courier.Json.Encode
import Courier.Proofs.Text.Numeral

/-! # JSON grammar — which texts are written JSON, and what they stand for

    `IsValue` holds of the texts that are one JSON value of any kind; it says
    nothing about what such a text means.  `Spells` relates a tree to the
    texts that stand for it: white space lies anywhere between tokens, texts
    use any escapes, the members of an object come in any order, and others
    whose names the object does not have stand between them.  If members may
    be omitted, those that are empty all the way down need not be there. -/

namespace Courier.Json

/-- White space between tokens. -/
def IsSpacing (cs : List Char) : Prop := ∀ c ∈ cs, c ∈ [' ', '\n', '\r', '\t']

instance (cs : List Char) : Decidable (IsSpacing cs) := List.decidableBAll _ cs

/-! ## Texts between quotes -/

/-- A number below 65536, and four hexadecimal digits for it in either case. -/
inductive IsHex : Nat → List Char → Prop where
  | digits {a b c d : Char} {i j k l : Nat} (first : Numeral.hexDigit? a = some i)
      (second : Numeral.hexDigit? b = some j) (third : Numeral.hexDigit? c = some k)
      (fourth : Numeral.hexDigit? d = some l) :
      IsHex (((i * 16 + j) * 16 + k) * 16 + l) [a, b, c, d]

/-- The letters of escapes, and the characters that they stand for. -/
def letterEscapes : List (Char × Char) :=
  [('"', '"'), ('\\', '\\'), ('/', '/'), ('b', '\x08'), ('f', '\x0c'), ('n', '\n'), ('r', '\r'),
    ('t', '\t')]

/-- A character that may stand for itself. -/
def IsPlain (c : Char) : Prop := 32 ≤ c.toNat ∧ c ≠ '"' ∧ c ≠ '\\'

instance (c : Char) : Decidable (IsPlain c) :=
  inferInstanceAs (Decidable (32 ≤ c.toNat ∧ c ≠ '"' ∧ c ≠ '\\'))

/-- A character, and the ways to write it: as itself, behind a backslash by a letter or by its
    number, or by the numbers of two surrogates. -/
inductive CharForm : Char → List Char → Prop where
  | plain {c : Char} (plain : IsPlain c) : CharForm c [c]
  | letter {x c : Char} (escape : (x, c) ∈ letterEscapes) : CharForm c ['\\', x]
  | number {c : Char} {hs : List Char} (hex : IsHex c.toNat hs) : CharForm c ('\\' :: 'u' :: hs)
  | pair {c : Char} {high low : Nat} {hs ls : List Char} (upper : IsHex high hs)
      (lower : IsHex low ls) (leads : 0xD800 ≤ high ∧ high ≤ 0xDBFF)
      (trails : 0xDC00 ≤ low ∧ low ≤ 0xDFFF)
      (sum : c.toNat = (high - 0xD800) * 0x400 + (low - 0xDC00) + 0x10000) :
      CharForm c ('\\' :: 'u' :: (hs ++ '\\' :: 'u' :: ls))

/-- Characters, and the ways to write them one after the other. -/
inductive CharsForm : List Char → List Char → Prop where
  | nil : CharsForm [] []
  | cons {c : Char} {cs x y : List Char} (first : CharForm c x) (rest : CharsForm cs y) :
      CharsForm (c :: cs) (x ++ y)

/-- Characters that are all plain may be written as they are. -/
theorem charsForm_plain {cs : List Char} (plain : (cs.all fun c => decide (IsPlain c)) = true) :
    CharsForm cs cs := by
  induction cs with
  | nil => exact .nil
  | cons c cs ih =>
      rw [List.all_cons, Bool.and_eq_true, decide_eq_true_eq] at plain
      exact .cons (.plain plain.1) (ih plain.2)

/-- A string, and the ways to write it between quotes. -/
def TextForm (s : String) (cs : List Char) : Prop :=
  ∃ body, CharsForm s.toList body ∧ cs = '"' :: (body ++ ['"'])

/-- What may stand between quotes, whether or not it stands for characters: the number of an
    escape may be that of half a pair of surrogates. -/
inductive IsTextBody : List Char → Prop where
  | nil : IsTextBody []
  | plain {c : Char} {cs : List Char} (plain : IsPlain c) (rest : IsTextBody cs) :
      IsTextBody (c :: cs)
  | letter {x c : Char} {cs : List Char} (escape : (x, c) ∈ letterEscapes)
      (rest : IsTextBody cs) : IsTextBody ('\\' :: x :: cs)
  | number {n : Nat} {hs cs : List Char} (hex : IsHex n hs) (rest : IsTextBody cs) :
      IsTextBody ('\\' :: 'u' :: (hs ++ cs))

/-- Whether characters are a text in quotes. -/
def IsText (cs : List Char) : Prop := ∃ body, IsTextBody body ∧ cs = '"' :: (body ++ ['"'])

/-! ## Numbers -/

/-- The whole part of a number: a zero alone, or digits that do not begin with one. -/
inductive IsWhole : List Char → Prop where
  | zero : IsWhole ['0']
  | digits {c : Char} {cs : List Char} (first : c.isDigit = true) (nonzero : c ≠ '0')
      (rest : Numeral.AllDigits cs) : IsWhole (c :: cs)

/-- The fraction of a number, which may be missing. -/
inductive IsFraction : List Char → Prop where
  | none : IsFraction []
  | point {c : Char} {cs : List Char} (first : c.isDigit = true) (rest : Numeral.AllDigits cs) :
      IsFraction ('.' :: c :: cs)

/-- The exponent of a number, which may be missing. -/
inductive IsExponent : List Char → Prop where
  | none : IsExponent []
  | mark {e c : Char} {sign cs : List Char} (mark : e = 'e' ∨ e = 'E')
      (signed : sign = [] ∨ sign = ['+'] ∨ sign = ['-']) (first : c.isDigit = true)
      (rest : Numeral.AllDigits cs) : IsExponent (e :: (sign ++ c :: cs))

/-- A number without its sign. -/
inductive IsUnsigned : List Char → Prop where
  | parts {whole fraction exponent : List Char} (isWhole : IsWhole whole)
      (isFraction : IsFraction fraction) (isExponent : IsExponent exponent) :
      IsUnsigned (whole ++ (fraction ++ exponent))

/-! ## Values -/

/-- Part of a text with the white space around it. -/
structure Spaced where
  before : List Char := []
  core : List Char
  after : List Char := []

namespace Spaced

/-- The characters of a token with the white space around it. -/
def chars (s : Spaced) : List Char := s.before ++ (s.core ++ s.after)

/-- Whether nothing but white space is around a token. -/
def IsSpaced (s : Spaced) : Prop := IsSpacing s.before ∧ IsSpacing s.after

end Spaced

/-- A member of an object as it is written: its name and its value. -/
structure Pair where
  name : Spaced
  value : Spaced

namespace Pair

/-- The characters of a member: its name, a colon, and its value. -/
def chars (p : Pair) : List Char := p.name.chars ++ ':' :: p.value.chars

/-- Whether nothing but white space is around the tokens of a member. -/
def IsSpaced (p : Pair) : Prop := p.name.IsSpaced ∧ p.value.IsSpaced

end Pair

/-- The parts between two brackets, with commas between them; where there are none, only white
    space. -/
def bracketed (left right : Char) (gap : List Char) (parts : List (List Char)) : List Char :=
  left :: (gap ++ (commaSeparated parts ++ [right]))

/-- The words that are values. -/
def valueWords : List (List Char) :=
  [['n', 'u', 'l', 'l'], ['t', 'r', 'u', 'e'], ['f', 'a', 'l', 's', 'e']]

/-- One JSON value of any kind. -/
inductive IsValue : List Char → Prop where
  | word {cs : List Char} (word : cs ∈ valueWords) : IsValue cs
  | unsigned {cs : List Char} (number : IsUnsigned cs) : IsValue cs
  | negative {cs : List Char} (number : IsUnsigned cs) : IsValue ('-' :: cs)
  | text {cs : List Char} (text : IsText cs) : IsValue cs
  | list {gap : List Char} {items : List Spaced} (space : IsSpacing gap)
      (spaced : ∀ item ∈ items, item.IsSpaced) (values : ∀ item ∈ items, IsValue item.core) :
      IsValue (bracketed '[' ']' gap (items.map Spaced.chars))
  | object {gap : List Char} {pairs : List Pair} (space : IsSpacing gap)
      (spaced : ∀ pair ∈ pairs, pair.IsSpaced) (names : ∀ pair ∈ pairs, IsText pair.name.core)
      (values : ∀ pair ∈ pairs, IsValue pair.value.core) :
      IsValue (bracketed '\x7b' '\x7d' gap (pairs.map Pair.chars))

/-! ## Trees -/

mutual

/-- The value of the same shape that holds nothing: zero, the empty text, the empty list, and such
    values in every member. -/
def Value.emptied : Value → Value
  | .null => .null
  | .bool _ => .bool false
  | .int _ => .int 0
  | .text _ => .text ""
  | .list _ => .list []
  | .object members => .object (emptiedMembers members)

/-- The members of an object, each with its value emptied. -/
def emptiedMembers : List (String × Value) → List (String × Value)
  | [] => []
  | (name, v) :: rest => (name, v.emptied) :: emptiedMembers rest

end

/-- A member in the text of an object: its name, the value that it stands for if it is one of the
    object's own, and how it is written. -/
structure Entry where
  name : String
  own : Option Value
  pair : Pair

/-- The texts that stand for a value; `omits` says whether empty members may be left out. -/
inductive Spells (omits : Bool) : Value → List Char → Prop where
  | null : Spells omits .null ['n', 'u', 'l', 'l']
  | bool (b : Bool) : Spells omits (.bool b) (Value.bool b).chars
  | int (n : Int) : Spells omits (.int n) (toString n).toList
  | text {s : String} {cs : List Char} (form : TextForm s cs) : Spells omits (.text s) cs
  | list {values : List Value} {gap : List Char} {items : List (Value × Spaced)}
      (all : items.map Prod.fst = values) (space : IsSpacing gap)
      (spaced : ∀ item ∈ items, item.2.IsSpaced)
      (spelled : ∀ item ∈ items, Spells omits item.1 item.2.core) :
      Spells omits (.list values) (bracketed '[' ']' gap (items.map fun item => item.2.chars))
  | object {members : List (String × Value)} {gap : List Char} {entries : List Entry}
      (own : ∀ e ∈ entries, ∀ v, e.own = some v → (e.name, v) ∈ members)
      (spelled : ∀ e ∈ entries, ∀ v, e.own = some v → Spells omits v e.pair.value.core)
      (added : ∀ e ∈ entries, e.own = none →
        e.name ∉ members.map Prod.fst ∧ IsValue e.pair.value.core)
      (once : entries.Pairwise fun e f => e.own.isSome = true → e.name ≠ f.name)
      (whole : ∀ member ∈ members, (∃ e ∈ entries, e.name = member.1) ∨
        (omits = true ∧ member.2.emptied = member.2))
      (names : ∀ e ∈ entries, TextForm e.name e.pair.name.core) (space : IsSpacing gap)
      (spaced : ∀ e ∈ entries, e.pair.IsSpaced) :
      Spells omits (.object members)
        (bracketed '\x7b' '\x7d' gap (entries.map fun e => e.pair.chars))

/-- An entry spells one of the members, or stands beside them. -/
structure Entry.Fits (omits : Bool) (members : List (String × Value)) (e : Entry) : Prop where
  own : ∀ v, e.own = some v → (e.name, v) ∈ members ∧ Spells omits v e.pair.value.core
  added : e.own = none → e.name ∉ members.map Prod.fst ∧ IsValue e.pair.value.core
  name : TextForm e.name e.pair.name.core
  spaced : e.pair.IsSpaced

/-- A bracket whose entries fit spells the object. -/
theorem spells_of_fits {omits : Bool} {members : List (String × Value)} {gap : List Char}
    {entries : List Entry} (fits : ∀ e ∈ entries, e.Fits omits members)
    (once : entries.Pairwise fun e f => e.own.isSome = true → e.name ≠ f.name)
    (whole : ∀ member ∈ members, (∃ e ∈ entries, e.name = member.1) ∨
      (omits = true ∧ member.2.emptied = member.2)) (space : IsSpacing gap) :
    Spells omits (.object members)
      (bracketed '\x7b' '\x7d' gap (entries.map fun e => e.pair.chars)) :=
  .object (fun e mem v own => ((fits e mem).own v own).1)
    (fun e mem v own => ((fits e mem).own v own).2) (fun e mem => (fits e mem).added) once whole
    (fun e mem => (fits e mem).name) space (fun e mem => (fits e mem).spaced)

end Courier.Json
