import Courier.Json.Decode
import Courier.Proofs.Json.Grammar
import Courier.Proofs.Text.Utf8

/-! # Reading and what is read — consuming exactly the bytes of a form

    A reader TAKES bytes when it consumes exactly them off any text that
    they begin.  Taking composes along `bind`, so what a reader does with a
    whole text follows from what its parts do with theirs.  A number is
    taken only where no digit, point or exponent goes on with it; what
    stands behind a value, be it white space, a comma or a bracket, always
    ends a number. -/

namespace Courier.Json

open Utf8

variable {α β : Type}

namespace Reader

/-- Behind a success the second reader goes on where the first one stopped. -/
theorem bind_of_ok {r : Reader α} (f : α → Reader β) {c d : Cursor} {a : α}
    (h : r c = (.ok a, d)) :
    (r >>= f) c = f a d := by
  simp only [bind, h]

theorem peek_cons (b : UInt8) (rest : List UInt8) (p : Place) :
    peek ⟨b :: rest, p⟩ = (.ok (some b), ⟨b :: rest, p⟩) := rfl

theorem skip_cons (b : UInt8) (rest : List UInt8) (p : Place) :
    skip ⟨b :: rest, p⟩ = (.ok (), ⟨rest, p.after b⟩) := rfl

theorem take_cons (b : UInt8) (rest : List UInt8) (p : Place) :
    take ⟨b :: rest, p⟩ = (.ok (some b), ⟨rest, p.after b⟩) := rfl

/-- `r` takes the bytes `bs` off whatever text they begin, and gives `a`. -/
def Takes (r : Reader α) (bs : List UInt8) (a : α) : Prop :=
  ∀ rest place, ∃ place', r ⟨bs ++ rest, place⟩ = (.ok a, ⟨rest, place'⟩)

/-- Readers one after the other take their bytes one after the other. -/
theorem Takes.bind {r : Reader α} {f : α → Reader β} {x y : List UInt8} {a : α} {b : β}
    (hr : r.Takes x a) (hf : (f a).Takes y b) : (r >>= f).Takes (x ++ y) b := by
  intro rest place
  obtain ⟨p, hp⟩ := hr (y ++ rest) place
  obtain ⟨q, hq⟩ := hf rest p
  refine ⟨q, ?_⟩
  rw [List.append_assoc, bind_of_ok f hp, hq]

theorem takes_pure (a : α) : (pure a : Reader α).Takes [] a := fun _ place => ⟨place, rfl⟩

theorem takes_skip (b : UInt8) : skip.Takes [b] () := fun _ p => ⟨p.after b, rfl⟩

theorem takes_take (b : UInt8) : take.Takes [b] (some b) := fun _ p => ⟨p.after b, rfl⟩

end Reader

/-! ## Ends of numbers -/

/-- Whether no number goes on with these bytes. -/
def Ends (rest : List UInt8) : Prop := ∀ b, rest.head? = some b →
  isDigit b = false ∧ is b '.' = false ∧ is b 'e' = false ∧ is b 'E' = false

theorem ends_nil : Ends [] := fun _ none => nomatch none

/-- A number ends before a byte that cannot go on with it. -/
theorem ends_cons {b : UInt8} (h : isDigit b = false ∧ is b '.' = false ∧ is b 'e' = false ∧
    is b 'E' = false) (rest : List UInt8) : Ends (b :: rest) := by
  intro b' head
  obtain rfl : b = b' := Option.some.inj head
  exact h

namespace Reader

/-- `r` takes the bytes `bs` where what follows ends a number, and gives `a`. -/
def TakesBefore (r : Reader α) (bs : List UInt8) (a : α) : Prop :=
  ∀ rest, Ends rest → ∀ place, ∃ place', r ⟨bs ++ rest, place⟩ = (.ok a, ⟨rest, place'⟩)

/-- What is read whatever follows is read where a number may end. -/
theorem Takes.before {r : Reader α} {bs : List UInt8} {a : α} (h : r.Takes bs a) :
    r.TakesBefore bs a := fun rest _ => h rest

/-- What is made of the value that was read takes no bytes of its own. -/
theorem TakesBefore.map {r : Reader α} {bs : List UInt8} {a : α} (h : r.TakesBefore bs a)
    (f : α → β) : (do let a ← r; pure (f a)).TakesBefore bs (f a) := by
  intro rest ends place
  obtain ⟨p, hp⟩ := h rest ends place
  exact ⟨p, by rw [bind_of_ok _ hp]; rfl⟩

end Reader

open Reader

/-- A body and its closing bracket are read in sequence. -/
theorem closedBy_of_ok {r : Reader α} {close : Reader Unit} {c d e : Cursor} {a : α}
    (body : r c = (.ok a, d)) (closed : close d = (.ok (), e)) :
    r.closedBy close c = (.ok a, e) := by
  rw [Reader.closedBy, body]
  dsimp only
  rw [closed]

/-- A reader that succeeds is not changed by the place it would put on a fault. -/
theorem placed_of_ok {r : Reader α} {c d : Cursor} {a : α} (h : r c = (.ok a, d)) :
    r.placed c = (.ok a, d) := by
  rw [Reader.placed, h]

/-! ## White space -/

theorem isSpacing_nil : IsSpacing [] := fun _ h => nomatch h

/-- White space in a row is white space. -/
theorem IsSpacing.append {as bs : List Char} (ha : IsSpacing as) (hb : IsSpacing bs) :
    IsSpacing (as ++ bs) := by
  intro c hc
  rcases List.mem_append.mp hc with hc | hc
  · exact ha c hc
  · exact hb c hc

/-- A character of white space is one byte, with which no number goes on. -/
theorem IsSpacing.byte {cs : List Char} (h : IsSpacing cs) {c : Char} (mem : c ∈ cs) :
    c.toNat < 0x80 ∧ Json.isSpace (ascii c) = true ∧ isDigit (ascii c) = false ∧
      is (ascii c) '.' = false ∧ is (ascii c) 'e' = false ∧ is (ascii c) 'E' = false := by
  have one := h c mem
  simp only [List.mem_cons, List.not_mem_nil, or_false] at one
  rcases one with rfl | rfl | rfl | rfl
  · decide
  · decide
  · decide
  · decide

/-- The bytes of white space are white space. -/
theorem IsSpacing.isSpace {cs : List Char} (h : IsSpacing cs) :
    ∀ b ∈ encode cs, isSpace b = true := by
  refine forall_mem_encode fun c mem => ?_
  obtain ⟨small, space, -⟩ := h.byte mem
  exact ⟨small, space⟩

/-- Behind white space a number has ended. -/
theorem IsSpacing.ends {cs : List Char} (h : IsSpacing cs) {rest : List UInt8}
    (ends : Ends rest) : Ends (encode cs ++ rest) := by
  cases cs with
  | nil => exact ends
  | cons c cs =>
      obtain ⟨small, -, none⟩ := h.byte List.mem_cons_self
      rw [encode_ascii small, List.cons_append]
      exact ends_cons none _

/-- All the bytes of a kind are passed over, up to the first of another kind. -/
theorem skipWhile_all {p : UInt8 → Bool} {bs rest : List UInt8} (all : ∀ b ∈ bs, p b = true)
    (stop : ∀ b, rest.head? = some b → p b = false) (place : Place) :
    Reader.skipWhile p ⟨bs ++ rest, place⟩
      = (.ok bs.length, ⟨rest, bs.foldl Place.after place⟩) := by
  have none : rest.takeWhile p = [] ∧ rest.dropWhile p = rest := by
    cases rest with
    | nil => exact ⟨rfl, rfl⟩
    | cons b rest =>
        have h := stop b rfl
        constructor
        · rw [List.takeWhile_cons, h]
          rfl
        · rw [List.dropWhile_cons, h]
          rfl
  have taken : (bs ++ rest).takeWhile p = bs := by
    rw [List.takeWhile_append_of_pos all, none.1, List.append_nil]
  have dropped : (bs ++ rest).dropWhile p = rest := by
    rw [List.dropWhile_append_of_pos all, none.2]
  rw [Reader.skipWhile, Cursor.skipWhile, taken, dropped]

/-- Behind white space the next byte is ahead. -/
theorem peekToken_spacing {ws : List Char} (space : IsSpacing ws) {b : UInt8}
    (h : isSpace b = false) (rest : List UInt8) (p : Place) :
    peekToken ⟨encode ws ++ b :: rest, p⟩
      = (.ok (some b), ⟨b :: rest, (encode ws).foldl Place.after p⟩) := by
  have stop : ∀ b', (b :: rest).head? = some b' → isSpace b' = false := by
    intro b' head
    obtain rfl : b = b' := Option.some.inj head
    exact h
  rw [peekToken, bind_of_ok _ (skipWhile_all space.isSpace stop p), peek_cons]

/-- Behind white space nothing is ahead at the end. -/
theorem peekToken_end {ws : List Char} (space : IsSpacing ws) (p : Place) :
    peekToken ⟨encode ws, p⟩ = (.ok none, ⟨[], (encode ws).foldl Place.after p⟩) := by
  have stop : ∀ b, ([] : List UInt8).head? = some b → isSpace b = false :=
    fun _ none => nomatch none
  have all := skipWhile_all space.isSpace stop p
  rw [List.append_nil] at all
  rw [peekToken, bind_of_ok _ all]
  rfl

/-- A byte that is no white space is itself ahead. -/
theorem peekToken_cons {b : UInt8} (h : isSpace b = false) (rest : List UInt8) (p : Place) :
    peekToken ⟨b :: rest, p⟩ = (.ok (some b), ⟨b :: rest, p⟩) :=
  peekToken_spacing isSpacing_nil h rest p

/-- A value starts behind white space. -/
theorem valueStart_spacing {ws : List Char} (space : IsSpacing ws) {b : UInt8}
    (h : isSpace b = false) (rest : List UInt8) (p : Place) :
    valueStart ⟨encode ws ++ b :: rest, p⟩
      = (.ok b, ⟨b :: rest, (encode ws).foldl Place.after p⟩) := by
  rw [valueStart, bind_of_ok _ (peekToken_spacing space h rest p)]
  rfl

/-- Takes one token, whose byte is ahead behind white space. -/
theorem takes_colon {ws : List Char} (space : IsSpacing ws) :
    colon.Takes (encode ws ++ [ascii ':']) () := by
  intro rest place
  refine ⟨((encode ws).foldl Place.after place).after (ascii ':'), ?_⟩
  rw [colon, List.append_assoc, List.singleton_append,
    bind_of_ok _ (peekToken_spacing space (by decide) _ _)]
  dsimp only
  rw [if_pos (by decide), skip_cons]

/-! ## Whole texts -/

/-- Reads a value with nothing but white space behind it. -/
def whole (r : Reader α) : Reader α := do
  let a ← r
  match ← peekToken with
  | some _ => Reader.failAhead .trailing
  | none => pure a

theorem decode_eq (r : Reader α) (bytes : List UInt8) : decode r bytes = (whole r ⟨bytes, {}⟩).1 :=
  rfl

/-! ## Brackets -/

/-- Behind the first item each one has a comma in front. -/
theorem commaSeparated_cons (one : List Char) (rest : List (List Char)) :
    commaSeparated (one :: rest) = one ++ rest.flatMap (',' :: ·) := by
  induction rest generalizing one with
  | nil => exact (List.append_nil one).symm
  | cons two rest ih =>
      show one ++ ',' :: commaSeparated (two :: rest) = _
      rw [ih, List.flatMap_cons]
      rfl

/-- Parts that are not empty take at least as many characters as they are. -/
theorem length_le_commaSeparated {parts : List (List Char)} (h : ∀ part ∈ parts, part ≠ []) :
    parts.length ≤ (commaSeparated parts).length := by
  have tail (parts : List (List Char)) : parts.length ≤ (parts.flatMap (',' :: ·)).length := by
    induction parts with
    | nil => exact Nat.le_refl _
    | cons part parts ih =>
        rw [List.flatMap_cons, List.length_append, List.length_cons, List.length_cons]
        omega
  cases parts with
  | nil => exact Nat.le_refl _
  | cons part parts =>
      have one := List.length_pos_iff.mpr (h part List.mem_cons_self)
      have more := tail parts
      rw [commaSeparated_cons, List.length_append, List.length_cons]
      omega

end Courier.Json
