import Courier.Proofs.Json.Text

/-! # Open brackets — what is ahead of an item or a member

    Reading inside a bracket looks ahead for a comma or the closing, with
    any white space around it, and stops at the first byte of what follows.
    The closing is taken by the reader that ends the bracket. -/

namespace Courier.Json

open Utf8 Reader

/-! ## Lists -/

/-- No item comes where the list ends. -/
theorem moreItems_end (first : Bool) {ws : List Char} (space : IsSpacing ws)
    (rest : List UInt8) (p : Place) :
    moreItems first ⟨encode ws ++ ascii ']' :: rest, p⟩
      = (.ok false, ⟨ascii ']' :: rest, (encode ws).foldl Place.after p⟩) := by
  rw [moreItems, bind_of_ok _ (peekToken_spacing space (by decide) _ _)]
  rfl

/-- Whether an item can be ahead: a byte that is no white space and does not close a list. -/
def BeginsItem (bytes : List UInt8) : Prop :=
  ∃ b bs, bytes = b :: bs ∧ isSpace b = false ∧ is b ']' = false

/-- What begins an item begins it whatever follows. -/
theorem BeginsItem.append {bytes : List UInt8} (h : BeginsItem bytes) (rest : List UInt8) :
    BeginsItem (bytes ++ rest) := by
  obtain ⟨b, bs, rfl, noSpace, noEnd⟩ := h
  exact ⟨b, bs ++ rest, rfl, noSpace, noEnd⟩

/-- The first item of a list is found behind white space. -/
theorem moreItems_first {ws : List Char} (space : IsSpacing ws) {bytes : List UInt8}
    (item : BeginsItem bytes) (p : Place) :
    moreItems true ⟨encode ws ++ bytes, p⟩
      = (.ok true, ⟨bytes, (encode ws).foldl Place.after p⟩) := by
  obtain ⟨b, bs, rfl, noSpace, noEnd⟩ := item
  rw [moreItems, bind_of_ok _ (peekToken_spacing space noSpace _ _)]
  dsimp only
  rw [noEnd]
  rfl

/-- A later item is found behind its comma. -/
theorem moreItems_later {after before : List Char} (behind : IsSpacing after)
    (space : IsSpacing before) {bytes : List UInt8} (item : BeginsItem bytes) (p : Place) :
    ∃ p', moreItems false ⟨encode after ++ ascii ',' :: (encode before ++ bytes), p⟩
      = (.ok true, ⟨bytes, p'⟩) := by
  obtain ⟨b, bs, rfl, noSpace, noEnd⟩ := item
  refine ⟨(encode before).foldl Place.after
    (((encode after).foldl Place.after p).after (ascii ',')), ?_⟩
  rw [moreItems, bind_of_ok _ (peekToken_spacing behind (by decide) _ _)]
  dsimp only
  rw [if_neg (by decide), if_neg (by decide), if_pos (by decide), bind_of_ok _ (skip_cons _ _ _),
    bind_of_ok _ (peekToken_spacing space noSpace _ _)]
  dsimp only
  rw [noEnd]
  rfl

theorem takes_listEnd : listEnd.Takes [ascii ']'] () := by
  intro rest place
  refine ⟨place.after (ascii ']'), ?_⟩
  rw [listEnd, List.singleton_append, bind_of_ok _ (peekToken_cons (by decide) _ _)]
  dsimp only
  rw [if_pos (by decide), skip_cons]

/-! ## Objects -/

/-- No member comes where the object ends. -/
theorem moreMembers_end (first : Bool) {ws : List Char} (space : IsSpacing ws)
    (rest : List UInt8) (p : Place) :
    moreMembers first ⟨encode ws ++ ascii '\x7d' :: rest, p⟩
      = (.ok false, ⟨ascii '\x7d' :: rest, (encode ws).foldl Place.after p⟩) := by
  rw [moreMembers, bind_of_ok _ (peekToken_spacing space (by decide) _ _)]
  rfl

/-- The first member of an object is found at its quote. -/
theorem moreMembers_first {ws : List Char} (space : IsSpacing ws) (rest : List UInt8)
    (p : Place) :
    moreMembers true ⟨encode ws ++ ascii '"' :: rest, p⟩
      = (.ok true, ⟨ascii '"' :: rest, (encode ws).foldl Place.after p⟩) := by
  rw [moreMembers, bind_of_ok _ (peekToken_spacing space (by decide) _ _)]
  rfl

/-- A later member is found at its quote behind the comma. -/
theorem moreMembers_later {after before : List Char} (behind : IsSpacing after)
    (space : IsSpacing before) (rest : List UInt8) (p : Place) :
    ∃ p', moreMembers false
        ⟨encode after ++ ascii ',' :: (encode before ++ ascii '"' :: rest), p⟩
      = (.ok true, ⟨ascii '"' :: rest, p'⟩) := by
  refine ⟨(encode before).foldl Place.after
    (((encode after).foldl Place.after p).after (ascii ',')), ?_⟩
  rw [moreMembers, bind_of_ok _ (peekToken_spacing behind (by decide) _ _)]
  dsimp only
  rw [if_neg (by decide), if_pos (by decide), bind_of_ok _ (skip_cons _ _ _),
    bind_of_ok _ (peekToken_spacing space (by decide) _ _)]
  rfl

theorem takes_objectEnd : objectEnd.Takes [ascii '\x7d'] () := by
  intro rest place
  refine ⟨place.after (ascii '\x7d'), ?_⟩
  rw [objectEnd, List.singleton_append, bind_of_ok _ (peekToken_cons (by decide) _ _)]
  dsimp only
  rw [if_pos (by decide), skip_cons]

/-- A text begins with its quote. -/
theorem TextForm.head {s : String} {cs : List Char} (h : TextForm s cs) :
    ∃ bs, encode cs = ascii '"' :: bs := by
  obtain ⟨body, -, rfl⟩ := h
  exact ⟨_, encode_ascii (by decide) _⟩

/-- A member as it is written, without the white space around it. -/
def Pair.inner (p : Pair) : List Char :=
  p.name.core ++ (p.name.after ++ ':' :: (p.value.before ++ p.value.core))

theorem Pair.chars_eq (p : Pair) :
    p.chars = p.name.before ++ (p.inner ++ p.value.after) := by
  simp only [Pair.chars, Pair.inner, Spaced.chars, List.cons_append, List.append_assoc]

theorem Pair.chars_ne_nil (p : Pair) : p.chars ≠ [] :=
  List.append_ne_nil_of_right_ne_nil _ (List.cons_ne_nil _ _)

/-! ## Bytes of a bracket -/

/-- The bytes of a bracket behind white space, with its opening and its closing apart. -/
theorem encode_bracketed {left right : Char} (small : left.toNat < 0x80 ∧ right.toNat < 0x80)
    (ws gap : List Char) (parts : List (List Char)) (rest : List UInt8) :
    encode (ws ++ bracketed left right gap parts) ++ rest
      = encode ws ++ ascii left
        :: (encode (gap ++ commaSeparated parts) ++ ascii right :: rest) := by
  simp only [bracketed, encode_append, encode_ascii small.1, encode_ascii small.2,
    List.append_assoc, List.cons_append]
  rfl

/-- Parts that are not empty are fewer than the bytes up to the closing. -/
theorem length_lt_encode_parts {parts : List (List Char)} (h : ∀ part ∈ parts, part ≠ [])
    (gap : List Char) (b : UInt8) (rest : List UInt8) :
    parts.length < (encode (gap ++ commaSeparated parts) ++ b :: rest).length := by
  have le := Nat.le_trans (length_le_commaSeparated h) (length_le_encode _)
  rw [List.length_append, encode_append, List.length_append, List.length_cons]
  omega

/-! ## Whole texts -/

/-- A reader that takes all of a text, but for white space behind, decodes it. -/
theorem decode_of_takes {α : Type} {r : Reader α} {bs : List UInt8} {a : α}
    (h : r.TakesBefore bs a) {ws : List Char} (space : IsSpacing ws) :
    decode r (bs ++ encode ws) = .ok a := by
  have ends : Ends (encode ws) := by
    have behind := space.ends ends_nil
    rwa [List.append_nil] at behind
  obtain ⟨p, hp⟩ := h (encode ws) ends {}
  unfold decode
  dsimp only
  rw [bind_of_ok _ hp, bind_of_ok _ (peekToken_end space p)]
  rfl

end Courier.Json
