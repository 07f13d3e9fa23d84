import Courier.Proofs.Json.Bracket

/-! # JSON maps — an object of texts is read back member by member

    Reading members looks one byte ahead for a comma or the closing brace,
    so a list of members is not taken on its own: its theorems say what
    happens with the brace ahead.  The brace itself is taken by the reader
    that closes the object. -/

namespace Courier.Json

open Utf8 Reader

/-- A member of an object as it is written. -/
def entryChars (e : String × String) : List Char := encodeText e.1 ++ ':' :: encodeText e.2

/-- The members from one that is ahead on, where reading the later ones is known. -/
theorem textMembers_of_more {first : Bool} {fuel bs : List UInt8} {b : UInt8} {c d : Cursor}
    {p : Place} {e : String × String} {es : List (String × String)}
    (more : moreMembers first c = (.ok true, ⟨encode (entryChars e) ++ bs, p⟩))
    (later : ∀ q, ∃ q', textMembers fuel false ⟨bs, q⟩ = (.ok es, { d with place := q' })) :
    ∃ q', textMembers (b :: fuel) first c = (.ok (e :: es), { d with place := q' }) := by
  obtain ⟨name, value⟩ := e
  rw [entryChars, encode_append, encode_ascii (by decide), List.append_assoc] at more
  obtain ⟨p₁, h₁⟩ := takes_memberName (textForm_encodeText name)
    (ascii ':' :: encode (encodeText value) ++ bs) p
  obtain ⟨p₂, h₂⟩ := takes_colon isSpacing_nil (encode (encodeText value) ++ bs) p₁
  obtain ⟨p₃, h₃⟩ := takes_text isSpacing_nil (textForm_encodeText value) bs p₂
  obtain ⟨q', h₄⟩ := later p₃
  refine ⟨q', ?_⟩
  rw [textMembers, bind_of_ok _ more, if_pos rfl, bind_of_ok _ h₁]
  show (colon >>= _) ⟨encode [] ++ [ascii ':'] ++ (encode (encodeText value) ++ bs), p₁⟩ = _
  rw [bind_of_ok _ h₂]
  show (text >>= _) ⟨encode ([] ++ encodeText value) ++ bs, p₂⟩ = _
  rw [bind_of_ok _ h₃, bind_of_ok _ h₄]
  rfl

/-- The members behind the first are read back up to the closing brace, which stays ahead. -/
theorem textMembers_later (es : List (String × String)) : ∀ fuel : List UInt8,
    es.length < fuel.length → ∀ rest place, ∃ place', textMembers fuel false
        ⟨encode (es.flatMap fun e => ',' :: entryChars e) ++ ascii '\x7d' :: rest, place⟩
      = (.ok es, ⟨ascii '\x7d' :: rest, place'⟩) := by
  induction es with
  | nil =>
      intro fuel hf rest place
      cases fuel with
      | nil => exact absurd hf (Nat.not_lt_zero _)
      | cons _ fuel =>
          refine ⟨place, ?_⟩
          show textMembers (_ :: fuel) false ⟨encode [] ++ ascii '\x7d' :: rest, place⟩ = _
          rw [textMembers, bind_of_ok _ (moreMembers_end false isSpacing_nil rest place),
            if_neg Bool.false_ne_true]
          rfl
  | cons e es ih =>
      intro fuel hf rest place
      cases fuel with
      | nil => exact absurd hf (Nat.not_lt_zero _)
      | cons _ fuel =>
          -- the comma is skipped to see whether a name follows: a quote does
          obtain ⟨bs, hbs⟩ := (textForm_encodeText e.1).head
          have head : encode (entryChars e) = ascii '"' :: (bs ++ encode (':' :: encodeText e.2)) := by
            rw [entryChars, encode_append, hbs, List.cons_append]
          obtain ⟨p, more⟩ := moreMembers_later isSpacing_nil isSpacing_nil
            (bs ++ encode (':' :: encodeText e.2)
              ++ (encode (es.flatMap fun e => ',' :: entryChars e) ++ ascii '\x7d' :: rest)) place
          rw [List.flatMap_cons, encode_append, encode_ascii (by decide), List.append_assoc]
          refine textMembers_of_more (d := ⟨ascii '\x7d' :: rest, place⟩) (p := p) ?_
            (fun q => ih fuel (Nat.lt_of_succ_lt_succ hf) rest q)
          rw [head]
          exact more

/-- All members are read back up to the closing brace. -/
theorem textMembers_first (es : List (String × String)) (fuel : List UInt8)
    (hf : es.length < fuel.length) (rest : List UInt8) (place : Place) :
    ∃ place', textMembers fuel true
        ⟨encode (commaSeparated (es.map entryChars)) ++ ascii '\x7d' :: rest, place⟩
      = (.ok es, ⟨ascii '\x7d' :: rest, place'⟩) := by
  cases fuel with
  | nil => exact absurd hf (Nat.not_lt_zero _)
  | cons _ fuel =>
      cases es with
      | nil =>
          refine ⟨place, ?_⟩
          show textMembers (_ :: fuel) true ⟨encode [] ++ ascii '\x7d' :: rest, place⟩ = _
          rw [textMembers, bind_of_ok _ (moreMembers_end true isSpacing_nil rest place),
            if_neg Bool.false_ne_true]
          rfl
      | cons e es =>
          obtain ⟨bs, hbs⟩ := (textForm_encodeText e.1).head
          have head : encode (entryChars e) = ascii '"' :: (bs ++ encode (':' :: encodeText e.2)) := by
            rw [entryChars, encode_append, hbs, List.cons_append]
          rw [List.map_cons, commaSeparated_cons, List.flatMap_map, encode_append,
            List.append_assoc]
          refine textMembers_of_more (d := ⟨ascii '\x7d' :: rest, place⟩) (p := place) ?_
            (fun q => textMembers_later es fuel (Nat.lt_of_succ_lt_succ hf) rest q)
          rw [head]
          exact moreMembers_first isSpacing_nil _ _

/-! ## Objects -/

/-- Members that are texts are written one like the other. -/
theorem memberChars_texts (es : List (String × String)) :
    memberChars (es.map fun e => (e.1, .text e.2)) = es.map entryChars := by
  induction es with
  | nil => rfl
  | cons e es ih =>
      rw [List.map_cons, List.map_cons, memberChars, ih]
      rfl

/-- An object of texts is read back whole, and nothing behind it is touched. -/
theorem takes_textMap (es : List (String × String)) : textMap.Takes
    (encode (Value.object (es.map fun e => (e.1, .text e.2))).chars) es := by
  intro rest place
  rw [Value.chars, memberChars_texts, encode_ascii (by decide), encode_append]
  rw [show encode ['\x7d'] = [ascii '\x7d'] from rfl, List.cons_append, List.append_assoc,
    List.singleton_append]
  have enough : es.length
      < (encode (commaSeparated (es.map entryChars)) ++ ascii '\x7d' :: rest).length := by
    have some : ∀ part ∈ es.map entryChars, part ≠ [] :=
      List.forall_mem_map.mpr fun e _ => List.cons_ne_nil _ _
    have few := length_lt_encode_parts some [] (ascii '\x7d') rest
    rwa [List.nil_append, List.length_map] at few
  obtain ⟨p, read⟩ := textMembers_first es _ enough rest (place.after (ascii '\x7b'))
  obtain ⟨q, closed⟩ := takes_objectEnd rest p
  refine ⟨q, ?_⟩
  show textMap ⟨encode [] ++ ascii '\x7b' :: _, place⟩ = _
  rw [textMap, bind_of_ok _ (valueStart_spacing isSpacing_nil (by decide) _ _),
    if_pos (by decide)]
  exact placed_of_ok (closedBy_of_ok read closed)

/-- **MAP ROUND TRIP**: the compact text of an object of texts decodes to its members. -/
theorem decode_textMap (es : List (String × String)) : decode textMap
    (ofString (Value.object (es.map fun e => (e.1, .text e.2))).compress) = .ok es := by
  rw [ofString, Value.compress, String.toList_ofList]
  have decoded := decode_of_takes (takes_textMap es).before isSpacing_nil
  rwa [show encode [] = [] from rfl, List.append_nil] at decoded

end Courier.Json
