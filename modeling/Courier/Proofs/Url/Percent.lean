import Courier.Proofs.Text.Utf8
import Courier.Url.Percent

/-! # Percent encoding round trip — a part of a URL stands for its own text

    A byte that is written as a percent sign and two digits is read back
    from those three, and any byte but a percent sign stands for itself.  So
    a text comes back from its encoding for every set that holds the percent
    sign; and what the set holds does not occur in the encoding, unless the
    encoding itself is written with it. -/

namespace Courier.Url

open Utf8

/-! ## Bytes -/

/-- Any byte but the percent sign stands for itself. -/
theorem decodeBytes_of_ne {b : UInt8} (h : b ≠ 37) (rest : List UInt8) :
    decodeBytes (b :: rest) = b :: decodeBytes rest := by
  match rest with
  | [] => rfl
  | [_] => rfl
  | _ :: _ :: _ => rw [decodeBytes, if_neg h]

/-- A hexadecimal digit is one byte, of the value that it stands for. -/
theorem hexValue?_upperHex : ∀ n < 16, (upperHex n).toNat < 0x80 ∧
    hexValue? (ascii (upperHex n)) = some n := by decide

/-- An encoded byte is decoded to it. -/
theorem decodeBytes_percentByte (b : UInt8) (rest : List UInt8) :
    decodeBytes (Utf8.encode (percentByte b) ++ rest) = b :: decodeBytes rest := by
  have bound := b.toNat_lt
  obtain ⟨smallHigh, high⟩ := hexValue?_upperHex (b.toNat / 16) (by omega)
  obtain ⟨smallLow, low⟩ := hexValue?_upperHex (b.toNat % 16) (by omega)
  have pair : hexPair? (ascii (upperHex (b.toNat / 16))) (ascii (upperHex (b.toNat % 16)))
      = some b := by
    rw [hexPair?, high, low]
    show some (UInt8.ofNat (b.toNat / 16 * 16 + b.toNat % 16)) = some b
    rw [Nat.div_add_mod' b.toNat 16, UInt8.ofNat_toNat]
  rw [percentByte, encode_ascii (by decide), encode_ascii smallHigh, encode_ascii smallLow]
  show decodeBytes (ascii '%' :: ascii (upperHex (b.toNat / 16))
    :: ascii (upperHex (b.toNat % 16)) :: rest) = _
  rw [decodeBytes, if_pos (by decide), pair]

/-- Encoded bytes are decoded to them. -/
theorem decodeBytes_percentBytes (bs rest : List UInt8) :
    decodeBytes (Utf8.encode (bs.flatMap percentByte) ++ rest) = bs ++ decodeBytes rest := by
  induction bs with
  | nil => rfl
  | cons b bs ih =>
      rw [List.flatMap_cons, encode_append, List.append_assoc, decodeBytes_percentByte, ih,
        List.cons_append]

/-! ## Texts -/

/-- An encoded character is decoded to its bytes, be it escaped or not. -/
theorem decodeBytes_encodeChar {set : List Char} (percent : '%' ∈ set) (c : Char)
    (rest : List UInt8) :
    decodeBytes (Utf8.encode (encodeChar set c) ++ rest)
      = String.utf8EncodeChar c ++ decodeBytes rest := by
  rw [encodeChar]
  split
  · exact decodeBytes_percentBytes _ rest
  -- a character that is kept is one ASCII byte, and no percent sign
  · next kept =>
      rw [Bool.or_eq_true, not_or, isAlwaysEncoded, Bool.or_eq_true, not_or, decide_eq_true_eq,
        decide_eq_true_eq] at kept
      obtain ⟨⟨-, small⟩, outside⟩ := kept
      have other : c ≠ '%' := by
        rintro rfl
        exact outside (List.contains_iff_mem.mpr percent)
      have byte : ascii c ≠ 37 := by
        intro same
        refine other (Char.toNat_inj.mp ?_)
        have value := congrArg UInt8.toNat same
        rw [ascii, toNat_ofNat_of_lt (by omega)] at value
        exact value
      have one : String.utf8EncodeChar c = [ascii c] := by
        rw [utf8EncodeChar_eq, if_pos (by omega)]
        rfl
      rw [encode_cons, show Utf8.encode [] = [] from rfl, List.append_nil, one,
        List.singleton_append, decodeBytes_of_ne byte, List.singleton_append]

/-- **ROUND TRIP**: a text comes back from its encoding, if percent signs are encoded. -/
theorem decodeBytes_encode {set : List Char} (percent : '%' ∈ set) (cs : List Char) :
    decodeBytes (Utf8.encode (encode set cs)) = Utf8.encode cs := by
  induction cs with
  | nil => rfl
  | cons c cs ih =>
      rw [encode, List.flatMap_cons, encode_append, decodeBytes_encodeChar percent, encode_cons]
      exact congrArg _ ih

/-- No character of the set occurs in the encoding, but for those that it is written with. -/
theorem not_mem_encode {set : List Char} {d : Char} (inside : d ∈ set) (percent : d ≠ '%')
    (digit : ∀ n < 16, upperHex n ≠ d) (cs : List Char) : d ∉ encode set cs := by
  intro mem
  obtain ⟨c, -, mem⟩ := List.mem_flatMap.mp mem
  rw [encodeChar] at mem
  split at mem
  · obtain ⟨b, -, mem⟩ := List.mem_flatMap.mp mem
    have bound := b.toNat_lt
    simp only [percentByte, List.mem_cons, List.not_mem_nil, or_false] at mem
    rcases mem with same | same | same
    · exact percent same
    · exact digit _ (by omega) same.symm
    · exact digit _ (by omega) same.symm
  · next kept =>
      rw [Bool.or_eq_true, not_or] at kept
      rw [List.mem_singleton.mp mem] at inside
      exact kept.2 (List.contains_iff_mem.mpr inside)

end Courier.Url
