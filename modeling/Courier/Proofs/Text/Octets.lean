import Courier.Proofs.Text.Utf8

/-! # Octets — bytes taken for characters, one for each

    Where only ASCII characters matter, bytes are looked at one by one and
    need not be UTF-8.  Each byte then stands for the character of its own
    number, and what is ASCII stands for itself. -/

namespace Courier.Utf8

/-- The character whose number is the byte. -/
def octet (b : UInt8) : Char := Char.ofNat b.toNat

/-- Bytes as characters. -/
def octets (bs : List UInt8) : List Char := bs.map octet

@[simp] theorem octets_nil : octets [] = [] := rfl

@[simp] theorem octets_cons (b : UInt8) (bs : List UInt8) :
    octets (b :: bs) = octet b :: octets bs := rfl

/-- The characters of bytes in a row. -/
@[simp] theorem octets_append (as bs : List UInt8) : octets (as ++ bs) = octets as ++ octets bs :=
  List.map_append

theorem toNat_octet (b : UInt8) : (octet b).toNat = b.toNat := by
  have small := b.toNat_lt
  have valid : b.toNat.isValidChar := Or.inl (by omega)
  rw [octet, Char.ofNat, dif_pos valid]
  rfl

theorem octet_lt (b : UInt8) : (octet b).toNat < 256 := by
  rw [toNat_octet]
  exact b.toNat_lt

theorem ascii_octet (b : UInt8) : ascii (octet b) = b := by
  rw [ascii, toNat_octet, UInt8.ofNat_toNat]

theorem octet_ascii {c : Char} (h : c.toNat < 256) : octet (ascii c) = c := by
  rw [octet, ascii, toNat_ofNat_of_lt h, Char.ofNat_toNat]

theorem octet_inj {a b : UInt8} (same : octet a = octet b) : a = b := by
  rw [← ascii_octet a, same, ascii_octet]

theorem octets_inj {as bs : List UInt8} (same : octets as = octets bs) : as = bs :=
  (List.map_inj_right fun _ _ => octet_inj).mp same

/-- ASCII characters are their own bytes. -/
theorem octets_encode {cs : List Char} (h : ∀ c ∈ cs, c.toNat < 0x80) :
    octets (encode cs) = cs := by
  induction cs with
  | nil => rfl
  | cons c cs ih =>
      have small := h c List.mem_cons_self
      rw [encode_ascii small, octets_cons, octet_ascii (by omega),
        ih fun c mem => h c (List.mem_cons_of_mem _ mem)]

/-- Bytes with the characters of an ASCII text encode it. -/
theorem eq_encode_of_octets {bs : List UInt8} {cs : List Char} (h : ∀ c ∈ cs, c.toNat < 0x80)
    (same : octets bs = cs) : bs = encode cs :=
  octets_inj (same.trans (octets_encode h).symm)

/-- Bytes whose characters come in two parts are two parts themselves. -/
theorem octets_eq_append_iff {bs : List UInt8} {x y : List Char} : octets bs = x ++ y ↔
    ∃ front back, bs = front ++ back ∧ octets front = x ∧ octets back = y :=
  List.map_eq_append_iff

/-! ## Back to bytes -/

/-- The byte of a character below 256; any other character counts as one beyond ASCII. -/
def narrow (c : Char) : UInt8 := if c.toNat < 256 then ascii c else 0xFF

/-- Characters as bytes, one for each. -/
def narrows (cs : List Char) : List UInt8 := cs.map narrow

theorem narrow_ascii {c : Char} (h : c.toNat < 0x80) : narrow c = ascii c := if_pos (by omega)

theorem narrow_octet (b : UInt8) : narrow (octet b) = b :=
  (if_pos (octet_lt b)).trans (ascii_octet b)

theorem narrows_append (cs ds : List Char) : narrows (cs ++ ds) = narrows cs ++ narrows ds :=
  List.map_append

theorem narrows_ascii {c : Char} (h : c.toNat < 0x80) (cs : List Char) :
    narrows (c :: cs) = ascii c :: narrows cs :=
  congrArg (· :: narrows cs) (narrow_ascii h)

theorem length_narrows (cs : List Char) : (narrows cs).length = cs.length := List.length_map narrow

/-- Bytes that are taken for characters are the bytes of these. -/
theorem narrows_octets (bs : List UInt8) : narrows (octets bs) = bs := by
  rw [narrows, octets, List.map_map]
  exact (List.map_congr_left fun b _ => narrow_octet b).trans (List.map_id bs)

/-- ASCII characters have the same bytes either way. -/
theorem narrows_eq_encode {cs : List Char} (h : ∀ c ∈ cs, c.toNat < 0x80) :
    narrows cs = encode cs := by
  rw [← narrows_octets (encode cs), octets_encode h]

end Courier.Utf8
