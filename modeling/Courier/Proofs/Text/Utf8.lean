import Courier.Text.Utf8

/-! # UTF-8 round trip — a character comes back from its own bytes

    A character is encoded in one to four bytes.  The first byte says how
    many follow and, for four of its values, narrows the range of the
    second; those narrow ranges are exactly the ones that encoding a
    character can reach, so taking the first character off never stops in
    the middle of one, and takes nothing off but what encodes to its bytes. -/

namespace Courier.Utf8

/-- A character is no surrogate and lies within the code space. -/
theorem toNat_valid (c : Char) : c.toNat < 0xD800 ∨ (0xDFFF < c.toNat ∧ c.toNat < 0x110000) :=
  c.valid

/-! ## First bytes -/

/-- The leading bytes of two-byte sequences. -/
private theorem lead?_two : ∀ k < 30,
    lead? (UInt8.ofNat (k + 2 + 0xc0)) = some (k + 2, 0x80, 0xBF, 0) := by
  decide

/-- The leading bytes of three-byte sequences, with the bounds of the byte behind each. -/
private theorem lead?_three : ∀ k < 16, lead? (UInt8.ofNat (k + 0xe0))
    = some (k, if k = 0 then 0xA0 else 0x80, if k = 13 then 0x9F else 0xBF, 1) := by
  decide

/-- The leading bytes of four-byte sequences, with the bounds of the byte behind each. -/
private theorem lead?_four : ∀ k < 5, lead? (UInt8.ofNat (k + 0xf0))
    = some (k, if k = 0 then 0x90 else 0x80, if k = 4 then 0x8F else 0xBF, 2) := by
  decide

/-! ## The bytes behind -/

theorem toNat_ofNat_of_lt {n : Nat} (h : n < 256) : (UInt8.ofNat n).toNat = n :=
  UInt8.toNat_ofNat_of_lt' h

/-- One continuation byte adds its six bits. -/
theorem continue?_cons (acc count : Nat) {x : Nat} (h : x < 64) (rest : List UInt8) :
    continue? acc (count + 1) (UInt8.ofNat (x + 0x80) :: rest)
      = continue? (acc * 64 + x) count rest := by
  have hx : (UInt8.ofNat (x + 0x80)).toNat = x + 0x80 := toNat_ofNat_of_lt (by omega)
  rw [continue?, if_pos (by omega), hx, Nat.add_sub_cancel]

/-- A first byte and a second one in its range leave the other bytes to be taken. -/
theorem next_of_lead? {n bits low high more x : Nat} (hn : 0x80 ≤ n ∧ n < 256)
    (lead : lead? (UInt8.ofNat n) = some (bits, low, high, more)) (hx : x < 64)
    (range : low ≤ x + 0x80 ∧ x + 0x80 ≤ high) (rest : List UInt8) :
    next (UInt8.ofNat n) (UInt8.ofNat (x + 0x80) :: rest)
      = ((continue? (bits * 64 + x) more rest).1.map Char.ofNat,
        (continue? (bits * 64 + x) more rest).2) := by
  have hx' : (UInt8.ofNat (x + 0x80)).toNat = x + 0x80 := toNat_ofNat_of_lt (by omega)
  have hn' : ¬(UInt8.ofNat n).toNat < 0x80 := by
    rw [toNat_ofNat_of_lt hn.2]
    omega
  unfold next
  rw [if_neg hn', lead]
  dsimp only
  rw [hx', if_pos range, Nat.add_sub_cancel]

/-! ## Whole characters -/

/-- The encoding in terms of numbers instead of machine words. -/
theorem utf8EncodeChar_eq (c : Char) : String.utf8EncodeChar c =
    if c.toNat ≤ 0x7f then [UInt8.ofNat c.toNat]
    else if c.toNat ≤ 0x7ff then
      [UInt8.ofNat (c.toNat / 64 % 32 + 0xc0), UInt8.ofNat (c.toNat % 64 + 0x80)]
    else if c.toNat ≤ 0xffff then
      [UInt8.ofNat (c.toNat / 4096 % 16 + 0xe0), UInt8.ofNat (c.toNat / 64 % 64 + 0x80),
        UInt8.ofNat (c.toNat % 64 + 0x80)]
    else
      [UInt8.ofNat (c.toNat / 262144 % 8 + 0xf0), UInt8.ofNat (c.toNat / 4096 % 64 + 0x80),
        UInt8.ofNat (c.toNat / 64 % 64 + 0x80), UInt8.ofNat (c.toNat % 64 + 0x80)] := rfl

/-- Taking the first character off its own bytes gives it back, whatever follows. -/
theorem next_utf8EncodeChar (c : Char) : ∃ b bs, String.utf8EncodeChar c = b :: bs ∧
    ∀ rest, next b (bs ++ rest) = (some c, rest) := by
  have valid := toNat_valid c
  have back {n : Nat} (h : n = c.toNat) : Char.ofNat n = c := by rw [h, Char.ofNat_toNat]
  rw [utf8EncodeChar_eq]
  -- one byte, two, three or four, by the size of the character
  by_cases h1 : c.toNat ≤ 0x7f
  · refine ⟨_, _, if_pos h1, fun rest => ?_⟩
    have hn : (UInt8.ofNat c.toNat).toNat = c.toNat := toNat_ofNat_of_lt (by omega)
    unfold next
    rw [hn, if_pos (by omega), back rfl]
    rfl
  rw [if_neg h1]
  by_cases h2 : c.toNat ≤ 0x7ff
  · refine ⟨_, _, if_pos h2, fun rest => ?_⟩
    -- the bits of a two-byte character start at two, or one byte would have done
    have lead := lead?_two (c.toNat / 64 % 32 - 2) (by omega)
    rw [Nat.sub_add_cancel (by omega)] at lead
    rw [List.cons_append, List.nil_append, next_of_lead? (by omega) lead (by omega) (by omega)]
    show (some (Char.ofNat _), rest) = _
    rw [back (by omega)]
  rw [if_neg h2]
  by_cases h3 : c.toNat ≤ 0xffff
  · refine ⟨_, _, if_pos h3, fun rest => ?_⟩
    rw [Nat.mod_eq_of_lt (by omega : c.toNat / 4096 < 16), List.cons_append,
      next_of_lead? (by omega) (lead?_three _ (by omega)) (by omega)
        (by constructor <;> split <;> omega)]
    simp only [List.cons_append, List.nil_append,
      continue?_cons _ _ (Nat.mod_lt c.toNat (by decide : 64 > 0))]
    show (some (Char.ofNat _), rest) = _
    rw [back (by omega)]
  · rw [if_neg h3]
    refine ⟨_, _, rfl, fun rest => ?_⟩
    rw [Nat.mod_eq_of_lt (by omega : c.toNat / 262144 < 8), List.cons_append,
      next_of_lead? (by omega) (lead?_four _ (by omega)) (by omega)
        (by constructor <;> split <;> omega)]
    simp only [List.cons_append, List.nil_append,
      continue?_cons _ _ (Nat.mod_lt _ (by decide : 64 > 0))]
    show (some (Char.ofNat _), rest) = _
    rw [back (by omega)]

/-! ## Characters from bytes -/

theorem toNat_ofNat_of_valid {n : Nat} (valid : n.isValidChar) : (Char.ofNat n).toNat = n := by
  rw [Char.ofNat, dif_pos valid]
  rfl

/-- What goes on behind a first byte begins with a byte that has six bits of its own. -/
theorem continue?_eq_some {acc count n : Nat} {rest rest' : List UInt8}
    (h : continue? acc (count + 1) rest = (some n, rest')) :
    ∃ x behind, x < 64 ∧ rest = UInt8.ofNat (x + 0x80) :: behind ∧
      continue? (acc * 64 + x) count behind = (some n, rest') := by
  cases rest with
  | nil => cases h
  | cons b behind =>
      rw [continue?] at h
      split at h
      · next range =>
          refine ⟨b.toNat - 0x80, behind, by omega, ?_, h⟩
          rw [Nat.sub_add_cancel range.1, UInt8.ofNat_toNat]
      · cases h

/-- What a first byte says, for each of the forms that there are. -/
theorem lead?_eq_some {b : UInt8} {bits low high more : Nat}
    (h : lead? b = some (bits, low, high, more)) :
    (more = 0 ∧ 2 ≤ bits ∧ bits < 32 ∧ b.toNat = bits + 0xC0 ∧ low = 0x80 ∧ high = 0xBF) ∨
    (more = 1 ∧ bits < 16 ∧ b.toNat = bits + 0xE0 ∧ 0x80 ≤ low ∧ high ≤ 0xBF ∧
      (bits = 0 → low = 0xA0) ∧ (bits = 13 → high = 0x9F)) ∨
    (more = 2 ∧ bits < 5 ∧ b.toNat = bits + 0xF0 ∧ 0x80 ≤ low ∧ high ≤ 0xBF ∧
      (bits = 0 → low = 0x90) ∧ (bits = 4 → high = 0x8F)) := by
  have small := b.toNat_lt
  rw [lead?] at h
  repeat' split at h
  all_goals first
    | simp only [Option.some.injEq, Prod.mk.injEq] at h
      omega
    | exact nomatch h

/-- The two bytes of a character, from the bits that each carries. -/
theorem utf8EncodeChar_two {bits x : Nat} (leads : 2 ≤ bits ∧ bits < 32) (hx : x < 64) :
    String.utf8EncodeChar (Char.ofNat (bits * 64 + x))
      = [UInt8.ofNat (bits + 0xC0), UInt8.ofNat (x + 0x80)] := by
  have number : (Char.ofNat (bits * 64 + x)).toNat = bits * 64 + x :=
    toNat_ofNat_of_valid (Or.inl (by omega))
  rw [utf8EncodeChar_eq, number, if_neg (by omega), if_pos (by omega),
    show (bits * 64 + x) / 64 % 32 = bits by omega, show (bits * 64 + x) % 64 = x by omega]

/-- The three bytes of a character, from the bits that each carries. -/
theorem utf8EncodeChar_three {bits x y : Nat} (leads : bits < 16)
    (hx : x < 64 ∧ (bits = 0 → 0x20 ≤ x) ∧ (bits = 13 → x < 0x20)) (hy : y < 64) :
    String.utf8EncodeChar (Char.ofNat ((bits * 64 + x) * 64 + y))
      = [UInt8.ofNat (bits + 0xE0), UInt8.ofNat (x + 0x80), UInt8.ofNat (y + 0x80)] := by
  have number : (Char.ofNat ((bits * 64 + x) * 64 + y)).toNat = (bits * 64 + x) * 64 + y := by
    refine toNat_ofNat_of_valid ?_
    rw [Nat.isValidChar]
    omega
  rw [utf8EncodeChar_eq, number, if_neg (by omega), if_neg (by omega), if_pos (by omega),
    show ((bits * 64 + x) * 64 + y) / 4096 % 16 = bits by omega,
    show ((bits * 64 + x) * 64 + y) / 64 % 64 = x by omega,
    show ((bits * 64 + x) * 64 + y) % 64 = y by omega]

/-- The four bytes of a character, from the bits that each carries. -/
theorem utf8EncodeChar_four {bits x y z : Nat} (leads : bits < 5)
    (hx : x < 64 ∧ (bits = 0 → 0x10 ≤ x) ∧ (bits = 4 → x < 0x10)) (hy : y < 64) (hz : z < 64) :
    String.utf8EncodeChar (Char.ofNat (((bits * 64 + x) * 64 + y) * 64 + z))
      = [UInt8.ofNat (bits + 0xF0), UInt8.ofNat (x + 0x80), UInt8.ofNat (y + 0x80),
        UInt8.ofNat (z + 0x80)] := by
  have number : (Char.ofNat (((bits * 64 + x) * 64 + y) * 64 + z)).toNat
      = ((bits * 64 + x) * 64 + y) * 64 + z := by
    refine toNat_ofNat_of_valid ?_
    rw [Nat.isValidChar]
    omega
  rw [utf8EncodeChar_eq, number, if_neg (by omega), if_neg (by omega), if_neg (by omega),
    show (((bits * 64 + x) * 64 + y) * 64 + z) / 262144 % 8 = bits by omega,
    show (((bits * 64 + x) * 64 + y) * 64 + z) / 4096 % 64 = x by omega,
    show (((bits * 64 + x) * 64 + y) * 64 + z) / 64 % 64 = y by omega,
    show (((bits * 64 + x) * 64 + y) * 64 + z) % 64 = z by omega]

/-- A first byte with what goes on behind it are the bytes of the character that they come to. -/
theorem eq_of_continue? {b second : UInt8} {bits low high more n : Nat}
    {behind rest' : List UInt8} (lead : lead? b = some (bits, low, high, more))
    (range : low ≤ second.toNat ∧ second.toNat ≤ high)
    (h : continue? (bits * 64 + (second.toNat - 0x80)) more behind = (some n, rest')) :
    b :: second :: behind = String.utf8EncodeChar (Char.ofNat n) ++ rest' := by
  have forms := lead?_eq_some lead
  obtain ⟨x, second', rfl⟩ : ∃ x, second.toNat = x + 0x80 ∧ second = UInt8.ofNat (x + 0x80) := by
    refine ⟨second.toNat - 0x80, by omega, ?_⟩
    rw [Nat.sub_add_cancel (by omega), UInt8.ofNat_toNat]
  rw [second', Nat.add_sub_cancel] at h
  have bytes : b = UInt8.ofNat b.toNat := UInt8.ofNat_toNat.symm
  -- one case for each number of bytes
  rcases forms with ⟨rfl, low2, high2, number, rfl, rfl⟩ |
    ⟨rfl, small, number, lows, highs, zero, last⟩ | ⟨rfl, small, number, lows, highs, zero, last⟩
  · obtain ⟨rfl, rfl⟩ : bits * 64 + x = n ∧ behind = rest' := by simpa [continue?] using h
    rw [bytes, number, utf8EncodeChar_two ⟨low2, high2⟩ (by omega)]
    rfl
  · obtain ⟨y, behind', hy, rfl, third⟩ := continue?_eq_some h
    obtain ⟨rfl, rfl⟩ : (bits * 64 + x) * 64 + y = n ∧ behind' = rest' := by
      simpa [continue?] using third
    rw [bytes, number, utf8EncodeChar_three small ⟨by omega, by omega, by omega⟩ hy]
    rfl
  · obtain ⟨y, behind', hy, rfl, third⟩ := continue?_eq_some h
    obtain ⟨z, behind'', hz, rfl, fourth⟩ := continue?_eq_some third
    obtain ⟨rfl, rfl⟩ : ((bits * 64 + x) * 64 + y) * 64 + z = n ∧ behind'' = rest' := by
      simpa [continue?] using fourth
    rw [bytes, number, utf8EncodeChar_four small ⟨by omega, by omega, by omega⟩ hy hz]
    rfl

/-- **EVERY CHARACTER FROM ITS OWN BYTES**: what is taken off well-formed bytes is a character whose
    bytes they began with. -/
theorem eq_of_next {b : UInt8} {rest rest' : List UInt8} {c : Char}
    (h : next b rest = (some c, rest')) : b :: rest = String.utf8EncodeChar c ++ rest' := by
  unfold next at h
  split at h
  · next small =>
      obtain ⟨rfl, rfl⟩ : Char.ofNat b.toNat = c ∧ rest = rest' := by simpa using h
      have number : (Char.ofNat b.toNat).toNat = b.toNat :=
        toNat_ofNat_of_valid (Or.inl (by omega))
      rw [utf8EncodeChar_eq, number, if_pos (by omega), UInt8.ofNat_toNat]
      rfl
  · next large =>
      split at h
      · next bits low high more second behind lead =>
          split at h
          · next range =>
              obtain ⟨n, found, rfl⟩ := Option.map_eq_some_iff.mp (congrArg Prod.fst h)
              have left : (continue? (bits * 64 + (second.toNat - 0x80)) more behind).2 = rest' :=
                congrArg Prod.snd h
              exact eq_of_continue? lead range (Prod.ext found left)
          · cases h
      · cases h

/-! ## Whole texts -/

theorem encode_cons (c : Char) (cs : List Char) :
    encode (c :: cs) = String.utf8EncodeChar c ++ encode cs := rfl

theorem encode_append (cs ds : List Char) : encode (cs ++ ds) = encode cs ++ encode ds := by
  rw [encode]
  exact List.flatMap_append

/-- The byte of an ASCII character. -/
def ascii (c : Char) : UInt8 := UInt8.ofNat c.toNat

/-- An ASCII character is encoded as its byte. -/
theorem encode_ascii {c : Char} (h : c.toNat < 0x80) (cs : List Char) :
    encode (c :: cs) = ascii c :: encode cs := by
  rw [encode_cons, utf8EncodeChar_eq, if_pos (by omega)]
  rfl

/-- Each byte of ASCII text is that of one of its characters. -/
theorem forall_mem_encode {P : UInt8 → Prop} {cs : List Char}
    (h : ∀ c ∈ cs, c.toNat < 0x80 ∧ P (ascii c)) : ∀ b ∈ encode cs, P b := by
  induction cs with
  | nil => exact List.forall_mem_nil _
  | cons c cs ih =>
      obtain ⟨⟨small, first⟩, others⟩ := List.forall_mem_cons.mp h
      rw [encode_ascii small]
      exact List.forall_mem_cons.mpr ⟨first, ih others⟩

/-- An ASCII character is one byte. -/
theorem utf8Size_ascii {c : Char} (h : c.toNat < 0x80) : c.utf8Size = 1 := by
  rw [← String.length_utf8EncodeChar, utf8EncodeChar_eq, if_pos (by omega)]
  rfl

/-- That byte alone is taken off for it. -/
theorem next_ascii {c : Char} (h : c.toNat < 0x80) (rest : List UInt8) :
    next (ascii c) rest = (some c, rest) := by
  have number : (ascii c).toNat = c.toNat := toNat_ofNat_of_lt (by omega)
  unfold next
  rw [number, if_pos h, Char.ofNat_toNat]

/-- Every character takes at least one byte. -/
theorem length_le_encode (cs : List Char) : cs.length ≤ (encode cs).length := by
  induction cs with
  | nil => exact Nat.le_refl _
  | cons c cs ih =>
      obtain ⟨b, bs, hbytes, -⟩ := next_utf8EncodeChar c
      rw [encode_cons, hbytes, List.length_append, List.length_cons, List.length_cons]
      omega

/-- Different texts have different bytes. -/
theorem encode_inj {cs ds : List Char} (same : encode cs = encode ds) : cs = ds := by
  induction cs generalizing ds with
  | nil =>
      cases ds with
      | nil => rfl
      | cons d ds =>
          obtain ⟨b, bs, hbytes, -⟩ := next_utf8EncodeChar d
          rw [encode_cons, hbytes] at same
          exact nomatch same
  | cons c cs ih =>
      obtain ⟨b, bs, hbytes, hnext⟩ := next_utf8EncodeChar c
      cases ds with
      | nil =>
          rw [encode_cons, hbytes] at same
          exact nomatch same
      | cons d ds =>
          obtain ⟨b', bs', hbytes', hnext'⟩ := next_utf8EncodeChar d
          rw [encode_cons, encode_cons, hbytes, hbytes', List.cons_append, List.cons_append] at same
          obtain ⟨rfl, behind⟩ := List.cons.inj same
          -- the first character is taken off the same bytes on both sides
          have taken := hnext (encode cs)
          rw [behind, hnext'] at taken
          have first : d = c := Option.some.inj (congrArg Prod.fst taken)
          have rest : encode ds = encode cs := congrArg Prod.snd taken
          rw [first, ih rest.symm]

/-! ## Up to an ASCII character -/

/-- Bytes that go on behind a first one do not reach beyond an ASCII character. -/
theorem continue?_append {q : UInt8} (small : q.toNat < 0x80) (x s : List UInt8) :
    ∀ acc count : Nat, continue? acc count (x ++ q :: s)
      = ((continue? acc count x).1, (continue? acc count x).2 ++ q :: s) := by
  induction x with
  | nil =>
      intro acc count
      cases count with
      | zero => rfl
      | succ count =>
          have ends : ¬(0x80 ≤ q.toNat ∧ q.toNat ≤ 0xBF) := by omega
          exact if_neg ends
  | cons b x ih =>
      intro acc count
      cases count with
      | zero => rfl
      | succ count =>
          rw [List.cons_append, continue?, continue?]
          split
          · exact ih _ _
          · rfl

/-- Nor does the part that is taken off at once. -/
theorem next_append {q : UInt8} (small : q.toNat < 0x80) (b : UInt8) (x s : List UInt8) :
    next b (x ++ q :: s) = ((next b x).1, (next b x).2 ++ q :: s) := by
  unfold next
  split
  · rfl
  · cases leads : lead? b with
    | none => rfl
    | some range =>
        obtain ⟨bits, low, high, more⟩ := range
        cases x with
        | nil =>
            -- a second byte is none of ASCII
            have above : ¬(low ≤ q.toNat ∧ q.toNat ≤ high) := by
              have forms := lead?_eq_some leads
              omega
            exact if_neg above
        | cons c x =>
            simp only [List.cons_append, continue?_append small]
            split
            · rfl
            · rfl

/-- Bytes are decoded from the first on, with U+FFFD for what is no character. -/
theorem decodeLossy_cons (b : UInt8) (rest : List UInt8) : decodeLossy (b :: rest)
    = (next b rest).1.getD '\uFFFD' :: decodeLossy (next b rest).2 := by rw [decodeLossy]

/-- An ASCII character is decoded from its byte. -/
theorem decodeLossy_ascii {c : Char} (small : c.toNat < 0x80) (s : List UInt8) :
    decodeLossy (ascii c :: s) = c :: decodeLossy s := by
  rw [decodeLossy_cons, next_ascii small]
  rfl

/-- What stands before an ASCII character is decoded on its own. -/
theorem decodeLossy_append {c : Char} (small : c.toNat < 0x80) (x s : List UInt8) :
    decodeLossy (x ++ ascii c :: s) = decodeLossy x ++ c :: decodeLossy s := by
  have byte : (ascii c).toNat < 0x80 := by rwa [ascii, toNat_ofNat_of_lt (by omega)]
  induction x using decodeLossy.induct with
  | case1 =>
      rw [List.nil_append, decodeLossy_ascii small, decodeLossy]
      rfl
  | case2 b x ih =>
      rw [List.cons_append, decodeLossy_cons, next_append byte, decodeLossy_cons, ih]
      rfl

/-- Text that is well-formed comes out as it is. -/
theorem decodeLossy_encode (cs : List Char) (s : List UInt8) :
    decodeLossy (encode cs ++ s) = cs ++ decodeLossy s := by
  induction cs with
  | nil => rfl
  | cons c cs ih =>
      obtain ⟨b, bs, bytes, next⟩ := next_utf8EncodeChar c
      rw [encode_cons, bytes, List.append_assoc, List.cons_append, decodeLossy_cons, next, ih]
      rfl

end Courier.Utf8
