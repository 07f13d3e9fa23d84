import Courier.Proofs.Time.Rfc3339
import Courier.Token.Refresh

/-! # Stored credentials — what one replica writes, every replica reads

    A credential comes back from a record as it was written where its token
    is not empty and its expiry is one that timestamps can show.  A credential
    just issued is usable at the reading of the clock that dated it, unless
    its lifetime is cut to nothing or the clock is at the end of its line. -/

namespace Courier

/-- A grant with a token, with a lifetime left under the ceiling, and with an expiry that
    timestamps can show. -/
structure Grant.IsLasting (g : Grant) (maxAge : Span) (now : Instant) : Prop where
  token : g.token ≠ ""
  lifetime : 0 < (min g.lifetime maxAge).toNanos
  readable : 0 ≤ Rfc3339.yearOf (now.later (min g.lifetime maxAge)) ∧
    Rfc3339.yearOf (now.later (min g.lifetime maxAge)) ≤ 9999

namespace Credential

/-- Reading a usable credential is reading one, and its being usable. -/
theorem usableIn?_eq_some {r : Record} {now : Instant} {c : Credential} :
    usableIn? r now = some c ↔ ofRecord? r = some c ∧ c.isUsableAt now = true :=
  Option.filter_eq_some_iff

theorem isEmpty_eq_false {s : String} (h : s ≠ "") : s.isEmpty = false := by
  cases empty : s.isEmpty with
  | false => rfl
  | true => exact absurd (String.isEmpty_iff.mp empty) h

/-! ## Writing to a record -/

/-- A record that a credential was written to holds its expiry as a text. -/
theorem get?_writeTo_expiryKey (c : Credential) (r : Record) :
    (c.writeTo r).data.get? expiryKey = some (Rfc3339.format c.expiresAt) :=
  Fields.get?_insert_self ..

theorem get?_writeTo_tokenKey (c : Credential) (r : Record) :
    (c.writeTo r).data.get? tokenKey = some c.token :=
  (Fields.get?_insert_of_ne _ _ (by decide)).trans (Fields.get?_insert_self ..)

/-- The other keys of a record are left alone. -/
theorem get?_writeTo_of_ne (c : Credential) (r : Record) {key : String} (token : key ≠ tokenKey)
    (expiry : key ≠ expiryKey) : (c.writeTo r).data.get? key = r.data.get? key :=
  (Fields.get?_insert_of_ne _ _ expiry).trans (Fields.get?_insert_of_ne _ _ token)

/-- **CREDENTIAL ROUND TRIP**: a credential is read back from the record it was written to. -/
theorem ofRecord?_writeTo {c : Credential} (r : Record) (token : c.token ≠ "")
    (readable : 0 ≤ Rfc3339.yearOf c.expiresAt ∧ Rfc3339.yearOf c.expiresAt ≤ 9999) :
    ofRecord? (c.writeTo r) = some c := by
  have kept : (some c.token).filter (fun t => !t.isEmpty) = some c.token := by
    rw [Option.filter_some, isEmpty_eq_false token]
    rfl
  simp only [ofRecord?, get?_writeTo_tokenKey, kept, get?_writeTo_expiryKey, Option.bind_eq_bind,
    Option.bind_some, Rfc3339.parse?_format c.expiresAt readable]

/-- Nothing else is read back from a record that a credential was written to. -/
theorem eq_of_ofRecord?_writeTo {c d : Credential} {r : Record}
    (read : ofRecord? (c.writeTo r) = some d) :
    d = c ∧ 0 ≤ Rfc3339.yearOf c.expiresAt ∧ Rfc3339.yearOf c.expiresAt ≤ 9999 := by
  obtain ⟨token, kept, read⟩ := Option.bind_eq_some_iff.mp read
  obtain ⟨expiry, found, read⟩ := Option.bind_eq_some_iff.mp read
  obtain ⟨expiresAt, parsed, made⟩ := Option.bind_eq_some_iff.mp read
  rw [get?_writeTo_tokenKey, Option.filter_eq_some_iff] at kept
  rw [get?_writeTo_expiryKey] at found
  obtain rfl : c.token = token := Option.some.inj kept.1
  obtain rfl : Rfc3339.format c.expiresAt = expiry := Option.some.inj found
  obtain ⟨rfl, readable⟩ := Rfc3339.eq_of_parse?_format parsed
  exact ⟨(Option.some.inj made).symm, readable⟩

/-- **READ BACK UP TO THE YEAR 9999**: whatever else is in a record, and from whatever token,
    lifetime and reading of the clock, a credential that is issued is read back from the record it
    was written to just if it expires in the years 0 to 9999, so between the seconds that begin the
    one and end the other.  Otherwise nothing is read back. -/
theorem ofRecord?_writeTo_issued {token : String} (nonempty : token ≠ "")
    (lifetime maxAge : Span) (now : Instant) (r : Record) :
    let c := issued token lifetime maxAge now
    ofRecord? (c.writeTo r)
      = if -62167219200 ≤ c.expiresAt.secs ∧ c.expiresAt.secs < 253402300800 then some c
        else none := by
  intro c
  have range := Rfc3339.yearOf_mem_iff c.expiresAt
  split
  · next inside => exact ofRecord?_writeTo r nonempty (range.mpr inside)
  · next outside =>
      cases read : ofRecord? (c.writeTo r) with
      | none => rfl
      | some d => exact absurd (range.mp (eq_of_ofRecord?_writeTo read).2) outside

/-- Ten minutes before the year 10000, a credential that is cut to one minute is read back, and one
    of ten minutes is not. -/
theorem ofRecord?_writeTo_issued_at_its_limit :
    let now : Instant := ⟨253402300200, 0, by decide, by decide, by decide, by decide⟩
    let record : Record := ⟨⟨"ns", "r"⟩, .ofList [("owner", "peer"), (tokenKey, "old")], 3⟩
    let c (maxAge : UInt64) := issued "tok-1" (.ofSeconds 600) (.ofSeconds maxAge) now
    "tok-1" ≠ "" ∧ ofRecord? ((c 60).writeTo record) = some (c 60) ∧
      ofRecord? ((c 600).writeTo record) = none := by
  intro now record c
  have nonempty : "tok-1" ≠ "" := by decide
  refine ⟨nonempty, ?_, ?_⟩
  · exact (ofRecord?_writeTo_issued nonempty _ _ now record).trans (if_pos (by decide))
  · exact (ofRecord?_writeTo_issued nonempty _ _ now record).trans (if_neg (by decide))

/-- A lifetime without end stops at the last instant of the line.  The credential is usable, and
    nothing is read back of it. -/
theorem endless_credential_is_lost :
    let c := issued "tok" .longest .longest .epoch
    c.token ≠ "" ∧ c.expiresAt = .latest ∧ c.isUsableAt .epoch = true ∧
      ofRecord? (c.writeTo (.empty ⟨"ns", "r"⟩)) = none := by
  decide +kernel

/-- A credential that lasts, and that every replica can read. -/
structure Lasting (c : Credential) (now : Instant) : Prop where
  token : c.token ≠ ""
  readable : 0 ≤ Rfc3339.yearOf c.expiresAt ∧ Rfc3339.yearOf c.expiresAt ≤ 9999
  usable : c.isUsableAt now = true

/-- A credential that lasts is read back from a record that it was written to. -/
theorem Lasting.usableIn?_writeTo {c : Credential} {now : Instant} (h : c.Lasting now)
    (r : Record) : usableIn? (c.writeTo r) now = some c :=
  usableIn?_eq_some.mpr ⟨ofRecord?_writeTo r h.token h.readable, h.usable⟩

/-- What is issued for such a grant lasts. -/
theorem lasting_issued {g : Grant} {maxAge : Span} {now : Instant} (h : g.IsLasting maxAge now) :
    (issued g.token g.lifetime maxAge now).Lasting now where
  token := h.token
  readable := h.readable
  usable := by
    have inside : now.later (min g.lifetime maxAge) ≠ Instant.latest := by
      intro latest
      have year : Rfc3339.yearOf Instant.latest = 262142 := by decide
      have readable := h.readable.2
      rw [latest, year] at readable
      exact absurd readable (by decide)
    show (!g.token.isEmpty && now.isBefore (now.later (min g.lifetime maxAge))) = true
    rw [isEmpty_eq_false h.token, Instant.isBefore_later h.lifetime inside]
    rfl

end Credential

end Courier
