import Mathlib
import Courier.Proofs.Store.Interchange

/-! # Undisturbed updates — a read, an update, and nobody in between

    The version of a row is a signed number, which other software may have
    set, and that of a record is not.  A row below zero is read as version
    zero, under which no update finds it; one at the end of the range is
    raised out of it, so that nobody can read the row any more.  Every row
    between goes through a read and an update, and an update under any
    version but the one read leaves it alone. -/

namespace Courier.Database

/-- Whether two databases have the same row at a location. -/
def SameRow (l : Location) (db db' : Database) : Prop := db.rows.find? l = db'.rows.find? l

/-- Whether a read, an update of the record it found, and another read go through where nobody
    else writes to the location in between: the update succeeds, and the second read finds the new
    data under the version that the update answered. -/
def GoesThrough (db : Database) (l : Location) (new : Fields) : Prop :=
  ∃ found, (db.getOrCreate l).1 = .ok found ∧
    ∀ between : Database, SameRow l (db.getOrCreate l).2 between →
      ∃ written, (between.update { found with data := new }).1 = .ok written ∧
        ∀ later : Database, SameRow l (between.update { found with data := new }).2 later →
          (later.getOrCreate l).1 = .ok ⟨l, new, written.version⟩

/-- Whether every update of a location under another version than the given one changes nothing. -/
def SparesOthers (db : Database) (l : Location) (version : UInt64) : Prop :=
  ∀ record : Record, record.location = l → record.version ≠ version → (db.update record).2 = db

variable {db db' : Database} {l : Location} {text : String} {n : Int64} {old : Fields}

/-! ## Versions -/

theorem le_maxValue (n : Int64) : n.toInt ≤ 9223372036854775807 := n.toInt_le

theorem lt_maxValue_or_eq (n : Int64) : n < Int64.maxValue ∨ n = Int64.maxValue := by
  rcases Int.lt_or_eq_of_le (le_maxValue n) with below | same
  · exact Or.inl (Int64.lt_iff_toInt_lt.mpr below)
  · exact Or.inr (Int64.toInt_inj.mp same)

/-- A version of a row that is not below zero is the version that is read, at most the greatest. -/
theorem versionOfRow_of_nonneg (nonneg : 0 ≤ n) :
    (versionOfRow n).toNat = n.toInt ∧ n = .ofNat (versionOfRow n).toNat := by
  have nonneg : 0 ≤ n.toInt := Int64.le_iff_toInt_le.mp nonneg
  have most := le_maxValue n
  have value : (versionOfRow n).toNat = n.toInt.toNat := by
    rw [versionOfRow, UInt64.toNat_ofNat_of_lt']
    show n.toInt.toNat < 18446744073709551616
    omega
  refine ⟨by rw [value]; omega, Int64.toInt_inj.mp ?_⟩
  rw [value, Int64.toInt_ofNat_of_lt (by omega)]
  omega

/-- Below zero a row is read as version zero. -/
theorem versionOfRow_of_neg (neg : n < 0) : versionOfRow n = 0 := by
  have neg : n.toInt < 0 := Int64.lt_iff_toInt_lt.mp neg
  rw [versionOfRow, Int.toNat_of_nonpos (Int.le_of_lt neg)]
  rfl

/-- No record's version is stored below zero. -/
theorem nonneg_versionForRow (v : UInt64) : 0 ≤ versionForRow v := by
  rw [versionForRow]
  split
  · next small =>
      rw [Int64.le_iff_toInt_le, Int64.toInt_ofNat_of_lt small]
      exact Int.natCast_nonneg _
  · decide

/-! ## Reading -/

/-- A row is read as it is, and left as it is. -/
theorem getOrCreate_row (row : db.rows.find? l = some ⟨text, .integer n⟩)
    (well : readData text = .ok old) :
    db.getOrCreate l = (.ok ⟨l, old, versionOfRow n⟩, db) := by
  have there : db.insertMissing l = db := by rw [insertMissing, row]
  simp only [getOrCreate, there, select, row, recordOf, well]

/-- A row whose version has left the range of integers cannot be read. -/
theorem getOrCreate_real (row : db.rows.find? l = some ⟨text, .real⟩) :
    (db.getOrCreate l).1 = .error (.database notAnInteger) := by
  have there : db.insertMissing l = db := by rw [insertMissing, row]
  simp only [getOrCreate, there, select, row]

/-! ## Updating -/

/-- An update that the row does not match changes nothing, and is a conflict. -/
theorem update_of_ne {record : Record}
    (row : db.rows.find? record.location = some ⟨text, .integer n⟩)
    (other : n ≠ versionForRow record.version) :
    db.update record = (.error (.conflict record.location record.version), db) := by
  have unwritten : db.writeWhere record.location (dataText record.data)
      (versionForRow record.version) = (false, db) := by
    rw [writeWhere, row]
    exact if_neg fun same => other (VersionCell.integer.inj same)
  simp only [update, unwritten, select, row, refusal]

/-- An update that the row matches replaces the data and raises the version. -/
theorem update_of_eq {record : Record}
    (row : db.rows.find? record.location = some ⟨text, .integer n⟩)
    (same : n = versionForRow record.version) :
    db.update record = (.ok { record with version := record.version + 1 },
      ⟨db.rows.put record.location ⟨dataText record.data, VersionCell.next (.integer n)⟩⟩) := by
  have written : db.writeWhere record.location (dataText record.data)
      (versionForRow record.version) = (true, ⟨db.rows.put record.location
        ⟨dataText record.data, VersionCell.next (.integer n)⟩⟩) := by
    rw [writeWhere, row]
    exact if_pos (congrArg _ same)
  simp only [update, written]

/-- Below zero no update matches the row. -/
theorem update_of_neg (row : db.rows.find? l = some ⟨text, .integer n⟩) (neg : n < 0)
    (record : Record) (here : record.location = l) :
    db.update record = (.error (.conflict l record.version), db) := by
  subst here
  refine update_of_ne row fun same => ?_
  have nonneg := nonneg_versionForRow record.version
  rw [← same] at nonneg
  exact absurd neg (Int64.not_lt.mpr nonneg)

/-- An update of the row at the end of the range makes the row unreadable. -/
theorem update_of_maxValue (row : db.rows.find? l = some ⟨text, .integer Int64.maxValue⟩)
    (new : Fields) {v : UInt64} (matching : versionForRow v = Int64.maxValue) :
    ∃ next : Database, db.update ⟨l, new, v⟩ = (.ok ⟨l, new, v + 1⟩, next) ∧
      next.rows.find? l = some ⟨dataText new, .real⟩ :=
  ⟨_, update_of_eq row matching.symm, Table.find?_put_self ..⟩

/-! ## Rounds -/

/-- A row in the middle of the range holds a record under the version that is read. -/
theorem holds_of_row (row : db.rows.find? l = some ⟨text, .integer n⟩)
    (well : readData text = .ok old) (nonneg : 0 ≤ n) (below : n < Int64.maxValue) :
    (Store.sqlite db).Holds l old (versionOfRow n) ∧
      (Store.sqlite db).HasRoom (versionOfRow n) := by
  obtain ⟨value, same⟩ := versionOfRow_of_nonneg nonneg
  have below : n.toInt < 9223372036854775807 := Int64.lt_iff_toInt_lt.mp below
  have room : (versionOfRow n).toNat < greatestVersion := by
    rw [greatestVersion]
    omega
  refine ⟨⟨text, ?_, well, Nat.le_of_lt room⟩, room⟩
  rw [row, ← same]

/-- In the middle of the range a round goes through. -/
theorem goesThrough_of_between (row : db.rows.find? l = some ⟨text, .integer n⟩)
    (well : readData text = .ok old) (nonneg : 0 ≤ n) (below : n < Int64.maxValue) (new : Fields) :
    db.GoesThrough l new := by
  have read := getOrCreate_row row well
  obtain ⟨held, room⟩ := holds_of_row row well nonneg below
  refine ⟨⟨l, old, versionOfRow n⟩, congrArg Prod.fst read, fun between same => ?_⟩
  rw [read] at same
  have held : (Store.sqlite between).Holds l old (versionOfRow n) :=
    Store.SameAt.holds (show Store.SameAt l (.sqlite db) (.sqlite between) from same) held
  have asked : (Store.sqlite between).Holds (Record.mk l new (versionOfRow n)).location old
      (Record.mk l new (versionOfRow n)).version := held
  obtain ⟨next, performed, now⟩ := asked.perform_update room
  refine ⟨⟨l, new, versionOfRow n + 1⟩, congrArg Prod.fst performed, fun later same => ?_⟩
  have moved : Store.sqlite (between.update ⟨l, new, versionOfRow n⟩).2 = next :=
    congrArg Prod.snd performed
  have same : Store.SameAt l next (.sqlite later) := moved ▸ same
  exact congrArg Prod.fst (same.holds now).perform_get

/-- Below zero no round goes through. -/
theorem not_goesThrough_of_neg (row : db.rows.find? l = some ⟨text, .integer n⟩)
    (well : readData text = .ok old) (neg : n < 0) (new : Fields) : ¬db.GoesThrough l new := by
  rintro ⟨found, read, round⟩
  rw [getOrCreate_row row well] at read round
  obtain rfl := Except.ok.inj read
  obtain ⟨written, updated, -⟩ := round db rfl
  rw [update_of_neg row neg ⟨l, new, versionOfRow n⟩ rfl] at updated
  exact nomatch updated

/-- At the end of the range no round goes through. -/
theorem not_goesThrough_of_maxValue
    (row : db.rows.find? l = some ⟨text, .integer Int64.maxValue⟩)
    (well : readData text = .ok old) (new : Fields) : ¬db.GoesThrough l new := by
  rintro ⟨found, read, round⟩
  rw [getOrCreate_row row well] at read round
  obtain rfl := Except.ok.inj read
  obtain ⟨written, -, again⟩ := round db rfl
  obtain ⟨next, updated, left⟩ :=
    update_of_maxValue row new (v := versionOfRow Int64.maxValue) (by decide)
  have reread := again next (by rw [updated]; rfl)
  rw [getOrCreate_real left] at reread
  exact nomatch reread

/-- Below the end of the range no other version is stored like the one that is read. -/
theorem sparesOthers_of_lt (row : db.rows.find? l = some ⟨text, .integer n⟩)
    (below : n < Int64.maxValue) : db.SparesOthers l (versionOfRow n) := by
  intro record here other
  by_cases neg : n < 0
  · rw [update_of_neg row neg record here]
  · obtain ⟨value, same⟩ := versionOfRow_of_nonneg (Int64.not_lt.mp neg)
    have room : (versionOfRow n).toNat < greatestVersion := by
      have below : n.toInt < 9223372036854775807 := Int64.lt_iff_toInt_lt.mp below
      rw [greatestVersion]
      omega
    subst here
    rw [update_of_ne row fun stored => other (eq_of_versionForRow (Nat.le_of_lt room)
      (Or.inr room) (same.symm.trans stored))]

/-- At the end of the range a version past it is stored like the one that is read. -/
theorem not_sparesOthers_of_maxValue
    (row : db.rows.find? l = some ⟨text, .integer Int64.maxValue⟩) :
    ¬db.SparesOthers l (versionOfRow Int64.maxValue) := by
  intro spares
  obtain ⟨next, updated, left⟩ :=
    update_of_maxValue row .empty (v := 9223372036854775808) (by decide)
  have unchanged : next = db := by
    have other : (9223372036854775808 : UInt64) ≠ versionOfRow Int64.maxValue := by decide
    have spared := spares ⟨l, .empty, 9223372036854775808⟩ rfl other
    rwa [updated] at spared
  rw [unchanged, row] at left
  exact nomatch left

/-- **UNDISTURBED UPDATES**: let a row have well-formed data and any version.  It is read as the
    record with these data, and its version if that is not below zero.  An update of this record
    with nobody in between succeeds, and the next read finds the new data under the version that it
    answered, exactly if the version of the row is from zero to below the greatest one.  Below zero
    the update is refused as a conflict; at the end it succeeds, and no later read does.  An update
    under any other version than the one read changes nothing, exactly if the version of the row is
    not the greatest one. -/
theorem undisturbed_update_goes_through (row : db.rows.find? l = some ⟨text, .integer n⟩)
    (well : readData text = .ok old) :
    db.getOrCreate l = (.ok ⟨l, old, versionOfRow n⟩, db) ∧
      (∀ new, db.GoesThrough l new ↔ 0 ≤ n ∧ n < Int64.maxValue) ∧
      (db.SparesOthers l (versionOfRow n) ↔ n < Int64.maxValue) ∧
      (n < 0 → ∀ new, db.update ⟨l, new, versionOfRow n⟩ = (.error (.conflict l 0), db)) ∧
      (n = Int64.maxValue → ∀ new, ∃ next : Database,
        db.update ⟨l, new, versionOfRow n⟩ = (.ok ⟨l, new, versionOfRow n + 1⟩, next) ∧
          (next.getOrCreate l).1 = .error (.database notAnInteger)) := by
  refine ⟨getOrCreate_row row well, fun new => ⟨fun through => ?_, fun range => ?_⟩,
    ⟨fun spares => ?_, sparesOthers_of_lt row⟩, fun neg new => ?_, ?_⟩
  · refine ⟨Int64.not_lt.mp fun neg => not_goesThrough_of_neg row well neg new through, ?_⟩
    refine (lt_maxValue_or_eq n).resolve_right fun last => ?_
    subst last
    exact not_goesThrough_of_maxValue row well new through
  · exact goesThrough_of_between row well range.1 range.2 new
  · refine (lt_maxValue_or_eq n).resolve_right fun last => ?_
    subst last
    exact not_sparesOthers_of_maxValue row spares
  · rw [update_of_neg row neg _ rfl, versionOfRow_of_neg neg]
  · rintro rfl new
    obtain ⟨next, updated, left⟩ :=
      update_of_maxValue row new (v := versionOfRow Int64.maxValue) (by decide)
    exact ⟨next, updated, getOrCreate_real left⟩

/-- A database with one row. -/
def ofRow (l : Location) (text : String) (n : Int64) : Database :=
  ⟨Table.put {} l ⟨text, .integer n⟩⟩

/-- A row from other software, with spaces in its data, goes through up to the last version but
    one. -/
theorem undisturbed_update_goes_through_near_the_end :
    let l : Location := ⟨"cnsi-system", "governor-access-token"⟩
    let db := ofRow l " \x7b \"owner\" : \"first\" \x7d " 9223372036854775806
    db.rows.find? l = some ⟨" \x7b \"owner\" : \"first\" \x7d ", .integer 9223372036854775806⟩ ∧
      readData " \x7b \"owner\" : \"first\" \x7d " = .ok (.ofList [("owner", "first")]) ∧
      ∀ new, db.GoesThrough l new := by
  intro l db
  have row : db.rows.find? l
      = some ⟨" \x7b \"owner\" : \"first\" \x7d ", .integer 9223372036854775806⟩ := by decide
  have well : readData " \x7b \"owner\" : \"first\" \x7d "
      = .ok (.ofList [("owner", "first")]) := by cbv
  exact ⟨row, well, fun new =>
    ((undisturbed_update_goes_through row well).2.1 new).mpr ⟨by decide, by decide⟩⟩

/-- A round with nobody in between does not go through: where the version of the row is below zero
    the update is a conflict; where it is the greatest one the update succeeds, and so does one
    under a version that nobody has read, and then nobody can read the row any more. -/
theorem undisturbed_update_is_lost :
    let l : Location := ⟨"ns", "r"⟩
    let low := ofRow l "\x7b\x7d" (-1)
    let high := ofRow l "\x7b\x7d" 9223372036854775807
    low.getOrCreate l = (.ok ⟨l, .empty, 0⟩, low) ∧
      low.update ⟨l, .empty, 0⟩ = (.error (.conflict l 0), low) ∧
      high.getOrCreate l = (.ok ⟨l, .empty, 9223372036854775807⟩, high) ∧
      (∃ next : Database, high.update ⟨l, .empty, 9223372036854775807⟩
        = (.ok ⟨l, .empty, 9223372036854775808⟩, next) ∧
          (next.getOrCreate l).1 = .error (.database notAnInteger)) ∧
      ¬high.SparesOthers l 9223372036854775807 := by
  intro l low high
  have lowRow : low.rows.find? l = some ⟨"\x7b\x7d", .integer (-1)⟩ := by decide
  have highRow : high.rows.find? l = some ⟨"\x7b\x7d", .integer Int64.maxValue⟩ := by decide
  have well : readData "\x7b\x7d" = .ok .empty := readData_dataText .empty
  refine ⟨getOrCreate_row lowRow well, update_of_neg lowRow (by decide) _ rfl,
    getOrCreate_row highRow well, ?_, not_sparesOthers_of_maxValue highRow⟩
  obtain ⟨next, updated, left⟩ :=
    update_of_maxValue highRow .empty (v := 9223372036854775807) (by decide)
  exact ⟨next, updated, getOrCreate_real left⟩

end Courier.Database
