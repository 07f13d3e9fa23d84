import Courier.Proofs.Store.Access
import Courier.Proofs.Token.Discretion

/-! # Discretion of stores — records that are alike stay alike

    Two records are alike if they differ in values only: any value may
    differ but that of the expiry, and the token is empty in both or in
    neither.  A row is what reading it gives, so two rows are alike if they
    read alike.  An access to stores that are alike, by operations that are
    alike, is answered alike and leaves them so. -/

namespace Courier

/-! ## Records -/

/-- Entries of one key whose values tell a reader of credentials the same, but for the token. -/
structure EntryTwin (e e' : String × String) : Prop where
  key : e.1 = e'.1
  token : e.1 = Credential.tokenKey → SameBlank e.2 e'.2
  expiry : e.1 = Credential.expiryKey → e.2 = e'.2

theorem EntryTwin.refl (e : String × String) : EntryTwin e e :=
  ⟨rfl, fun _ => rfl, fun _ => rfl⟩

/-- The same keys, and values that are alike. -/
def Fields.Twin (data data' : Fields) : Prop := List.Forall₂ EntryTwin data.entries data'.entries

/-- The same location and version, and data that are alike. -/
structure Record.Twin (r r' : Record) : Prop where
  location : r.location = r'.location
  version : r.version = r'.version
  data : r.data.Twin r'.data

namespace Fields

theorem Twin.refl (data : Fields) : data.Twin data :=
  List.forall₂_same.mpr fun e _ => .refl e

variable {data data' : Fields}

theorem Twin.keys (h : data.Twin data') : data.keys = data'.keys := by
  have same : List.Forall₂ (fun e e' => e.1 = e'.1) data.entries data'.entries :=
    h.imp fun _ _ => EntryTwin.key
  rwa [← List.forall₂_eq_eq_eq, Fields.keys, Fields.keys, List.forall₂_map_left_iff,
    List.forall₂_map_right_iff]

/-- Data that are twins have twins under each key. -/
theorem Twin.get? (h : data.Twin data') (key : String) :
    Option.Rel (fun v v' => EntryTwin (key, v) (key, v')) (data.get? key) (data'.get? key) := by
  rw [Fields.get?, Fields.get?, Entries.value?, Entries.value?]
  rw [Fields.Twin] at h
  generalize data.entries = entries, data'.entries = entries' at h ⊢
  induction h with
  | nil => exact .none
  | @cons e e' entries entries' alike _ ih =>
      obtain ⟨k, v⟩ := e
      obtain ⟨k', v'⟩ := e'
      obtain rfl : k = k' := alike.key
      by_cases here : (k == key) = true
      · obtain rfl := eq_of_beq here
        rw [List.find?_cons_of_pos (by exact here), List.find?_cons_of_pos (by exact here)]
        exact .some alike
      · rw [List.find?_cons_of_neg (by exact here), List.find?_cons_of_neg (by exact here)]
        exact ih

/-- Twins that are inserted into twins leave twins. -/
theorem Twin.insert (h : data.Twin data') {key value value' : String}
    (placed : EntryTwin (key, value) (key, value')) :
    (data.insert key value).Twin (data'.insert key value') := by
  rw [Fields.Twin] at h
  rw [Fields.Twin, Fields.insert, Fields.insert]
  dsimp only
  generalize data.entries = entries, data'.entries = entries' at h ⊢
  induction h with
  | nil => exact .cons placed .nil
  | @cons e e' entries entries' alike rest ih =>
      obtain ⟨k, v⟩ := e
      obtain ⟨k', v'⟩ := e'
      obtain rfl : k = k' := alike.key
      rw [Entries.place, Entries.place]
      split
      · exact .cons placed (.cons alike rest)
      · split
        · exact .cons placed rest
        · exact .cons alike ih

end Fields

namespace Record

variable {r r' : Record}

theorem Twin.refl (r : Record) : r.Twin r := ⟨rfl, rfl, .refl _⟩

/-- A record shows where it lives, its keys and its version. -/
theorem describe_congr (location : r.location = r'.location) (keys : r.data.keys = r'.data.keys)
    (version : r.version = r'.version) : r.describe = r'.describe := by
  unfold describe
  rw [location, keys, version]

theorem Twin.describe (h : r.Twin r') : r.describe = r'.describe :=
  describe_congr h.location h.data.keys h.version

end Record

namespace Credential

/-- Records that are twins hold credentials that are twins. -/
theorem twin_ofRecord? {r r' : Record} (h : r.Twin r') :
    Option.Rel Twin (ofRecord? r) (ofRecord? r') := by
  have tokens := h.data.get? tokenKey
  have expiries := h.data.get? expiryKey
  simp only [ofRecord?]
  generalize r.data.get? tokenKey = t, r'.data.get? tokenKey = t' at tokens ⊢
  generalize r.data.get? expiryKey = e, r'.data.get? expiryKey = e' at expiries ⊢
  cases tokens with
  | none => exact .none
  | @some t t' tokens =>
      -- of a token only its emptiness matters, and of an expiry all of it
      have blank : t.isEmpty = t'.isEmpty := tokens.token rfl
      cases expiries with
      | none =>
          simp only [Option.bind_eq_bind, Option.bind_none, Option.bind_fun_none]
          exact .none
      | @some e e' expiries =>
          obtain rfl : e = e' := expiries.expiry rfl
          rw [Option.filter_some, Option.filter_some, blank]
          cases t'.isEmpty with
          | true => exact .none
          | false =>
              simp only [Bool.not_false, if_true, Option.bind_eq_bind, Option.bind_some]
              cases Rfc3339.parse? e with
              | none => exact .none
              | some expiresAt => exact .some ⟨rfl, blank⟩

/-- Records that are twins hold twins of a usable credential, or neither holds one. -/
theorem twin_usableIn? {r r' : Record} (h : r.Twin r') (now : Instant) :
    Option.Rel Twin (usableIn? r now) (usableIn? r' now) :=
  Twin.filter_isUsableAt (twin_ofRecord? h) now

/-- Credentials that are twins leave twins of records that are twins. -/
theorem Twin.writeTo {c c' : Credential} (h : c.Twin c') {r r' : Record} (records : r.Twin r') :
    (c.writeTo r).Twin (c'.writeTo r') := by
  have different : tokenKey ≠ expiryKey := by decide
  refine ⟨records.location, records.version, ?_⟩
  have token : EntryTwin (tokenKey, c.token) (tokenKey, c'.token) :=
    ⟨rfl, fun _ => h.token, fun same => absurd same different⟩
  refine (records.data.insert token).insert ⟨rfl, fun same => absurd same.symm different, fun _ => ?_⟩
  exact congrArg Rfc3339.format h.expiresAt

end Credential

/-! ## Tables -/

/-- The same locations in the same order, and values that are related. -/
def Table.Twin {α : Type} (R : α → α → Prop) (t t' : Table α) : Prop :=
  List.Forall₂ (fun row row' => row.1 = row'.1 ∧ R row.2 row'.2) t.rows t'.rows

namespace Table

variable {α : Type} {R : α → α → Prop} {t t' : Table α}

theorem Twin.find? (h : t.Twin R t') (l : Location) :
    Option.Rel R (t.find? l) (t'.find? l) := by
  rw [Table.Twin] at h
  rw [Table.find?, Table.find?]
  generalize t.rows = rows, t'.rows = rows' at h ⊢
  induction h with
  | nil => exact .none
  | @cons row row' rows rows' alike _ ih =>
      obtain ⟨k, a⟩ := row
      obtain ⟨k', a'⟩ := row'
      obtain ⟨rfl, values⟩ : k = k' ∧ R a a' := alike
      rw [findIn, findIn]
      split
      · exact .some values
      · exact ih

/-- Values that are put into tables that are twins leave twins. -/
theorem Twin.put (h : t.Twin R t') (l : Location) {a a' : α} (values : R a a') :
    (t.put l a).Twin R (t'.put l a') := by
  rw [Table.Twin] at h
  rw [Table.Twin, Table.put, Table.put]
  dsimp only
  generalize t.rows = rows, t'.rows = rows' at h ⊢
  induction h with
  | nil => exact .cons ⟨rfl, values⟩ .nil
  | @cons row row' rows rows' alike rest ih =>
      obtain ⟨k, b⟩ := row
      obtain ⟨k', b'⟩ := row'
      obtain ⟨rfl, others⟩ : k = k' ∧ R b b' := alike
      rw [putIn, putIn]
      split
      · exact .cons ⟨rfl, values⟩ rest
      · exact .cons ⟨rfl, others⟩ ih

end Table

/-! ## Stores -/

/-- The same version, and texts that read alike. -/
structure Row.Twin (row row' : Row) : Prop where
  version : row.version = row'.version
  data : Matched Eq Fields.Twin (Database.readData row.data) (Database.readData row'.data)

/-- Stores of one kind with records that are alike. -/
inductive Store.Twin : Store → Store → Prop where
  | memory {m m' : MemoryStore} (records : m.records.Twin Record.Twin m'.records) :
      Twin (.memory m) (.memory m')
  | sqlite {db db' : Database} (rows : db.rows.Twin Row.Twin db'.rows) :
      Twin (.sqlite db) (.sqlite db')

/-- Operations of one kind, at one location, with records that are alike. -/
inductive Operation.Twin : Operation → Operation → Prop where
  | get (location : Location) : Twin (.get location) (.get location)
  | update {r r' : Record} (records : r.Twin r') : Twin (.update r) (.update r')

/-- Answers of a store: records that are alike, or the same failure. -/
abbrev AnswerTwin : Except StoreError Record → Except StoreError Record → Prop :=
  Matched Eq Record.Twin

/-- Data that are twins are stored as rows that are twins. -/
theorem Row.twin_of_data {data data' : Fields} (h : data.Twin data') (version : VersionCell) :
    Row.Twin ⟨Database.dataText data, version⟩ ⟨Database.dataText data', version⟩ := by
  refine ⟨rfl, ?_⟩
  rw [Database.readData_dataText, Database.readData_dataText]
  exact .ok h

theorem Row.Twin.refl (row : Row) : row.Twin row :=
  ⟨rfl, .refl (fun _ => rfl) Fields.Twin.refl _⟩

namespace Store

/-- Reading a record in memory keeps twins. -/
theorem twin_memory_get {m m' : MemoryStore} (h : m.records.Twin Record.Twin m'.records)
    (l : Location) : (m.getOrCreate l).1.Twin (m'.getOrCreate l).1 ∧
      (m.getOrCreate l).2.records.Twin Record.Twin (m'.getOrCreate l).2.records := by
  have found := h.find? l
  rw [MemoryStore.getOrCreate, MemoryStore.getOrCreate]
  generalize m.records.find? l = r, m'.records.find? l = r' at found ⊢
  cases found with
  | none => exact ⟨.refl _, h.put l (.refl _)⟩
  | some alike => exact ⟨alike, h⟩

/-- Updating a record in memory keeps twins. -/
theorem twin_memory_update {m m' : MemoryStore} (h : m.records.Twin Record.Twin m'.records)
    {r r' : Record} (records : r.Twin r') : AnswerTwin (m.update r).1 (m'.update r').1 ∧
      (m.update r).2.records.Twin Record.Twin (m'.update r').2.records := by
  have found := h.find? r.location
  rw [MemoryStore.update, MemoryStore.update, ← records.location, ← records.version]
  generalize m.records.find? r.location = stored, m'.records.find? r.location = stored' at found ⊢
  cases found with
  | none => exact ⟨.error rfl, h⟩
  | @some stored stored' alike =>
      have next : Record.Twin { stored with data := r.data, version := stored.version + 1 }
          { stored' with data := r'.data, version := stored.version + 1 } :=
        ⟨alike.location, rfl, records.data⟩
      dsimp only
      rw [← alike.version]
      split
      · exact ⟨.ok next, h.put r.location next⟩
      · exact ⟨.error rfl, h⟩

/-- Inserting what is missing keeps databases twins. -/
theorem twin_insertMissing {db db' : Database} (h : db.rows.Twin Row.Twin db'.rows)
    (l : Location) :
    (db.insertMissing l).rows.Twin Row.Twin (db'.insertMissing l).rows := by
  have found := h.find? l
  rw [Database.insertMissing, Database.insertMissing]
  generalize db.rows.find? l = row, db'.rows.find? l = row' at found ⊢
  cases found with
  | none => exact h.put l (.refl _)
  | some alike => exact h

/-- A write with a condition succeeds in both of two twins, or in neither, and keeps them twins. -/
theorem twin_writeWhere {db db' : Database} (h : db.rows.Twin Row.Twin db'.rows) (l : Location)
    {data data' : Fields} (texts : data.Twin data') (expected : Int64) :
    (db.writeWhere l (Database.dataText data) expected).1
        = (db'.writeWhere l (Database.dataText data') expected).1 ∧
      (db.writeWhere l (Database.dataText data) expected).2.rows.Twin Row.Twin
        (db'.writeWhere l (Database.dataText data') expected).2.rows := by
  have found := h.find? l
  rw [Database.writeWhere, Database.writeWhere]
  generalize db.rows.find? l = row, db'.rows.find? l = row' at found ⊢
  cases found with
  | none => exact ⟨rfl, h⟩
  | @some row row' alike =>
      dsimp only
      rw [← alike.version]
      split
      · exact ⟨rfl, h.put l (Row.twin_of_data texts _)⟩
      · exact ⟨rfl, h⟩

/-- The first access of an operation. -/
theorem Twin.start {s s' : Store} (h : s.Twin s') {op op' : Operation} (ops : op.Twin op') :
    Option.Rel AnswerTwin (s.start op).1 (s'.start op').1 ∧
      (s.start op).2.Twin (s'.start op').2 := by
  cases h with
  | memory records =>
      cases ops with
      | get l =>
          have read := twin_memory_get records l
          exact ⟨.some (.ok read.1), .memory read.2⟩
      | update edits =>
          have written := twin_memory_update records edits
          exact ⟨.some written.1, .memory written.2⟩
  | sqlite rows =>
      cases ops with
      | get l => exact ⟨.none, .sqlite (twin_insertMissing rows l)⟩
      | @update r r' edits =>
          obtain ⟨same, after⟩ := twin_writeWhere rows r.location edits.data
            (Database.versionForRow r.version)
          have answer : AnswerTwin (.ok ⟨r.location, r.data, r.version + 1⟩)
              (.ok ⟨r.location, r'.data, r.version + 1⟩) :=
            .ok ⟨rfl, rfl, edits.data⟩
          simp only [Store.start, ← edits.location, ← edits.version] at same after ⊢
          rw [← same]
          refine ⟨?_, .sqlite after⟩
          split
          · exact .some answer
          · exact .none

theorem Twin.look {s s' : Store} (h : s.Twin s') (l : Location) :
    AnswerTwin (s.look l) (s'.look l) := by
  cases h with
  | @memory m m' records =>
      have found := records.find? l
      rw [Store.look, Store.look]
      dsimp only [MemoryStore.snapshot]
      generalize m.records.find? l = r, m'.records.find? l = r' at found ⊢
      cases found with
      | none => exact .error rfl
      | some alike => exact .ok alike
  | @sqlite db db' rows =>
      have found := rows.find? l
      rw [Store.look, Store.look]
      dsimp only [Database.select]
      generalize db.rows.find? l = row, db'.rows.find? l = row' at found ⊢
      cases found with
      | none => exact .error rfl
      | @some row row' alike =>
          -- the rows agree on the version, and on what can be read from their texts
          obtain ⟨text, cell⟩ := row
          obtain ⟨text', cell'⟩ := row'
          obtain ⟨rfl, texts⟩ := alike
          cases cell with
          | real => exact .error rfl
          | integer n =>
              dsimp only [Database.recordOf] at texts ⊢
              generalize Database.readData text = data, Database.readData text' = data' at texts ⊢
              cases texts with
              | ok fields => exact .ok ⟨rfl, rfl, fields⟩
              | error same => exact .error same

/-- Stores that are twins refuse an update for the same reason. -/
theorem Twin.refusal {s s' : Store} (h : s.Twin s') {r r' : Record} (records : r.Twin r') :
    s.refusal r = s'.refusal r' := by
  cases h with
  | @memory m m' stored =>
      have found := stored.find? r.location
      rw [Store.refusal, Store.refusal, ← records.location, ← records.version]
      dsimp only [MemoryStore.snapshot]
      generalize m.records.find? r.location = o, m'.records.find? r.location = o' at found ⊢
      cases found <;> rfl
  | @sqlite db db' rows =>
      have found := rows.find? r.location
      rw [Store.refusal, Store.refusal, ← records.location]
      dsimp only [Database.select]
      generalize db.rows.find? r.location = row, db'.rows.find? r.location = row' at found ⊢
      cases found with
      | none => rw [Database.refusal, Database.refusal, records.location]
      | @some row row' alike =>
          obtain ⟨text, cell⟩ := row
          obtain ⟨text', cell'⟩ := row'
          obtain rfl : cell = cell' := alike.version
          cases cell with
          | real => rfl
          | integer n =>
              dsimp only [Database.refusal]
              rw [records.location, records.version]

/-- The second access of an operation. -/
theorem Twin.finish {s s' : Store} (h : s.Twin s') {op op' : Operation} (ops : op.Twin op') :
    AnswerTwin (s.finish op) (s'.finish op') := by
  cases ops with
  | get l => exact h.look l
  | update records => exact .error (h.refusal records)

end Store

end Courier
