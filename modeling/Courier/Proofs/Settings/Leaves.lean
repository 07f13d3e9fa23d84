import Courier.Proofs.Settings.Reading
import Courier.Settings.Load

/-! # Leaves — the settings one by one

    Settings are read from four tables, whose fields are the settings one by
    one, their leaves.  A tree fits if it has tables where tables are read
    and, at each leaf, nothing or a value that the leaf's reader takes.  A
    tree that fits and has no foreign key is read, and each value is found in
    its leaf. -/

namespace Courier

open SettingReader

/-! ## Fields -/

/-- The fields of the settings of the process itself. -/
def BasicSettings.fields : List (Shape.Field BasicSettings) :=
  [.mk "loglevel" string logLevel fun v s => { s with logLevel := v },
    .mk "report_path" path reportPath fun v s => { s with reportPath := v }]

/-- The fields of the settings of the shared record. -/
def SharedSettings.fields : List (Shape.Field SharedSettings) :=
  [.mk "enabled" bool enabled fun v s => { s with enabled := v },
    .mk "database_url" string databaseUrl fun v s => { s with databaseUrl := v },
    .mk "namespace" string ns fun v s => { s with ns := v },
    .mk "record_name" string recordName fun v s => { s with recordName := v }]

/-- The fields of the issuer without those of the shared record. -/
def AuthSettings.bareFields : List (Shape.Field AuthSettings) :=
  [.mk "token_url" url tokenUrl fun v s => { s with tokenUrl := v },
    .mk "proxy" (optional url) proxy fun v s => { s with proxy := v },
    .mk "secret_root" path secretRoot fun v s => { s with secretRoot := v },
    .mk "secret_namespace" string secretNamespace fun v s => { s with secretNamespace := v },
    .mk "secret_name" string secretName fun v s => { s with secretName := v },
    .mk "secret_key" string secretKey fun v s => { s with secretKey := v },
    .mk "token_max_age_secs" word64 tokenMaxAge fun v s => { s with tokenMaxAge := v },
    .mk "refresh_max_attempts" word32 refreshAttempts fun v s => { s with refreshAttempts := v },
    .mk "refresh_base_delay_secs" word64 refreshBaseDelay fun v s =>
      { s with refreshBaseDelay := v },
    .mk "refresh_step_secs" word64 refreshStep fun v s => { s with refreshStep := v }]

/-- The field of the table inside a table. -/
def AuthSettings.sharedField : Shape.Field AuthSettings :=
  .mk "shared" (SharedSettings.shape.read {}) shared fun v s => { s with shared := v }

/-- All fields of the settings of the issuer, the secret and the refreshes. -/
def AuthSettings.fields : List (Shape.Field AuthSettings) := bareFields ++ [sharedField]

/-- The fields of the settings of the telemetry endpoint. -/
def GovernorSettings.fields : List (Shape.Field GovernorSettings) :=
  [.mk "api_url" url apiUrl fun v s => { s with apiUrl := v },
    .mk "cluster_id" string clusterId fun v s => { s with clusterId := v },
    .mk "proxy" (optional url) proxy fun v s => { s with proxy := v },
    .mk "timeout_secs" word64 timeout fun v s => { s with timeout := v },
    .mk "enable_multiplexing" bool multiplexing fun v s => { s with multiplexing := v }]

/-- The field of the table of the process itself. -/
def Settings.basicField : Shape.Field Settings :=
  .mk "basic" (BasicSettings.shape.read {}) basic fun v s => { s with basic := v }

/-- The field of the table of the issuer. -/
def Settings.authField : Shape.Field Settings :=
  .mk "auth" (AuthSettings.shape.read {}) auth fun v s => { s with auth := v }

/-- The field of the table of the telemetry endpoint. -/
def Settings.governorField : Shape.Field Settings :=
  .mk "governor" (GovernorSettings.shape.read {}) governor fun v s => { s with governor := v }

/-- The fields of all settings, each a table. -/
def Settings.fields : List (Shape.Field Settings) := [basicField, authField, governorField]

theorem BasicSettings.made : shape.IsMadeOf fields where
  slots := rfl
  apart := by simp [fields, Shape.Field.Apart]

theorem SharedSettings.made : shape.IsMadeOf fields where
  slots := rfl
  apart := by simp [fields, Shape.Field.Apart]

theorem AuthSettings.made : shape.IsMadeOf fields where
  slots := rfl
  apart := by simp [fields, bareFields, sharedField, Shape.Field.Apart]

theorem GovernorSettings.made : shape.IsMadeOf fields where
  slots := rfl
  apart := by simp [fields, Shape.Field.Apart]

theorem Settings.made : shape.IsMadeOf fields where
  slots := rfl
  apart := by simp [fields, basicField, authField, governorField, Shape.Field.Apart]

/-! ## Parts and leaves -/

/-- A setting: the keys of its table and its own key, how it is read, and where it is in the
    whole. -/
structure Leaf where
  table : List String
  key : String
  {α : Type}
  read : SettingReader α
  get : Settings → α

/-- The keys that lead to a leaf. -/
def Leaf.path (l : Leaf) : List String := l.table ++ [l.key]

/-- A table of settings: its keys, how it is read, where it is in the whole, and its fields with
    those among them that are settings by themselves. -/
structure Part where
  table : List String
  {σ : Type}
  shape : Shape σ
  start : σ
  get : Settings → σ
  fields : List (Shape.Field σ)
  made : shape.IsMadeOf fields
  bare : List (Shape.Field σ)
  bare_subset : bare ⊆ fields

/-- A field of a part as a leaf of all settings. -/
def Part.leaf (p : Part) (f : Shape.Field p.σ) : Leaf := ⟨p.table, f.key, f.read, f.get ∘ p.get⟩

namespace Settings

/-- The part of the process itself. -/
def basicPart : Part where
  table := ["basic"]
  shape := BasicSettings.shape
  start := {}
  get := basic
  fields := BasicSettings.fields
  made := BasicSettings.made
  bare := BasicSettings.fields
  bare_subset := List.Subset.refl _

/-- The part of the issuer, without the table inside. -/
def authPart : Part where
  table := ["auth"]
  shape := AuthSettings.shape
  start := {}
  get := auth
  fields := AuthSettings.fields
  made := AuthSettings.made
  bare := AuthSettings.bareFields
  bare_subset := List.subset_append_left ..

/-- The part of the shared record. -/
def sharedPart : Part where
  table := ["auth", "shared"]
  shape := SharedSettings.shape
  start := {}
  get := AuthSettings.shared ∘ auth
  fields := SharedSettings.fields
  made := SharedSettings.made
  bare := SharedSettings.fields
  bare_subset := List.Subset.refl _

/-- The part of the telemetry endpoint. -/
def governorPart : Part where
  table := ["governor"]
  shape := GovernorSettings.shape
  start := {}
  get := governor
  fields := GovernorSettings.fields
  made := GovernorSettings.made
  bare := GovernorSettings.fields
  bare_subset := List.Subset.refl _

/-- All parts. -/
def parts : List Part := [basicPart, authPart, sharedPart, governorPart]

/-- Every setting there is. -/
def leaves : List Leaf := parts.flatMap fun p => p.bare.map p.leaf

theorem mem_leaves_iff {l : Leaf} : l ∈ leaves ↔ ∃ p ∈ parts, ∃ f ∈ p.bare, p.leaf f = l := by
  simp only [leaves, List.mem_flatMap, List.mem_map]

theorem leaf_mem {p : Part} (hp : p ∈ parts) {f : Shape.Field p.σ} (hf : f ∈ p.bare) :
    p.leaf f ∈ leaves := mem_leaves_iff.mpr ⟨p, hp, f, hf, rfl⟩

/-- No setting is read from a table. -/
theorem leaf_read_table {l : Leaf} (hl : l ∈ leaves) (es : List (String × SettingTree)) (a : l.α) :
    l.read (.table es) ≠ .ok a := by
  have all : leaves.all (fun l => !(l.read (.table es)).isOk) = true := rfl
  intro read
  have refused := List.all_eq_true.mp all l hl
  rw [read] at refused
  exact nomatch refused

end Settings

/-! ## Trees that fit -/

namespace SettingTree

open Settings

/-- Whether the tree has tables where tables are read, and at each setting nothing or what its
    reader takes. -/
structure Fits (t : SettingTree) : Prop where
  tables : ∀ p ∈ parts, t.IsTableTo p.table
  values : ∀ l ∈ leaves, ∀ v, t.at? l.path = some v → ∃ a, l.read v = .ok a

instance (l : Leaf) (v : SettingTree) : Decidable (∃ a, l.read v = .ok a) :=
  decidable_of_iff ((l.read v).isOk = true) (by
    cases l.read v with
    | ok a => exact iff_of_true rfl ⟨a, rfl⟩
    | error fault => exact iff_of_false nofun nofun)

instance (t : SettingTree) : Decidable t.Fits :=
  decidable_of_iff ((∀ p ∈ parts, t.IsTableTo p.table) ∧
      ∀ l ∈ leaves, ∀ v ∈ t.at? l.path, ∃ a, l.read v = .ok a)
    ⟨fun h => ⟨h.1, h.2⟩, fun h => ⟨h.tables, h.values⟩⟩

/-- A key in a strict table that is none of its fields. -/
structure IsForeign (t : SettingTree) (p : Part) (key : String) : Prop where
  part : p ∈ parts
  strict : p.shape.isStrict = true
  unknown : key ∉ p.shape.keys
  set : (t.at? (p.table ++ [key])).isSome

variable {t lower upper : SettingTree}

/-- What stands at a setting of a tree that fits is no table. -/
theorem Fits.not_isTable (h : t.Fits) {l : Leaf} (hl : l ∈ leaves) {v : SettingTree}
    (hv : t.at? l.path = some v) : ¬v.IsTable := by
  rintro ⟨es, rfl⟩
  obtain ⟨a, read⟩ := h.values l hl _ hv
  exact leaf_read_table hl es a read

theorem Fits.isTableTo (h : t.Fits) {l : Leaf} (hl : l ∈ leaves) : t.IsTableTo l.table := by
  obtain ⟨p, hp, f, hf, rfl⟩ := mem_leaves_iff.mp hl
  exact h.tables p hp

/-- **ONE SETTING IN TWO LAYERS**: what the upper layer has at a setting counts, and what the lower
    one has there where the upper one has nothing. -/
theorem Fits.at?_merge (h : upper.Fits) (ordered : upper.IsOrdered) (lower : SettingTree)
    {l : Leaf} (hl : l ∈ leaves) :
    (lower.merge upper).at? l.path = (upper.at? l.path).or (lower.at? l.path) := by
  rw [Leaf.path, SettingTree.at?_merge lower ordered (h.isTableTo hl)]
  cases hv : upper.at? (l.table ++ [l.key]) with
  | none => rfl
  | some v => exact congrArg some (merge_of_bare fun both => h.not_isTable hl hv both.2)

/-- **LAYERS THAT FIT** fit when they are merged. -/
theorem Fits.merge (hl : lower.Fits) (hu : upper.Fits) (ordered : upper.IsOrdered) :
    (lower.merge upper).Fits where
  tables p hp := isTableTo_merge ordered (hl.tables p hp) (hu.tables p hp)
  values l mem v hv := by
    rw [hu.at?_merge ordered lower mem] at hv
    rcases Option.or_eq_some_iff.mp hv with hv | ⟨-, hv⟩
    · exact hu.values l mem v hv
    · exact hl.values l mem v hv

/-- A key of the merged layers is foreign if it is in one of them. -/
theorem isForeign_merge_iff (hu : upper.Fits) (ordered : upper.IsOrdered) {p : Part}
    {key : String} : (lower.merge upper).IsForeign p key ↔
      lower.IsForeign p key ∨ upper.IsForeign p key := by
  have places (part : p ∈ parts) : ((lower.merge upper).at? (p.table ++ [key])).isSome ↔
      (lower.at? (p.table ++ [key])).isSome ∨ (upper.at? (p.table ++ [key])).isSome := by
    rw [SettingTree.at?_merge lower ordered (hu.tables p part)]
    cases upper.at? (p.table ++ [key]) with
    | none => exact ⟨Or.inl, fun h => h.resolve_right nofun⟩
    | some v => exact iff_of_true rfl (Or.inr rfl)
  constructor
  · rintro ⟨part, strict, unknown, set⟩
    exact ((places part).mp set).imp (⟨part, strict, unknown, ·⟩) (⟨part, strict, unknown, ·⟩)
  · rintro (⟨part, strict, unknown, set⟩ | ⟨part, strict, unknown, set⟩)
    · exact ⟨part, strict, unknown, (places part).mpr (Or.inl set)⟩
    · exact ⟨part, strict, unknown, (places part).mpr (Or.inr set)⟩

/-! ## Reading what fits -/

/-- On the way to a leaf there are tables only. -/
theorem IsTableTo.isTable {path : List String} (h : t.IsTableTo path) {c : SettingTree}
    (hc : t.at? path = some c) : c.IsTable := by
  induction path generalizing t with
  | nil =>
      obtain rfl := Option.some.inj hc
      exact h
  | cons k rest ih =>
      obtain ⟨d, hd, hc⟩ := Option.bind_eq_some_iff.mp hc
      exact ih (h.2 d hd) hc

/-- What is inside an ordered tree is ordered. -/
theorem IsOrdered.at? (h : t.IsOrdered) {path : List String} {c : SettingTree}
    (hc : t.at? path = some c) : c.IsOrdered := by
  intro rest u hu
  refine h (path ++ rest) u ?_
  rw [at?_append, hc]
  exact hu

/-- One key further is the child of that key. -/
theorem at?_key {path : List String} {c : SettingTree} (hc : t.at? path = some c) (key : String) :
    t.at? (path ++ [key]) = c.child? key := by
  rw [at?_append, hc]
  exact at?_singleton c key

/-- No key is foreign if every strict table has keys of its fields only. -/
theorem not_isForeign (h : ∀ p ∈ parts, p.shape.isStrict = true → ∀ c ∈ t.at? p.table,
    ∀ e ∈ c.entries, e.1 ∈ p.shape.keys) (p : Part) (key : String) : ¬t.IsForeign p key := by
  rintro ⟨part, strict, unknown, set⟩
  obtain ⟨v, hv⟩ := Option.isSome_iff_exists.mp set
  obtain ⟨c, hc, hv⟩ := Option.bind_eq_some_iff.mp (at?_append t p.table [key] ▸ hv)
  rw [at?_singleton] at hv
  exact unknown (h p part strict c hc (key, v) (Entries.mem_of_value? hv))

end SettingTree

namespace Settings

open SettingTree

variable {t c : SettingTree} {s : Settings}

/-- The fault of a foreign key. -/
def foreignFault (p : Part) (key : String) : SettingFault :=
  ⟨p.table ++ [key], .unknownKey key p.shape.keys⟩

/-- A part of a tree that fits is refused for a foreign key, or in a field that is no setting by
    itself. -/
theorem part_refused (fits : t.Fits) (ordered : t.IsOrdered) {p : Part} (hp : p ∈ parts)
    (hc : t.at? p.table = some c) {fault : SettingFault}
    (h : p.shape.read p.start c = .error fault) :
    (∃ key, t.IsForeign p key ∧ fault = ⟨[key], .unknownKey key p.shape.keys⟩) ∨
      ∃ f ∈ p.fields, f ∉ p.bare ∧ ∃ d below, t.at? (p.table ++ [f.key]) = some d ∧
        f.read d = .error below ∧ fault = below.under f.key := by
  have asc : AscendingKeys c.entries := (ordered.at? hc).ascending
  cases Shape.blames_of_read_error p.made ((fits.tables p hp).isTable hc) h with
  | @value f d below field entry refused =>
      have place : t.at? (p.table ++ [f.key]) = some d :=
        (at?_key hc f.key).trans ((Shape.mem_entries_iff asc).mp entry)
      refine Or.inr ⟨f, field, fun bare => ?_, d, below, place, refused, rfl⟩
      obtain ⟨a, read⟩ := fits.values _ (leaf_mem hp bare) d place
      exact nomatch refused.symm.trans read
  | @key key d strict entry unknown =>
      refine Or.inl ⟨key, ⟨hp, strict, unknown, ?_⟩, rfl⟩
      rw [at?_key hc, (Shape.mem_entries_iff asc).mp entry]
      rfl

/-- **REFUSED THOUGH IT FITS**: a tree that fits is refused for a foreign key only. -/
theorem refused_for_foreign (fits : t.Fits) (ordered : t.IsOrdered) {fault : SettingFault}
    (h : shape.read {} t = .error fault) :
    ∃ p key, t.IsForeign p key ∧ fault = foreignFault p key := by
  have isTable : t.IsTable := (fits.tables basicPart List.mem_cons_self).1
  have alone {p : Part} (hp : p ∈ parts) (whole : p.fields ⊆ p.bare) {c : SettingTree}
      (hc : t.at? p.table = some c) {below : SettingFault}
      (refused : p.shape.read p.start c = .error below) :
      ∃ key, t.IsForeign p key ∧ below = ⟨[key], .unknownKey key p.shape.keys⟩ :=
    (part_refused fits ordered hp hc refused).resolve_right
      fun ⟨f, field, notBare, _⟩ => notBare (whole field)
  cases Shape.blames_of_read_error made isTable h with
  | key strict => exact nomatch strict
  | @value f c below field entry refused =>
      have hc : t.at? [f.key] = some c :=
        (at?_singleton t f.key).trans ((Shape.mem_entries_iff ordered.ascending).mp entry)
      simp only [fields, List.mem_cons, List.not_mem_nil, or_false] at field
      rcases field with rfl | rfl | rfl
      · obtain ⟨key, foreign, rfl⟩ :=
          alone (p := basicPart) (by simp [parts]) (List.Subset.refl _) hc refused
        exact ⟨basicPart, key, foreign, rfl⟩
      · rcases part_refused (p := authPart) fits ordered (by simp [parts]) hc refused with
          ⟨key, foreign, rfl⟩ | ⟨g, field, notBare, d, inner, hd, why, rfl⟩
        · exact ⟨authPart, key, foreign, rfl⟩
        -- the only field of the issuer that is no setting is the shared record
        · obtain rfl : g = AuthSettings.sharedField :=
            (List.mem_append.mp field).elim (fun bare => absurd bare notBare) List.mem_singleton.mp
          obtain ⟨key, foreign, rfl⟩ :=
            alone (p := sharedPart) (by simp [parts]) (List.Subset.refl _) hd why
          exact ⟨sharedPart, key, foreign, rfl⟩
      · obtain ⟨key, foreign, rfl⟩ :=
          alone (p := governorPart) (by simp [parts]) (List.Subset.refl _) hc refused
        exact ⟨governorPart, key, foreign, rfl⟩

/-- A tree that fits, in order and with no foreign key, is read as some settings. -/
theorem exists_read (fits : t.Fits) (ordered : t.IsOrdered) (clean : ∀ p key, ¬t.IsForeign p key) :
    ∃ s, shape.read {} t = .ok s := by
  cases read : shape.read {} t with
  | ok s => exact ⟨s, rfl⟩
  | error fault =>
      obtain ⟨p, key, foreign, -⟩ := refused_for_foreign fits ordered read
      exact absurd foreign (clean p key)

/-- What is read from the whole tree is in each part what is read from it. -/
theorem read_part (ordered : t.IsOrdered) (h : shape.read {} t = .ok s) {p : Part}
    (hp : p ∈ parts) (hc : t.at? p.table = some c) : p.shape.read p.start c = .ok (p.get s) := by
  have top {f : Shape.Field Settings} (field : f ∈ fields) {c : SettingTree}
      (hc : t.at? [f.key] = some c) : f.read c = .ok (f.get s) := by
    rw [at?_singleton] at hc
    exact Shape.read_get made (isTable_of_child? hc) ordered.ascending h field hc
  simp only [parts, List.mem_cons, List.not_mem_nil, or_false] at hp
  rcases hp with rfl | rfl | rfl | rfl
  · exact top (f := basicField) (by simp [fields]) hc
  · exact top (f := authField) (by simp [fields]) hc
  · obtain ⟨d, hd, hc⟩ := Option.bind_eq_some_iff.mp (at?_append t ["auth"] ["shared"] ▸ hc)
    have auth := top (f := authField) (by simp [fields]) hd
    rw [at?_singleton] at hc
    exact Shape.read_get AuthSettings.made (isTable_of_child? hc) (ordered.at? hd).ascending auth
      (f := AuthSettings.sharedField) (by simp [AuthSettings.fields]) hc
  · exact top (f := governorField) (by simp [fields]) hc

/-- **EACH SETTING FROM ITS PLACE**: of a tree that was read, what stands at a setting is what its
    reader makes of it. -/
theorem leaf_read (ordered : t.IsOrdered) (h : shape.read {} t = .ok s) {l : Leaf}
    (hl : l ∈ leaves) {v : SettingTree} (hv : t.at? l.path = some v) :
    l.read v = .ok (l.get s) := by
  obtain ⟨p, hp, f, hf, rfl⟩ := mem_leaves_iff.mp hl
  obtain ⟨c, hc, hv⟩ := Option.bind_eq_some_iff.mp (at?_append t p.table [f.key] ▸ hv)
  rw [at?_singleton] at hv
  exact Shape.read_get p.made (isTable_of_child? hv) (ordered.at? hc).ascending
    (read_part ordered h hp hc) (p.bare_subset hf) hv

/-- A tree with a foreign key is not read. -/
theorem not_isForeign_of_read (ordered : t.IsOrdered) (h : shape.read {} t = .ok s) (p : Part)
    (key : String) : ¬t.IsForeign p key := by
  rintro ⟨part, strict, unknown, set⟩
  obtain ⟨v, hv⟩ := Option.isSome_iff_exists.mp set
  obtain ⟨c, hc, hv⟩ := Option.bind_eq_some_iff.mp (at?_append t p.table [key] ▸ hv)
  rw [at?_singleton] at hv
  exact unknown (Shape.mem_keys_of_read p.made strict (isTable_of_child? hv)
    (ordered.at? hc).ascending (read_part ordered h part hc) (hv ▸ rfl))

end Settings

end Courier
