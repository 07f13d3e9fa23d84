import Mathlib
import Courier.Proofs.Settings.Leaves

/-! # Defaults — settings read back from their tree

    The tree that shows settings is read back as these settings
    (`Settings.read_toTree`), as far as the texts of their URLs are read as
    these URLs.  So the layer of the defaults has a value at every setting,
    and no foreign key. -/

namespace Courier

open SettingTree

/-! ## Values -/

/-- Whether the text of a URL is read as this URL. -/
def Url.IsReadable (u : Url) : Prop := parse u.text = .ok u

instance : DecidablePred Url.IsReadable := fun u =>
  decidable_of_iff ((Url.parse u.text).toOption = some u) (by
    rw [Url.IsReadable]
    cases Url.parse u.text with
    | ok v => simp [Except.toOption]
    | error fault => exact iff_of_false nofun nofun)

namespace SettingReader

theorem word64_toNat (n : UInt64) : word64 (.unsigned n.toNat) = .ok n := by
  have small : n.toNat < Nat.pow 2 64 := n.toNat_lt
  simp [word64, word, small, Except.map]

theorem word32_toNat (n : UInt32) : word32 (.unsigned n.toNat) = .ok n := by
  have small : n.toNat < Nat.pow 2 32 := n.toNat_lt
  simp [word32, word, small, Except.map]

theorem url_text {u : Url} (h : u.IsReadable) : url (.text u.text) = .ok u := by
  have parsed : Url.parse u.text = .ok u := h
  simp only [url, SettingReader.text, parsed]

/-- An optional URL is read back from its text, or from no key. -/
theorem optional_url_optionalUrl {u : Option Url} (h : ∀ url ∈ u, url.IsReadable) :
    optional url (optionalUrl u) = .ok u := by
  cases u with
  | none => rfl
  | some u => simp [optionalUrl, optional, url_text (h u rfl), Except.map]

end SettingReader

open SettingReader

/-! ## Tables -/

theorem BasicSettings.read_toTree (s : BasicSettings) : shape.read {} s.toTree = .ok s := by
  have shown : s.toTree =
      table [("loglevel", .text s.logLevel), ("report_path", .text s.reportPath)] := by cbv
  rw [shown, Shape.read]
  simp [shape, Shape.readEntries, Slot.of, Except.map, string, path,
    SettingReader.text]

theorem SharedSettings.read_toTree (s : SharedSettings) : shape.read {} s.toTree = .ok s := by
  have shown : s.toTree = table [("database_url", .text s.databaseUrl),
      ("enabled", .bool s.enabled), ("namespace", .text s.ns),
      ("record_name", .text s.recordName)] := by cbv
  rw [shown, Shape.read]
  simp [shape, Shape.readEntries, Slot.of, Except.map, string,
    SettingReader.bool, SettingReader.text]

/-- The settings of the token requests are read back from their tree. -/
theorem AuthSettings.read_toTree (s : AuthSettings) (readable : s.tokenUrl.IsReadable)
    (readable' : ∀ url ∈ s.proxy, url.IsReadable) : shape.read {} s.toTree = .ok s := by
  have shown : s.toTree = table [("proxy", optionalUrl s.proxy),
      ("refresh_base_delay_secs", .unsigned s.refreshBaseDelay.toNat),
      ("refresh_max_attempts", .unsigned s.refreshAttempts.toNat),
      ("refresh_step_secs", .unsigned s.refreshStep.toNat), ("secret_key", .text s.secretKey),
      ("secret_name", .text s.secretName), ("secret_namespace", .text s.secretNamespace),
      ("secret_root", .text s.secretRoot), ("shared", s.shared.toTree),
      ("token_max_age_secs", .unsigned s.tokenMaxAge.toNat),
      ("token_url", .text s.tokenUrl.text)] := by cbv
  rw [shown, Shape.read]
  simp [shape, Shape.readEntries, Slot.of, Except.map, string, path,
    SettingReader.text, word64_toNat, word32_toNat, url_text readable,
    optional_url_optionalUrl readable', SharedSettings.read_toTree]

/-- The settings of the telemetry are read back from their tree. -/
theorem GovernorSettings.read_toTree (s : GovernorSettings) (readable : s.apiUrl.IsReadable)
    (readable' : ∀ url ∈ s.proxy, url.IsReadable) : shape.read {} s.toTree = .ok s := by
  have shown : s.toTree = table [("api_url", .text s.apiUrl.text),
      ("cluster_id", .text s.clusterId), ("enable_multiplexing", .bool s.multiplexing),
      ("proxy", optionalUrl s.proxy), ("timeout_secs", .unsigned s.timeout.toNat)] := by cbv
  rw [shown, Shape.read]
  simp [shape, Shape.readEntries, Slot.of, Except.map, string,
    SettingReader.bool, SettingReader.text, word64_toNat, url_text readable,
    optional_url_optionalUrl readable']

namespace Settings

/-- Whether the texts of all URLs of the settings are read as these URLs. -/
structure HasReadableUrls (s : Settings) : Prop where
  tokenUrl : s.auth.tokenUrl.IsReadable
  authProxy : ∀ url ∈ s.auth.proxy, url.IsReadable
  apiUrl : s.governor.apiUrl.IsReadable
  governorProxy : ∀ url ∈ s.governor.proxy, url.IsReadable

/-- **SETTINGS READ BACK**: the tree that shows settings is read as these settings. -/
theorem read_toTree {s : Settings} (readable : s.HasReadableUrls) :
    shape.read {} s.toTree = .ok s := by
  have auth := s.auth.read_toTree readable.tokenUrl readable.authProxy
  have governor := s.governor.read_toTree readable.apiUrl readable.governorProxy
  have shown : s.toTree = table [("auth", s.auth.toTree), ("basic", s.basic.toTree),
      ("governor", s.governor.toTree)] := by cbv
  rw [shown, Shape.read]
  simp [shape, Shape.readEntries, Slot.of, Except.map,
    BasicSettings.read_toTree, auth, governor]

theorem isOrdered_toTree (s : Settings) : s.toTree.IsOrdered := by
  have bare {es : List (String × SettingTree)} (h : ∀ e ∈ es, e.2.entries = []) :
      (ofList es).IsOrdered := isOrdered_ofList fun e mem => isOrdered_of_entries_eq_nil (h e mem)
  have proxy (u : Option Url) : (optionalUrl u).entries = [] := by cases u <;> rfl
  have basic : s.basic.toTree.IsOrdered := bare (by simp [entries])
  have shared : s.auth.shared.toTree.IsOrdered := bare (by simp [entries])
  have governor : s.governor.toTree.IsOrdered := by
    refine bare ?_
    simp only [List.forall_mem_cons]
    exact ⟨rfl, rfl, proxy _, rfl, rfl, List.forall_mem_nil _⟩
  have auth : s.auth.toTree.IsOrdered := by
    refine isOrdered_ofList ?_
    simp only [List.forall_mem_cons]
    refine ⟨?_, ?_, ?_, ?_, ?_, ?_, ?_, ?_, ?_, ?_, shared, List.forall_mem_nil _⟩
    case refine_2 => exact isOrdered_of_entries_eq_nil (proxy _)
    all_goals exact isOrdered_of_entries_eq_nil rfl
  exact isOrdered_ofList (by simp [basic, auth, governor])

/-! ## The lowest layer -/

/-- The values that settings have if nothing is set. -/
def defaults : SettingTree := ({} : Settings).toTree

theorem hasReadableUrls_default : ({} : Settings).HasReadableUrls where
  tokenUrl := by decide +kernel
  authProxy := nofun
  apiUrl := by decide +kernel
  governorProxy := nofun

/-- **THE DEFAULTS PASS**: the tree of defaults is read as the default settings. -/
theorem read_defaults : shape.read {} defaults = .ok {} := read_toTree hasReadableUrls_default

theorem fits_defaults : defaults.Fits where
  tables := by decide
  values _ hl _ hv := ⟨_, leaf_read (isOrdered_toTree {}) read_defaults hl hv⟩

/-- The lowest layer has a value at every setting. -/
theorem exists_defaults_at? {l : Leaf} (hl : l ∈ leaves) :
    ∃ v, defaults.at? l.path = some v ∧ l.read v = .ok (l.get {}) := by
  have all : ∀ l ∈ leaves, (defaults.at? l.path).isSome := by decide
  obtain ⟨v, hv⟩ := Option.isSome_iff_exists.mp (all l hl)
  exact ⟨v, hv, leaf_read (isOrdered_toTree {}) read_defaults hl hv⟩

theorem not_isForeign_defaults (p : Part) (key : String) : ¬defaults.IsForeign p key :=
  not_isForeign_of_read (isOrdered_toTree {}) read_defaults p key

end Settings

end Courier
