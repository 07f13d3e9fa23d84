import Mathlib
import Courier.Proofs.Settings.Defaults
import Courier.Proofs.Settings.Variables
import Courier.Proofs.Toml.Order

/-! # Layering — every setting from the highest layer that has it

    The defaults, a file and the environment are merged key by key, so what
    one layer leaves out of a table is found in the layers below, whatever
    else the layers have.  Each setting is that of the last variable that has
    it, else that of the file, else the default.  A key that a strict table
    does not know is refused in whichever layer it stands; at the top, and
    among the settings of the process, such keys make no difference. -/

namespace Courier

namespace SettingTree

/-- Whether two trees have the same settings: they may differ in the other keys at the top and in
    the table of the process. -/
structure SameSettings (t u : SettingTree) : Prop where
  isTableTo : t.IsTableTo ["basic"]
  isTableTo' : u.IsTableTo ["basic"]
  tables : ∀ key ∈ Settings.shape.keys, key ≠ "basic" → t.child? key = u.child? key
  process : ∀ key ∈ BasicSettings.shape.keys, t.at? ["basic", key] = u.at? ["basic", key]

/-- Layers that have the same settings keep them the same when merged. -/
theorem SameSettings.merge {lower lower' upper upper' : SettingTree}
    (below : lower.SameSettings lower') (above : upper.SameSettings upper')
    (ordered : upper.IsOrdered) (ordered' : upper'.IsOrdered) :
    (lower.merge upper).SameSettings (lower'.merge upper') where
  isTableTo := isTableTo_merge ordered below.isTableTo above.isTableTo
  isTableTo' := isTableTo_merge ordered' below.isTableTo' above.isTableTo'
  tables key known other := by
    rw [child?_merge lower above.isTableTo.1 ordered,
      child?_merge lower' above.isTableTo'.1 ordered', below.tables key known other,
      above.tables key known other]
  process key known := by
    have merged := at?_merge lower ordered above.isTableTo key
    have merged' := at?_merge lower' ordered' above.isTableTo' key
    rw [List.singleton_append] at merged merged'
    rw [merged, merged', below.process key known, above.process key known]

/-- Trees with the same settings are read alike, if they have a table of the process. -/
theorem SameSettings.read {t u : SettingTree} (same : t.SameSettings u) (ordered : t.IsOrdered)
    (ordered' : u.IsOrdered) (set : (t.at? ["basic", "loglevel"]).isSome) :
    Settings.shape.read {} t = Settings.shape.read {} u := by
  have set' : (u.at? ["basic", "loglevel"]).isSome :=
    same.process "loglevel" (by decide) ▸ set
  obtain ⟨v, hv⟩ := Option.isSome_iff_exists.mp set
  obtain ⟨v', hv'⟩ := Option.isSome_iff_exists.mp set'
  obtain ⟨c, hc, -⟩ := Option.bind_eq_some_iff.mp hv
  obtain ⟨c', hc', -⟩ := Option.bind_eq_some_iff.mp hv'
  have process : BasicSettings.shape.read {} c = BasicSettings.shape.read {} c' := by
    refine Shape.read_congr BasicSettings.made rfl {} (same.isTableTo.2 c hc)
      (same.isTableTo'.2 c' hc') (ordered.child hc).ascending (ordered'.child hc').ascending
      fun f hf => congrArg _ ?_
    have known : f.key ∈ BasicSettings.shape.keys :=
      BasicSettings.made.keys_eq ▸ List.mem_map_of_mem hf
    have place := same.process f.key known
    rw [at?, hc, at?, hc', Option.bind_some, Option.bind_some, at?_singleton,
      at?_singleton] at place
    exact place
  -- the whole is read from its three tables, of which the first is already the same
  refine Shape.read_congr Settings.made rfl {} same.isTableTo.1 same.isTableTo'.1
    ordered.ascending ordered'.ascending fun f hf => ?_
  simp only [Settings.fields, List.mem_cons, List.not_mem_nil, or_false] at hf
  rcases hf with rfl | rfl | rfl
  · show (t.child? "basic").map _ = (u.child? "basic").map _
    rw [hc, hc']
    exact congrArg some process
  · exact congrArg _ (same.tables "auth" (by decide) (by decide))
  · exact congrArg _ (same.tables "governor" (by decide) (by decide))

end SettingTree

namespace Settings

open SettingTree

variable {document : Option String} {environment : List (String × String)} {file : SettingTree}

/-! ## Three layers -/

theorem fileLayer_spec (h : fileLayer document = .ok file) : file.IsTable ∧ file.IsOrdered := by
  cases document with
  | none =>
      obtain rfl := Except.ok.inj h
      exact ⟨⟨[], rfl⟩, isOrdered_of_entries_eq_nil rfl⟩
  | some text =>
      cases parsed : Toml.parse? text with
      | none => simp [fileLayer, parsed] at h
      | some t =>
          obtain rfl : t = file := by simpa [fileLayer, parsed] using h
          exact Toml.isOrdered_parse? parsed

/-- All layers together have their keys in order. -/
theorem isOrdered_layers (ordered : file.IsOrdered) (environment : List (String × String)) :
    (layers file environment).IsOrdered :=
  isOrdered_merge (isOrdered_merge (isOrdered_toTree {}) ordered)
    (Variable.isOrdered_layer environment)

/-- With a file that can be read, settings are read from the layers and then validated. -/
theorem load_eq (given : fileLayer document = .ok file) : load document environment =
    match shape.read {} (layers file environment) with
    | .ok s => s.validate
    | .error fault => .error (.unreadable fault) := by
  rw [load, given]
  cases read : shape.read {} (layers file environment) <;> simp only [ofTree, read, Except.mapError]

/-- What is set for a setting: by the last variable that sets it, and else by the file. -/
def setting? (file : SettingTree) (environment : List (String × String)) (l : Leaf) :
    Option SettingTree :=
  (Variable.lastSet environment l.path).or (file.at? l.path)

/-- Whether a key of the file or of a variable is none that its strict table has. -/
def IsForeign (file : SettingTree) (environment : List (String × String)) (p : Part)
    (key : String) : Prop :=
  file.IsForeign p key ∨ ∃ v ∈ environment, Variable.IsForeign v p key

section Fitting

variable (ordered : file.IsOrdered) (fits : file.Fits)
  (fits' : ∀ v ∈ environment, Variable.Fits v)
include ordered fits fits'

theorem fits_layers : (layers file environment).Fits :=
  (fits_defaults.merge fits ordered).merge (Variable.fits_layer fits')
    (Variable.isOrdered_layer environment)

/-- A leaf of all layers is what file or environment sets, else its default. -/
theorem layers_at? {l : Leaf} (hl : l ∈ leaves) : (layers file environment).at? l.path =
    (setting? file environment l).or (defaults.at? l.path) := by
  rw [layers, (Variable.fits_layer fits').at?_merge (Variable.isOrdered_layer environment) _ hl,
    Variable.layer_at? fits' hl, fits.at?_merge ordered _ hl, setting?, Option.or_assoc]
  rfl

/-- A key of all layers is foreign when file or environment sets a foreign one. -/
theorem isForeign_layers_iff {p : Part} {key : String} :
    (layers file environment).IsForeign p key ↔ IsForeign file environment p key := by
  have below : (defaults.merge file).IsForeign p key ↔ file.IsForeign p key := by
    rw [isForeign_merge_iff fits ordered, or_iff_right (not_isForeign_defaults p key)]
  rw [layers, isForeign_merge_iff (Variable.fits_layer fits')
    (Variable.isOrdered_layer environment), Variable.isForeign_layer_iff fits']
  exact or_congr_left below

/-- Layers without foreign keys are read: each setting from what is set for it, else as the
    default. -/
theorem exists_read_layers (clean : ∀ p key, ¬IsForeign file environment p key) :
    ∃ s, shape.read {} (layers file environment) = .ok s ∧
      ∀ l ∈ leaves, match setting? file environment l with
        | some v => l.read v = .ok (l.get s)
        | none => l.get s = l.get {} := by
  have whole := isOrdered_layers ordered environment
  obtain ⟨s, read⟩ := exists_read (fits_layers ordered fits fits') whole fun p key foreign =>
    clean p key ((isForeign_layers_iff ordered fits fits').mp foreign)
  refine ⟨s, read, fun l hl => ?_⟩
  obtain ⟨d, standing, default⟩ := exists_defaults_at? hl
  have place := layers_at? ordered fits fits' hl
  rw [standing] at place
  cases set : setting? file environment l with
  | some v =>
      rw [set] at place
      exact leaf_read whole read hl place
  | none =>
      rw [set] at place
      exact Except.ok.inj ((leaf_read whole read hl place).symm.trans default)

end Fitting

/-! ## Loading -/

/-- Layers with the same settings are loaded alike. -/
theorem load_congr {document' : Option String} {file' : SettingTree}
    {environment' : List (String × String)} (given : fileLayer document = .ok file)
    (given' : fileLayer document' = .ok file') (same : file.SameSettings file')
    (same' : (Variable.layer environment).SameSettings (Variable.layer environment'))
    (fits : file.Fits) (fits' : ∀ v ∈ environment, Variable.Fits v) :
    load document' environment' = load document environment := by
  obtain ⟨-, ordered⟩ := fileLayer_spec given
  obtain ⟨-, ordered'⟩ := fileLayer_spec given'
  have isTableTo : defaults.IsTableTo ["basic"] := fits_defaults.tables basicPart (by simp [parts])
  have lowest : defaults.SameSettings defaults :=
    ⟨isTableTo, isTableTo, fun _ _ _ => rfl, fun _ _ => rfl⟩
  have whole : (layers file environment).SameSettings (layers file' environment') :=
    (lowest.merge same ordered ordered').merge same' (Variable.isOrdered_layer environment)
      (Variable.isOrdered_layer environment')
  have set : ((layers file environment).at? ["basic", "loglevel"]).isSome := by
    let l := basicPart.leaf BasicSettings.fields[0]
    have hl : l ∈ leaves := leaf_mem (by simp [parts]) (List.getElem_mem _)
    obtain ⟨d, standing, -⟩ := exists_defaults_at? hl
    rw [show ["basic", "loglevel"] = l.path from rfl, layers_at? ordered fits fits' hl, standing]
    cases setting? file environment l <;> rfl
  rw [load_eq given, load_eq given', whole.read (isOrdered_layers ordered environment)
    (isOrdered_layers ordered' environment') set]

/-- **EVERY SETTING FROM THE HIGHEST LAYER THAT HAS IT**: let a file and an environment have tables
    where tables are read, and values that fit at any of the settings.  Without foreign keys, each
    setting is read from what is set for it, and is the default where nothing is; what is loaded is
    this if it is valid.  With foreign keys, loading fails for one of them.  Other keys at the top
    and in the table of the process make no difference, and every setting has a variable. -/
theorem load_layers (given : fileLayer document = .ok file) (fits : file.Fits)
    (fits' : ∀ v ∈ environment, Variable.Fits v) :
    ((∀ p key, ¬IsForeign file environment p key) →
      ∃ s : Settings, load document environment = s.validate ∧
        ∀ l ∈ leaves, match setting? file environment l with
          | some v => l.read v = .ok (l.get s)
          | none => l.get s = l.get {}) ∧
    ((∃ p key, IsForeign file environment p key) →
      ∃ p key, IsForeign file environment p key ∧
        load document environment = .error (.unreadable (foreignFault p key))) ∧
    (∀ document' file' environment', fileLayer document' = .ok file' → file.SameSettings file' →
      (Variable.layer environment).SameSettings (Variable.layer environment') →
      load document' environment' = load document environment) ∧
    ∀ l ∈ leaves, ∀ text, ((Variable.tree? (Variable.nameOf l.path, text)).bind
      fun t => t.at? l.path) = some (Variable.ofText text) := by
  obtain ⟨-, ordered⟩ := fileLayer_spec given
  have whole := isOrdered_layers ordered environment
  have fitting := fits_layers ordered fits fits'
  refine ⟨fun clean => ?_, fun ⟨p, key, foreign⟩ => ?_, fun document' file' environment' given' same
    same' => load_congr given given' same same' fits fits', fun l hl text =>
    Variable.tree?_nameOf hl text⟩
  · obtain ⟨s, read, all⟩ := exists_read_layers ordered fits fits' clean
    exact ⟨s, by rw [load_eq given, read], all⟩
  · cases read : shape.read {} (layers file environment) with
    | error fault =>
        obtain ⟨q, other, foreign, rfl⟩ := refused_for_foreign fitting whole read
        exact ⟨q, other, (isForeign_layers_iff ordered fits fits').mp foreign,
          by rw [load_eq given, read]⟩
    | ok s =>
        exact absurd ((isForeign_layers_iff ordered fits fits').mpr foreign)
          (not_isForeign_of_read whole read p key)

/-- A file with parts of some tables, and with keys that do not matter. -/
def partialDocument : String :=
  "owner = 7\n[basic]\ncolour = true\n[auth]\nsecret_name = \"mounted\"\n" ++
    "[auth.shared]\nenabled = true\n[governor]\ncluster_id = \"c-1\"\ntimeout_secs = 10\n"

/-- What the document above sets. -/
def partialFile : SettingTree := table
  [("auth", table [("secret_name", .text "mounted"), ("shared", table [("enabled", .bool true)])]),
    ("basic", table [("colour", .bool true)]),
    ("governor", table [("cluster_id", .text "c-1"), ("timeout_secs", .signed 10)]),
    ("owner", .signed 7)]

/-- Variables with other parts of the same tables. -/
def partialEnvironment : List (String × String) :=
  [("PATH", "/bin"), ("GOVERNOR_AUTH__SHARED__NAMESPACE", "team"),
    ("GOVERNOR_GOVERNOR__CLUSTER_ID", "c-2")]

/-- Parts of tables complete each other, and where they meet the variable counts. -/
theorem load_layers_partial : ∃ s : Settings,
    load (some partialDocument) partialEnvironment = s.validate ∧
      s.governor.clusterId = "c-2" ∧ s.governor.timeout = 10 ∧ s.auth.secretName = "mounted" ∧
      s.auth.shared.enabled = true ∧ s.auth.shared.ns = "team" := by
  have hasCluster : governorPart.leaf GovernorSettings.fields[1] ∈ leaves :=
    leaf_mem (by simp [parts]) (List.getElem_mem _)
  have hasTimeout : governorPart.leaf GovernorSettings.fields[3] ∈ leaves :=
    leaf_mem (by simp [parts]) (List.getElem_mem _)
  have hasSecret : authPart.leaf AuthSettings.bareFields[4] ∈ leaves :=
    leaf_mem (by simp [parts]) (List.getElem_mem _)
  have hasEnabled : sharedPart.leaf SharedSettings.fields[0] ∈ leaves :=
    leaf_mem (by simp [parts]) (List.getElem_mem _)
  have hasNs : sharedPart.leaf SharedSettings.fields[2] ∈ leaves :=
    leaf_mem (by simp [parts]) (List.getElem_mem _)
  have given : fileLayer (some partialDocument) = .ok partialFile := by cbv
  have path : Variable.tree? ("PATH", "/bin") = none :=
    Option.map_eq_none_iff.mpr (by decide)
  have ns : Variable.tree? ("GOVERNOR_AUTH__SHARED__NAMESPACE", "team") =
      some (nested (.text "team") ["auth", "shared", "namespace"]) := rfl
  have cluster : Variable.tree? ("GOVERNOR_GOVERNOR__CLUSTER_ID", "c-2") =
      some (nested (.text "c-2") ["governor", "cluster_id"]) := rfl
  have fits' : ∀ v ∈ partialEnvironment, Variable.Fits v := by
    simp only [partialEnvironment, List.forall_mem_cons, Variable.fits_iff ns,
      Variable.fits_iff cluster]
    exact ⟨by simp [Variable.Fits, path], by decide, by decide, List.forall_mem_nil _⟩
  have clean (p : Part) (key : String) : ¬IsForeign partialFile partialEnvironment p key := by
    simp only [IsForeign, partialEnvironment, not_or, not_exists, not_and, List.forall_mem_cons,
      Variable.isForeign_iff ns, Variable.isForeign_iff cluster]
    exact ⟨not_isForeign (by decide) p key, by simp [Variable.IsForeign, path],
      not_isForeign (by decide) p key, not_isForeign (by decide) p key, List.forall_mem_nil _⟩
  obtain ⟨s, loaded, all⟩ := (load_layers given (by decide) fits').1 clean
  have cluster := all _ hasCluster
  have timeout := all _ hasTimeout
  have secret := all _ hasSecret
  have enabled := all _ hasEnabled
  have ns := all _ hasNs
  exact ⟨s, loaded, (Except.ok.inj cluster).symm, (Except.ok.inj timeout).symm,
    (Except.ok.inj secret).symm, (Except.ok.inj enabled).symm, (Except.ok.inj ns).symm⟩

end Settings

end Courier
