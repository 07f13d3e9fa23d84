import Mathlib
import Courier.Proofs.Settings.Layering

/-! # Overrides — a text in the file, and in a variable

    A variable sets its setting as the file would with the value that the
    text of the variable stands for.  So the two required texts, the name of
    the cluster and that of the secret, may be given by a variable instead
    of the file where the text spells nothing but itself; a text that spells
    a number, a truth value, a list or a table is refused, and one between
    quotes loses them. -/

namespace Courier

open SettingTree

/-! ## One variable among others -/

namespace Variable

/-- Whether a variable leaves a place alone: it has only tables on the way there, and nothing
    there. -/
def Spares (v : String × String) (table : List String) (key : String) : Prop :=
  ∀ t ∈ tree? v, t.IsTableTo table ∧ t.at? (table ++ [key]) = none

instance (v : String × String) (table : List String) (key : String) :
    Decidable (Spares v table key) :=
  haveI (t : SettingTree) : Decidable (t.at? (table ++ [key]) = none) :=
    decidable_of_iff _ Option.isNone_iff_eq_none
  inferInstanceAs (Decidable (∀ t ∈ tree? v, t.IsTableTo table ∧ t.at? (table ++ [key]) = none))

variable {environment before after : List (String × String)} {v : String × String}
  {table : List String} {key : String}

/-- Where no variable sets a key, the environment's layer has no value for it. -/
theorem layer_spares (spared : ∀ v ∈ environment, Spares v table key) :
    (layer environment).IsTableTo table ∧ (layer environment).at? (table ++ [key]) = none := by
  induction environment using List.reverseRecOn with
  | nil =>
      cases table with
      | nil => exact ⟨⟨[], rfl⟩, rfl⟩
      | cons k rest => exact ⟨⟨⟨[], rfl⟩, nofun⟩, rfl⟩
  | append_singleton environment v ih =>
      obtain ⟨spared, last⟩ := List.forall_mem_append.mp spared
      obtain ⟨isTableTo, nothing⟩ := ih spared
      cases h : tree? v with
      | none =>
          rw [layer_concat_of_none h]
          exact ⟨isTableTo, nothing⟩
      | some t =>
          obtain ⟨isTableTo', nothing'⟩ := last v List.mem_cons_self t h
          rw [layer_concat h]
          refine ⟨isTableTo_merge (isOrdered_tree? h) isTableTo isTableTo', ?_⟩
          rw [at?_merge _ (isOrdered_tree? h) isTableTo', nothing']
          exact nothing

/-- **ONE VARIABLE AMONG OTHERS** that leave its place alone sets the value there. -/
theorem layer_insert (named : keys? v.1 = some (table ++ [key]))
    (spared : ∀ w ∈ after, Spares w table key) :
    layer (before ++ v :: after) = (layer (before ++ after)).set (table ++ [key]) (ofText v.2) := by
  induction after using List.reverseRecOn with
  | nil =>
      rw [List.append_nil, layer_concat (t := nested (ofText v.2) (table ++ [key]))
        (by rw [tree?, named]; rfl), SettingTree.set]
  | append_singleton after w ih =>
      obtain ⟨spared, last⟩ := List.forall_mem_append.mp spared
      rw [← List.cons_append, ← List.append_assoc, ← List.append_assoc]
      cases h : tree? w with
      | none => rw [layer_concat_of_none h, layer_concat_of_none h, ih spared]
      | some t =>
          obtain ⟨isTableTo, nothing⟩ := last w List.mem_cons_self t h
          rw [layer_concat h, layer_concat h, ih spared, set_merge (isOrdered_ofText v.2)
            (isOrdered_layer _) (isOrdered_tree? h) key isTableTo nothing]

end Variable

namespace Settings

section Layers

variable {file : SettingTree} {before after : List (String × String)} {v : String × String}
  {table : List String} {key : String}

/-- **A VARIABLE AS THE TOP OF ALL LAYERS**: it sets the value in what the layers have without
    it. -/
theorem layers_insert (named : Variable.keys? v.1 = some (table ++ [key]))
    (ordered : file.IsOrdered) (spared : ∀ w ∈ before ++ after, Variable.Spares w table key) :
    layers file (before ++ v :: after) =
      (layers file (before ++ after)).set (table ++ [key]) (Variable.ofText v.2) := by
  obtain ⟨isTableTo, nothing⟩ := Variable.layer_spares spared
  rw [layers, Variable.layer_insert named fun w mem => spared w (List.mem_append_right _ mem),
    merge_set (Variable.isOrdered_ofText v.2) (isOrdered_merge (isOrdered_toTree {}) ordered)
      (Variable.isOrdered_layer _) key isTableTo (Or.inl nothing)]
  rfl

/-- **A VALUE OF THE FILE AS THE TOP OF ALL LAYERS**: if no variable has a say, it may be set in
    what the layers have without it. -/
theorem layers_set {w : SettingTree} (bare : ¬w.IsTable) (orderedValue : w.IsOrdered)
    (ordered : file.IsOrdered) (tables : file.IsTableTo table)
    {environment : List (String × String)}
    (spared : ∀ w ∈ environment, Variable.Spares w table key) :
    layers (file.set (table ++ [key]) w) environment =
      (layers file environment).set (table ++ [key]) w := by
  obtain ⟨isTableTo, nothing⟩ := Variable.layer_spares spared
  rw [layers, merge_set orderedValue (isOrdered_toTree {}) ordered key tables (Or.inr bare),
    set_merge orderedValue (isOrdered_merge (isOrdered_toTree {}) ordered)
      (Variable.isOrdered_layer _) key isTableTo nothing]
  rfl

end Layers

/-! ## The required texts -/

/-- The texts that have no usable default. -/
inductive Required where
  | cluster
  | secret

namespace Required

/-- The table of a required setting. -/
def table : Required → String
  | cluster => "governor"
  | secret => "auth"

/-- The key of a required setting in its table. -/
def key : Required → String
  | cluster => "cluster_id"
  | secret => "secret_name"

/-- Where the text stands in a tree. -/
def path (r : Required) : List String := [r.table, r.key]

/-- The variable of the text. -/
def name : Required → String
  | cluster => "GOVERNOR_GOVERNOR__CLUSTER_ID"
  | secret => "GOVERNOR_AUTH__SECRET_NAME"

/-- The text of a required setting. -/
def get : Required → Settings → String
  | cluster => fun s => s.governor.clusterId
  | secret => fun s => s.auth.secretName

/-- The settings with another text for a required setting. -/
def put : Required → String → Settings → Settings
  | cluster => fun text s => { s with governor := { s.governor with clusterId := text } }
  | secret => fun text s => { s with auth := { s.auth with secretName := text } }

theorem keys?_name (r : Required) : Variable.keys? r.name = some r.path := by
  cases r <;> cbv

theorem put_get (r : Required) (s : Settings) : r.put (r.get s) s = s := by
  cases r <;> rfl

theorem get_put (r : Required) (text : String) (s : Settings) : r.get (r.put text s) = text := by
  cases r <;> rfl

end Required

/-- What the reader of texts makes of a value that is merged over another one: it is refused
    exactly where it is by itself. -/
theorem string_merge (old w : SettingTree) :
    match SettingReader.string w with
    | .ok a => SettingReader.string (old.merge w) = .ok a
    | .error _ => SettingReader.string (old.merge w) =
        .error ⟨[], .wrongKind (old.merge w) "a string"⟩ := by
  by_cases isTable : w.IsTable
  · obtain ⟨es, rfl⟩ := isTable
    obtain ⟨merged, same⟩ := merge_isTable old ⟨es, rfl⟩
    rw [same]
    rfl
  · rw [merge_of_bare fun both => isTable both.2]
    cases w with
    | table es => exact absurd ⟨es, rfl⟩ isTable
    | _ => rfl

section Reading

variable {t : SettingTree} {s : Settings} {old : SettingTree}

/-- A field of a part is set in the tree of all settings. -/
theorem read_set_field {σ : Type} {part : Shape σ} {start : σ} {inside : List (Shape.Field σ)}
    (madeInside : part.IsMadeOf inside) {f : Shape.Field σ} (hf : f ∈ inside) {key : String}
    {get : Settings → σ} {store : σ → Settings → Settings} {get_store} {store_store}
    (hF : Shape.Field.mk key (part.read start) get store get_store store_store ∈ fields)
    (ordered : t.IsOrdered) (h : shape.read {} (t.set [key, f.key] old) = .ok s)
    {w found : SettingTree}
    (merged : found =
      ((((t.child? key).getD .absent).child? f.key).getD .absent).merge w) :
    (∀ a, f.read found = .ok a →
      shape.read {} (t.set [key, f.key] w) = .ok (store (f.store a (get s)) s)) ∧
    ∀ fault, f.read found = .error fault →
      shape.read {} (t.set [key, f.key] w) = .error ((fault.under f.key).under key) := by
  have asc : AscendingKeys t.entries := ordered.ascending
  have standing : part.read start (((t.child? key).getD .absent).set [f.key] old) = .ok (get s) :=
    Shape.read_get made (set_isTable ..) (ascending_set asc ..) h hF (set_child?_self ..)
  have below := Shape.read_set madeInside (ordered.getD_child? key).ascending hf standing w
  rw [show ∀ old : SettingTree, old.set [] w = old.merge w from fun old => rfl, ← merged] at below
  rw [Shape.read_set made asc hF h w]
  simp only [below]
  refine ⟨fun a read => ?_, fun fault read => ?_⟩ <;> rw [read]

/-- **A REQUIRED TEXT IS SET**: let a tree be read with some value for it.  With another value it is
    read as that if that is a text, and refused if it is none; what is found is the value itself
    unless that is a table. -/
theorem read_set_required (r : Required) (ordered : t.IsOrdered)
    (h : shape.read {} (t.set r.path old) = .ok s) (w : SettingTree) :
    match SettingReader.string w with
    | .ok a => shape.read {} (t.set r.path w) = .ok (r.put a s)
    | .error _ => ∃ found, (¬w.IsTable → found = w) ∧ shape.read {} (t.set r.path w) =
        .error ⟨r.path, .wrongKind found "a string"⟩ := by
  obtain ⟨found, same⟩ : ∃ found : SettingTree, found =
      ((((t.child? r.table).getD .absent).child? r.key).getD .absent).merge w := ⟨_, rfl⟩
  have merged := string_merge ((((t.child? r.table).getD .absent).child? r.key).getD .absent) w
  have read : (∀ a, SettingReader.string found = .ok a →
      shape.read {} (t.set r.path w) = .ok (r.put a s)) ∧
      ∀ fault, SettingReader.string found = .error fault →
        shape.read {} (t.set r.path w) = .error ((fault.under r.key).under r.table) := by
    cases r with
    | cluster =>
        let f : Shape.Field GovernorSettings :=
          .mk "cluster_id" SettingReader.string GovernorSettings.clusterId
            fun v s => { s with clusterId := v }
        have field : f ∈ GovernorSettings.fields := by simp [GovernorSettings.fields, f]
        have part : governorField ∈ fields := by simp [fields]
        exact read_set_field GovernorSettings.made field part ordered h same
    | secret =>
        let f : Shape.Field AuthSettings :=
          .mk "secret_name" SettingReader.string AuthSettings.secretName
            fun v s => { s with secretName := v }
        have field : f ∈ AuthSettings.fields := by
          simp [AuthSettings.fields, AuthSettings.bareFields, f]
        have part : authField ∈ fields := by simp [fields]
        exact read_set_field AuthSettings.made field part ordered h same
  rw [← same] at merged
  cases own : SettingReader.string w with
  | ok a =>
      rw [own] at merged
      exact read.1 a merged
  | error fault =>
      rw [own] at merged
      refine ⟨found, fun bare => ?_, read.2 _ merged⟩
      rw [same, merge_of_bare fun both => bare both.2]

end Reading

/-! ## Loading -/

/-- A character between quotes is written with more than itself. -/
theorem three_le_length_of_spells_char {c : Char} {cs : List Char}
    (h : Variable.Spells (.char c) cs) : 3 ≤ cs.length := by
  generalize same : SettingTree.char c = v at h
  induction h with
  | char => exact Nat.le_refl 3
  | bare =>
      exfalso
      revert same
      unfold Variable.scalar
      repeat' split
      all_goals nofun
  | spaced _ _ _ ih =>
      have := ih same
      simp only [List.length_append]
      omega
  | _ => exact nomatch same

/-- A spelling that reads as the very text it stands in is that text, not a character. -/
theorem eq_text_of_spells {v : SettingTree} {text : String}
    (h : Variable.Spells v text.toList) (read : SettingReader.string v = .ok text) :
    v = .text text := by
  cases v with
  | text b => exact congrArg _ (Except.ok.inj read)
  | char c =>
      have long := three_le_length_of_spells_char h
      have short : text = String.ofList [c] := (Except.ok.inj read).symm
      rw [short, String.toList_ofList] at long
      exact absurd long (by simp)
  | _ => exact nomatch read

/-- Validity lets settings through as they are. -/
theorem eq_of_validate {s s' : Settings} (h : s.validate = .ok s') : s = s' := by
  rw [validate] at h
  split at h
  · exact nomatch h
  · exact Except.ok.inj h

/-- What is loaded is what is read, if it is valid. -/
theorem load_eq_ok_iff {document : Option String} {file : SettingTree}
    {environment : List (String × String)} {s : Settings} (given : fileLayer document = .ok file) :
    load document environment = .ok s ↔
      shape.read {} (layers file environment) = .ok s ∧ s.validate = .ok s := by
  rw [load_eq given]
  cases shape.read {} (layers file environment) with
  | error fault => exact iff_of_false nofun fun h => nomatch h.1
  | ok s' =>
      refine ⟨fun valid => ?_, fun ⟨same, valid⟩ => Except.ok.inj same ▸ valid⟩
      obtain rfl := eq_of_validate valid
      exact ⟨rfl, valid⟩

/-- A required text in the file, and a variable for it: the variable sets it to what its text stands
    for if that is a text, and else the settings are refused for it. -/
theorem load_required_variable (r : Required) {document : Option String} {file : SettingTree}
    {before after : List (String × String)} {old : String} {s : Settings}
    (given : fileLayer document = .ok file) (tables : file.IsTableTo [r.table])
    (spared : ∀ v ∈ before ++ after, Variable.Spares v [r.table] r.key)
    (read : shape.read {} (layers (file.set r.path (.text old)) (before ++ after)) = .ok s)
    (text : String) :
    r.get s = old ∧ match SettingReader.string (Variable.ofText text) with
      | .ok a => load document (before ++ (r.name, text) :: after) = (r.put a s).validate
      | .error _ => ∃ found, (¬(Variable.ofText text).IsTable → found = Variable.ofText text) ∧
          load document (before ++ (r.name, text) :: after) =
            .error (.unreadable ⟨r.path, .wrongKind found "a string"⟩) := by
  obtain ⟨-, ordered⟩ := fileLayer_spec given
  have whole := isOrdered_layers ordered (before ++ after)
  have named : Variable.keys? (r.name, text).1 = some ([r.table] ++ [r.key]) :=
    Required.keys?_name r
  have top := layers_insert named ordered spared
  have notTable : ¬(SettingTree.text old).IsTable := by rintro ⟨es, same⟩; exact nomatch same
  have top' := layers_set notTable (isOrdered_of_entries_eq_nil rfl) ordered tables spared
  -- with the text in the file, and with the variable, it is set on top of the same layers
  obtain ⟨t, layered⟩ : ∃ t, t = layers file (before ++ after) := ⟨_, rfl⟩
  rw [← layered] at top top' whole
  rw [show r.path = [r.table] ++ [r.key] from rfl, top'] at read
  have replaced := read_set_required r whole read
  refine ⟨?_, ?_⟩
  · have same : s = r.put old s := Except.ok.inj (read.symm.trans (replaced (.text old)))
    rw [same, r.get_put]
  · have replaced := replaced (Variable.ofText text)
    rw [load_eq given, show layers file (before ++ (r.name, text) :: after) =
      t.set r.path (Variable.ofText text) from top]
    cases kind : SettingReader.string (Variable.ofText text) with
    | ok a =>
        rw [kind] at replaced
        simp only [replaced]
    | error fault =>
        rw [kind] at replaced
        obtain ⟨found, bare, refused⟩ := replaced
        exact ⟨found, bare, by rw [refused]⟩

/-- The settings of the texts. -/
def Required.leaf : Required → Leaf
  | cluster => governorPart.leaf GovernorSettings.fields[1]
  | secret => authPart.leaf AuthSettings.bareFields[4]

theorem Required.leaf_mem (r : Required) : r.leaf ∈ leaves := by
  cases r <;> exact Settings.leaf_mem (by simp [parts]) (List.getElem_mem _)

/-- One of two texts. -/
def Required.among (cluster secret : String) : Required → String
  | .cluster => cluster
  | .secret => secret

/-- Settings with both required texts are valid, if nothing else that is checked is set. -/
theorem valid_of_required {file : SettingTree} {environment : List (String × String)}
    {s : Settings} (cluster secret : String)
    (all : ∀ l ∈ leaves, match setting? file environment l with
      | some v => l.read v = .ok (l.get s)
      | none => l.get s = l.get {})
    (texts : ∀ r : Required, setting? file environment r.leaf =
      some (.text (r.among cluster secret)))
    (named : ∀ r : Required, Text.isAllBlank (r.among cluster secret) = false)
    (tries : setting? file environment (authPart.leaf AuthSettings.bareFields[7]) = none)
    (alone : setting? file environment (sharedPart.leaf SharedSettings.fields[0]) = none) :
    s.validate = .ok s ∧ ∀ r : Required, r.get s = r.among cluster secret := by
  have own (r : Required) : r.get s = r.among cluster secret := by
    have place := all r.leaf r.leaf_mem
    rw [texts] at place
    cases r <;> exact (Except.ok.inj place).symm
  have attempts : s.auth.refreshAttempts = ({} : AuthSettings).refreshAttempts := by
    have place := all (authPart.leaf AuthSettings.bareFields[7])
      (leaf_mem (by simp [parts]) (List.getElem_mem _))
    rwa [tries] at place
  have enabled : s.auth.shared.enabled = ({} : SharedSettings).enabled := by
    have place := all (sharedPart.leaf SharedSettings.fields[0])
      (leaf_mem (by simp [parts]) (List.getElem_mem _))
    rwa [alone] at place
  have named (r : Required) : Text.isAllBlank (r.get s) = false := own r ▸ named r
  have named₁ : Text.isAllBlank s.governor.clusterId = false := named .cluster
  have named₂ : Text.isAllBlank s.auth.secretName = false := named .secret
  refine ⟨?_, own⟩
  simp [validate, flaw?, named₁, named₂, attempts, enabled]

/-- A file with a name for the secret and nothing else. -/
def secretFile : SettingTree := table [("auth", table [("secret_name", .text "s")])]

/-- **A REQUIRED TEXT IN A VARIABLE**: let settings be valid with some text in the file, and let no
    other variable have a say.  With a variable of this text instead they are the same if and only
    if the text spells nothing but itself.  Where it spells another text, the settings have that
    one, if they are valid so; and where it spells what is no text, they are refused for it. -/
theorem required_text_from_variable (r : Required) {document document' : Option String}
    {file : SettingTree} {before after : List (String × String)} {text : String} {s : Settings}
    (given : fileLayer document = .ok file)
    (given' : fileLayer document' = .ok (file.set r.path (.text text)))
    (tables : file.IsTableTo [r.table])
    (spared : ∀ v ∈ before ++ after, Variable.Spares v [r.table] r.key)
    (trimmed : Text.trim text = text) (valid : load document' (before ++ after) = .ok s) :
    let loaded := load document (before ++ (r.name, text) :: after)
    r.get s = text ∧
      (loaded = .ok s ↔ ∀ v, Variable.Spells v text.toList → v = .text text) ∧
      ∀ v, Variable.Spells v text.toList → match SettingReader.string v with
        | .ok a => loaded = (r.put a s).validate
        | .error _ => ∃ found, loaded =
            .error (.unreadable ⟨r.path, .wrongKind found "a string"⟩) := by
  intro loaded
  have untrimmed : Text.trimChars text.toList = text.toList := by
    rw [← String.toList_ofList (l := Text.trimChars _)]
    exact congrArg String.toList trimmed
  have spelled {v : SettingTree} (h : Variable.Spells v text.toList) : Variable.ofText text = v :=
    Variable.ofText_of_spells (untrimmed.symm ▸ h)
  obtain ⟨read, fine⟩ := (load_eq_ok_iff given').mp valid
  obtain ⟨own, outcome⟩ := load_required_variable r given tables spared read text
  refine ⟨own, ⟨fun same v h => ?_, fun alone => ?_⟩, fun v h => ?_⟩
  · rw [spelled h] at outcome
    cases kind : SettingReader.string v with
    | error fault =>
        rw [kind] at outcome
        obtain ⟨found, -, refused⟩ := outcome
        exact nomatch same.symm.trans refused
    | ok a =>
        rw [kind] at outcome
        -- loading gives the same settings, so what the variable sets is what they hold
        have put : r.put a s = s := eq_of_validate (outcome.symm.trans same)
        obtain rfl : a = text := by rw [← own, ← put, r.get_put]
        exact eq_text_of_spells h kind
  · rw [(Variable.ofText_eq_text_iff trimmed).mpr alone] at outcome
    have same : r.put text s = s := own ▸ r.put_get s
    exact (outcome.trans (congrArg validate same)).trans fine
  · rw [spelled h] at outcome
    cases kind : SettingReader.string v with
    | ok a =>
        rw [kind] at outcome
        exact outcome
    | error fault =>
        rw [kind] at outcome
        obtain ⟨found, -, refused⟩ := outcome
        exact ⟨found, refused⟩

/-- A name for the cluster that spells nothing but itself. -/
theorem required_text_from_variable_plain : ∃ s : Settings,
    load (some "[auth]\nsecret_name = \"s\"\n")
      [("PATH", "/bin"), ("GOVERNOR_GOVERNOR__CLUSTER_ID", "c-2"),
        ("GOVERNOR_GOVERNOR__TIMEOUT_SECS", "9")] = .ok s ∧
      s.governor.clusterId = "c-2" := by
  have given : fileLayer (some "[auth]\nsecret_name = \"s\"\n") = .ok secretFile := by cbv
  have given' : fileLayer
      (some "[auth]\nsecret_name = \"s\"\n[governor]\ncluster_id = \"c-2\"\n") =
      .ok (secretFile.set Required.cluster.path (.text "c-2")) := by cbv
  obtain ⟨-, ordered⟩ := fileLayer_spec given'
  have path : Variable.tree? ("PATH", "/bin") = none := Option.map_eq_none_iff.mpr (by decide)
  have timeout : Variable.tree? ("GOVERNOR_GOVERNOR__TIMEOUT_SECS", "9") =
      some (nested (.unsigned 9) ["governor", "timeout_secs"]) := rfl
  have fits : ∀ v ∈ [("PATH", "/bin")] ++ [("GOVERNOR_GOVERNOR__TIMEOUT_SECS", "9")],
      Variable.Fits v := by
    simp only [List.singleton_append, List.forall_mem_cons, Variable.fits_iff timeout]
    exact ⟨by simp [Variable.Fits, path], by decide, List.forall_mem_nil _⟩
  have spared : ∀ v ∈ [("PATH", "/bin")] ++ [("GOVERNOR_GOVERNOR__TIMEOUT_SECS", "9")],
      Variable.Spares v [Required.cluster.table] Required.cluster.key := by
    simp only [List.singleton_append, List.forall_mem_cons, Variable.Spares, path, timeout,
      Option.mem_def, Option.some.injEq, forall_eq', reduceCtorEq, false_implies, implies_true]
    exact ⟨trivial, ⟨by decide, rfl⟩, List.forall_mem_nil _⟩
  obtain ⟨s, read, all⟩ := exists_read_layers ordered (by decide) fits fun p key => by
    simp only [IsForeign, List.singleton_append, not_or, not_exists, not_and, List.forall_mem_cons,
      Variable.isForeign_iff timeout]
    exact ⟨not_isForeign (by decide) p key, by simp [Variable.IsForeign, path],
      not_isForeign (by decide) p key, List.forall_mem_nil _⟩
  obtain ⟨fine, own⟩ := valid_of_required "c-2" "s" all
    (fun r => by cases r <;> rfl) (fun r => by cases r <;> decide) rfl rfl
  obtain ⟨-, same, -⟩ := required_text_from_variable .cluster given given' (by decide) spared
    (by decide) ((load_eq_ok_iff given').mpr ⟨read, fine⟩)
  have plain : Variable.ofText "c-2" = .text "c-2" := by cbv
  exact ⟨s, same.mpr ((Variable.ofText_eq_text_iff (by decide)).mp plain), own .cluster⟩

/-- A name of digits is valid in the file, and refused in a variable. -/
theorem digits_in_a_variable_are_refused :
    (load (some "[auth]\nsecret_name = \"s\"\n[governor]\ncluster_id = \"42\"\n")
      []).toOption.map (fun s => s.governor.clusterId) = some "42" ∧
      (match load (some "[auth]\nsecret_name = \"s\"\n")
          [("GOVERNOR_GOVERNOR__CLUSTER_ID", "42")] with
        | .ok _ => none
        | .error e => some e.message) = some ("failed to extract configuration: " ++
          "invalid type: found unsigned int \x6042\x60, expected a string") := by
  have given : fileLayer (some "[auth]\nsecret_name = \"s\"\n") = .ok secretFile := by cbv
  have given' : fileLayer
      (some "[auth]\nsecret_name = \"s\"\n[governor]\ncluster_id = \"42\"\n") =
      .ok (secretFile.set Required.cluster.path (.text "42")) := by cbv
  obtain ⟨-, ordered⟩ := fileLayer_spec given'
  have fits : ∀ v ∈ ([] : List (String × String)), Variable.Fits v := List.forall_mem_nil _
  obtain ⟨s, read, all⟩ := exists_read_layers ordered (by decide) fits fun p key => by
    simp only [IsForeign, not_or, not_exists, not_and]
    exact ⟨not_isForeign (by decide) p key, List.forall_mem_nil _⟩
  constructor
  · obtain ⟨fine, own⟩ := valid_of_required "42" "s" all
      (fun r => by cases r <;> rfl) (fun r => by cases r <;> decide) rfl rfl
    rw [(load_eq_ok_iff given').mpr ⟨read, fine⟩]
    exact congrArg some (own .cluster)
  · have number : Variable.ofText "42" = .unsigned 42 := rfl
    have spared : ∀ v ∈ [] ++ [], Variable.Spares v [Required.cluster.table]
        Required.cluster.key := List.forall_mem_nil _
    obtain ⟨-, refused⟩ := load_required_variable .cluster given (by decide) spared read "42"
    rw [number] at refused
    obtain ⟨found, bare, refused⟩ := refused
    obtain rfl := bare (by decide)
    rw [show load (some "[auth]\nsecret_name = \"s\"\n")
      [("GOVERNOR_GOVERNOR__CLUSTER_ID", "42")] = _ from refused]
    decide

end Settings

end Courier
