import Courier.Proofs.Settings.Leaves
import Courier.Proofs.Settings.Spelling
import Mathlib.Data.List.Induction

/-! # Variables — the layer of an environment

    Each variable with a setting is a tree of its own, and the layer of an
    environment is these trees merged one after another.  If each of them
    fits, so does the layer, and at every setting it has what the last
    variable with something there has (`layer_at?`). -/

namespace Courier.Variable

open SettingTree Settings

/-- The tree of a variable, if its name spells keys. -/
def tree? (v : String × String) : Option SettingTree :=
  (keys? v.1).map fun keys => nested (ofText v.2) keys

/-- Whether a variable has no tree, or one that fits. -/
def Fits (v : String × String) : Prop := ∀ t ∈ tree? v, t.Fits

instance : DecidablePred Fits := fun v => inferInstanceAs (Decidable (∀ t ∈ tree? v, t.Fits))

theorem fits_iff {v : String × String} {t : SettingTree} (h : tree? v = some t) :
    Fits v ↔ t.Fits := by
  simp only [Fits, h, Option.mem_def, Option.some.injEq, forall_eq']

/-- Whether a variable has a foreign key. -/
def IsForeign (v : String × String) (p : Part) (key : String) : Prop :=
  ∃ t ∈ tree? v, t.IsForeign p key

/-- A variable sets a foreign key exactly when its tree has one. -/
theorem isForeign_iff {v : String × String} {t : SettingTree} (h : tree? v = some t) {p : Part}
    {key : String} : IsForeign v p key ↔ t.IsForeign p key := by
  simp only [IsForeign, h, Option.mem_def, Option.some.injEq, exists_eq_left']

/-- What the last variable with something behind a list of keys has there. -/
def lastSet (environment : List (String × String)) (path : List String) : Option SettingTree :=
  environment.reverse.findSome? fun v => (tree? v).bind fun t => t.at? path

/-! ## Names -/

/-- The name of the variable for the value behind a list of keys. -/
def nameOf (path : List String) : String :=
  "GOVERNOR_" ++ "__".intercalate (path.map String.toUpper)

theorem keys?_nameOf {l : Leaf} (hl : l ∈ leaves) : keys? (nameOf l.path) = some l.path := by
  have all : ∀ l ∈ leaves, keys? (nameOf l.path) = some l.path := by decide +kernel
  exact all l hl

/-- **A VARIABLE FOR EVERY SETTING**: the variable that is named for a setting sets it to what its
    text stands for. -/
theorem tree?_nameOf {l : Leaf} (hl : l ∈ leaves) (text : String) :
    ((tree? (nameOf l.path, text)).bind fun t => t.at? l.path) = some (ofText text) := by
  rw [tree?, keys?_nameOf hl]
  exact nested_at? _ l.path

/-! ## Order -/

theorem isOrdered_scalar (cs : List Char) : (scalar cs).IsOrdered := by
  refine isOrdered_of_entries_eq_nil ?_
  unfold scalar
  repeat' split
  all_goals rfl

theorem Spells.isOrdered {v : SettingTree} {cs : List Char} (h : Spells v cs) : v.IsOrdered := by
  induction h with
  | yes | no | quoted | char | list => exact isOrdered_of_entries_eq_nil rfl
  | table named values joined ih =>
      refine isOrdered_ofList fun e mem => ?_
      obtain ⟨m, inside, rfl⟩ := List.mem_map.mp mem
      exact ih m inside
  | bare => exact isOrdered_scalar _
  | spaced _ _ _ ih => exact ih

theorem isOrdered_ofText (text : String) : (ofText text).IsOrdered := by
  by_cases h : ∃ v, Spells v (Text.trimChars text.toList)
  · obtain ⟨v, spelled⟩ := h
    rw [ofText_of_spells spelled]
    exact spelled.isOrdered
  · rw [ofText_of_not_spells fun v spelled => h ⟨v, spelled⟩]
    exact isOrdered_of_entries_eq_nil rfl

theorem isOrdered_tree? {v : String × String} {t : SettingTree} (h : tree? v = some t) :
    t.IsOrdered := by
  obtain ⟨keys, -, rfl⟩ := Option.map_eq_some_iff.mp h
  exact isOrdered_nested (isOrdered_ofText v.2) keys

/-! ## Layers -/

section Layer

variable {environment : List (String × String)} {v : String × String} {t : SettingTree}

/-- A further variable is merged onto those before it. -/
theorem layer_concat (h : tree? v = some t) :
    layer (environment ++ [v]) = (layer environment).merge t := by
  obtain ⟨keys, spelled, rfl⟩ := Option.map_eq_some_iff.mp h
  rw [layer, layer, List.foldl_append]
  simp only [List.foldl_cons, List.foldl_nil, spelled]

theorem layer_concat_of_none (h : tree? v = none) :
    layer (environment ++ [v]) = layer environment := by
  rw [layer, layer, List.foldl_append]
  simp only [List.foldl_cons, List.foldl_nil, Option.map_eq_none_iff.mp h]

theorem isOrdered_layer (environment : List (String × String)) :
    (layer environment).IsOrdered := by
  induction environment using List.reverseRecOn with
  | nil => exact isOrdered_of_entries_eq_nil rfl
  | append_singleton environment v ih =>
      cases h : tree? v with
      | none => rwa [layer_concat_of_none h]
      | some t =>
          rw [layer_concat h]
          exact isOrdered_merge ih (isOrdered_tree? h)

theorem fits_layer (fits : ∀ v ∈ environment, Fits v) : (layer environment).Fits := by
  induction environment using List.reverseRecOn with
  | nil => decide
  | append_singleton environment v ih =>
      obtain ⟨fits, last⟩ := List.forall_mem_append.mp fits
      cases h : tree? v with
      | none =>
          rw [layer_concat_of_none h]
          exact ih fits
      | some t =>
          rw [layer_concat h]
          exact (ih fits).merge (last v List.mem_cons_self t h) (isOrdered_tree? h)

/-- **THE LAYER AT A SETTING**: it has what the last variable with something there has. -/
theorem layer_at? (fits : ∀ v ∈ environment, Fits v) {l : Leaf} (hl : l ∈ leaves) :
    (layer environment).at? l.path = lastSet environment l.path := by
  induction environment using List.reverseRecOn with
  | nil => cases h : l.table <;> rw [Leaf.path, h] <;> rfl
  | append_singleton environment v ih =>
      obtain ⟨fits, last⟩ := List.forall_mem_append.mp fits
      rw [lastSet, List.reverse_append, List.reverse_singleton, List.singleton_append,
        List.findSome?_cons]
      cases h : tree? v with
      | none =>
          rw [layer_concat_of_none h]
          exact ih fits
      | some t =>
          rw [layer_concat h, (last v List.mem_cons_self t h).at?_merge (isOrdered_tree? h) _ hl,
            ih fits]
          cases hv : t.at? l.path with
          | none => simp [hv, lastSet]
          | some w => simp [hv]

/-- A key of the environment's layer is foreign exactly when a variable sets it so. -/
theorem isForeign_layer_iff (fits : ∀ v ∈ environment, Fits v) {p : Part} {key : String} :
    (layer environment).IsForeign p key ↔ ∃ v ∈ environment, IsForeign v p key := by
  induction environment using List.reverseRecOn with
  | nil =>
      refine iff_of_false (fun h => ?_) nofun
      have nothing : ((table []).at? (p.table ++ [key])).isSome = false := by
        cases p.table <;> rfl
      exact absurd h.set (Bool.eq_false_iff.mp nothing)
  | append_singleton environment v ih =>
      obtain ⟨fits, last⟩ := List.forall_mem_append.mp fits
      simp only [List.mem_append, List.mem_singleton, or_and_right, exists_or, exists_eq_left]
      rw [← ih fits]
      cases h : tree? v with
      | none =>
          have none : ¬IsForeign v p key := fun ⟨t, ht, _⟩ => nomatch h.symm.trans ht
          rw [layer_concat_of_none h, or_iff_left none]
      | some t =>
          rw [layer_concat h, isForeign_iff h,
            isForeign_merge_iff (last v List.mem_cons_self t h) (isOrdered_tree? h)]

end Layer

end Courier.Variable
