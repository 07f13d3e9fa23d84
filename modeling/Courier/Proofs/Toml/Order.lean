import Courier.Proofs.Settings.Merge
import Courier.Toml.Document

/-! # Order in documents — no table of a document has a key twice

    Every table that a document builds keeps its keys in ascending order: a
    key is put into its place, and once there it is set no second time.  This
    holds of the tables between braces, of those under headers, and of those
    that keys with points imply, so the tree of a document is ordered. -/

namespace Courier.Toml

open SettingTree

/-- Whether the tree of some items is ordered. -/
def AreOrdered (entries : Items) : Prop := (table (entryTrees entries)).IsOrdered

/-! ## Items -/

/-- The trees of entries are put into their places as the entries are. -/
theorem entryTrees_place (key : String) (item : Item) (entries : Items) :
    entryTrees (Entries.place key item entries)
      = Entries.place key item.toTree (entryTrees entries) := by
  induction entries with
  | nil => rw [Entries.place, entryTrees, entryTrees, entryTrees]; rfl
  | cons e rest ih =>
      obtain ⟨k, old⟩ := e
      simp only [Entries.place, entryTrees]
      split
      · rw [entryTrees, entryTrees]
      · split
        · rw [entryTrees]
        · rw [entryTrees, ih]

/-- The tree of the entry of a key is the entry of that key among the trees. -/
theorem value?_entryTrees (key : String) (entries : Items) :
    Entries.value? key (entryTrees entries) = (Entries.value? key entries).map Item.toTree := by
  induction entries with
  | nil => rw [entryTrees]; rfl
  | cons e rest ih =>
      obtain ⟨k, item⟩ := e
      rw [entryTrees]
      by_cases same : key = k
      · rw [same, Entries.value?_cons_self, Entries.value?_cons_self]
        rfl
      · rw [Entries.value?_cons_of_ne _ _ same, Entries.value?_cons_of_ne _ _ same, ih]

theorem areOrdered_nil : AreOrdered [] := by
  rw [AreOrdered, entryTrees]
  exact isOrdered_of_entries_eq_nil rfl

/-- Entries stay in order when one that is in order is put into its place. -/
theorem AreOrdered.place {entries : Items} (h : AreOrdered entries) {item : Item}
    (hi : item.toTree.IsOrdered) (key : String) : AreOrdered (Entries.place key item entries) := by
  rw [AreOrdered, entryTrees_place]
  exact isOrdered_place h hi key

/-- The items of a table among ordered items are ordered. -/
theorem AreOrdered.below {entries found : Items} {kind : TableKind} {key : String}
    (h : AreOrdered entries) (hf : Entries.value? key entries = some (.table kind found)) :
    AreOrdered found := by
  have child : (table (entryTrees entries)).child? key = some (table (entryTrees found)) := by
    show Entries.value? key (entryTrees entries) = _
    rw [value?_entryTrees, hf, Option.map_some, Item.toTree]
  exact h.child child

/-- A table of ordered entries is in order. -/
theorem isOrdered_table {found : Items} (h : AreOrdered found) (kind : TableKind) :
    (Item.table kind found).toTree.IsOrdered := by
  rw [Item.toTree]
  exact h

/-- Lists are of no account. -/
theorem isOrdered_tables (list : List Items) : (Item.tables list).toTree.IsOrdered := by
  rw [Item.toTree]
  exact isOrdered_of_entries_eq_nil rfl

/-! ## Lines -/

/-- A setting goes into its place: into these items, or into those of a table among them. -/
theorem AreOrdered.assign {entries entries' : Items} {key : String} {v : SettingTree}
    (h : AreOrdered entries) (hv : v.IsOrdered) {path : List String}
    (assigned : assign key v path entries = some entries') : AreOrdered entries' := by
  have item : (Item.value v).toTree.IsOrdered := by rwa [Item.toTree]
  induction path generalizing entries entries' with
  | nil =>
      rw [Toml.assign] at assigned
      cases found : Entries.value? key entries with
      | none =>
          rw [found] at assigned
          exact Option.some.inj assigned ▸ h.place item key
      | some old =>
          rw [found] at assigned
          exact nomatch assigned
  | cons first rest ih =>
      -- each step of the path leads into a table, old or new, whose order is kept
      have below {kind : TableKind} {found : Items} (hf : AreOrdered found)
          (done : (if rest = [] ∧ kind ≠ .pointed then none
            else (Toml.assign key v rest found).map fun found =>
              Entries.place first (.table kind found) entries) = some entries') :
          AreOrdered entries' := by
        obtain ⟨-, done⟩ := Option.ite_none_left_eq_some.mp done
        obtain ⟨found', within, rfl⟩ := Option.map_eq_some_iff.mp done
        exact h.place (isOrdered_table (ih hf within) kind) first
      rw [Toml.assign] at assigned
      split at assigned
      · exact below areOrdered_nil assigned
      · exact nomatch assigned
      · next kind found _ there => exact below (h.below there) assigned
      · obtain ⟨-, done⟩ := Option.ite_none_left_eq_some.mp assigned
        obtain ⟨last, -, rfl⟩ := Option.map_eq_some_iff.mp done
        exact h.place (isOrdered_tables _) first
      · exact nomatch assigned

/-- A change that keeps items in order keeps the tables in order behind which it is made. -/
theorem AreOrdered.within {change : Items → Option Items}
    (keeps : ∀ {es es'}, AreOrdered es → change es = some es' → AreOrdered es')
    {entries entries' : Items} (h : AreOrdered entries) {path : List String}
    (changed : within change path entries = some entries') : AreOrdered entries' := by
  induction path generalizing entries entries' with
  | nil => exact keeps h changed
  | cons first rest ih =>
      rw [Toml.within] at changed
      split at changed
      · obtain ⟨found, within, rfl⟩ := Option.map_eq_some_iff.mp changed
        exact h.place (isOrdered_table (ih areOrdered_nil within) _) first
      · next kind found there =>
          obtain ⟨found, within, rfl⟩ := Option.map_eq_some_iff.mp changed
          exact h.place (isOrdered_table (ih (h.below there) within) _) first
      · obtain ⟨last, -, rfl⟩ := Option.map_eq_some_iff.mp changed
        exact h.place (isOrdered_tables _) first
      · exact nomatch changed

/-- Opening a table keeps the entries in order. -/
theorem AreOrdered.openTable {entries entries' : Items} {key : String} (h : AreOrdered entries)
    (opened : openTable key entries = some entries') : AreOrdered entries' := by
  rw [Toml.openTable] at opened
  split at opened
  · exact Option.some.inj opened ▸ h.place (isOrdered_table areOrdered_nil _) key
  · next found there =>
      exact Option.some.inj opened ▸ h.place (isOrdered_table (h.below there) _) key
  · exact nomatch opened

/-- Opening the next table of a list keeps the entries in order. -/
theorem AreOrdered.openNext {entries entries' : Items} {key : String} (h : AreOrdered entries)
    (opened : openNext key entries = some entries') : AreOrdered entries' := by
  rw [Toml.openNext] at opened
  split at opened
  · exact Option.some.inj opened ▸ h.place (isOrdered_tables _) key
  · exact Option.some.inj opened ▸ h.place (isOrdered_tables _) key
  · exact nomatch opened

/-- Whether the value of a line, if it sets one, is ordered. -/
def Line.IsOrdered : Line → Prop
  | setting _ _ v => v.IsOrdered
  | _ => True

/-- A line that is in order keeps the entries in order. -/
theorem AreOrdered.addLine {entries entries' : Items} {here here' : List String} {line : Line}
    (h : AreOrdered entries) (hl : line.IsOrdered)
    (added : addLine entries here line = some (entries', here')) : AreOrdered entries' := by
  cases line with
  | setting path key v =>
      obtain ⟨es, within, same⟩ := Option.map_eq_some_iff.mp added
      obtain ⟨rfl, rfl⟩ := Prod.mk.inj same
      exact h.within (fun ordered assigned => ordered.assign hl assigned) within
  | header path key =>
      obtain ⟨es, within, same⟩ := Option.map_eq_some_iff.mp added
      obtain ⟨rfl, rfl⟩ := Prod.mk.inj same
      exact h.within AreOrdered.openTable within
  | nextHeader path key =>
      obtain ⟨es, within, same⟩ := Option.map_eq_some_iff.mp added
      obtain ⟨rfl, rfl⟩ := Prod.mk.inj same
      exact h.within AreOrdered.openNext within

/-- Any number of lines that are in order keep the entries in order. -/
theorem AreOrdered.addLines {entries entries' : Items} {here : List String} {lines : List Line}
    (h : AreOrdered entries) (hl : ∀ line ∈ lines, line.IsOrdered)
    (added : addLines entries here lines = some entries') : AreOrdered entries' := by
  induction lines generalizing entries here with
  | nil => exact Option.some.inj added ▸ h
  | cons line rest ih =>
      rw [Toml.addLines] at added
      split at added
      · next es next step =>
          exact ih (h.addLine (hl line List.mem_cons_self) step)
            (fun l mem => hl l (List.mem_cons_of_mem _ mem)) added
      · exact nomatch added

/-- The table of settings with ordered values between braces is ordered. -/
theorem isOrdered_inlineTable {settings : List (List String × String × SettingTree)}
    (h : ∀ s ∈ settings, s.2.2.IsOrdered) {t : SettingTree}
    (built : inlineTable settings = some t) : t.IsOrdered := by
  obtain ⟨entries, folded, rfl⟩ := Option.map_eq_some_iff.mp built
  suffices ∀ start : Items, AreOrdered start → settings.foldlM
      (fun entries s => Toml.assign s.2.1 s.2.2 s.1 entries) start = some entries →
      AreOrdered entries from this [] areOrdered_nil folded
  clear folded built
  induction settings with
  | nil => exact fun start ordered same => Option.some.inj same ▸ ordered
  | cons s rest ih =>
      intro start ordered folded
      obtain ⟨next, assigned, folded⟩ := Option.bind_eq_some_iff.mp folded
      exact ih (fun s mem => h s (List.mem_cons_of_mem _ mem)) next
        (ordered.assign (h s List.mem_cons_self) assigned) folded

/-! ## Values -/

theorem entries_signed64? {n : Int} {v : SettingTree} (h : signed64? n = some v) :
    v.entries = [] := by
  obtain ⟨-, same⟩ := Option.ite_none_right_eq_some.mp h
  exact Option.some.inj same ▸ rfl

theorem entries_based? {base : Nat} {cs : List Char} {v : SettingTree}
    (h : based? base cs = some v) : v.entries = [] := by
  obtain ⟨digits, -, number⟩ := Option.bind_eq_some_iff.mp h
  exact entries_signed64? number

theorem entries_whole? {cs : List Char} {v : SettingTree} (h : whole? cs = some v) :
    v.entries = [] := by
  unfold whole? at h
  split at h
  · exact entries_based? h
  · exact entries_based? h
  · exact entries_based? h
  · obtain ⟨n, -, number⟩ := Option.bind_eq_some_iff.mp h
    exact entries_signed64? number

theorem entries_real? {cs : List Char} {v : SettingTree} (h : real? cs = some v) :
    v.entries = [] := by
  have tail {literal : List Char → List Char} {parts : List Char × List Char}
      (h : ((power? parts.2).bind fun power => (Double.read? (literal power)).bind fun x =>
        if x = .signed false .infinite then none else some (real x)) = some v) :
      v.entries = [] := by
    obtain ⟨power, -, h⟩ := Option.bind_eq_some_iff.mp h
    obtain ⟨x, -, h⟩ := Option.bind_eq_some_iff.mp h
    obtain ⟨-, same⟩ := Option.ite_none_left_eq_some.mp h
    exact Option.some.inj same ▸ rfl
  obtain ⟨whole, -, h⟩ := Option.bind_eq_some_iff.mp h
  dsimp only at h
  split at h
  · exact nomatch h
  · obtain ⟨parts, -, h⟩ := Option.bind_eq_some_iff.mp h
    exact tail h
  · obtain ⟨parts, -, h⟩ := Option.bind_eq_some_iff.mp h
    exact tail h

theorem entries_named? {cs : List Char} {v : SettingTree} (h : named? cs = some v) :
    v.entries = [] := by
  unfold named? at h
  split at h
  split at h
  · exact Option.some.inj h ▸ rfl
  · split at h
    · exact Option.some.inj h ▸ rfl
    · exact nomatch h

/-- A moment is a table of one text. -/
theorem isOrdered_moment? {cs : List Char} {v : SettingTree} (h : moment? cs = some v) :
    v.IsOrdered := by
  obtain ⟨-, same⟩ := Option.ite_none_right_eq_some.mp h
  refine Option.some.inj same ▸ SettingTree.isOrdered_table (List.pairwise_singleton ..) ?_
  intro e mem
  obtain rfl := List.mem_singleton.mp mem
  exact isOrdered_of_entries_eq_nil rfl

theorem isOrdered_word? {cs : List Char} {v : SettingTree} (h : word? cs = some v) :
    v.IsOrdered := by
  unfold word? at h
  split at h
  · exact Option.some.inj h ▸ isOrdered_of_entries_eq_nil rfl
  · split at h
    · exact Option.some.inj h ▸ isOrdered_of_entries_eq_nil rfl
    · simp only [Option.orElse_eq_orElse, Option.orElse_eq_or, Option.or_eq_some_iff] at h
      rcases h with named | ⟨-, moment | ⟨-, whole | ⟨-, real⟩⟩⟩
      · exact isOrdered_of_entries_eq_nil (entries_named? named)
      · exact isOrdered_moment? moment
      · exact isOrdered_of_entries_eq_nil (entries_whole? whole)
      · exact isOrdered_of_entries_eq_nil (entries_real? real)

theorem isOrdered_scalar {cs rest : List Char} {v : SettingTree}
    (h : scalar cs = some (v, rest)) : v.IsOrdered := by
  unfold scalar at h
  split at h
  · obtain ⟨read, -, same⟩ := Option.map_eq_some_iff.mp h
    exact (Prod.mk.inj same).1 ▸ isOrdered_of_entries_eq_nil rfl
  · obtain ⟨read, -, same⟩ := Option.map_eq_some_iff.mp h
    exact (Prod.mk.inj same).1 ▸ isOrdered_of_entries_eq_nil rfl
  · obtain ⟨read, word, same⟩ := Option.map_eq_some_iff.mp h
    exact (Prod.mk.inj same).1 ▸ isOrdered_word? word

/-- Whether values are ordered that are read with some fuel, also those between braces. -/
structure ReadsOrdered (fuel : Nat) : Prop where
  value : ∀ {depth : Nat} {cs : List Char} {v : SettingTree} {rest : List Char},
    value fuel depth cs = some (v, rest) → v.IsOrdered
  settings : ∀ {depth : Nat} {cs rest : List Char}
    {found : List (List String × String × SettingTree)},
    settings fuel depth cs = some (found, rest) → ∀ s ∈ found, s.2.2.IsOrdered

/-- A value is in order if what is read with less fuel is. -/
theorem ReadsOrdered.value_succ {fuel depth : Nat} (ih : ReadsOrdered fuel) {cs rest : List Char}
    {v : SettingTree} (h : Toml.value (fuel + 1) depth cs = some (v, rest)) : v.IsOrdered := by
  unfold Toml.value at h
  split at h
  · obtain ⟨read, -, same⟩ := Option.map_eq_some_iff.mp h
    exact (Prod.mk.inj same).1 ▸ isOrdered_of_entries_eq_nil rfl
  · split at h
    · exact (Prod.mk.inj (Option.some.inj h)).1 ▸ isOrdered_of_entries_eq_nil rfl
    · split at h
      · next found behind read =>
          obtain ⟨t, built, same⟩ := Option.map_eq_some_iff.mp h
          exact (Prod.mk.inj same).1 ▸ isOrdered_inlineTable (ih.settings read) built
      · exact nomatch h
  · exact isOrdered_scalar h

/-- The settings of a table in braces are in order if what is read with less fuel is. -/
theorem ReadsOrdered.settings_succ {fuel depth : Nat} (ih : ReadsOrdered fuel)
    {cs rest : List Char} {found : List (List String × String × SettingTree)}
    (h : Toml.settings (fuel + 1) depth cs = some (found, rest)) :
    ∀ s ∈ found, s.2.2.IsOrdered := by
  unfold Toml.settings at h
  split at h
  · split at h
    · exact nomatch h
    · next v behind read =>
        have first := ih.value read
        split at h
        · obtain ⟨more, read, same⟩ := Option.map_eq_some_iff.mp h
          obtain ⟨rfl, -⟩ := Prod.mk.inj same
          exact List.forall_mem_cons.mpr ⟨first, ih.settings read⟩
        · obtain ⟨rfl, -⟩ := Prod.mk.inj (Option.some.inj h)
          exact List.forall_mem_singleton.mpr first
        · exact nomatch h
  · exact nomatch h

/-- Values are ordered, and so are those of the settings between braces. -/
theorem readsOrdered (fuel : Nat) : ReadsOrdered fuel := by
  induction fuel with
  | zero =>
      constructor
      · intro depth cs v rest h
        rw [Toml.value] at h
        exact nomatch h
      · intro depth cs rest found h
        rw [Toml.settings] at h
        exact nomatch h
  | succ fuel ih => exact ⟨ih.value_succ, ih.settings_succ⟩

/-! ## Documents -/

theorem isOrdered_line {cs rest : List Char} {l : Line} (h : line cs = some (l, rest)) :
    l.IsOrdered := by
  unfold line at h
  split at h
  · split at h
    · obtain ⟨behind, -, same⟩ := Option.map_eq_some_iff.mp h
      exact (Prod.mk.inj same).1 ▸ trivial
    · exact nomatch h
  · split at h
    · obtain ⟨behind, -, same⟩ := Option.map_eq_some_iff.mp h
      exact (Prod.mk.inj same).1 ▸ trivial
    · exact nomatch h
  · split at h
    · split at h
      · next v behind read =>
          obtain ⟨behind, -, same⟩ := Option.map_eq_some_iff.mp h
          exact (Prod.mk.inj same).1 ▸ (readsOrdered _).value read
      · exact nomatch h
    · exact nomatch h

/-- What all lines of a document set is in order. -/
theorem isOrdered_lines {fuel : Nat} {cs : List Char} {found : List Line}
    (h : lines fuel cs = some found) : ∀ l ∈ found, l.IsOrdered := by
  induction fuel generalizing cs found with
  | zero => exact nomatch h
  | succ fuel ih =>
      unfold lines at h
      split at h
      · exact nomatch h
      · exact Option.some.inj h ▸ fun l mem => nomatch mem
      · split at h
        · next l rest read =>
            obtain ⟨more, behind, rfl⟩ := Option.map_eq_some_iff.mp h
            intro l' mem
            rcases List.mem_cons.mp mem with rfl | mem
            · exact isOrdered_line read
            · exact ih behind l' mem
        · exact nomatch h

/-- **DOCUMENTS ARE ORDERED**: a document stands for a table, and no table in it has a key
    twice. -/
theorem isOrdered_parse? {document : String} {t : SettingTree} (h : parse? document = some t) :
    t.IsTable ∧ t.IsOrdered := by
  unfold parse? at h
  dsimp only at h
  split at h
  · next entries found =>
      obtain ⟨ls, read, added⟩ := Option.bind_eq_some_iff.mp found
      obtain rfl := Option.some.inj h
      exact ⟨⟨_, rfl⟩, areOrdered_nil.addLines (isOrdered_lines read) added⟩
  · exact nomatch h

end Courier.Toml
