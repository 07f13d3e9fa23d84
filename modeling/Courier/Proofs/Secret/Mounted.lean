import Courier.Proofs.Files.Join
import Courier.Secret.Mounted
import Mathlib.Logic.Basic

/-! # Mounted secrets — no address leads out of the root

    The three texts of an address are taken for names or not at all.  Taken,
    they are put behind the root one after the other, and each leads one place
    deeper.  Not taken, the address is refused before any file is read. -/

namespace Courier

namespace SecretRef

/-- All segments of a secret are plain just if each of them is a single name. -/
theorem all_isPlain_iff (r : SecretRef) :
    r.segments.all Path.isPlain = true ↔ ∀ segment ∈ r.segments, Path.IsSingle segment := by
  rw [List.all_eq_true]
  exact forall₂_congr fun segment _ => Path.isPlain_iff segment

/-- An address leads to a file exactly if all its segments are single names. -/
theorem path_eq_ok_iff (root : String) (r : SecretRef) :
    (∃ path, r.path root = .ok path) ↔ ∀ segment ∈ r.segments, Path.IsSingle segment := by
  rw [path, ← r.all_isPlain_iff]
  split
  · next all => exact iff_of_true ⟨_, rfl⟩ all
  · next some => exact iff_of_false (fun ⟨path, same⟩ => nomatch same) some

/-- Every other address is refused as not plain. -/
theorem path_eq_error_iff (root : String) (r : SecretRef) :
    r.path root = .error .notPlain ↔ ∃ segment ∈ r.segments, ¬Path.IsSingle segment := by
  have some : (∃ segment ∈ r.segments, ¬Path.IsSingle segment) ↔
      ¬∀ segment ∈ r.segments, Path.IsSingle segment := by
    simp only [not_forall, exists_prop]
  rw [path, some, ← r.all_isPlain_iff]
  split
  · next all => exact iff_of_false (fun same => nomatch same) (not_not.mpr all)
  · next some => exact iff_of_true rfl some

/-- What is read for a secret is the file at its path. -/
theorem valueIn_of_path {root path : String} {r : SecretRef} (h : r.path root = .ok path)
    (file : String → FileBytes) :
    r.valueIn file root = (file path).text.mapError (.read r) := by
  rw [valueIn, textIn, h]

/-- Without a path, no file counts. -/
theorem valueIn_of_refused {root : String} {r : SecretRef} {fault : FileFault}
    (h : r.path root = .error fault) (file : String → FileBytes) :
    r.valueIn file root = .error (.read r fault) := by
  rw [valueIn, textIn, h]
  rfl

/-- A secret of single names is below the root, one directory per segment. -/
theorem path_of_single {root : String} {r : SecretRef}
    (single : ∀ segment ∈ r.segments, Path.IsSingle segment) :
    r.path root = .ok (r.segments.foldl Path.join root) := by
  rw [path, if_pos (r.all_isPlain_iff.mpr single)]

/-- **SECRETS STAY BELOW THE ROOT**: an address has a path exactly if each of its segments, without
    the slashes at its end and the dots behind them, is a name: not empty, neither of the two dotted
    directories, and without a slash.  The parts of the path are then those of the root and the
    three names, so that in every tree of files it leads to the place of that name three levels
    below the place of the root, and what is read for the secret is the file there.  Any other
    address is refused as invalid input, whatever the files hold. -/
theorem secret_paths_stay_inside (root : String) (r : SecretRef) :
    let names := r.segments.map Path.stem
    ((∃ path, r.path root = .ok path) ↔ ∀ name ∈ names, Path.IsName name) ∧
      (∀ path, r.path root = .ok path →
        Path.parts path = Path.parts root ++ names.map (fun name => .name (String.ofList name)) ∧
          (∀ (t : FileTree) (start place : List String), t.resolve start path = .ok place →
            ∃ base, t.steps (if Path.isAbsolute root then [] else start) (Path.slashed root)
                = .ok base ∧
              place = base ++ names.map String.ofList) ∧
          ∀ file, r.valueIn file root = (file path).text.mapError (.read r)) ∧
      ((¬∃ path, r.path root = .ok path) →
        ∃ fault, fault.kind = .invalidInput ∧
          ∀ file, r.valueIn file root = .error (.read r fault)) := by
  intro names
  -- a piece is plain just if what is left of it without slashes is a name
  have singles : (∀ name ∈ names, Path.IsName name) ↔
      ∀ segment ∈ r.segments, Path.IsSingle segment := by
    rw [List.forall_mem_map]
    exact forall₂_congr fun segment _ => (Path.isSingle_iff segment).symm
  refine ⟨(r.path_eq_ok_iff root).trans singles.symm, ?_, ?_⟩
  · intro path taken
    have single := (r.path_eq_ok_iff root).mp ⟨path, taken⟩
    obtain rfl := Except.ok.inj ((path_of_single single).symm.trans taken)
    refine ⟨?_, ?_, valueIn_of_path taken⟩
    · rw [Path.parts_foldl_join root single, List.map_map]
      rfl
    · intro t start place found
      have walked := FileTree.steps_of_resolve found
      rw [Path.isAbsolute_foldl_join root single] at walked
      rw [List.map_map]
      exact FileTree.steps_foldl_join root single walked
  · intro untaken
    rw [path_eq_ok_iff] at untaken
    have refused : r.path root = .error .notPlain := by
      rw [path, if_neg (mt r.all_isPlain_iff.mp untaken)]
    exact ⟨.notPlain, rfl, valueIn_of_refused refused⟩

end SecretRef

end Courier
