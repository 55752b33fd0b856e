import DualSeal.Config.File
import DualSeal.Proofs.Config.Document
import DualSeal.Proofs.Files.Directory

/-!
# Configuration files are read back

A configuration is loaded from where it was saved, whatever text its fields hold and whatever stood
there before (`configurations_round_trip`). Only a time of 2^63 milliseconds or more cannot be
saved, and then no file is touched, because the document is complete before any is.
-/

namespace DualSeal.Config

variable {path : Path} {config : Config} {tree : FileTree}

theorem run_saving_of_error {fault : Fault} (h : config.toToml = .error fault) (path : Path)
    (tree : FileTree) : (saving path config).run.run tree = (.error (.serialize fault), tree) := by
  rw [saving, h]
  rfl

theorem run_saving_of_ok {document : String} (h : config.toToml = .ok document) (path : Path)
    (tree : FileTree) : (saving path config).run.run tree
      = match tree.write path (Utf8.encodeString document) with
        | .ok after => (.ok (), after)
        | .error fault => (.error (.file fault), tree) := by
  rw [saving, h]
  refine (run_adapt ConfigError.file (FileTree.run_change _ tree)).trans ?_
  cases tree.write path (Utf8.encodeString document) <;> rfl

theorem load_set {location : Location} {document : String}
    (h : tree.locateFile path = .ok location) (mode : Nat) (hread : ofToml document = .ok config) :
    load path (tree.set location (.file (Utf8.encodeString document) mode)) = .ok config :=
  bind_eq_ok_iff.mpr ⟨document, mapError_eq_ok_iff.mpr (FileTree.readText_set h mode document),
    mapError_eq_ok_iff.mpr hread⟩

/-- **Configuration files are read back.** A configuration with a time beyond 2^63 - 1 is not
serialized, and every file stays as it was. Any other is written wherever the path can hold a file,
over whatever file is there, and the same configuration is then loaded from it. -/
theorem configurations_round_trip (path : Path) (config : Config) (tree : FileTree) :
    (2 ^ 63 - 1 < config.client.timeout.toNat ∨ 2 ^ 63 - 1 < config.client.retryBackoff.toNat →
      ∃ fault, (saving path config).run.run tree = (.error (.serialize fault), tree)) ∧
    (config.client.timeout.toNat ≤ 2 ^ 63 - 1 ∧ config.client.retryBackoff.toNat ≤ 2 ^ 63 - 1 →
      (∀ fault, tree.locateFile path = .error fault →
        (saving path config).run.run tree = (.error (.file fault), tree)) ∧
      ∀ location, tree.locateFile path = .ok location → ∃ contents mode,
        (saving path config).run.run tree = (.ok (), tree.set location (.file contents mode)) ∧
        load path (tree.set location (.file contents mode)) = .ok config) := by
  constructor
  · intro hlong
    have hnot : ¬ IsWritable config.client := by
      rw [IsWritable, Toml.integerBound]
      omega
    obtain ⟨fault, hfault⟩ := exists_toToml_error hnot
    exact ⟨fault, run_saving_of_error hfault path tree⟩
  · intro hshort
    have hwritable : IsWritable config.client := by
      rw [IsWritable, Toml.integerBound]
      omega
    obtain ⟨document, hdocument, hread⟩ := exists_toToml hwritable
    refine ⟨fun fault hfile ↦ ?_, fun location hfile ↦ ?_⟩
    · rw [run_saving_of_ok hdocument, FileTree.write, hfile]
      rfl
    · obtain ⟨mode, hwrite⟩ := FileTree.exists_write_eq_set hfile (Utf8.encodeString document)
      refine ⟨Utf8.encodeString document, mode, ?_, load_set hfile mode hread⟩
      rw [run_saving_of_ok hdocument, hwrite]

section Overwritten

/-- A configuration that takes strings of every form: an address with a shortened run of zeros and a
scope, a directory with a backslash, an id with marks of both kinds, and a server behind a line
break, three marks in a row and a control character. It has the longest time. -/
def awkward : Config where
  server :=
    { listen := .v6 ⟨[0xFE80, 0, 0, 1, 0, 0, 0, 0xA], rfl⟩ 3 65535
      keyDir := ⟨"C:\\keys"⟩
      sharedKeyId := some ⟨"鍵\\'\""⟩ }
  client :=
    { serverUrl := "\n\"\"\"'''\\\u0000"
      timeout := 0x7FFFFFFFFFFFFFFF
      maxRetries := 0xFFFFFFFF
      retryBackoff := 0 }

/-- The same, with a time that is longer by a millisecond. -/
def overlong : Config :=
  { awkward with client.timeout := 0x8000000000000000 }

/-- The one is saved over bytes that are no text, and the other leaves them there. -/
theorem configurations_round_trip_awkward :
    let garbage : FileTree := ⟨[(["config.toml"], .file [0xFF] 0o600)]⟩
    (∃ after, (saving ⟨"config.toml"⟩ awkward).run.run garbage = (.ok (), after) ∧
      load ⟨"config.toml"⟩ after = .ok awkward) ∧
    ∃ fault, (saving ⟨"config.toml"⟩ overlong).run.run garbage
      = (.error (.serialize fault), garbage) := by
  intro garbage
  constructor
  · obtain ⟨-, hsaved⟩ := (configurations_round_trip ⟨"config.toml"⟩ awkward garbage).2 (by decide)
    obtain ⟨contents, mode, hrun, hload⟩ := hsaved ["config.toml"] (by rfl)
    exact ⟨_, hrun, hload⟩
  · exact (configurations_round_trip _ overlong garbage).1 (.inl (by decide))

end Overwritten

end DualSeal.Config
