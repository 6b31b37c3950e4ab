import GossipDirectory.FileTree
import GossipDirectory.Proofs.Collection.Outcome

/-!
# Files read back

A write puts one file at the place that its path names and touches no other place. No path leads
through a place that holds a file, so every path that led somewhere still leads there, and the
written file reads back.
-/

namespace GossipDirectory

namespace FileTree

variable {t t' : FileTree} {place q : FilePath} {path : String} {content : Bytes}

/-- The tree with one file created or replaced. -/
def putFile (t : FileTree) (place : FilePath) (content : Bytes) : FileTree :=
  { t with files := Keyed.put place content t.files }

@[simp] theorem node?_putFile_self (t : FileTree) (place : FilePath) (content : Bytes) :
    (t.putFile place content).node? place = some (.file content) := by
  simp [node?, putFile]

theorem node?_putFile_of_ne (h : q ≠ place) (t : FileTree) (content : Bytes) :
    (t.putFile place content).node? q = t.node? q := by
  rw [node?, node?, putFile, Keyed.get?_put_of_ne h]

/-! ## Paths -/

/-- No path leads through a file, so a new one stands in no path's way. -/
theorem follow_putFile (hplace : t.node? place ≠ some .directory) {start : FilePath}
    {names : List String} (h : t.follow start names = .ok q) (content : Bytes) :
    (t.putFile place content).follow start names = .ok q := by
  induction names generalizing start with
  | nil => exact h
  | cons name names ih =>
      rw [follow] at h
      cases hnode : t.node? start with
      | none =>
          rw [hnode] at h
          cases h
      | some node =>
          rw [hnode] at h
          cases node with
          | file old => cases h
          | directory =>
              -- only directories are passed, and the new file is not in the place of one
              have hne : start ≠ place := by
                rintro rfl
                exact hplace hnode
              rw [follow, node?_putFile_of_ne hne, hnode]
              dsimp only at h ⊢
              split at h
              · next hstay => rw [if_pos hstay, ih h]
              · next hstay =>
                  rw [if_neg hstay]
                  split at h
                  · next hup =>
                      rw [if_pos hup]
                      split at h
                      · cases h
                      · next hroot => rw [if_neg hroot, ih h]
                  · next hup => rw [if_neg hup, ih h]

theorem locate_putFile (hplace : t.node? place ≠ some .directory)
    (h : t.locate path = .ok q) (content : Bytes) :
    (t.putFile place content).locate path = .ok q := by
  have hrelative : (t.putFile place content).relative? path = t.relative? path := rfl
  rw [locate] at h ⊢
  by_cases hempty : path = ""
  · rw [if_pos hempty] at h
    cases h
  rw [if_neg hempty] at h ⊢
  by_cases hnul : path.toList.contains '\x00' = true
  · rw [if_pos hnul] at h
    cases h
  rw [if_neg hnul] at h ⊢
  rw [hrelative]
  generalize t.relative? path = shown at h ⊢
  cases shown with
  | none => cases h
  | some shown =>
      dsimp only at h ⊢
      by_cases hlong : (names shown).any (·.utf8ByteSize > 255) = true
      · rw [if_pos hlong] at h
        cases h
      · rw [if_neg hlong] at h ⊢
        exact follow_putFile hplace h content

/-! ## Reading -/

/-- A path is read if it leads to a file. -/
theorem read_eq_ok_iff :
    t.read path = .ok content ↔
      ∃ place, t.locate path = .ok place ∧ t.node? place = some (.file content) := by
  rw [read, bind_eq_ok]
  apply exists_congr
  intro place
  apply and_congr_right
  intro _
  cases t.node? place with
  | none => exact ⟨nofun, nofun⟩
  | some node =>
      cases node with
      | directory => exact ⟨nofun, nofun⟩
      | file old => simp

/-! ## Writing -/

/-- A place where a file can be written: it holds no directory and stands in one. -/
structure Accepts (t : FileTree) (place : FilePath) : Prop where
  ne_directory : t.node? place ≠ some .directory
  parent : t.node? place.dropLast = some .directory

/-- A path that leads to a place where a file can be written. -/
def Writable (t : FileTree) (path : String) : Prop :=
  ∃ place, t.locate path = .ok place ∧ t.Accepts place

theorem write_eq_ok_iff :
    t.write path content = .ok t' ↔
      ∃ place, t.locate path = .ok place ∧ t.Accepts place ∧ t' = t.putFile place content := by
  rw [write, bind_eq_ok]
  apply exists_congr
  intro place
  apply and_congr_right
  intro _
  constructor
  · intro h
    split at h
    · cases h
    · next hparent hnode =>
        cases h
        exact ⟨⟨hnode, hparent⟩, rfl⟩
    · cases h
    · cases h
  · rintro ⟨⟨hnode, hparent⟩, rfl⟩
    rw [hparent]
    split
    · next h => exact absurd h hnode
    · rfl
    · next h _ => cases h
    · next h _ => cases h

/-- Whether a file can be written does not depend on its content. -/
theorem Writable.write (h : t.Writable path) (content : Bytes) :
    ∃ t', t.write path content = .ok t' := by
  obtain ⟨place, hlocate, haccepts⟩ := h
  exact ⟨_, write_eq_ok_iff.2 ⟨place, hlocate, haccepts, rfl⟩⟩

/-- A written file reads back. -/
theorem read_of_write (h : t.write path content = .ok t') : t'.read path = .ok content := by
  obtain ⟨place, hlocate, haccepts, rfl⟩ := write_eq_ok_iff.1 h
  apply read_eq_ok_iff.2
  exact ⟨place, locate_putFile haccepts.ne_directory hlocate content, node?_putFile_self t _ _⟩

end FileTree

end GossipDirectory
