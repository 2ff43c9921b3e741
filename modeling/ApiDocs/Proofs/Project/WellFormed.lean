import ApiDocs.Proofs.FileSystem.WellFormed
import ApiDocs.Proofs.Project.Outputs

/-!
# Runs on well-formed file systems

Whatever is asked of the program, and whether it succeeds or fails, it leaves a well-formed file system
well-formed.
-/

namespace ApiDocs

namespace Project

variable {system : FileSystem}

theorem writeFiles_wellFormed (directory : Path) (wellFormed : system.WellFormed) (files : List RenderedFile) :
    (writeFiles directory system files).system.WellFormed := by
  induction files generalizing system with
  | nil => exact wellFormed
  | cons file rest ih =>
      have written := wellFormed.writeBelow (Path.join directory file.path) file.content.toUTF8
      rw [writeFiles_cons]
      rcases outcome : system.writeBelow (Path.join directory file.path) file.content.toUTF8 with
        ⟨after, reason | ⟨⟩⟩
      · rwa [outcome] at written
      · rw [outcome] at written
        exact ih written

theorem init_wellFormed (wellFormed : system.WellFormed) (directory : Path) :
    (init system directory).system.WellFormed := by
  have prepared := wellFormed.makeDirectoriesTo (Path.components directory).reverse
  unfold init FileSystem.makeDirectories
  split
  · rename_i same
    rwa [same] at prepared
  · rename_i same
    rw [same] at prepared
    simp only
    split
    · exact prepared
    · split
      · exact prepared
      · split
        · exact prepared
        · rename_i written
          exact prepared.write written

/-- Whether a command succeeds or fails, it leaves a well-formed file system behind. -/
theorem execute_wellFormed (surroundings : Surroundings) (config : Config) (wellFormed : system.WellFormed)
    (command : Command) : (execute surroundings config system command).system.WellFormed := by
  cases command with
  | init path => exact init_wellFormed wellFormed _
  | generate source output force =>
      rw [execute, generate]
      split
      · exact wellFormed
      · exact writeFiles_wellFormed _ wellFormed _
  | sync dryRun failOnChanges =>
      rw [execute, sync]
      split
      · exact wellFormed
      · split
        · exact wellFormed
        · split
          · exact wellFormed
          · split
            · exact wellFormed
            · exact writeFiles_wellFormed _ wellFormed _
  | dump file =>
      rw [execute, dump]
      split <;> exact wellFormed

theorem run_wellFormed (surroundings : Surroundings) (wellFormed : system.WellFormed) (arguments : List String) :
    (run surroundings system arguments).system.WellFormed := by
  unfold run
  split
  · exact wellFormed
  · split
    · exact wellFormed
    · exact execute_wellFormed _ _ wellFormed _

end Project

end ApiDocs
