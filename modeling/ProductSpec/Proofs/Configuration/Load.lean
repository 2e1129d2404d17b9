/-
  The loading of the configuration: it looks for settings and changes nothing.
-/
import ProductSpec.Configuration.Load
import ProductSpec.Proofs.File.Reading

namespace ProductSpec

namespace Configuration

open FileAction

theorem onlyLooks_findFile? (path : FilePath) : (findFile? path).OnlyLooks := by
  have first (candidates : List (FilePath × SettingsFormat)) :
      (findFile?.firstFile candidates).OnlyLooks := by
    induction candidates with
    | nil => exact FileProgram.onlyLooks_pure _
    | cons candidate rest ih =>
      refine (FileProgram.onlyLooks_isFile candidate.1).bind fun isFile => ?_
      split
      · exact FileProgram.onlyLooks_pure _
      · exact ih
  refine (FileProgram.onlyLooks_isFile path).bind fun isFile => ?_
  split
  · exact FileProgram.onlyLooks_pure _
  · exact first _

theorem onlyLooks_overlayFile (isRequired : Bool) (path : FilePath) (settings : Json) :
    OnlyLooks (overlayFile isRequired path settings) := by
  have read : (readFile? path).OnlyLooks := by
    refine (onlyLooks_findFile? path).bind fun found => ?_
    split
    · exact FileProgram.onlyLooks_pure _
    · exact (FileProgram.onlyLooks_readText _).bind fun _ => FileProgram.onlyLooks_pure _
  refine (onlyLooks_ofProgram read).bind fun found => ?_
  split
  · split
    · exact onlyLooks_throw _
    · exact onlyLooks_pure _
  · split
    · exact onlyLooks_pure _
    · exact onlyLooks_throw _

theorem onlyLooks_load (e : Environment) (file : Option FilePath) : OnlyLooks (load e file) := by
  have overlay (paths : List FilePath) (settings : Json) :
      OnlyLooks (overlayFiles paths settings) := by
    induction paths generalizing settings with
    | nil => exact onlyLooks_pure _
    | cons path rest ih => exact (onlyLooks_overlayFile false path settings).bind ih
  have user : OnlyLooks (userFiles e) := by
    unfold userFiles
    cases e.configDir? with
    | none => exact onlyLooks_pure _
    | some directory =>
      refine (onlyLooks_ofProgram ?_).bind fun isThere => ?_
      · exact (FileProgram.onlyLooks_kind _).bind fun _ => FileProgram.onlyLooks_pure _
      · split <;> exact onlyLooks_pure _
  refine user.bind fun paths => (overlay _ _).bind fun settings => ?_
  cases file with
  | none =>
    refine (onlyLooks_pure settings).bind fun settings => ?_
    dsimp only
    split
    · exact onlyLooks_pure _
    · exact onlyLooks_throw _
  | some path =>
    refine (onlyLooks_overlayFile true path settings).bind fun settings => ?_
    dsimp only
    split
    · exact onlyLooks_pure _
    · exact onlyLooks_throw _

end Configuration

end ProductSpec
