import TimedText.Render.Orchestrator
import TimedText.Disk.PathText

/-!
# Saving a video

A finished video is written to a file. The directories on the way are made, and a file that is
already there gives way, even if the writing then breaks off.
-/

namespace TimedText.Render

/-- Why a video is not saved. -/
inductive SaveError where
  | unresolved (reason : PathText.Unresolved)
  | disk (cause : Disk.Cause)
  /-- Too many directories are missing one above another. -/
  | tooDeep
  deriving DecidableEq

/-- Writes a video to a path; the writing may break off. Answers where it was written; the disk
keeps directories that were made, even if the video is not written. -/
def Artifact.save (a : Artifact) (disk : Disk) (origin : PathText.Origin) (path : String)
    (broken : Option Disk.Break) : Except SaveError (List String) × Disk :=
  match origin.resolve path with
  | .error reason => (.error (.unresolved reason), disk)
  | .ok target =>
    match disk.makeDirectories (Path.ofTexts target.dropLast) with
    | (.error (.refused cause _), disk) => (.error (.disk cause), disk)
    | (.error .tooDeep, disk) => (.error .tooDeep, disk)
    | (.ok (), disk) =>
      match disk.overwrite (Path.ofTexts target) a.data broken with
      | (.error cause, disk) => (.error (.disk cause), disk)
      | (.ok (), disk) => (.ok target, disk)

end TimedText.Render
