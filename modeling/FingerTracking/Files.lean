import FingerTracking.Source

/-!
Files: what stands at each path, or why nothing can be opened there.
-/

namespace FingerTracking

structure Files where
  look : String → Except IoFault Medium

namespace Files

/-- No files at all. -/
def none : Files := ⟨fun _ => .error .notFound⟩

/-- The text of the file at a path, if it can be read and is text. -/
def text? (fs : Files) (path : String) : Option String :=
  match fs.look path with
  | .ok (.file bytes) | .ok (.pipe bytes _) => String.fromUTF8? ⟨bytes.toArray⟩
  | _ => .none

end Files

end FingerTracking
