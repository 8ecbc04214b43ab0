import MoteCapture.Disk
import MoteCapture.Options.Schema
import MoteCapture.Options.Value
import MoteCapture.Options.Written
import MoteCapture.Yaml.Document

/-!
Loading of options. They come in layers: the standard options, then a file that is named, or else a
base file and one for the kind of run, if these are there; then the environment. What comes out has
to keep all rules.
-/

namespace MoteCapture

namespace Options

def baseFile : String := "config/senselog.yaml"

def runVariable : String := "SENSELOG_ENV"

def runFile (kind : String) : String :=
  "config/" ++ kind ++ ".yaml"

/-- The file that a path leads to from a folder, or else from one of those around it, which are
given from the innermost outwards. It comes with the folder from which it was found. -/
def findFrom (disk : Disk) (path : Path) : List String → Option (Place × Text.Bytes)
  | [] => ({ disk with here := [] }.file? path).map fun bytes => ([], bytes)
  | last :: outer =>
      match { disk with here := (last :: outer).reverse }.file? path with
      | some bytes => some ((last :: outer).reverse, bytes)
      | none => findFrom disk path outer

def find (disk : Disk) (path : Path) : Option (Place × Text.Bytes) :=
  if path.rooted then (disk.file? path).map fun bytes => ([], bytes)
  else findFrom disk path disk.here.reverse

def stepsBetween : (here there : Place) → List String
  | h :: here, t :: there =>
      if h == t then stepsBetween here there
      else ".." :: here.map (fun _ => "..") ++ t :: there
  | here, there => here.map (fun _ => "..") ++ there

/-- The path that is shown for a file: from the working directory if that takes fewer steps than
from the root, which is a step itself. Single dots are left out on the way from the working
directory. -/
def shownPath (here folder : Place) (text : String) : String :=
  let path := Path.ofString text
  let steps := folder ++ path.steps.filter fun step => step != "."
  let near := stepsBetween here steps
  if near.length ≤ steps.length then "/".intercalate near
  else if path.rooted then text
  else "/" ++ "/".intercalate (folder ++ [text])

/-- The layer of a file. Where there is no file the layer is empty. -/
def fileLayer (disk : Disk) (text : String) : Except OptionsError Value :=
  match find disk (.ofString text) with
  | none => .ok (.map .direct [])
  | some (folder, bytes) =>
      let origin := Origin.file (shownPath disk.here folder text)
      match Yaml.Document.read origin bytes with
      | .ok value => .ok value
      | .error fault => .error (.malformed fault origin)

def optionalLayer (disk : Disk) (text : String) : Except OptionsError (List Value) :=
  if disk.has (.ofString text) then (fileLayer disk text).map fun layer => [layer] else .ok []

def fileLayers (disk : Disk) (vars : List (String × String)) (path : Option String) :
    Except OptionsError (List Value) :=
  match path with
  | some path =>
      if disk.has (.ofString path) then (fileLayer disk path).map fun layer => [layer]
      else .error (.fileNotFound path)
  | none => do
      let base ← optionalLayer disk baseFile
      let run ← match vars.lookup runVariable with
        | some kind => optionalLayer disk (runFile kind)
        | none => .ok []
      return base ++ run

def sources (vars : List (String × String)) (path : Option String) : List String :=
  match path with
  | some path => [path]
  | none => baseFile :: ((vars.lookup runVariable).map runFile).toList

def checked (options : Options) : Except OptionsError Options :=
  if options.check.isEmpty then .ok options else .error (.invalid options.check)

def ofLayers (layers : List Value) : Except OptionsError Options :=
  let value := layers.foldl (fun low high => Value.overlay high low) (.map .direct [])
  match Options.ofValue false value with
  | .ok options => options.checked
  | .error misfit => .error (.misfit misfit)

def load (disk : Disk) (vars : List (String × String)) (path : Option String) :
    Except OptionsError Options := do
  let files ← fileLayers disk vars path
  ofLayers (Options.standard.tree .direct :: files ++ [Environment.value vars])

end Options

end MoteCapture
