import Scriptwright.Compile
import Scriptwright.Project.Tree

/-!
# Project manifests

A project is described by its manifest: where its documents are, where the output goes, which
packages it depends on and which tools it uses.
-/

namespace Scriptwright

structure Project where
  root : Project.Path
  manifest : Project.Path
  entry : List Project.Path
  output : Project.Path
  dependencies : List String
  /-- The command that is run on every written file, as the manifest has it. -/
  lint : Value
  install : Value
  options : Script.Options
  raw : Value

namespace Project

def manifestName : String := "package.yml"

def sectionName : String := "yamlSkript"

def sourceSuffixes : List String := [".yml", ".yaml"]

def defaultOutput : String := "build"

def complaint {α : Type} (manifest : Path) (message : String) : Except Failure α :=
  .error (.error (.config message (some manifest.text)))

def place [Resolver] (root : Path) (s : String) : Except Failure Path :=
  (Resolver.resolve (root.join (.parse s))).mapError Failure.fault

/-- The texts of a field that holds one text or a list of them. -/
def textsOf (manifest : Path) (name : String) (v : Value) : Except Failure (List String) :=
  match v.head with
  | .null => .ok []
  | .string s => .ok [s]
  | .list vs =>
    match vs.mapM Value.asText? with
    | some ss => .ok ss
    | none => complaint manifest ("'" ++ name ++ "' must be a string or a list of strings")
  | _ => complaint manifest ("'" ++ name ++ "' must be a string or a list of strings")

def indented (manifest : Path) (o : Script.Options) : Value → Except Failure Script.Options
  | .null => .ok o
  | .string "tab" => .ok { o with indentStyle := "tabs" }
  | .int n => if 0 < n then .ok { o with indentSize := n } else wrong
  | _ => wrong
where
  wrong : Except Failure Script.Options :=
    complaint manifest "'indent' must be a positive integer or 'tab'"

def optionsOf (manifest : Path) (build : Fields) : Except Failure Script.Options := do
  let o ← indented manifest {} (Fields.get build "indent").head
  return { o with strict := (Fields.get build "strict").truthy }

def readManifest [Loader] (t : Tree) (manifest : Path) : Except Failure Fields := do
  let octets ← match t.read manifest with
    | .ok octets => pure octets
    | .error e => complaint manifest ("Cannot read " ++ manifest.name ++ ": " ++ e.text)
  let text ← Tree.textOf octets
  match ← readValue (fun m => .config m (some manifest.text))
    ("Error parsing " ++ manifest.name ++ " file") text with
  | .null => return []
  | .map es => return es
  | _ => complaint manifest (manifest.name ++ " must contain a mapping")

/-- The section about building, which is complete where it has to be. -/
def buildSection (manifest : Path) (needed : Bool) (data : Fields) : Except Failure Fields :=
  match (Fields.get data sectionName).head with
  | .map build =>
    if needed && !((Fields.get build "entry").truthy && (Fields.get build "output").truthy) then
      missing else .ok build
  | .null => if needed then missing else .ok []
  | _ => missing
where
  missing : Except Failure Fields :=
    complaint manifest ("The '" ++ sectionName ++
      "' section is missing or 'entry' and 'output' are not defined in " ++
      manifestName ++ ".")

def outputOf (manifest : Path) (build : Fields) : Except Failure String :=
  match (Fields.get build "output").head with
  | .string s => .ok (if s == "" then defaultOutput else s)
  | v => if v.truthy then complaint manifest "'output' must be a path string" else .ok defaultOutput

def toolsOf (manifest : Path) (data : Fields) : Except Failure Fields :=
  match (Fields.get data "tools").head with
  | .map tools => .ok tools
  | v => if v.truthy then complaint manifest "'tools' must be a mapping" else .ok []

def ofManifest [Resolver] (root manifest : Path) (needed : Bool) (data : Fields) :
    Except Failure Project := do
  let build ← buildSection manifest needed data
  let entries ← textsOf manifest "entry" (Fields.get build "entry")
  let output ← outputOf manifest build
  let tools ← toolsOf manifest data
  let entry ← entries.mapM (place root)
  let output ← place root output
  let dependencies ← textsOf manifest "dependencies" (Fields.get data "dependencies")
  let options ← optionsOf manifest build
  return {
    root, manifest, entry, output, dependencies
    lint := Fields.get tools "lint"
    install := Fields.get tools "install"
    options
    raw := .map data }

def noManifest (root : Path) : Error :=
  .of .config ("Cannot find " ++ manifestName ++ " file in the current directory: " ++
    root.text) none
    (some ("Create a " ++ manifestName ++ " with a '" ++ sectionName ++ "' section"))

/-- Reads the project at a root. `needed` is whether it has to say what to build. -/
def load [Loader] [Resolver] (t : Tree) (root manifest : Path) (needed : Bool) : Logged Project :=
  if t.has manifest then
    (Logged.ofExcept (do ofManifest root manifest needed (← readManifest t manifest))).bind fun p =>
      ⟨.ok p, [⟨.debug, .manifest, "Loaded project config from " ++ manifest.text⟩]⟩
  else .fail (.error (noManifest root))

def manifestOf (root : Path) : Path := root.resolve (.parse manifestName)

end Project

end Scriptwright
