import Scriptwright.Document.Node

/-!
# Imports

The modules, style sheets and libraries a document names. A document with components imports the
component library by itself, with the hooks its function components use, unless it imports that
library already.
-/

namespace Scriptwright.Document

open Script

/-! ## Named modules -/

def aliasNode (part : List Char) : Value :=
  let (imported, own) := match Text.cutAt? " as ".toList part with
    | some (a, b) => (Text.trim a, Text.trim b)
    | none => (Text.trim part, [])
  let name (cs : List Char) : Value := identifierNode (.string (String.ofList cs))
  node "importSpecifier"
    [("imported", name imported), ("local", name (if own.isEmpty then imported else own))]

def aliasParts (names : String) : List (List Char) :=
  ((Text.splitAt ',' names.toList).map Text.trim).filter fun p => !p.isEmpty

def aliasNodes : Value → Except Fault (List Value)
  | .string s => .ok ((aliasParts s).map aliasNode)
  | .bytes _ => .error .notText
  | _ => .error .notRecord

/-- The import of a module, or the kind that is none. -/
def moduleImport (module : Value) : Except Fault (Value ⊕ Value) :=
  match module.head with
  | .map es =>
    let kind := Fields.get es "type"
    let names := Fields.getD es "alias" (.string "")
    let path := Fields.getD es "path" (.string "")
    if kind.isKey "default" then
      .ok (.inl (importNode [node "importDefaultSpecifier" [("local", identifierNode names)]] path))
    else if kind.isKey "namespace" then
      .ok
        (.inl (importNode [node "importNamespaceSpecifier" [("local", identifierNode names)]] path))
    else if kind.isKey "named" then (aliasNodes names).map fun specifiers =>
      .inl (importNode specifiers path)
    else .ok (.inr kind)
  | _ => .error .notRecord

def moduleNote (module : Value) : Code :=
  match moduleImport module with
  | .ok (.inl _) => .nothing
  | .ok (.inr kind) => .spelling kind (.report "module" kind)
  | .error f => .stop f

def moduleNode? (module : Value) : Option Value :=
  match moduleImport module with
  | .ok (.inl n) => some n
  | _ => none

/-! ## The component library -/

def libraryName : String := "react"

def hookNames : List String :=
  ["useState", "useEffect", "useLayoutEffect", "useInsertionEffect", "useContext", "useReducer",
    "useCallback", "useMemo", "useRef", "useId", "useTransition", "useDeferredValue",
    "useImperativeHandle", "useSyncExternalStore"]

/-- Whether one of the modules, up to the first that is one, is the component library. -/
def anyIsLibrary : List Value → Except Fault Bool
  | [] => .ok false
  | m :: ms => do
    let path ← ask m "path"
    if path.isKey libraryName then return true
    anyIsLibrary ms

/-- Whether a text occurs in a value: as an item, as a key, or as a part of a text. -/
def mentions (name : String) (v : Value) : Except Fault Bool :=
  match v.head with
  | .list vs => .ok (vs.any (Value.isKey name))
  | .map es => .ok (Fields.has es name)
  | .pair first second => .ok (first.isKey name || second.isKey name)
  | .set ms => .ok (ms.any fun m => m.value.isKey name)
  | .string s => .ok ((Text.cutAt? name.toList s.toList).isSome)
  | _ => .error .notIterable

def hooksOf (component : Value) : Except Fault (List String) := do
  let kind ← ask component "type"
  if !kind.isKey "function" then return []
  let hooks ← (← ask component "hooks").elementsOrNone
  let names ← collect (ask · "name") hooks
  return (names.filterMap Value.asText?).filter hookNames.contains

/-- Every name once, in the order of first use. -/
def distinct (names : List String) : List String :=
  names.foldl (fun seen n => if seen.contains n then seen else seen ++ [n]) []

def libraryImport (used : List String) : Value :=
  let name (s : String) : Value := identifierNode (.string s)
  importNode
    (node "importDefaultSpecifier" [("local", name "React")] ::
      used.map fun s => node "importSpecifier" [("local", name s)])
    (.string libraryName)

def automaticImport (document : Fields) (modules : Value) : Except Fault (Option Value) := do
  let components := Fields.get document "components"
  if !components.truthy then return none
  if ← anyIsLibrary (← modules.elementsOrNone) then return none
  let libraries := Fields.get document "libraries"
  if libraries.truthy then
    if ← mentions libraryName libraries then return none
  let used ← collect hooksOf (← components.elements)
  return some (libraryImport (distinct used.flatten))

/-! ## The section -/

def plainImports (document : Fields) : Except Fault (List Value) := do
  let sheets ← (Fields.get document "css").elementsOrNone
  let libraries ← (Fields.get document "libraries").elementsOrNone
  return (sheets ++ libraries).map (importNode [])

def importsCode (document : Fields) : Code :=
  let modules := Fields.get document "modules"
  match automaticImport document modules with
  | .error f => .stop f
  | .ok automatic =>
    match modules.elementsOrNone with
    | .error f => .stop f
    | .ok ms =>
      .together
        [.together (ms.map moduleNote),
          sectionCode ((plainImports document).map fun plain =>
            automatic.toList ++ ms.filterMap moduleNode? ++ plain)]

end Scriptwright.Document
