import Scriptwright.Schema.Descriptor

/-!
# The standard schema

The sections a document may have and the shape of each.
-/

namespace Scriptwright.Schema

def functionSchema : List (String × Value) :=
  [("name", name), ("parameters", parameterList), ("body", required statements), ("async", flag)]

def methodSchema : List (String × Value) := functionSchema ++ [("static", flag)]

def conditionalLoop : Value := object [("condition", name), ("body", required statements)]

def classSchema : List (String × Value) := [
  ("name", name),
  ("extends", typed "string"),
  ("constructor", object [("parameters", parameterList), ("body", required statements)]),
  ("methods", array (object methodSchema))]

def hookSchema : List (String × Value) := [
  ("name", name),
  ("params", requiredArray (typed "string")),
  ("initial", typed "any"),
  ("body", statements),
  ("dependencies", texts)]

def componentSchema : List (String × Value) := [
  ("type", name),
  ("name", name),
  ("hooks", array (object hookSchema)),
  ("functions", array (object functionSchema)),
  ("jsx", requiredArray (refersTo "any" "markup")),
  ("state", typed "object"),
  ("methods", array (object methodSchema))]

def documentSchema : Value := .record [
  ("modules", array (object [("type", name), ("alias", name), ("path", name)])),
  ("css", texts),
  ("libraries", texts),
  ("variables", typed "object"),
  ("objects", typed "object"),
  ("arrays", typed "object"),
  ("classes", array (object classSchema)),
  ("functions", array (object functionSchema)),
  ("conditions", array (object [
    ("if", typed "string"),
    ("execute", statements),
    ("else", object [("execute", required statements)])])),
  ("loops", object [
    ("for", object [
      ("initializer", name),
      ("condition", name),
      ("increment", name),
      ("body", required statements)]),
    ("while", conditionalLoop),
    ("doWhile", conditionalLoop)]),
  ("exceptions", array (object [
    ("try", requiredObject [("body", required statements)]),
    ("catch", requiredObject [("parameter", name), ("body", required statements)])])),
  ("components", array (object componentSchema))]

end Scriptwright.Schema
