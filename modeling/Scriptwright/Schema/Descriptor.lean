import Scriptwright.Value

/-!
# Descriptors

Building blocks for schemas: descriptors of single fields, and mappings from field names to
descriptors.
-/

namespace Scriptwright.Schema

def typed (type : String) : Value := .record [("type", .string type)]

def typedRequired (type : String) : Value :=
  .record [("type", .string type), ("required", .bool true)]

def required : Value → Value
  | .map d => .map (Fields.insert d (.string "required") (.bool true))
  | v => v

def flag : Value := typed "boolean"

def name : Value := typedRequired "string"

def anything : Value := typedRequired "any"

def object (fields : List (String × Value)) : Value :=
  .record [("type", .string "object"), ("schema", .record fields)]

def requiredObject (fields : List (String × Value)) : Value :=
  .record [("type", .string "object"), ("required", .bool true), ("schema", .record fields)]

def array (item : Value) : Value := .record [("type", .string "array"), ("schema", item)]

def requiredArray (item : Value) : Value :=
  .record [("type", .string "array"), ("required", .bool true), ("schema", item)]

def refersTo (type ref : String) : Value := .record [("type", .string type), ("ref", .string ref)]

def operand (type ref : String) (needed : Bool) : Value :=
  .record [("type", .string type), ("required", .bool needed), ("ref", .string ref)]

def expression : Value := operand "any" "expression" true

def optionalExpression : Value := operand "any" "expression" false

def binding : Value := operand "any" "name" true

def optionalBinding : Value := operand "any" "name" false

def statement : Value := operand "object" "statement" true

def statements : Value := array (refersTo "object" "statement")

def expressions : Value := array (refersTo "any" "expression")

def parameterList : Value := requiredArray (refersTo "any" "expression")

def texts : Value := array (typed "string")

def block : Value := object [("body", required statements)]

end Scriptwright.Schema
