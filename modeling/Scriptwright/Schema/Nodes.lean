import Scriptwright.Schema.Descriptor

/-!
# Node definitions

The fields of every kind of statement, expression and markup node. A name may also be a mapping
without a tag.
-/

namespace Scriptwright.Schema

def statementVariants : List (String × Value) := [
  ("variableDeclaration", .record [
    ("kind", name),
    ("declarations", requiredArray (object [("id", binding), ("init", optionalExpression)]))]),
  ("returnStatement", .record [("argument", optionalExpression)]),
  ("expressionStatement", .record [("expression", expression)]),
  ("ifStatement", .record [("test", expression), ("consequent", statements),
    ("alternate", statements)]),
  ("forStatement", .record [
    ("init", optionalExpression),
    ("test", optionalExpression),
    ("update", optionalExpression),
    ("body", required statements)]),
  ("forInStatement", .record [("left", expression), ("right", expression),
    ("body", required statements)]),
  ("forOfStatement", .record [
    ("left", expression),
    ("right", expression),
    ("body", required statements),
    ("await", flag)]),
  ("whileStatement", .record [("test", expression), ("body", required statements)]),
  ("doWhileStatement", .record [("test", expression), ("body", required statements)]),
  ("tryStatement", .record [
    ("block", required block),
    ("handler", requiredObject [("param", binding), ("body", required statements)]),
    ("finalizer", block)]),
  ("blockStatement", .record [("body", required statements)]),
  ("breakStatement", .record [("label", optionalBinding)]),
  ("continueStatement", .record [("label", optionalBinding)]),
  ("debuggerStatement", .record []),
  ("emptyStatement", .record []),
  ("labeledStatement", .record [("label", binding), ("body", statement)]),
  ("switchStatement", .record [
    ("discriminant", expression),
    ("cases", requiredArray (object [("test", optionalExpression), ("consequent", statements)]))]),
  ("throwStatement", .record [("argument", expression)]),
  ("withStatement", .record [("object", expression), ("body", statement)]),
  ("functionDeclaration", .record [
    ("id", binding),
    ("params", expressions),
    ("body", anything),
    ("async", flag),
    ("generator", flag)]),
  ("classDeclaration", .record [("id", binding), ("superClass", optionalExpression),
    ("body", anything)]),
  ("importDeclaration", .record [("specifiers", expressions), ("source", anything)]),
  ("exportNamedDeclaration", .record [
    ("specifiers", expressions),
    ("declaration", typed "any"),
    ("source", typed "any")]),
  ("exportDefaultDeclaration", .record [("declaration", anything)]),
  ("exportAllDeclaration", .record [("source", anything), ("exported", optionalBinding)])]

def operationFields : Value :=
  .record [("left", expression), ("operator", name), ("right", expression)]

def functionFields : List (String × Value) :=
  [("params", expressions), ("body", anything), ("async", flag)]

def methodFields : Value := .record [
  ("key", binding),
  ("kind", typed "string"),
  ("params", expressions),
  ("body", anything),
  ("static", flag),
  ("computed", flag)]

def propertyFields : Value := .record [("key", binding), ("value", expression), ("computed", flag)]

def expressionVariants : List (String × Value) := [
  ("identifier", .record [("name", name)]),
  ("literal", .record [("raw", typed "string"), ("value", typed "any")]),
  ("callExpression", .record [("callee", expression), ("arguments", expressions),
    ("optional", flag)]),
  ("optionalCallExpression", .record [("callee", expression), ("arguments", expressions)]),
  ("memberExpression", .record [
    ("object", expression),
    ("property", binding),
    ("computed", flag),
    ("optional", flag)]),
  ("optionalMemberExpression",
    .record [("object", expression), ("property", binding), ("computed", flag)]),
  ("awaitExpression", .record [("argument", expression)]),
  ("binaryExpression", operationFields),
  ("logicalExpression", operationFields),
  ("assignmentExpression", operationFields),
  ("arrowFunctionExpression", .record functionFields),
  ("functionExpression", .record
    (functionFields ++ [("id", optionalBinding), ("generator", flag)])),
  ("arrayExpression", .record [("elements", required expressions)]),
  ("objectExpression", .record [("properties", required expressions)]),
  ("unaryExpression", .record [("operator", name), ("argument", expression)]),
  ("updateExpression", .record [("operator", name), ("argument", expression), ("prefix", flag)]),
  ("conditionalExpression", .record [("test", expression), ("consequent", expression),
    ("alternate", expression)]),
  ("newExpression", .record [("callee", expression), ("arguments", expressions)]),
  ("sequenceExpression", .record [("expressions", required expressions)]),
  ("templateLiteral", .record [("quasis", requiredArray (typed "any")),
    ("expressions", expressions)]),
  ("taggedTemplateExpression", .record [("tag", expression), ("quasi", expression)]),
  ("yieldExpression", .record [("argument", optionalExpression), ("delegate", flag)]),
  ("classExpression", .record [("id", optionalBinding), ("superClass", optionalExpression),
    ("body", anything)]),
  ("metaProperty", .record [("meta", binding), ("property", binding)]),
  ("importExpression", .record [("source", expression)]),
  ("chainExpression", .record [("expression", expression)]),
  ("jsxElement", .record [
    ("openingElement", operand "object" "expression" true),
    ("children", expressions),
    ("closingElement", refersTo "object" "expression")]),
  ("jsxFragment", .record [("children", expressions)]),
  ("jsxExpressionContainer", .record [("expression", expression)]),
  ("jsxText", .record [("value", name)]),
  ("jsxOpeningElement", .record [("name", binding), ("attributes", expressions),
    ("selfClosing", flag)]),
  ("jsxClosingElement", .record [("name", binding)]),
  ("jsxAttribute", .record [("name", binding), ("value", optionalExpression)]),
  ("jsxSpreadAttribute", .record [("argument", expression)]),
  ("jsxNamespacedName", .record [("namespace", binding), ("name", binding)]),
  ("jsxMemberExpression", .record [("object", binding), ("property", binding)]),
  ("objectPattern", .record [("properties", required expressions)]),
  ("arrayPattern", .record [("elements", required expressions)]),
  ("restElement", .record [("argument", expression)]),
  ("spreadElement", .record [("argument", expression)]),
  ("assignmentPattern", .record [("left", expression), ("right", expression)]),
  ("property", propertyFields),
  ("objectProperty", propertyFields),
  ("methodDefinition", .record [
    ("key", binding),
    ("kind", typed "string"),
    ("value", requiredObject [("params", expressions), ("body", anything)]),
    ("static", flag)]),
  ("objectMethod", methodFields),
  ("classMethod", methodFields),
  ("classProperty", .record [("key", binding), ("value", optionalExpression), ("static", flag)]),
  ("importSpecifier", .record [("local", binding), ("imported", optionalBinding)]),
  ("importDefaultSpecifier", .record [("local", binding)]),
  ("importNamespaceSpecifier", .record [("local", binding)]),
  ("exportSpecifier", .record [("local", binding), ("exported", optionalBinding)]),
  ("privateName", .record [("id", binding)]),
  ("decorator", .record [("expression", expression)]),
  ("doExpression", .record [("body", required statements)]),
  ("parenthesizedExpression", .record [("expression", expression)]),
  ("thisExpression", .record []),
  ("super", .record [])]

def markupFields : List (String × Value) := [
  ("type", name),
  ("props", typed "object"),
  ("children", array (refersTo "any" "markup"))]

def nodeDefinitions : Value := .record [
  ("statement", .record [("schema", .record [("type", name)]),
    ("variants", .record statementVariants)]),
  ("expression", .record [("schema", .record [("type", name)]),
    ("variants", .record expressionVariants)]),
  ("name", .record [("untagged", .record [("name", name)]),
    ("variants", .record expressionVariants)]),
  ("markup", .record [("schema", .record markupFields)])]

end Scriptwright.Schema
