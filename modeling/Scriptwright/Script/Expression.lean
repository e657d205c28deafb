import Scriptwright.Script.Rule

/-!
# Rules for expressions

The table of expression kinds. Texts, numbers and truth values need no rule: they stand for
themselves.
-/

namespace Scriptwright.Script

/-! ## Common parts -/

def braces (field : String) : Piece :=
  .choose (.bodiless field) [.text "\x7b\x7d"] [.text "\x7b\n", .deeper [.body field], .margin,
    .text "\x7d"]

def word (flag text : String) : Piece := .choose (.truthy flag) [.text text] []

def listed (field : String) : Piece := .each field "" ", " ""

def parenthesised (field : String) : Piece := .group [.text "(", .expression field, .text ")"]

def decorators : Piece := .each "decorators" "" "" " "

def propertyKey : Piece :=
  .choose (.truthy "computed") [.text "[", .name "key", .text "]"] [.name "key"]

/-- Functions that are called on the spot are put in parentheses. -/
def callee : Piece :=
  .choose (.tagged "callee" ["arrowFunctionExpression", "functionExpression"])
    [parenthesised "callee"] [.expression "callee"]

def call (optional : Test) : Rule :=
  [callee, .choose optional [.text "?."] [], .text "(", listed "arguments", .text ")"]

def member (optional : Test) : Rule :=
  [.expression "object",
    .choose (.truthy "computed")
      [.choose optional [.text "?.["] [.text "["], .expression "property", .text "]"]
      [.choose optional [.text "?."] [.text "."], .name "property"]]

def operation : Rule :=
  [.expression "left", .text " ", .shown "operator" "None", .text " ", .expression "right"]

def sequenceOf (field opening closing : String) : Rule :=
  [.text opening, listed field, .text closing]

def properties : Rule :=
  [.choose (.truthy "properties")
    [.text "\x7b ", .eachRecord "properties" true ", " [.name "key", .text ": ",
      .expression "value"], .text " \x7d"]
    [.text "\x7b\x7d"]]

/-- With the shorthand the value is written only if it is a pattern with a default. -/
def property : Rule :=
  [.choose (.truthy "shorthand")
    [.choose (.tagged "value" ["assignmentPattern"])
      [.shaped .last [propertyKey, .expression "value"]]
      [propertyKey]]
    [propertyKey, .text ": ", .expression "value"]]

def spread : Rule := [.text "...", .expression "argument"]

def identifier : Rule := [.shown "name" ""]

def method (function : List Piece → Piece) : Rule :=
  [decorators, word "static" "static ", function [word "async" "async "], .accessor "kind",
    function [word "generator" "*"], propertyKey,
    function [.text "(", listed "params", .text ") ", braces "body"]]

def functionRule : Rule :=
  [.choose (.truthy "async") [.text "async function"] [.text "function"], word "generator" "*",
    .choose (.truthy "id") [.text " ", .name "id"] [],
    .text "(", listed "params", .text ") ", braces "body"]

/-- A body that is an object is put in parentheses, so that it is not read as a block. -/
def arrow : Rule :=
  [word "async" "async ", .text "(", listed "params", .text ") => ",
    .choose (.block "body") [braces "body"]
      [.choose (.tagged "body" ["objectExpression"]) [parenthesised "body"] [.expression "body"]]]

def classRule : Rule :=
  [decorators, .text "class",
    .choose (.truthy "id") [.text " ", .name "id"] [],
    .choose (.truthy "superClass") [.text " extends ", .expression "superClass"] [],
    .text " ", .shaped .classBody [.deeper [.members "body"], .margin]]

def declarator : Rule :=
  [.name "id", .choose (.given "init") [.text " = ", .expression "init"] []]

def jsxAttributes : Piece := .each "attributes" " " "" ""

def jsxChildren : Piece := .each "children" "" "" ""

def jsxElement : Rule :=
  [.choose (.truthy "children")
    [.shaped (.element false) [.inside "openingElement" [.name "name"],
      .inside "openingElement" [jsxAttributes], jsxChildren]]
    [.shaped (.element true) [.inside "openingElement" [.name "name"],
      .inside "openingElement" [jsxAttributes], .text ""]]]

def jsxAttribute : Rule :=
  [.shaped .renamed [.name "name"],
    .choose (.given "value")
      [.choose (.record "value")
        [.choose (.tagged "value" ["literal", "jsxExpressionContainer"])
          [.text "=", .expression "value"]
          [.text "=\x7b", .expression "value", .text "\x7d"]]
        [.attributeValue "value"]]
      []]

def importRule : Rule := [.text "import ", .specifiers "specifiers", .source "source"]

def exportNamed : Rule :=
  [.choose (.truthy "declaration") [.text "export ", .expression "declaration"]
    [.shaped .exportList [listed "specifiers"],
      .choose (.truthy "source") [.text " from ", .source "source"] []]]

def exportAll : Rule :=
  [.text "export *", .choose (.truthy "exported") [.text " as ", .name "exported"] [],
    .text " from ", .source "source"]

/-! ## The table -/

def expressionRules : List (String × Rule) := [
  ("identifier", identifier),
  ("literal", [.choose (.has "raw") [.shown "raw" ""] [.data "value"]]),
  ("callExpression", call (.truthy "optional")),
  ("optionalCallExpression", call (.unlessFalse "optional")),
  ("memberExpression", member (.truthy "optional")),
  ("optionalMemberExpression", member (.unlessFalse "optional")),
  ("awaitExpression", [.text "await ", .expression "argument"]),
  ("binaryExpression", operation),
  ("logicalExpression", operation),
  ("assignmentExpression", operation),
  ("arrowFunctionExpression", arrow),
  ("functionExpression", functionRule),
  ("arrayExpression", sequenceOf "elements" "[" "]"),
  ("objectExpression", properties),
  ("unaryExpression", [.unary "operator" "argument"]),
  ("updateExpression",
    [.choose (.truthy "prefix") [.shown "operator" "", .expression "argument"]
      [.expression "argument", .shown "operator" ""]]),
  ("conditionalExpression",
    [.expression "test", .text " ? ", .expression "consequent", .text " : ",
      .expression "alternate"]),
  ("newExpression", [.text "new ", .expression "callee", .text "(", listed "arguments", .text ")"]),
  ("sequenceExpression", sequenceOf "expressions" "(" ")"),
  ("templateLiteral", [.text "\x60", .interleaved "quasis" "expressions", .text "\x60"]),
  ("taggedTemplateExpression",
    [.shaped .swapped
      [.choose (.tagged "quasi" ["templateLiteral"]) [.expression "quasi"]
        [.text "\x60", .expression "quasi", .text "\x60"],
      .expression "tag"]]),
  ("yieldExpression",
    [.choose (.truthy "delegate") [.text "yield*"] [.text "yield"],
      .choose (.given "argument") [.text " ", .expression "argument"] []]),
  ("classExpression", classRule),
  ("thisExpression", [.text "this"]),
  ("super", [.text "super"]),
  ("metaProperty", [.name "meta", .text ".", .name "property"]),
  ("importExpression", [.text "import(", .expression "source", .text ")"]),
  ("chainExpression", [.expression "expression"]),
  ("jsxElement", jsxElement),
  ("jsxFragment", [.text "<>", jsxChildren, .text "</>"]),
  ("jsxExpressionContainer",
    [.text "\x7b", .choose (.tagged "expression" ["jsxEmptyExpression"]) []
      [.expression "expression"], .text "\x7d"]),
  ("jsxText", [.shown "value" ""]),
  ("jsxIdentifier", identifier),
  ("jsxOpeningElement",
    [.text "<", .name "name", jsxAttributes, .choose (.truthy "selfClosing") [.text " />"]
      [.text ">"]]),
  ("jsxClosingElement", [.text "</", .name "name", .text ">"]),
  ("jsxAttribute", jsxAttribute),
  ("jsxSpreadAttribute", [.text "\x7b...", .expression "argument", .text "\x7d"]),
  ("jsxNamespacedName", [.name "namespace", .text ":", .name "name"]),
  ("jsxMemberExpression", [.name "object", .text ".", .name "property"]),
  ("objectPattern", properties),
  ("arrayPattern", sequenceOf "elements" "[" "]"),
  ("restElement", spread),
  ("spreadElement", spread),
  ("assignmentPattern", [.expression "left", .text " = ", .expression "right"]),
  ("property", property),
  ("objectProperty", property),
  ("methodDefinition", method (.within "value")),
  ("objectMethod", method .group),
  ("classMethod", method .group),
  ("classProperty",
    [decorators, word "static" "static ", propertyKey,
      .choose (.given "value") [.text " = ", .expression "value"] []]),
  ("importSpecifier",
    [.choose (.given "imported") [.shaped (.alias true) [.name "local", .name "imported"]]
      [.name "local"]]),
  ("importDefaultSpecifier", [.name "local"]),
  ("importNamespaceSpecifier", [.text "* as ", .name "local"]),
  ("exportSpecifier",
    [.choose (.given "exported") [.shaped (.alias false) [.name "local", .name "exported"]]
      [.name "local"]]),
  ("privateName", [.text "#", .name "id"]),
  ("decorator", [.text "@", .expression "expression"]),
  ("doExpression", [.text "do ", braces "body"]),
  ("parenthesizedExpression", [parenthesised "expression"]),
  ("variableDeclaration", [.shown "kind" "let", .text " ",
    .eachRecord "declarations" false ", " declarator]),
  ("variableDeclarator", declarator),
  ("functionDeclaration", functionRule),
  ("classDeclaration", classRule),
  ("importDeclaration", importRule),
  ("exportNamedDeclaration", exportNamed),
  ("exportDefaultDeclaration", [.text "export default ", .expression "declaration"]),
  ("exportAllDeclaration", exportAll)]

end Scriptwright.Script
