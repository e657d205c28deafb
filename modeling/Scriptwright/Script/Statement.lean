import Scriptwright.Script.Expression

/-!
# Rules for statements

The table of statement kinds. Every rule writes whole lines at the level of the statement; nested
statements stand one level further in. Declarations are written by the rules for expressions.
-/

namespace Scriptwright.Script

def lineOf (parts : List Piece) : Piece := .group (.margin :: parts ++ [.text "\n"])

def bracedBody (header : List Piece) (field : String) : Rule :=
  [lineOf (header ++ [.text " \x7b"]), .deeper [.body field], lineOf [.text "\x7d"]]

def forEach (link : String) : Rule :=
  bracedBody [.choose (.truthy "await") [.text "for await"] [.text "for"], .text " (",
    .expression "left", .text link, .expression "right", .text ")"] "body"

def jump (keyword : String) : Rule :=
  [.choose (.truthy "label") [lineOf [.text (keyword ++ " "), .name "label", .text ";"]]
    [lineOf [.text (keyword ++ ";")]]]

/-- A line with the node as an expression, for statements that cannot be written without
expressions. -/
def declaration (close : List Piece) : Rule := [lineOf (.itself .notRecord :: close)]

/-- Functions and classes end without a semicolon. -/
def closeUnlessBlock : List Piece :=
  [.choose (.tagged "declaration" ["functionDeclaration", "classDeclaration"]) [] [.text ";"]]

def ifRule : Rule :=
  [lineOf [.text "if (", .expression "test", .text ") \x7b"],
    .choose (.truthy "consequent") [.deeper [.sequence "consequent"]] [],
    .choose (.given "alternate") [lineOf [.text "\x7d else \x7b"], .deeper [.sequence "alternate"]]
      [],
    lineOf [.text "\x7d"]]

def forRule : Rule :=
  bracedBody [.text "for (", .expression "init", .text "; ", .expression "test", .text "; ",
    .expression "update", .text ")"] "body"

/-- The condition of the last line is worked out before the body. -/
def doWhile : Rule :=
  [.shaped .swapped
    [lineOf [.text "\x7d while (", .expression "test", .text ");"],
      .group [lineOf [.text "do \x7b"], .deeper [.body "body"]]]]

def tryRule : Rule :=
  [lineOf [.text "try \x7b"], .deeper [.body "block"],
    .choose (.truthy "handler")
      [.inside "handler"
        [.choose (.given "param") [lineOf [.text "\x7d catch (", .expression "param",
          .text ") \x7b"]]
          [lineOf [.text "\x7d catch \x7b"]],
        .deeper [.body "body"]]]
      [],
    .choose (.truthy "finalizer") [lineOf [.text "\x7d finally \x7b"], .deeper [.body "finalizer"]]
      [],
    lineOf [.text "\x7d"]]

def switchRule : Rule :=
  [lineOf [.text "switch (", .expression "discriminant", .text ") \x7b"],
    .eachCase "cases"
      [.choose (.defaultCase "test") [lineOf [.text "default:"]]
        [lineOf [.text "case ", .expression "test", .text ":"]],
      .deeper [.sequence "consequent"]],
    lineOf [.text "\x7d"]]

/-- A body that is not a block counts as its only statement. -/
def withRule : Rule :=
  [lineOf [.text "with (", .expression "object", .text ") \x7b"],
    .deeper
      [.choose (.tagged "body" ["blockStatement"]) [.inside "body" [.sequence "body"]]
        [.statement "body"]],
    lineOf [.text "\x7d"]]

def statementRules : List (String × Rule) := [
  ("variableDeclaration", declaration [.text ";"]),
  ("returnStatement",
    [.choose (.given "argument") [lineOf [.text "return ", .expression "argument", .text ";"]]
      [lineOf [.text "return;"]]]),
  ("expressionStatement", [lineOf [.shaped .guarded [.expression "expression"], .text ";"]]),
  ("ifStatement", ifRule),
  ("forStatement", forRule),
  ("forInStatement", forEach " in "),
  ("forOfStatement", forEach " of "),
  ("whileStatement", bracedBody [.text "while (", .expression "test", .text ")"] "body"),
  ("doWhileStatement", doWhile),
  ("tryStatement", tryRule),
  ("blockStatement", [lineOf [.text "\x7b"], .deeper [.sequence "body"], lineOf [.text "\x7d"]]),
  ("breakStatement", jump "break"),
  ("continueStatement", jump "continue"),
  ("debuggerStatement", [lineOf [.text "debugger;"]]),
  ("emptyStatement", [lineOf [.text ";"]]),
  ("labeledStatement", [lineOf [.name "label", .text ":"], .statement "body"]),
  ("switchStatement", switchRule),
  ("throwStatement", [lineOf [.text "throw ", .expression "argument", .text ";"]]),
  ("withStatement", withRule),
  ("functionDeclaration", [lineOf [.itself noExpressions]]),
  ("classDeclaration", [lineOf [.itself noExpressions]]),
  ("importDeclaration", declaration [.text ";"]),
  ("exportNamedDeclaration", declaration closeUnlessBlock),
  ("exportDefaultDeclaration", declaration closeUnlessBlock),
  ("exportAllDeclaration", declaration [.text ";"])]

end Scriptwright.Script
