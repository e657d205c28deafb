import Scriptwright.Text.Blank
import Scriptwright.Text.Quoted

/-!
# Command line arguments

Options start with a dash and may be shortened as long as only one is meant. A parser takes its
options as they come and either hands over everything from the first word on, or sets words aside as
not recognised.
-/

namespace Scriptwright.Command

inductive Action where
  | help
  | version
  | flag
  /-- Takes a value, one of some if there are any to choose from. -/
  | value (choices : List String)
deriving DecidableEq, Repr

structure Switch where
  names : List String
  action : Action
deriving DecidableEq, Repr

structure Grammar where
  program : String
  usage : String
  help : String
  switches : List Switch
  /-- Whether the first word hands over to another parser. -/
  hasCommand : Bool

inductive Halt where
  | help (text : String)
  | version
  | misuse (usage program message : String)

inductive Tail where
  | nothing
  | equals (value : String)
  | attached (rest : String)
deriving DecidableEq, Repr

inductive Part where
  | word (s : String)
  /-- Two dashes, behind which there are words only. -/
  | dashes
  | option (switch : Switch) (tail : Tail)
  | unknown (s : String)

namespace Grammar

def misuse (g : Grammar) (message : String) : Halt := .misuse g.usage g.program message

def names (g : Grammar) : List (String × Switch) :=
  g.switches.flatMap fun s => s.names.map fun n => (n, s)

def cutValue (s : String) : String × Tail :=
  match Text.cutAt? ['='] s.toList with
  | some (a, b) => (String.ofList a, .equals (String.ofList b))
  | none => (s, .nothing)

/-- The options that an argument may be short for. -/
def matches? (g : Grammar) (s : String) : List (Switch × String × Tail) :=
  if s.startsWith "--" then
    let (start, tail) := cutValue s
    (g.names.filter fun n => n.1.startsWith start).map fun n => (n.2, n.1, tail)
  else
    let short := String.ofList (s.toList.take 2)
    g.names.filterMap fun n =>
      if n.1 == short then some (n.2, n.1, .attached (String.ofList (s.toList.drop 2)))
      else if n.1.startsWith s then some (n.2, n.1, .nothing)
      else none

def isNegative (s : String) : Bool :=
  match s.toList with
  | '-' :: cs =>
    let whole := cs.takeWhile Char.isDigit
    match cs.dropWhile Char.isDigit with
    | [] => !whole.isEmpty
    | '.' :: ds => !ds.isEmpty && ds.all Char.isDigit
    | _ => false
  | _ => false

/-- What an argument is, unless it may be short for several options. -/
def classify (g : Grammar) (s : String) : Except Halt Part :=
  if !s.startsWith "-" || s == "-" then .ok (.word s)
  else
    match g.names.lookup s with
    | some switch => .ok (.option switch .nothing)
    | none =>
      let (name, tail) := cutValue s
      match g.names.lookup name, tail with
      | some switch, .equals v => .ok (.option switch (.equals v))
      | _, _ =>
        match g.matches? s with
        | [(switch, _, tail)] => .ok (.option switch tail)
        | [] => .ok (if isNegative s || s.toList.contains ' ' then .word s else .unknown s)
        | ms => .error (g.misuse
            ("ambiguous option: " ++ s ++ " could match " ++ ", ".intercalate
              (ms.map fun m => m.2.1)))

def classifyAll (g : Grammar) : List String → Except Halt (List Part)
  | [] => .ok []
  | s :: ss =>
    if s == "--" then .ok (.dashes :: ss.map .word)
    else do
      let p ← g.classify s
      return p :: (← classifyAll g ss)

end Grammar

/-- What the arguments of one parser came to: options with their values, words not recognised, and
what the first word hands over. -/
structure Arguments where
  values : List (String × String)
  extras : List String
  handed : List String

namespace Arguments

def none : Arguments := ⟨[], [], []⟩

def setValue (a : Arguments) (s : Switch) (v : String) : Arguments :=
  { a with values := (s.names.getLastD "", v) :: a.values }

def addExtra (a : Arguments) (s : String) : Arguments := { a with extras := a.extras ++ [s] }

def value? (a : Arguments) (name : String) : Option String := a.values.lookup name

end Arguments

namespace Grammar

def wrong (g : Grammar) (s : Switch) (message : String) : Halt :=
  g.misuse ("argument " ++ "/".intercalate s.names ++ ": " ++ message)

def choiceMessage (v : String) (choices : List String) : String :=
  "invalid choice: " ++ Text.shown v ++ " (choose from " ++ ", ".intercalate
    (choices.map Text.shown) ++ ")"

def perform (g : Grammar) (s : Switch) (a : Arguments) : Except Halt Arguments :=
  match s.action with
  | .help => .error (.help g.help)
  | .version => .error .version
  | _ => .ok (a.setValue s "")

def assign (g : Grammar) (s : Switch) (choices : List String) (v : String) (a : Arguments) :
    Except Halt Arguments :=
  if choices.isEmpty || choices.contains v then .ok (a.setValue s v)
  else .error (g.wrong s (choiceMessage v choices))

def ignored (g : Grammar) (s : Switch) (v : String) : Halt :=
  g.wrong s ("ignored explicit argument " ++ Text.shown v)

/-- The options that are written together behind one dash, and what is left from the first letter on
that is none. -/
def together (g : Grammar) (s : Switch) : List Char → Except Halt (List Switch × Option String)
  | [] => .ok ([s], none)
  | c :: cs =>
    if c == '-' || c == '=' then
      .error (g.ignored s (String.ofList (if c == '=' then cs else c :: cs)))
    else
      match g.names.lookup (String.ofList ['-', c]) with
      | some next => (g.together next cs).map fun r => (s :: r.1, r.2)
      | none => .ok ([s], some (String.ofList ('-' :: c :: cs)))

def performTogether (g : Grammar) (s : Switch) (rest : List Char) (a : Arguments) :
    Except Halt Arguments := do
  let (switches, extra) ← g.together s rest
  let a := extra.elim a a.addExtra
  switches.foldlM (fun a s => g.perform s a) a

def take (g : Grammar) (a : Arguments) : List (Part × String) → Except Halt Arguments
  | [] => .ok a
  | (.word s, _) :: ps =>
    if g.hasCommand then .ok { a with handed := s :: ps.map (·.2) } else g.take (a.addExtra s) ps
  | (.dashes, s) :: ps =>
    if g.hasCommand && !ps.isEmpty then .ok { a with handed := s :: ps.map (·.2) }
      else g.take (a.addExtra s) ps
  | (.unknown s, _) :: ps => g.take (a.addExtra s) ps
  | (.option s tail, _) :: ps =>
    match tail, s.action, ps with
    | .equals v, .value choices, ps => do g.take (← g.assign s choices v a) ps
    | .equals v, _, _ => .error (g.ignored s v)
    | .attached v, .value choices, ps => do g.take (← g.assign s choices v a) ps
    | .attached v, _, ps => do g.take (← g.performTogether s v.toList a) ps
    | .nothing, .value choices, (.word v, _) :: ps => do g.take (← g.assign s choices v a) ps
    | .nothing, .value _, _ => .error (g.wrong s "expected one argument")
    | .nothing, _, ps => do g.take (← g.perform s a) ps

def parse (g : Grammar) (args : List String) : Except Halt Arguments := do
  let parts ← g.classifyAll args
  g.take .none (parts.zip args)

end Grammar

end Scriptwright.Command
