/-!
# Layout

How source text is laid out: the indentation of one level and the mark that module names are quoted
with. Options name the indentation by its style and size. Emission is handed all options of a run
and asks them for these two texts.
-/

namespace Scriptwright.Script

structure Options where
  indentSize : Int := 4
  indentStyle : String := "spaces"
  quote : String := "'"
  strict : Bool := false
deriving DecidableEq, Repr

/-- One tab for the style `tabs`, blanks for any other. -/
def Options.indentUnit (o : Options) : String :=
  if o.indentStyle == "tabs" then "\t" else String.ofList (List.replicate o.indentSize.toNat ' ')

structure Layout where
  options : Options
deriving DecidableEq, Repr

def Options.layout (o : Options) : Layout := ⟨o⟩

namespace Layout

def unit (layout : Layout) : String := layout.options.indentUnit

def quote (layout : Layout) : String := layout.options.quote

/-- The indentation of a level; levels below one have none. -/
def margin (layout : Layout) (level : Int) : String :=
  String.join (List.replicate level.toNat layout.unit)

def quoted (layout : Layout) (text : String) : String := layout.quote ++ text ++ layout.quote

end Layout

end Scriptwright.Script
