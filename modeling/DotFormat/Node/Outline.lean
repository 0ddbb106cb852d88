import DotFormat.Node.Value

/-!
This module contains what a node tree says about its parts: the text and the layout of a paragraph,
the style of a run, the runs of a document.
-/

namespace DotFormat.Node

def content : Node → Except ValueFault Node
  | textRun content .. => .ok content
  | _ => .error .member

def style : Node → Except ValueFault (Style Node)
  | textRun _ bold italic large _ => .ok { bold, italic, large }
  | _ => .error .member

def isPlain (style : Style Node) : Except ValueFault Bool := do
  if ← style.bold.holds then return false
  if ← style.italic.holds then return false
  if ← style.large.holds then return false
  return true

def isEmpty : Node → Except ValueFault Bool
  | paragraph runs .. => (holds runs).map not
  | _ => .error .member

/--
The layout of a paragraph, or what is wrong with its padding.
-/
def layout : Node → Except ValueFault (Except AmountError (Layout Node))
  | paragraph _ indent fill _ =>
    .ok (match indent with
      | plain json => (Amount.ofJson json).map fun indent => { indent, fill }
      | _ => .error .notNumber)
  | _ => .error .member

/--
Texts joined by line feeds. Whatever is no text cannot be joined.
-/
def joinLines (texts : List Node) : Except ValueFault String :=
  (texts.mapM string).map (String.intercalate "\n")
where
  string : Node → Except ValueFault String
    | plain (.str s) => .ok s
    | _ => .error .operation

/--
The text of all runs of a paragraph, one line for each.
-/
def text : Node → Except ValueFault String
  | paragraph runs .. => do
    let runs ← runs.elements
    joinLines (← runs.mapM content)
  | _ => .error .member

mutual

/--
The runs of a paragraph, or those of all paragraphs of a document.
-/
def runs : Node → Except ValueFault Node
  | paragraph runs .. => .ok runs
  | document paragraphs _ _ => (runsOf paragraphs).map tuple
  | _ => .error .member

def runsOf : Node → Except ValueFault (List Node)
  | tuple items => runsOfAll items
  | document paragraphs _ _ => runsOf paragraphs
  | node => do
    if (← node.elements).isEmpty then return []
    throw .member

def runsOfAll : List Node → Except ValueFault (List Node)
  | [] => .ok []
  | item :: items => do
    let first ← runs item
    return (← first.elements) ++ (← runsOfAll items)

end

def diagnostics : Node → Except ValueFault (List Node)
  | document _ _ diagnostics => diagnostics.elements
  | _ => .error .member

end DotFormat.Node
