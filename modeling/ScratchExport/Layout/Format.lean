import ScratchExport.Layout.Indent
import ScratchExport.Text.Lines

/-!
# Formatting a file

Every written file ends in one line feed, starts and ends with a line that is not blank, has no two
blank lines in a row and no blanks at the end of a line. In scripts there is also no blank line
right after an opening bracket at the end of a line or right before a closing one. Scripts are
indented anew; pages lose the indentation that all their lines share.
-/

namespace ScratchExport.Layout

/-- Whether the last line taken, if any, ends in an opening bracket. -/
def endsInOpener (line : List Char) : Bool :=
  match line.getLast? with
  | some c => isOpener c
  | none => false

/-- Whether a line starts, blanks aside, with a closing bracket. -/
def startsWithCloser (line : List Char) : Bool :=
  match Text.trimStart line with
  | c :: _ => isCloser c
  | [] => false

/-- Take one more line; `taken` holds the lines so far, the last one first. -/
def takeLine (bracketAware : Bool) (taken : List (List Char)) (line : List Char) :
    List (List Char) :=
  let line := Text.trimEnd line
  if line.isEmpty then
    match taken with
    | [] => []
    | last :: _ =>
      if last.isEmpty || (bracketAware && endsInOpener last) then taken else [] :: taken
  else
    match taken with
    | [] :: earlier =>
      if bracketAware && startsWithCloser line then line :: earlier else line :: taken
    | _ => line :: taken

/-- The text of lines, with superfluous blank lines left out. -/
def finish (bracketAware : Bool) (ls : List (List Char)) : List Char :=
  let taken := ls.foldl (takeLine bracketAware) []
  Text.joinWith ['\n'] (taken.dropWhile (·.isEmpty)).reverse ++ ['\n']

/-- Spaces and tabs. -/
def isIndent (c : Char) : Bool :=
  c == ' ' || c == '\t'

/-- The longest common prefix. -/
def commonPrefix : List Char → List Char → List Char
  | a :: as, b :: bs => if a == b then a :: commonPrefix as bs else []
  | _, _ => []

/-- Leave out `lead` at the front of a line that starts with it. -/
def dropLead (lead line : List Char) : List Char :=
  if lead.isPrefixOf line then line.drop lead.length else line

/-- Remove the indentation that all lines share; a line of spaces and tabs counts as empty. -/
def dedent (cs : List Char) : List Char :=
  let ls := (Text.splitWhere (· == '\n') cs).map fun line => if line.all isIndent then [] else line
  let indents := (ls.filter (!·.isEmpty)).map (·.takeWhile isIndent)
  match indents with
  | [] => Text.joinWith ['\n'] ls
  | first :: rest => Text.joinWith ['\n'] (ls.map (dropLead (rest.foldl commonPrefix first)))

/-- Whether a file name ends in an extension. -/
def hasExtension (filename extension : String) : Bool :=
  extension.toList.isSuffixOf filename.toList

/-- The formatted characters of a file. -/
def formatChars (o : Options) (filename : String) (cs : List Char) : List Char :=
  if hasExtension filename ".html" then finish false (Text.lines (dedent cs))
  else if hasExtension filename ".js" then finish true (indentLines o .start (Text.lines cs))
  else finish false (Text.lines cs)

/-- The formatted text of a file. -/
def format (o : Options) (filename text : String) : String :=
  String.ofList (formatChars o filename text.toList)

end ScratchExport.Layout
