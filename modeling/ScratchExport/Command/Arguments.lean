import ScratchExport.Export.Output
import ScratchExport.Text.Numeral

/-!
# Arguments of the command line

Two words name the input and the output; words that start with a dash are flags. A flag may be
shortened as long as it stays unique, and its value follows as the next word or behind `=`. Behind
`--` no word is a flag. A word like a negative number is no flag, nor is an unknown one with a space
in it.

A value never is `--`: behind `=` it leaves the value out, and so does a second `--` in place of the
output, if no flag stands between input and output.

A request for help ends the program with exit code 0, an error with exit code 2; the one that is met
first counts, except that an ambiguous flag is an error before anything else.
-/

namespace ScratchExport.Command

/-- The flags. -/
inductive Flag where
  | help
  | outputKind
  | runtimeUrl
  | runtimeStyleUrl
  | noAutoplay
  | indent
  | tabs
  | verbose
  deriving DecidableEq

namespace Flag

/-- How a flag is written in full. -/
def spelling : Flag → String
  | .help => "--help"
  | .outputKind => "--output-type"
  | .runtimeUrl => "--runtime-url"
  | .runtimeStyleUrl => "--runtime-style-url"
  | .noAutoplay => "--no-autoplay"
  | .indent => "--indent"
  | .tabs => "--tabs"
  | .verbose => "--verbose"

/-- Help has a short spelling, too. -/
def shortHelp : String := "-h"

/-- All flags. -/
def all : List Flag :=
  [.help, .outputKind, .runtimeUrl, .runtimeStyleUrl, .noAutoplay, .indent, .tabs, .verbose]

/-- The flag with exactly this spelling. -/
def ofSpelling? (s : String) : Option Flag :=
  if s == shortHelp then some .help else all.find? (·.spelling == s)

/-- The flags whose spelling starts so. -/
def candidates (start : List Char) : List Flag :=
  all.filter fun f => start.isPrefixOf f.spelling.toList

end Flag

/-- A word of the command line, by its role. -/
inductive Token where
  | word (s : String)
  | flag (f : Flag) (attached : Option String)
  | unknown
  | separator

/-- The word behind which no word is a flag. -/
def separator : String := "--"

/-- Exit codes. -/
def misuse : Fault := .usage 2

/-- A number with a minus sign: digits, perhaps behind a point. -/
def isNegativeNumber (cs : List Char) : Bool :=
  match cs with
  | '-' :: rest =>
    let rest := if rest.getLast? == some '\n' then rest.dropLast else rest
    let decimals := (rest.dropWhile Text.isDigit)
    match decimals with
    | [] => !rest.isEmpty
    | '.' :: digits => !digits.isEmpty && digits.all Text.isDigit
    | _ => false
  | _ => false

/-- What may stand behind the short spelling of help: more requests for help. -/
def isHelpCluster (cs : List Char) : Bool :=
  !cs.isEmpty && cs.all (· == 'h')

/-- Help in its short spelling with something behind it, which is an error unless it is more of the
same. -/
def helpCluster (cs : List Char) : Token :=
  .flag .help (if isHelpCluster cs then none else some (String.ofList cs))

/-- A word before and behind its first `=`. -/
def cutAttached (cs : List Char) : List Char × Option String :=
  match cs.dropWhile (· != '=') with
  | '=' :: value => (cs.takeWhile (· != '='), some (String.ofList value))
  | _ => (cs, none)

/-- The role of a word that is no flag in full, with or without a value behind it. -/
def classifyOther (cs : List Char) (attached : Option String) (start : List Char) :
    Except Fault Token :=
  let fallback : Token :=
    if isNegativeNumber cs || cs.contains ' ' then .word (String.ofList cs) else .unknown
  match cs with
  | '-' :: '-' :: _ => match Flag.candidates start with
    | [] => .ok fallback
    | [f] => .ok (.flag f attached)
    | _ => .error misuse
  | '-' :: 'h' :: '=' :: rest | '-' :: 'h' :: rest => .ok (helpCluster rest)
  | _ => .ok fallback

/-- The role of a word. -/
def classify (s : String) : Except Fault Token :=
  match s.toList with
  | '-' :: rest =>
    let cs := '-' :: rest
    let (start, attached) := cutAttached cs
    match Flag.ofSpelling? s, Flag.ofSpelling? (String.ofList start) with
    | some f, _ => .ok (.flag f none)
    | none, some f =>
      if String.ofList start == Flag.shortHelp then classifyOther cs attached start else
        .ok (.flag f attached)
    | none, none => if rest.isEmpty then .ok (.word s) else classifyOther cs attached start
  | _ => .ok (.word s)

/-- The roles of all words. -/
def tokens : List String → Except Fault (List Token)
  | [] => .ok []
  | s :: rest =>
    if s == separator then .ok (.separator :: rest.map .word)
    else do return (← classify s) :: (← tokens rest)

/-! ### Settings -/

/-- What the command line says so far. -/
structure Draft where
  /-- The words that are no flags, in order. -/
  words : List String := []
  /-- How many of them came after the last flag. -/
  trailing : Nat := 0
  /-- There was a separator. -/
  separated : Bool := false
  /-- Something was not understood. -/
  hasStray : Bool := false
  kind : Option Export.OutputKind := some .folder
  runtimeUrl : String := ""
  runtimeStyleUrl : String := ""
  autoplay : Bool := true
  indent : Option Int := some 2
  tabs : Bool := false
  verbose : Bool := false

/-- The value that a word gives; the separator gives none. -/
def value? (s : String) : Option String :=
  if s == separator then none else some s

/-- Take the value of a flag, or a flag without one. -/
def Draft.apply (d : Draft) : Flag → Option String → Except Fault Draft
  | .help, none => .error (.usage 0)
  | .noAutoplay, none => .ok { d with autoplay := false }
  | .tabs, none => .ok { d with tabs := true }
  | .verbose, none => .ok { d with verbose := true }
  | .outputKind, some v => match (value? v).map Export.OutputKind.ofName with
    | none => .ok { d with kind := none }
    | some (.ok kind) => .ok { d with kind := some kind }
    | some (.error _) => .error misuse
  | .runtimeUrl, some v => .ok { d with runtimeUrl := (value? v).getD "" }
  | .runtimeStyleUrl, some v => .ok { d with runtimeStyleUrl := (value? v).getD "" }
  | .indent, some v => match (value? v).map fun v => Text.integer? 10 v.toList with
    | none => .ok { d with indent := none }
    | some (some n) => .ok { d with indent := some n }
    | some none => .error misuse
  | _, _ => .error misuse

/-- Whether a flag has a value. -/
def Flag.hasValue : Flag → Bool
  | .outputKind | .runtimeUrl | .runtimeStyleUrl | .indent => true
  | .help | .noAutoplay | .tabs | .verbose => false

/-- Take a word that is no flag. -/
def Draft.addWord (d : Draft) (s : String) : Draft :=
  { d with words := d.words ++ [s], trailing := d.trailing + 1 }

/-- Go through the words in order. -/
def Draft.read (d : Draft) : List Token → Except Fault Draft
  | [] => .ok d
  | .word s :: rest => Draft.read (d.addWord s) rest
  | .separator :: rest => Draft.read { d with separated := true } rest
  | .unknown :: rest => Draft.read { d with trailing := 0, hasStray := true } rest
  | .flag f (some v) :: rest => do Draft.read { (← d.apply f (some v)) with trailing := 0 } rest
  | .flag f none :: .word v :: rest =>
    if f.hasValue then do Draft.read { (← d.apply f (some v)) with trailing := 0 } rest
    else do Draft.read (Draft.addWord { (← d.apply f none) with trailing := 0 } v) rest
  | .flag f none :: rest => do Draft.read { (← d.apply f none) with trailing := 0 } rest

/-- Whether something is left over: a stray word, or a separator with no word after the
last flag. -/
def Draft.hasRemains (d : Draft) : Bool :=
  d.hasStray || (d.separated && d.trailing == 0)

/-- What the program is asked to do. -/
structure Settings where
  input : String
  output : Option String
  kind : Option Export.OutputKind
  options : Export.Options
  verbose : Bool

/-- The output that a word gives. It is left out when the word is a second separator and the first
one was taken together with the input, from which no flag divides the word. -/
def Draft.output? (d : Draft) (word : String) : Option String :=
  if d.trailing == 2 then value? word else some word

/-- The layout, which needs a width of indentation unless tabs are used. -/
def Draft.layout? (d : Draft) : Option Layout.Options :=
  if d.tabs then some ⟨d.indent.getD 0, true⟩ else d.indent.map (⟨·, false⟩)

/-- The settings of a complete draft. An empty URL leaves the usual one. -/
def Draft.settings (d : Draft) : Except Fault Settings :=
  let usual : Export.Options := {}
  match d.hasRemains, d.words with
  | false, [input, output] => .ok {
      input := Path.normal input
      output := (d.output? output).map Path.normal
      kind := d.kind
      options := { usual with
        runtimeModuleUrl := if d.runtimeUrl.isEmpty then usual.runtimeModuleUrl else d.runtimeUrl
        runtimeStyleUrl :=
          if d.runtimeStyleUrl.isEmpty then usual.runtimeStyleUrl else d.runtimeStyleUrl
        autoplay := d.autoplay
        layout := d.layout? }
      verbose := d.verbose }
  | _, _ => .error misuse

/-- The settings that a command line gives. -/
def parse (args : List String) : Except Fault Settings := do
  let d ← Draft.read {} (← tokens args)
  d.settings

end ScratchExport.Command
