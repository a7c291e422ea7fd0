import Tabletop.Command.Usage

namespace Tabletop

/-!
# Invocations

The words of a command line, read as switches and codes. First every word is
classified on its own; then the words are taken in order. The first run of words
that are not switches holds the codes, and what comes later is left over. A
double dash makes operands of all words behind it.
-/

/-- What a word of the command line is. -/
inductive Word where
  | operand (text : String)
  /-- The double dash. -/
  | divider
  /-- A switch in its short or long form, and what is attached to it. -/
  | option (switch : Switch) (isShort : Bool) (attached : Option String)
  /-- A word in the form of a switch that is none. -/
  | unknown (text : String)
  deriving Repr, DecidableEq, Inhabited

namespace Word

/-- The part of a word before its first equality sign, and the part behind it if there is one. -/
def splitValue (text : String) : String × Option String :=
  let cs := text.toList
  let before := String.ofList (cs.takeWhile (· != '='))
  match cs.dropWhile (· != '=') with
  | _ :: behind => (before, some (String.ofList behind))
  | [] => (before, none)

/-- The switch with exactly this short or long form, and whether the form is the short one. -/
def form? (text : String) : Option (Switch × Bool) :=
  match Switch.all.find? fun switch => switch.short = text with
  | some switch => some (switch, true)
  | none =>
      (Switch.all.find? fun switch => switch.long = text).map fun switch => (switch, false)

/-- A word that names no switch: a blank in it makes it an operand. -/
def unnamed (text : String) : Word :=
  if ' ' ∈ text.toList then operand text else unknown text

/-- Classifies a word that begins with two dashes; an abbreviation must fit one switch only. -/
def ofLong? (text : String) : Except Misuse Word :=
  let (name, value) := splitValue text
  match Switch.all.filter fun switch => name.toList.isPrefixOf switch.long.toList with
  | [] => .ok (unnamed text)
  | [switch] => .ok (.option switch false value)
  | candidates => .error (.ambiguous text candidates)

/-- Classifies a word that begins with a single dash: what follows the letter is attached to it. -/
def ofShort
    (text : String)
    (letter : Char)
    (behind : List Char) :
    Word :=
  match Switch.ofLetter? letter with
  | some switch => .option switch true (some (String.ofList behind))
  | none => unnamed text

/-- Classifies a word that stands before any double dash. -/
def ofText? (text : String) : Except Misuse Word :=
  let (name, value) := splitValue text
  match form? text, value.bind fun _ => form? name with
  | some (switch, isShort), _ => .ok (.option switch isShort none)
  | none, some (switch, isShort) => .ok (.option switch isShort value)
  | none, none =>
      match text.toList with
      | '-' :: '-' :: _ => ofLong? text
      | '-' :: letter :: behind => .ok (ofShort text letter behind)
      | _ => .ok (operand text)

/-- Classifies the words of a command line in order. -/
def classify? : List String → Except Misuse (List Word)
  | [] => .ok []
  | text :: rest =>
      if text = "--" then
        .ok (divider :: rest.map operand)
      else do
        let word ← ofText? text
        let words ← classify? rest
        .ok (word :: words)

end Word

/-- The switches and codes of a command line. -/
structure Invocation where
  explode : Bool := false
  whole66 : Bool := false
  quiet : Bool := false
  verbose : Bool := false
  codes : List String := []
  deriving Repr, DecidableEq, Inhabited

/-- Why a command line rolls nothing. -/
inductive Dismissal where
  | help
  | misuse (misuse : Misuse)
  deriving Repr, DecidableEq, Inhabited

namespace Invocation

/--
The switches that a word in short form stands for.

Further switches may follow the first one, each by its character alone.
-/
def bundle?
    (switch : Switch) :
    List Char → Except Misuse (List Switch)
  | [] => .ok [switch]
  | letter :: behind =>
      match Switch.ofLetter? letter with
      | none => .error (.attached switch (String.ofList (letter :: behind)))
      | some next => (bundle? next behind).map (switch :: ·)

/-- The switches that a classified word stands for. -/
def switches?
    (switch : Switch)
    (isShort : Bool)
    (attached : Option String) :
    Except Misuse (List Switch) :=
  match attached with
  | none => .ok [switch]
  | some value =>
      if isShort ∧ value ≠ "" then bundle? switch value.toList
      else .error (.attached switch value)

/-- Whether a switch was given. -/
def has
    (invocation : Invocation) :
    Switch → Bool
  | .help => false
  | .explode => invocation.explode
  | .whole66 => invocation.whole66
  | .quiet => invocation.quiet
  | .verbose => invocation.verbose

/-- Gives one more switch. -/
def give?
    (invocation : Invocation)
    (switch : Switch) :
    Except Dismissal Invocation :=
  match switch.rival?.filter invocation.has, switch with
  | some rival, _ => .error (.misuse (.rivals rival switch))
  | none, .help => .error .help
  | none, .explode => .ok { invocation with explode := true }
  | none, .whole66 => .ok { invocation with whole66 := true }
  | none, .quiet => .ok { invocation with quiet := true }
  | none, .verbose => .ok { invocation with verbose := true }

/-- How far the words have been taken. -/
structure Progress where
  invocation : Invocation := {}
  /-- The words of the run of operands that goes on, if one does. -/
  run : Option (List String) := none
  /-- Whether the codes have been taken. -/
  settled : Bool := false
  leftOver : List String := []
  deriving Repr, DecidableEq, Inhabited

namespace Progress

/-- Ends a run of operands: the first one holds the codes, less its first double dash. -/
def endRun (progress : Progress) : Progress :=
  match progress.run with
  | none => progress
  | some words =>
      if progress.settled then
        { progress with run := none, leftOver := progress.leftOver ++ words }
      else
        { progress with
          run := none
          settled := true
          invocation := { progress.invocation with codes := words.erase "--" } }

/-- Takes one word. -/
def take?
    (progress : Progress)
    (word : Word) :
    Except Dismissal Progress :=
  match word with
  | .operand text =>
      .ok { progress with run := some ((progress.run.getD []) ++ [text]) }
  | .divider =>
      .ok { progress with run := some ((progress.run.getD []) ++ ["--"]) }
  | .unknown text =>
      let progress := progress.endRun
      .ok { progress with leftOver := progress.leftOver ++ [text] }
  | .option switch isShort attached => do
      let progress := progress.endRun
      let given ← (switches? switch isShort attached).mapError Dismissal.misuse
      let invocation ← given.foldlM give? progress.invocation
      .ok { progress with invocation := invocation }

end Progress

/-- Reads the words of a command line. -/
def read? (arguments : List String) : Except Dismissal Invocation := do
  let words ← (Word.classify? arguments).mapError Dismissal.misuse
  let progress ← words.foldlM Progress.take? {}
  let progress := progress.endRun
  if progress.leftOver = [] then
    .ok progress.invocation
  else
    .error (.misuse (.leftOver progress.leftOver))

end Invocation

end Tabletop
