import Tabletop.Text.Lines

namespace Tabletop

/-!
# Files of assignments

A file of assignments gives values to names, one binding after the other:

* blanks and line ends before a binding are passed over, and so is the word
  `export` in front of a name;
* a name goes on to the next blank, equality sign or hash, or stands in single
  quotes;
* a value in quotes may run over several lines, and a backslash in it takes the
  next character along, so that a quote behind it does not end the value;
* a value without quotes goes on to the end of the line or to a hash that
  follows a blank;
* a name without an equality sign has no value;
* a hash begins a remark that goes on to the end of the line;
* a line that is none of these is passed over from where it goes wrong.

A value may refer to other names. The last binding of a name counts. A byte
order mark at the start of the file is no part of it.
-/

/-- A name and its value, if the file gives it one. -/
structure Assignment where
  name : String
  value : Option String
  deriving Repr, DecidableEq, Inhabited

namespace Assignment

/-- Whether a character is a blank within a line. -/
def isInlineBlank (c : Char) : Bool :=
  Text.isBlank c && c != '\n' && c != '\r'

/-- Passes over blanks within a line. -/
def skipInline (cs : List Char) : List Char :=
  cs.dropWhile isInlineBlank

/-- What follows the line that a text begins in. -/
def nextLine (cs : List Char) : List Char :=
  (cs.dropWhile (· != '\n')).drop 1

/-- Passes over the word `export` and the blanks behind it. -/
def skipExport (cs : List Char) : List Char :=
  match cs with
  | 'e' :: 'x' :: 'p' :: 'o' :: 'r' :: 't' :: c :: rest =>
      if isInlineBlank c then skipInline rest else cs
  | _ =>
      cs

/-- Whether a character may stand in a name without quotes. -/
def isNameChar (c : Char) : Bool :=
  c != '=' && c != '#' && !Text.isBlank c

/-- Reads a name that is not empty. -/
def readName? (cs : List Char) : Option (String × List Char) :=
  let (name, rest) := match cs with
    | '\'' :: quoted => (quoted.takeWhile (· != '\''), quoted.dropWhile (· != '\''))
    | _ => (cs.takeWhile isNameChar, cs.dropWhile isNameChar)
  match cs, name, rest with
  | _, [], _ => none
  | '\'' :: _, name, '\'' :: rest => some (String.ofList name, rest)
  | '\'' :: _, _, _ => none
  | _, name, rest => some (String.ofList name, rest)

/--
Splits a text after its opening quote at the closing one: the first quote that
no backslash takes along.
-/
def closeQuote? (quote : Char) : List Char → Option (List Char × List Char)
  | [] => none
  | [c] => if c = quote then some ([], []) else none
  | c :: d :: rest =>
      if c = quote then
        some ([], d :: rest)
      else if c = '\\' then
        (closeQuote? quote rest).map fun (body, after) => (c :: d :: body, after)
      else
        (closeQuote? quote (d :: rest)).map fun (body, after) => (c :: body, after)

/-- The character that an escape in double quotes stands for. -/
def doubleEscape? : Char → Option Char
  | 'a' => some '\x07'
  | 'b' => some '\x08'
  | 'f' => some '\x0c'
  | 'n' => some '\n'
  | 'r' => some '\r'
  | 't' => some '\t'
  | 'v' => some '\x0b'
  | '"' => some '"'
  | '\'' => some '\''
  | '\\' => some '\\'
  | _ => none

/-- The character that an escape in single quotes stands for. -/
def singleEscape? : Char → Option Char
  | '\'' => some '\''
  | '\\' => some '\\'
  | _ => none

/-- A text with its escapes replaced; a backslash before any other character stands for itself. -/
def unescape (escape? : Char → Option Char) : List Char → List Char
  | [] => []
  | [c] => [c]
  | c :: d :: rest =>
      match if c = '\\' then escape? d else none with
      | some meant => meant :: unescape escape? rest
      | none => c :: unescape escape? (d :: rest)

/-- A text up to the first blank from which only blanks lead to a hash. -/
def dropRemark : List Char → List Char
  | [] => []
  | c :: rest =>
      if Text.isBlank c && (rest.dropWhile Text.isBlank).head? == some '#' then []
      else c :: dropRemark rest

/--
Reads the value behind an equality sign.

Blanks in front of a value are no part of it, but they make a hash behind them
the beginning of a remark.
-/
def readValue? (cs : List Char) : Option (String × List Char) :=
  match skipInline cs with
  | '\'' :: quoted =>
      (closeQuote? '\'' quoted).map fun (body, rest) =>
        (String.ofList (unescape singleEscape? body), rest)
  | '"' :: quoted =>
      (closeQuote? '"' quoted).map fun (body, rest) =>
        (String.ofList (unescape doubleEscape? body), rest)
  | _ =>
      let line := dropRemark (cs.takeWhile (· != '\n'))
      some (String.ofList (Text.trimEnd (skipInline line)), cs.dropWhile (· != '\n'))

/-- Passes over a remark and the end of the line, if nothing else is left of the line. -/
def endLine? (cs : List Char) : Option (List Char) :=
  match skipInline cs with
  | [] => some []
  | '\n' :: rest => some rest
  | '#' :: rest => some (nextLine rest)
  | _ => none

/-- Reads one binding, or gives the place where it goes wrong. -/
def readBinding (cs : List Char) : Except (List Char) (Option Assignment × List Char) :=
  let cs := skipExport cs
  if cs.head? = some '#' then
    .ok (none, nextLine cs)
  else
    match readName? cs with
    | none =>
        .error cs
    | some (name, rest) =>
        let rest := skipInline rest
        let valued : Except (List Char) (Option String × List Char) :=
          match rest with
          | '=' :: behind =>
              match readValue? behind with
              | some (value, rest) => .ok (some value, rest)
              | none => .error behind
          | _ =>
              .ok (none, rest)
        match valued with
        | .error place =>
            .error place
        | .ok (value, rest) =>
            match endLine? rest with
            | some rest => .ok (some { name := name, value := value }, rest)
            | none => .error rest

/-- The bindings of a file in order, as they are written. -/
def readAll (cs : List Char) : List Assignment :=
  let start := cs.dropWhile Text.isBlank
  let (binding, rest) := match readBinding start with
    | .ok (binding, rest) => (binding, rest)
    | .error place => (none, nextLine place)
  if _shorter : rest.length < cs.length then
    binding.toList ++ readAll rest
  else
    binding.toList
termination_by cs.length

/-- A reference to a name in a value, and what follows it. -/
structure Reference where
  name : String
  fallback : Option String
  after : List Char
  deriving Repr, DecidableEq, Inhabited

/--
Reads a reference behind its opening brace: a name, and after `:-` what to take
where the name has no value.
-/
def reference? (cs : List Char) : Option Reference :=
  let name := String.ofList (cs.takeWhile fun c => c != '\x7d' && c != ':')
  match cs.dropWhile fun c => c != '\x7d' && c != ':' with
  | ':' :: '-' :: rest =>
      match rest.dropWhile (· != '\x7d') with
      | _ :: after =>
          some
            { name := name
              fallback := some (String.ofList (rest.takeWhile (· != '\x7d')))
              after := after }
      | [] => none
  | '\x7d' :: after => some { name := name, fallback := none, after := after }
  | _ => none

theorem reference?_length
    {cs : List Char}
    {reference : Reference}
    (h : reference? cs = some reference) :
    reference.after.length ≤ cs.length := by
  have outer := (List.dropWhile_suffix (l := cs) fun c => c != '\x7d' && c != ':').length_le
  unfold reference? at h
  simp only at h
  split at h
  next rest rest_eq =>
    have inner := (List.dropWhile_suffix (l := rest) (· != '\x7d')).length_le
    split at h
    next c after after_eq =>
      simp only [Option.some.injEq] at h
      subst h
      rw [rest_eq, List.length_cons, List.length_cons] at outer
      rw [after_eq, List.length_cons] at inner
      show after.length ≤ cs.length
      omega
    next => contradiction
  next after after_eq =>
    simp only [Option.some.injEq] at h
    subst h
    rw [after_eq, List.length_cons] at outer
    show after.length ≤ cs.length
    omega
  next => contradiction

/-- A value with each reference replaced by what it refers to. -/
def substitute
    (meaning : String → Option String → String)
    (cs : List Char) :
    List Char :=
  match cs with
  | [] => []
  | c :: rest =>
      match _found :
          if c = '$' ∧ rest.head? = some '\x7b' then reference? rest.tail else none with
      | some reference =>
          (meaning reference.name reference.fallback).toList ++ substitute meaning reference.after
      | none =>
          c :: substitute meaning rest
termination_by cs.length
decreasing_by
  · split at _found
    · have := reference?_length _found
      simp only [List.length_tail] at this
      simp only [List.length_cons]
      omega
    · contradiction
  · simp

/--
What a name means in a value: its binding further up in the file, or else its
value in the environment, or else the fallback. A binding without a value means
the empty text.
-/
def meaning
    (environment : List (String × String))
    (earlier : List Assignment)
    (name : String)
    (fallback : Option String) :
    String :=
  match earlier.find? (·.name = name) with
  | some assignment => assignment.value.getD ""
  | none => (environment.lookup name).getD (fallback.getD "")

/--
Replaces the references in a list of bindings.

Of the bindings that are already done, the latest stands first.
-/
def resolve
    (environment : List (String × String))
    (earlier : List Assignment) :
    List Assignment → List Assignment
  | [] => earlier
  | { name, value } :: rest =>
      let value := value.map fun text =>
        String.ofList (substitute (meaning environment earlier) text.toList)
      resolve environment ({ name := name, value := value } :: earlier) rest

/-- A text without a byte order mark at its start. -/
def dropMark : List Char → List Char
  | '\ufeff' :: rest => rest
  | cs => cs

/-- The bindings of a file with their references replaced, latest first. -/
def ofFile
    (environment : List (String × String))
    (text : String) :
    List Assignment :=
  resolve environment [] (readAll (Text.unifyLineEnds (dropMark text.toList)))

end Assignment

end Tabletop
