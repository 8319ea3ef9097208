import WagerLedger.Config.Environment
import WagerLedger.Text.Alphanumeric

/-! # Files of variables

A file of lines `KEY=VALUE` adds variables to an environment. A line goes on past its end
while a quote is open. Single quotes keep their content as it is; double quotes and bare text
know escapes and substitutions. A variable that is already set keeps its value, and the first
malformed line ends the reading. A value that no environment can hold breaks it off. -/
namespace WagerLedger.Dotenv

/-- Where in a logical line the end of a physical line falls. -/
inductive LineState
  | complete
  | escape
  | strong
  | strongEscape
  | weak
  | weakEscape
  | blank
deriving DecidableEq

namespace LineState

/-- What a character outside all quotes leads to. -/
def outside (c : Char) : LineState :=
  if c = '\\' then .escape else if c = '"' then .weak else if c = '\'' then .strong else .complete

def next (s : LineState) (c : Char) : LineState :=
  match s with
  | .complete => if isBlank c && c != '\n' && c != '\r' then .blank else outside c
  | .blank => outside c
  | .escape => .complete
  | .weak => if c = '\\' then .weakEscape else if c = '"' then .complete else .weak
  | .weakEscape => .weak
  | .strong => if c = '\\' then .strongEscape else if c = '\'' then .complete else .strong
  | .strongEscape => .strong

end LineState

/-- The state at the end of a physical line, or the part of it in front of a comment. A
comment starts right behind a single blank. -/
def endState : LineState → List Char → List Char → LineState ⊕ List Char
  | s, _, [] => .inl s
  | s, before, c :: cs =>
    if s = .blank ∧ c = '#' then .inr before.reverse else endState (s.next c) (c :: before) cs

/-- The physical lines of a text, each with the line feed that ends it. -/
def physicalLines (current : List Char) : List Char → List (List Char)
  | [] => if current.isEmpty then [] else [current.reverse]
  | '\n' :: cs => ('\n' :: current).reverse :: physicalLines [] cs
  | c :: cs => physicalLines (c :: current) cs

def dropLineEnd (line : List Char) : List Char :=
  match line.reverse with
  | '\n' :: '\r' :: r => r.reverse
  | '\n' :: r => r.reverse
  | _ => line

/-- The logical lines of a text; one that is never closed is none. -/
def logicalLines (buffer : List Char) (s : LineState) :
    List (List Char) → List (Option (List Char))
  | [] => if s = .complete then [] else [none]
  | line :: lines =>
    if (trimLeft (buffer ++ line)).head? = some '#' then
      some [] :: logicalLines [] .complete lines
    else match endState s [] line with
      | .inr front => some (buffer ++ front) :: logicalLines [] .complete lines
      | .inl .complete => some (dropLineEnd (buffer ++ line)) :: logicalLines [] .complete lines
      | .inl s => logicalLines (buffer ++ line) s lines

inductive Mode
  | bare
  | strong
  | weak
  | finished
deriving DecidableEq

/-- The state of a value: its mode, whether a backslash is open, the name of an open
substitution and whether that is between braces, and the output so far, last first. -/
structure Reading where
  mode : Mode
  escaped : Bool
  name : Option (Bool × List Char)
  output : List Char

namespace Reading

def push (r : Reading) (c : Char) : Reading := { r with output := c :: r.output }

def substitute (values : String → String) (r : Reading) (name : List Char) : Reading :=
  { r with
    name := none
    output := (values (String.ofList name.reverse)).toList.reverse ++ r.output }

def unescape (r : Reading) (c : Char) : Option Reading :=
  if c = '\\' ∨ c = '\'' ∨ c = '"' ∨ c = '$' ∨ c = ' ' then
    some (push { r with escaped := false } c)
  else if c = 'n' then some (push { r with escaped := false } '\n')
  else none

/-- A character while a substitution is open; its name is a run of letters and digits, or
anything between braces. -/
def inName (values : String → String) (r : Reading) (braced : Bool) (name : List Char) (c : Char) :
    Reading :=
  if isAlphanumeric c then { r with name := some (braced, c :: name) }
  else if braced then
    if c = '\x7d' then r.substitute values name else { r with name := some (true, c :: name) }
  else if c = '\x7b' ∧ name.isEmpty then { r with name := some (true, []) }
  else
    let r := r.substitute values name
    if c = '$' then { r with name := some (false, []) } else r.push c

def inWeak (r : Reading) (c : Char) : Reading :=
  if c = '"' then { r with mode := .bare }
  else if c = '\\' then { r with escaped := true }
  else r.push c

def inBare (r : Reading) (c : Char) : Reading :=
  if c = '\'' then { r with mode := .strong }
  else if c = '"' then { r with mode := .weak }
  else if c = '\\' then { r with escaped := true }
  else if c = ' ' ∨ c = '\t' then { r with mode := .finished }
  else r.push c

def next (values : String → String) (r : Reading) (c : Char) : Option Reading :=
  if r.escaped then r.unescape c
  else if r.mode = .strong then
    some (if c = '\'' then { r with mode := .bare } else r.push c)
  else match r.name with
    | some (braced, name) => some (r.inName values braced name c)
    | none =>
      if c = '$' then some { r with name := some (false, []) }
      else if r.mode = .weak then some (r.inWeak c)
      else some (r.inBare c)

/-- The value at the end of a line, unless a quote or a brace is open. -/
def finish (values : String → String) (r : Reading) : Option String :=
  match r.mode, r.name with
  | .strong, _ | .weak, _ | _, some (true, _) => none
  | _, some (false, name) => some (String.ofList (r.substitute values name).output.reverse)
  | _, none => some (String.ofList r.output.reverse)

end Reading

/-- Reads a value to the end of its line. Behind the blank that ends a bare value only a
comment may follow. -/
def readValue (values : String → String) : Reading → List Char → Option String
  | r, [] => r.finish values
  | r, c :: cs =>
    if r.mode = .finished then
      if c = ' ' ∨ c = '\t' then readValue values r cs
      else if c = '#' then r.finish values
      else none
    else match r.next values c with
      | some r => readValue values r cs
      | none => none

def isKeyStart (c : Char) : Bool := c.isAlpha || c == '_'

def isKeyChar (c : Char) : Bool := c.isAlphanum || c == '_' || c == '.'

/-- A key, the blanks after it dropped from the rest. -/
def readKey (cs : List Char) : Option (String × List Char) :=
  if cs.head?.any isKeyStart then
    some (String.ofList (cs.takeWhile isKeyChar), trimLeft (cs.dropWhile isKeyChar))
  else none

/-- A key and what follows its equals sign. The word `export` in front of a key is dropped. -/
def readAssignment (cs : List Char) : Option (String × List Char) := do
  match ← readKey cs with
  | (key, '=' :: rest) => return (key, trimLeft rest)
  | ("export", rest) =>
    match ← readKey rest with
    | (key, '=' :: rest) => return (key, trimLeft rest)
    | _ => none
  | _ => none

/-- A logical line sets a variable, sets none, or is malformed. -/
inductive Line
  | empty
  | assignment (key value : String)
  | malformed

def readLine (values : String → String) (line : List Char) : Line :=
  let cs := trimLeft (trimRight line)
  if cs.isEmpty || cs.head? == some '#' then .empty
  else match readAssignment cs with
    | none => .malformed
    | some (key, rest) =>
      if rest.isEmpty || rest.head? == some '#' then .assignment key ""
      else match readValue values ⟨.bare, false, none, []⟩ rest with
        | some value => .assignment key value
        | none => .malformed

/-- A variable counts as the environment has it, then as the file last gave it. -/
def valueOf (env : Environment) (file : Table String String) (name : String) : String :=
  ((env.text? name).or (file.get? name)).getD ""

/-- Sets a variable, unless it is set already. -/
def assign (env : Environment) (key value : String) : Option Environment :=
  if (env.text? key).isSome then some env else env.set? key value.toUTF8

/-- Sets the variables of the lines up to the first malformed one. -/
def loadLines (env : Environment) (file : Table String String) :
    List (Option (List Char)) → Option Environment
  | [] => some env
  | none :: _ => some env
  | some line :: lines =>
    match readLine (valueOf env file) line with
    | .empty => loadLines env file lines
    | .malformed => some env
    | .assignment key value =>
      match assign env key value with
      | some env => loadLines env (file.put key value) lines
      | none => none

/-- A mark of the byte order in front of the text is skipped. -/
def load (env : Environment) (text : String) : Option Environment :=
  let cs := match text.toList with
    | '\ufeff' :: cs => cs
    | cs => cs
  loadLines env .empty (logicalLines [] .complete (physicalLines [] cs))

end WagerLedger.Dotenv
