import PaperTrading.Failure
import PaperTrading.Table
import PaperTrading.Text.Blank

/-!
# Files of variables

A settings file binds variables line by line, as in a shell: a name, an equals sign and a value, which
may stand in quotes.  Blank lines and comments are skipped, and so is the rest of a line that cannot be
read.  A value may refer to variables that are known already.

* `EnvFile.bindings`: the bindings of a file, in order.
* `EnvFile.expand`: a value with the variables in it replaced.
* `EnvFile.mentioned`: the names that a file mentions.
* `EnvFile.settings`: the variables that a file sets in an environment.
* `EnvFile.extend`: the environment with those variables, if it can hold them.
-/

namespace PaperTrading.EnvFile

open PaperTrading.Text

/-- A name with its value; a name may stand without one. -/
structure Binding where
  name : String
  value : Option String
  deriving DecidableEq, Repr

/-- A reader of the text ahead: what it read and what is left, or the place where it got stuck. -/
abbrev Reader (β : Type) := List Char → Except (List Char) (β × List Char)

/-! ### Quoted values -/

/-- **What stands before the closing quote,** and what follows it.  A backslash takes the character
behind it along, so that a quote there does not close. -/
def quoted? (q : Char) : List Char → Option (List Char × List Char)
  | [] | ['\\'] => none
  | '\\' :: c :: cs => (quoted? q cs).map fun (inside, rest) => ('\\' :: c :: inside, rest)
  | c :: cs =>
    if c = q then some ([], cs) else (quoted? q cs).map fun (inside, rest) => (c :: inside, rest)

/-- The characters with every known escape replaced. -/
def unescape (escaped? : Char → Option Char) : List Char → List Char
  | [] => []
  | '\\' :: c :: cs => match escaped? c with
    | some d => d :: unescape escaped? cs
    | none => '\\' :: unescape escaped? (c :: cs)
  | c :: cs => c :: unescape escaped? cs

/-- The escapes between single quotes. -/
def singleEscape? : Char → Option Char
  | '\\' => some '\\'
  | '\'' => some '\''
  | _ => none

/-- The escapes between double quotes. -/
def doubleEscape? : Char → Option Char
  | '\\' => some '\\'
  | '\'' => some '\''
  | '"' => some '"'
  | 'a' => some '\x07'
  | 'b' => some '\x08'
  | 'f' => some '\x0c'
  | 'n' => some '\n'
  | 'r' => some '\r'
  | 't' => some '\t'
  | 'v' => some '\x0b'
  | _ => none

/-- A value between quotes. -/
def quotedValue (q : Char) (escaped? : Char → Option Char) : Reader String := fun cs =>
  match quoted? q (cs.drop 1) with
  | some (inside, rest) => .ok (String.ofList (unescape escaped? inside), rest)
  | none => .error cs

/-! ### Lines -/

/-- A blank that does not end the line. -/
def isInline (c : Char) : Bool := isBlank c && c != '\n'

def skipInline (cs : List Char) : List Char := cs.dropWhile isInline

/-- The value without a comment, which starts with a number sign behind a blank. -/
def withoutComment : List Char → List Char
  | [] => []
  | c :: cs =>
    if isBlank c && (cs.dropWhile isBlank).head? == some '#' then [] else c :: withoutComment cs

/-- A value without quotes: the rest of the line, without a comment and without blanks at its end. -/
def plainValue : Reader String := fun cs =>
  let line := cs.takeWhile (· != '\n')
  .ok (String.ofList ((withoutComment line).reverse.dropWhile isBlank).reverse,
    cs.dropWhile (· != '\n'))

/-- The value after an equals sign. -/
def value : Reader String := fun cs =>
  match cs.head? with
  | some '\'' => quotedValue '\'' singleEscape? cs
  | some '"' => quotedValue '"' doubleEscape? cs
  | _ => plainValue cs

/-- A word before a blank that marks a name as shared with other programs; it is skipped. -/
def skipExport (cs : List Char) : List Char :=
  match cs with
  | 'e' :: 'x' :: 'p' :: 'o' :: 'r' :: 't' :: rest =>
    if (rest.head?.any isInline) then skipInline rest else cs
  | _ => cs

/-- A name, in single quotes or up to an equals sign, a number sign or a blank. -/
def name : Reader String := fun cs =>
  match cs with
  | '\'' :: rest =>
    match rest.takeWhile (· != '\''), rest.dropWhile (· != '\'') with
    | c :: inside, _ :: rest => .ok (String.ofList (c :: inside), rest)
    | _, _ => .error cs
  | _ =>
    let isPart (c : Char) : Bool := c != '=' && c != '#' && !isBlank c
    match cs.takeWhile isPart with
    | [] => .error cs
    | word => .ok (String.ofList word, cs.dropWhile isPart)

/-- An equals sign with its value, if there is one.  A number sign behind a blank starts a comment, and
the value before it is empty. -/
def assignment : Reader (Option String) := fun cs =>
  match cs with
  | '=' :: rest =>
    let ahead := skipInline rest
    if rest.head?.any isInline && ahead.head? == some '#' then
      .ok (some "", ahead.dropWhile (· != '\n'))
    else (value ahead).map fun (v, rest) => (some v, rest)
  | _ => .ok (none, cs)

/-- The end of a line, perhaps behind a comment. -/
def lineEnd : Reader Unit := fun cs =>
  let cs := if (skipInline cs).head? == some '#' then (skipInline cs).dropWhile (· != '\n') else cs
  match skipInline cs with
  | [] => .ok ((), [])
  | '\n' :: rest => .ok ((), rest)
  | _ => .error cs

/-- A comment, or a name with its value. -/
def entry : Reader (Option Binding) := fun cs => do
  let cs := skipExport cs
  if cs.head? == some '#' then
    let ((), rest) ← lineEnd cs
    return (none, rest)
  else
    let (n, rest) ← name cs
    let (v, rest) ← assignment (skipInline rest)
    let ((), rest) ← lineEnd rest
    return (some ⟨n, v⟩, rest)

/-- The entries of a text, in at most `fuel` steps.  An entry that cannot be read costs the rest of the
line on which reading got stuck. -/
def entries : Nat → List Char → List Binding
  | 0, _ => []
  | fuel + 1, cs =>
    match cs.dropWhile isBlank with
    | [] => []
    | cs => match entry cs with
      | .ok (b, rest) => b.toList ++ entries fuel rest
      | .error stuck => entries fuel (stuck.dropWhile (· != '\n'))

/-- The text with every line ended by a line feed. -/
def unifyLines : List Char → List Char
  | '\r' :: '\n' :: cs => '\n' :: unifyLines cs
  | '\r' :: cs => '\n' :: unifyLines cs
  | c :: cs => c :: unifyLines cs
  | [] => []

/-- **The bindings of a file.**  Every entry takes at least one character. -/
def bindings (text : String) : List Binding :=
  let cs := unifyLines (withoutMark text.toList)
  entries (cs.length + 1) cs

/-! ### References -/

/-- A reference at the front: its name, its default, and what follows it. -/
def reference? : List Char → Option (String × String × List Char)
  | '$' :: '\x7b' :: cs =>
    let n := cs.takeWhile fun c => c != '\x7d' && c != ':'
    match cs.dropWhile fun c => c != '\x7d' && c != ':' with
    | '\x7d' :: rest => some (String.ofList n, "", rest)
    | ':' :: '-' :: rest => match rest.dropWhile (· != '\x7d') with
      | _ :: after => some (String.ofList n, String.ofList (rest.takeWhile (· != '\x7d')), after)
      | [] => none
    | _ => none
  | _ => none

/-- A value with its references replaced, in at most `fuel` steps. -/
def expandChars (look : String → Option String) : Nat → List Char → List Char
  | 0, cs => cs
  | fuel + 1, cs => match reference? cs with
    | some (n, default, rest) => ((look n).getD default).toList ++ expandChars look fuel rest
    | none => match cs with
      | c :: cs => c :: expandChars look fuel cs
      | [] => []

/-- **A value with its references replaced.** -/
def expand (look : String → Option String) (value : String) : String :=
  String.ofList (expandChars look value.toList.length value.toList)

/-- The names of the references in a value. -/
def references (value : String) : List String :=
  (List.range value.length).filterMap fun k => (reference? (value.toList.drop k)).map (·.1)

/-- **The names that a file mentions:** those that it binds and those that its values refer to. -/
def mentioned (text : String) : List String :=
  (bindings text).flatMap fun b => b.name :: (b.value.elim [] references)

/-- The variables known so far, with one more binding. -/
def bind (environment : Table String) (known : Table (Option String)) (b : Binding) :
    Table (Option String) :=
  let look (n : String) : Option String :=
    match environment.find? n with
    | some v => some v
    | none => (known.find? n).map (·.getD "")
  known.insert b.name (b.value.map (expand look))

/-- **The variables that a file sets.**  Those of the environment keep their values. -/
def settings (environment : Table String) (text : String) : List (String × String) :=
  let known := (bindings text).foldl (bind environment) .empty
  known.entries.filterMap fun (n, v) =>
    if environment.contains n then none else v.map fun v => (n, v)

/-- Refuses a variable that no environment can hold. -/
def check (v : String × String) : Except Failure Unit :=
  if v.1.contains '\x00' || v.2.contains '\x00' then .error .nullCharacter
  else if v.1.contains '=' then .error .illegalVariableName
  else .ok ()

/-- **An environment with the variables of a file.** -/
def extend (environment : Table String) (text : String) : Except Failure (Table String) := do
  let new := settings environment text
  new.forM check
  return ⟨environment.entries ++ new⟩

example : settings ⟨[("A", "1")]⟩ "A=2\nB = '$\x7bA\x7d' # x\nexport C=\"a\\tb\" \n=\nD=$\x7bX:-y\x7d" =
    [("B", "1"), ("C", "a\tb"), ("D", "y")] := by decide +kernel

end PaperTrading.EnvFile
