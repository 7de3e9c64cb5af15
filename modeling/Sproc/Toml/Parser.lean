import Sproc.Toml.Scalar

/-!
# Reading TOML text

A document is a sequence of lines: headers of tables, entries of the table that the last header
named, comments and blank lines. A line end may be written as a line feed or as a carriage return
with a line feed.

## Main definitions

* `Toml.parse?`: the table of a document
-/

namespace Sproc.Toml

/-- The characters behind leading blanks of a line. -/
def skipBlank (cs : List Char) : List Char :=
  cs.dropWhile isBlank

/-- The characters from the next line end on, where a comment holds no control characters. -/
def skipComment? (cs : List Char) : Option (List Char) :=
  match cs.dropWhile isPlain with
  | [] => some []
  | c :: rest => if c == '\n' then some (c :: rest) else none

/-- The next line, where nothing but a comment may be left of this one. -/
def nextLine? (cs : List Char) : Option (List Char) :=
  let behind? (rest : List Char) : Option (List Char) :=
    match rest with
    | [] => some []
    | '\n' :: rest => some rest
    | _ => none
  match skipBlank cs with
  | '#' :: rest => (skipComment? rest).bind behind?
  | rest => behind? rest

/-- The characters behind blanks, line ends and comments. -/
def skipFiller (inComment : Bool) : List Char → Option (List Char)
  | [] => some []
  | c :: rest =>
    if c == '\n' then skipFiller false rest
    else if inComment then
      if isPlain c then skipFiller true rest else none
    else if isBlank c then skipFiller false rest
    else if c == '#' then skipFiller true rest
    else some (c :: rest)

/-- The characters of keys that need no quotation marks. -/
def isKeyChar (c : Char) : Bool :=
  c.isAlphanum || c == '-' || c == '_'

/-- Reads one part of a key. -/
def keyPart? (cs : List Char) : Option (String × List Char) :=
  match quoted? cs with
  | some result => some result
  | none =>
    let bare := cs.takeWhile isKeyChar
    if bare.isEmpty then none else some (String.ofList bare, cs.dropWhile isKeyChar)

/-- How many arrays and inline tables may stand around a value, and how many parts a dotted key may
have. -/
def nestingLimit : Nat := 79

/-- Reads a dotted key of any length. -/
def keyParts? (fuel : Nat) (cs : List Char) : Option (List String × String × List Char) :=
  match fuel with
  | 0 => none
  | fuel + 1 =>
    match keyPart? (skipBlank cs) with
    | none => none
    | some (part, rest) =>
      match skipBlank rest with
      | '.' :: rest => (keyParts? fuel rest).map fun (path, key, rest) => (part :: path, key, rest)
      | rest => some ([], part, rest)

/-- Reads a dotted key with the blanks around it. Returns the tables it leads through, the last
part, and the rest. -/
def key? (fuel : Nat) (cs : List Char) : Option (List String × String × List Char) :=
  (keyParts? fuel cs).filter fun (path, _, _) => path.length < nestingLimit

mutual

/-- Reads a value, in which arrays and inline tables may nest `room` deep. -/
def value? (fuel room : Nat) (cs : List Char) : Option (Toml × List Char) :=
  match fuel with
  | 0 => none
  | fuel + 1 =>
    match cs, room with
    | '[' :: _, 0 => none
    | '\x7b' :: _, 0 => none
    | '[' :: rest, room + 1 => items? fuel room [] rest
    | '\x7b' :: rest, room + 1 =>
      match skipBlank rest with
      | '\x7d' :: rest => some (.inline [], rest)
      | rest => entries? fuel room [] rest
    | cs, _ =>
      if (cs.head?.bind openingMark?).isSome then
        (stringValue? cs).map fun (s, rest) => (.str s, rest)
      else
        let (word, rest) := splitWord cs
        (word? word).map fun value => (value, rest)

/-- Reads the items of an array up to its closing bracket; those read so far come in reverse. A
comma may stand behind the last item. -/
def items? (fuel room : Nat) (read : List Toml) (cs : List Char) : Option (Toml × List Char) :=
  match fuel with
  | 0 => none
  | fuel + 1 =>
    match skipFiller false cs with
    | none => none
    | some (']' :: rest) => some (.arr read.reverse, rest)
    | some rest =>
      match value? fuel room rest with
      | none => none
      | some (item, rest) =>
        match skipFiller false rest with
        | some (',' :: rest) => items? fuel room (item :: read) rest
        | some (']' :: rest) => some (.arr (item :: read).reverse, rest)
        | _ => none

/-- Reads the entries of an inline table, of which there is at least one more, up to its closing
brace. -/
def entries? (fuel room : Nat) (read : Table) (cs : List Char) : Option (Toml × List Char) :=
  match fuel with
  | 0 => none
  | fuel + 1 =>
    match entry? fuel room read cs with
    | none => none
    | some (read, rest) =>
      match skipBlank rest with
      | ',' :: rest => entries? fuel room read rest
      | '\x7d' :: rest => some (.inline read, rest)
      | _ => none

/-- Reads an entry and adds it to a table. -/
def entry? (fuel room : Nat) (table : Table) (cs : List Char) : Option (Table × List Char) :=
  match fuel with
  | 0 => none
  | fuel + 1 =>
    match key? fuel cs with
    | some (path, key, '=' :: rest) =>
      match value? fuel room (skipBlank rest) with
      | none => none
      | some (value, rest) => (assign? true key value path table).map fun table => (table, rest)
    | _ => none

end

/-- A document that is being read: its table, and the path of the table that entries go to. -/
structure Document where
  root : Table := []
  path : List String := []

/-- Adds an entry to the table that entries go to, and returns the rest of the text. -/
def Document.entry? (document : Document) (fuel : Nat) (cs : List Char) :
    Option (Document × List Char) := do
  let (path, key, rest) ← key? fuel cs
  match rest with
  | '=' :: rest =>
    let (value, rest) ← value? fuel nestingLimit (skipBlank rest)
    let root ← descend? (assign? true key value path) document.path document.root
    return ({ document with root }, rest)
  | _ => none

/-- Reads a header behind its opening brackets, and returns the rest of the text. -/
def Document.header? (document : Document) (fuel : Nat) (double : Bool) (cs : List Char) :
    Option (Document × List Char) := do
  let (path, key, rest) ← key? fuel cs
  let change := if double then openElement? key else openTable? key
  let root ← descend? change path document.root
  let document := ⟨root, path ++ [key]⟩
  match double, rest with
  | false, ']' :: rest => return (document, rest)
  | true, ']' :: ']' :: rest => return (document, rest)
  | _, _ => none

/-- Reads a line that is neither blank nor a comment. -/
def Document.line? (document : Document) (fuel : Nat) (cs : List Char) :
    Option (Document × List Char) :=
  match cs with
  | '[' :: '[' :: rest => document.header? fuel true rest
  | '[' :: rest => document.header? fuel false rest
  | cs => document.entry? fuel cs

/-- Reads the lines of a text, one in each step. -/
def lines? (fuel : Nat) : Nat → Document → List Char → Option Table
  | 0, _, _ => none
  | steps + 1, document, cs =>
    match skipBlank cs with
    | [] => some document.root
    | '\n' :: rest => lines? fuel steps document rest
    | '#' :: rest => do
      lines? fuel steps document (← nextLine? ('#' :: rest))
    | rest => do
      let (document, rest) ← document.line? fuel rest
      lines? fuel steps document (← nextLine? rest)

/-- Writes every line end as a line feed. -/
def normalizeLines : List Char → List Char
  | '\r' :: '\n' :: rest => '\n' :: normalizeLines rest
  | c :: rest => c :: normalizeLines rest
  | [] => []

/-- The table of a document, which may start with a byte order mark. -/
def parse? (text : String) : Option Table :=
  let cs := normalizeLines text.toList
  let cs :=
    match cs with
    | c :: rest => if c.toNat = 0xFEFF then rest else cs
    | [] => []
  lines? (2 * cs.length + 2) (cs.length + 1) {} cs

end Sproc.Toml
