import SqlTemplate.Toml.Scalar

/-!
Reading TOML documents.

Values nest fewer than `nestingLimit` deep; the same bound holds for the parts of a key. Arrays may
spread over lines and hold comments, tables in braces may not. The document is read line by line;
a header moves on to another table, a key adds to the one that the last header named.
-/

set_option autoImplicit false

namespace SqlTemplate.Toml

/-- One level of nesting more than values may have. -/
def nestingLimit : Nat := 80

/-- What follows white space, comments and line ends. A comment has to end its line. `fuel` bounds
their number. -/
def dropFiller : Nat → List Char → Option (List Char)
  | 0, _ => none
  | fuel + 1, text =>
    match dropSpace text with
    | '#' :: rest => (dropLineEnd? (dropComment ('#' :: rest))).bind (dropFiller fuel)
    | rest => some rest

/-- White space, comments and line ends in an array. -/
def skipFiller (text : List Char) : Option (List Char) :=
  dropFiller (text.length + 1) text

/-- The items of an array and its end; a comma may follow the last item. `fuel` bounds their
number. -/
def readItems (readItem : Reader Toml) : Nat → Reader (List Toml)
  | 0, _ => none
  | fuel + 1, text => do
    let rest ← skipFiller text
    match rest with
    | ']' :: rest => return ([], rest)
    | rest =>
      let (item, rest) ← readItem rest
      match ← skipFiller rest with
      | ',' :: rest =>
        let (items, rest) ← readItems readItem fuel rest
        return (item :: items, rest)
      | ']' :: rest => return ([item], rest)
      | _ => none

/-- A key and its value, and the entries they are added to. -/
def readPair (readItem : Reader Toml) (origin : Origin) (entries : Entries) : Reader Entries :=
  fun text => do
    let (path, rest) ← readKey nestingLimit text
    let (_, rest) ← readChar '=' rest
    let (value, rest) ← readItem (dropBlanks rest)
    let key ← path.getLast?
    let entries ← insert path.dropLast key value origin entries
    return (entries, rest)

/-- The pairs of a table in braces, after those in `entries`, and its end. `fuel` bounds their
number. -/
def readPairs (readItem : Reader Toml) : Nat → Entries → Reader Entries
  | 0, _, _ => none
  | fuel + 1, entries, text => do
    let (entries, rest) ← readPair readItem .header entries text
    match dropBlanks rest with
    | ',' :: rest => readPairs readItem fuel entries rest
    | '}' :: rest => return (entries, rest)
    | _ => none

/-- A value; in it, arrays and tables in braces nest up to `depth` deep. -/
def readValue : Nat → Reader Toml
  | 0, text => readLeaf text
  | depth + 1, text =>
    match text with
    | '[' :: rest =>
      (readItems (readValue depth) (rest.length + 1) rest).map fun (items, rest) =>
        (.array items, rest)
    | '{' :: rest =>
      match dropBlanks rest with
      | '}' :: rest => some (.table .braces [], rest)
      | rest =>
        (readPairs (readValue depth) (rest.length + 1) [] rest).map fun (entries, rest) =>
          (.table .braces entries, rest)
    | text => readLeaf text
where
  /-- A value that holds no other values. -/
  readLeaf : Reader Toml := fun text =>
    match text with
    | '\"' :: _ | '\'' :: _ =>
      (readString text).map fun (content, rest) => (.string content, rest)
    | text => readScalar text

/-- A document being read: its entries, and the path of the table that keys go to. -/
structure Document where
  entries : Entries
  current : List String

namespace Document

/-- Nothing has been read. -/
def empty : Document := ⟨[], []⟩

/-- Add to the current table. -/
def add (document : Document) (change : Origin → Entries → Option Entries) : Option Document :=
  (changeAt .implied change document.current .header document.entries).map fun entries =>
    { document with entries }

/-- Move on to the table of a header. -/
def header (document : Document) (path : List String)
    (begin : String → Origin → Entries → Option Entries) : Option Document := do
  let key ← path.getLast?
  let entries ← changeAt .implied (begin key) path.dropLast .header document.entries
  return ⟨entries, path⟩

end Document

/-- A header in single brackets, after the first of them. -/
def readTableHeader (document : Document) (text : List Char) : Option (Document × List Char) := do
  let (path, rest) ← readKey nestingLimit text
  let (_, rest) ← readChar ']' rest
  let rest ← dropLine? rest
  let document ← document.header path beginTable
  return (document, rest)

/-- A header in double brackets, after the first two of them. -/
def readTablesHeader (document : Document) (text : List Char) : Option (Document × List Char) := do
  let (path, rest) ← readKey nestingLimit text
  let (_, rest) ← readChar ']' rest
  let (_, rest) ← readChar ']' rest
  let rest ← dropLine? rest
  let document ← document.header path beginNextTable
  return (document, rest)

/-- A line with a key and its value. -/
def readKeyLine (document : Document) (text : List Char) : Option (Document × List Char) := do
  let (path, rest) ← readKey nestingLimit text
  let (_, rest) ← readChar '=' rest
  let (value, rest) ← readValue (nestingLimit - 1) (dropBlanks rest)
  let rest ← dropLine? rest
  let key ← path.getLast?
  let document ← document.add (insert path.dropLast key value)
  return (document, rest)

/-- The lines of a document. `fuel` bounds their number. -/
def readLines : Nat → Document → List Char → Option Document
  | 0, _, _ => none
  | fuel + 1, document, text =>
    match dropBlanks text with
    | [] => some document
    | '#' :: rest => (dropLine? ('#' :: rest)).bind (readLines fuel document)
    | '\n' :: rest => readLines fuel document rest
    | '\r' :: rest => (dropLineEnd? ('\r' :: rest)).bind (readLines fuel document)
    | '[' :: '[' :: rest =>
      (readTablesHeader document rest).bind fun (document, rest) => readLines fuel document rest
    | '[' :: rest =>
      (readTableHeader document rest).bind fun (document, rest) => readLines fuel document rest
    | rest =>
      (readKeyLine document rest).bind fun (document, rest) => readLines fuel document rest

/-- The entries of a document; a byte order mark may stand before it. -/
def parse? (text : String) : Option Entries :=
  let text := if text.toList.head? = some (Char.ofNat 0xFEFF) then text.toList.tail else text.toList
  (readLines (text.length + 1) .empty text).map Document.entries

end SqlTemplate.Toml
