import EmbeddedVm.Bytes.LittleEndian
import EmbeddedVm.Toml.Assembly
import EmbeddedVm.Toml.Scalar

/-!
# Reading a settings document

`Toml.parse?` reads a document from the front, statement by statement. A reader takes a value off
the characters that are left; whatever is not admitted makes the whole document unreadable, and
nothing is told about where.
-/

namespace EmbeddedVm.Toml

/-- Takes a value off the front of the characters that are left. -/
abbrev Reader := StateT (List Char) Option

namespace Reader

/-! ## 1. Characters -/

/-- The next character, left where it is. -/
def peek : Reader (Option Char) := return (← get).head?

/-- The next character. -/
def next : Reader Char := do
  match ← get with
  | c :: rest =>
    set rest
    pure c
  | [] => failure

/-- A given text, if it is next. -/
def accept (text : String) : Reader Bool := do
  let cs ← get
  if text.toList.isPrefixOf cs then
    set (cs.drop text.length)
    pure true
  else pure false

/-- A given text. -/
def expect (text : String) : Reader Unit := do
  if !(← accept text) then failure

/-- The characters up to the first that does not satisfy `p`. -/
def takeWhile (p : Char → Bool) : Reader (List Char) := do
  let cs ← get
  set (cs.dropWhile p)
  pure (cs.takeWhile p)

/-- Spaces and tabs. -/
def spaces : Reader Unit := discard (takeWhile fun c => c == ' ' || c == '\t')

/-- A character that stands for itself in texts and comments. -/
def isPlain (c : Char) : Bool := c == '\t' || (0x20 ≤ c.toNat && c.toNat != 0x7F)

/-- The end of a line, if it is next. -/
def newline : Reader Bool := do
  if ← accept "\n" then pure true else accept "\r\n"

/-- A comment, if one is next, up to the end of its line. -/
def comment : Reader Unit := do
  if ← accept "#" then discard (takeWhile isPlain)

/-- Blank space over several lines, with comments; the fuel bounds the number of lines. -/
def blanks : (fuel : Nat) → Reader Unit
  | 0 => pure ()
  | fuel + 1 => do
    spaces
    comment
    if ← newline then blanks fuel

/-! ## 2. Quoted texts -/

/-- The character with the code point written in the next `width` digits. -/
def codePoint (width : Nat) : Reader Char := do
  let cs ← get
  let ds ← (cs.take width).mapM fun c => (Word.digit? c : Option Nat)
  if ds.length ≠ width then failure
  set (cs.drop width)
  let n := Word.number 16 ds
  if n.isValidChar then pure (Char.ofNat n) else failure

/-- The character an escape stands for, behind its backslash. -/
def escape : Reader Char := do
  match ← next with
  | 'b' => pure '\x08'
  | 't' => pure '\t'
  | 'n' => pure '\n'
  | 'f' => pure '\x0c'
  | 'r' => pure '\r'
  | '"' => pure '"'
  | '\\' => pure '\\'
  | 'u' => codePoint 4
  | 'U' => codePoint 8
  | _ => failure

/-- The rest of a text in double quotes on one line, given what is read, the last first. -/
def basicText : (fuel : Nat) → List Char → Reader String
  | 0, _ => failure
  | fuel + 1, read => do
    match ← next with
    | '"' => pure (String.ofList read.reverse)
    | '\\' => basicText fuel ((← escape) :: read)
    | c => if isPlain c then basicText fuel (c :: read) else failure

/-- The rest of a text in single quotes on one line. -/
def literalText : Reader String := do
  let cs ← takeWhile fun c => c != '\'' && isPlain c
  expect "\'"
  pure (String.ofList cs)

/-- Up to two further quotes directly behind the end of a text over several lines belong to it. -/
def closingQuotes (quote : String) : Reader (List Char) := do
  if ← accept quote then
    if ← accept quote then pure (quote.toList ++ quote.toList) else pure quote.toList
  else pure []

/-- The line break behind a backslash at the end of a line, and the blank space that follows. -/
def continuation (fuel : Nat) : Reader Unit := do
  spaces
  if !(← newline) then failure
  let rec skip : Nat → Reader Unit
    | 0 => pure ()
    | n + 1 => do
      spaces
      if ← newline then skip n
  skip fuel

/-- The rest of a text in three quotes over several lines, given what is read, the last first. A
    line ends with a line feed, however it was written. -/
def multilineText (isLiteral : Bool) : (fuel : Nat) → List Char → Reader String
  | 0, _ => failure
  | fuel + 1, read => do
    let quote := if isLiteral then "\'" else "\""
    if ← accept (quote ++ quote ++ quote) then
      pure (String.ofList (read.reverse ++ (← closingQuotes quote)))
    else if ← newline then multilineText isLiteral fuel ('\n' :: read)
    else
      match ← next with
      | '\\' =>
        if isLiteral then multilineText isLiteral fuel ('\\' :: read)
        else
          match ← peek with
          | some c =>
            if c == ' ' || c == '\t' || c == '\n' || c == '\r' then
              continuation fuel
              multilineText isLiteral fuel read
            else multilineText isLiteral fuel ((← escape) :: read)
          | none => failure
      | c => if isPlain c then multilineText isLiteral fuel (c :: read) else failure

/-- A quoted text, if one is next. Only a value may go over several lines. -/
def quoted (multiline : Bool) : Reader (Option String) := do
  let fuel := (← get).length + 1
  if multiline && (← accept "\"\"\"") then
    discard newline
    some <$> multilineText false fuel []
  else if multiline && (← accept "\'\'\'") then
    discard newline
    some <$> multilineText true fuel []
  else if ← accept "\"" then some <$> basicText fuel []
  else if ← accept "\'" then some <$> literalText
  else pure none

/-! ## 3. Names -/

/-- A character of a name without quotes. -/
def isBare (c : Char) : Bool := c.isAlphanum || c == '_' || c == '-'

def namePart : Reader String := do
  match ← quoted false with
  | some s => pure s
  | none =>
    let cs ← takeWhile isBare
    if cs.isEmpty then failure else pure (String.ofList cs)

/-- The parts of a name, between dots; the fuel bounds their number. -/
def nameParts : (fuel : Nat) → Reader (List String)
  | 0 => failure
  | fuel + 1 => do
    spaces
    let part ← namePart
    spaces
    if ← accept "." then return part :: (← nameParts fuel) else pure [part]

/-- How far arrays and inline tables may stand in each other, and how many parts a name may have. -/
def depthLimit : Nat := 79

def name (fuel : Nat) : Reader (List String) := do
  let parts ← nameParts fuel
  if parts.length ≤ depthLimit then pure parts else failure

/-! ## 4. Values -/

/-- A character that ends a word. -/
def endsWord (c : Char) : Bool :=
  c == ' ' || c == '\t' || c == '\n' || c == '\r' || c == ',' || c == ']' || c == '\x7d' || c == '#'

/-- A value of one word. A date may have its time behind a blank. -/
def word : Reader Value := do
  let cs ← takeWhile fun c => !endsWord c
  let cs ← match Word.date? cs, ← get with
    | some [], ' ' :: c :: _ =>
      if c.isDigit then
        discard next
        pure (cs ++ ' ' :: (← takeWhile fun c => !endsWord c))
      else pure cs
    | _, _ => pure cs
  Word.value? cs

mutual

/-- A value; the fuel bounds its size, and `room` is how far it may nest. -/
def value : (fuel room : Nat) → Reader Value
  | 0, _ => failure
  | fuel + 1, room => do
    match ← quoted true with
    | some s => pure (.string s)
    | none =>
      if ← accept "[" then
        if room = 0 then failure else return .array (← elements fuel (room - 1))
      else if ← accept "\x7b" then
        spaces
        if room = 0 then failure
        else if ← accept "\x7d" then pure (.table [])
        else return .table (← inlineTable? (← assignments fuel (room - 1)))
      else word

/-- The rest of an array. Line breaks, comments and a comma behind the last element are admitted. -/
def elements : (fuel room : Nat) → Reader (List Value)
  | 0, _ => failure
  | fuel + 1, room => do
    blanks (← get).length
    if ← accept "]" then pure []
    else
      let v ← value fuel room
      blanks (← get).length
      if ← accept "," then return v :: (← elements fuel room)
      else
        expect "]"
        pure [v]

/-- The rest of an inline table, behind its brace and blank space. It is written on one line and
    has no comma behind the last assignment. -/
def assignments : (fuel room : Nat) → Reader (List (List String × Value))
  | 0, _ => failure
  | fuel + 1, room => do
    let path ← name fuel
    expect "="
    spaces
    let v ← value fuel room
    spaces
    if ← accept "," then return (path, v) :: (← assignments fuel room)
    else
      expect "\x7d"
      pure [(path, v)]

end

/-! ## 5. Statements -/

/-- A header or an assignment. -/
def statement : Reader Statement := do
  let fuel := (← get).length + 1
  if ← accept "[[" then
    let path ← name fuel
    expect "]]"
    pure (.element path)
  else if ← accept "[" then
    let path ← name fuel
    expect "]"
    pure (.header path)
  else
    let path ← name fuel
    expect "="
    spaces
    return .assignment path (← value fuel depthLimit)

/-- The statements of a document, at most one a line; the fuel bounds the number of lines. -/
def statements : (fuel : Nat) → Reader (List Statement)
  | 0 => failure
  | fuel + 1 => do
    spaces
    let found ← match ← peek with
      | none | some '#' | some '\n' | some '\r' => pure []
      | some _ => (fun s => [s]) <$> statement
    spaces
    comment
    if (← get).isEmpty then pure found
    else if ← newline then return found ++ (← statements fuel)
    else failure

end Reader

/-- **Reads a document.** A byte order mark in front is passed over. -/
def parse? (source : String) : Option Table := do
  let cs := match source.toList with
    | '\ufeff' :: rest => rest
    | cs => cs
  let (found, _) ← (Reader.statements (cs.length + 1)).run cs
  table? found

end EmbeddedVm.Toml
