import EchoLog.Net.Resolve
/-!
# The characters of a TOML document

Blanks, comments, line ends, quoted strings and keys.  Readers take the characters that are left and
give what they read with the rest, or nothing when the text breaks the grammar.
-/

namespace EchoLog.Toml

/-- A space or a tab. -/
def isBlank (c : Char) : Bool :=
  c = ' ' || c = '\t'

/-- A character that may stand for itself in comments and strings: a tab, or anything but the control
characters. -/
def isPlain (c : Char) : Bool :=
  c = '\t' || (c.toNat ≥ 0x20 && c.toNat ≠ 0x7f)

/-- A character of a key without quotes. -/
def isBare (c : Char) : Bool :=
  c.isAlphanum || c = '_' || c = '-'

/-- Drops blanks. -/
def skipBlanks (cs : List Char) : List Char :=
  cs.dropWhile isBlank

/-- What follows a line end, `\n` or `\r\n`. -/
def afterLineEnd? : List Char → Option (List Char)
  | '\n' :: rest => some rest
  | '\r' :: '\n' :: rest => some rest
  | _ => none

/-- Drops a comment up to its line end. -/
def skipComment : List Char → List Char
  | '#' :: rest => rest.dropWhile isPlain
  | cs => cs

/-- What follows the blanks and the comment that may end a line; the text may end there too. -/
def afterLine? (cs : List Char) : Option (List Char) :=
  match skipComment (skipBlanks cs) with
  | [] => some []
  | rest => afterLineEnd? rest

/-- Drops blanks and line ends. -/
def skipBlankLines : List Char → List Char
  | ' ' :: rest => skipBlankLines rest
  | '\t' :: rest => skipBlankLines rest
  | '\n' :: rest => skipBlankLines rest
  | '\r' :: '\n' :: rest => skipBlankLines rest
  | cs => cs

/-- Drops blanks, line ends and comments; `inComment` says that a comment has begun. -/
def skipTrivia : (inComment : Bool) → List Char → List Char
  | _, [] => []
  | _, '\n' :: rest => skipTrivia false rest
  | _, '\r' :: '\n' :: rest => skipTrivia false rest
  | false, '#' :: rest => skipTrivia true rest
  | false, c :: rest => if isBlank c then skipTrivia false rest else c :: rest
  | true, c :: rest => if isPlain c then skipTrivia true rest else c :: rest

/-- The character that `n` hex digits name. -/
def hexChar? (n : Nat) (cs : List Char) : Option Char :=
  let digits := cs.take n
  let code := digitsValue 16 digits
  if digits.length = n && digits.all (isDigitOf 16) && code.isValidChar then some (Char.ofNat code)
  else none

/-- The character that an escape stands for and the length of the escape after its backslash. -/
def escape? : List Char → Option (Char × Nat)
  | 'b' :: _ => some ('\x08', 1)
  | 't' :: _ => some ('\t', 1)
  | 'n' :: _ => some ('\n', 1)
  | 'f' :: _ => some ('\x0c', 1)
  | 'r' :: _ => some ('\r', 1)
  | '\x22' :: _ => some ('\x22', 1)
  | '\x5c' :: _ => some ('\x5c', 1)
  | 'u' :: rest => (hexChar? 4 rest).map fun c => (c, 5)
  | 'U' :: rest => (hexChar? 8 rest).map fun c => (c, 9)
  | _ => none

/-- The length of a line end after a backslash, with the blanks before it and the blank lines after
it. -/
def continuation? (cs : List Char) : Option Nat :=
  (afterLineEnd? (skipBlanks cs)).map fun rest => cs.length - (skipBlankLines rest).length

/-- Puts a character before what was read. -/
def prepend (c : Char) (read : List Char × List Char) : List Char × List Char :=
  (c :: read.1, read.2)

/-- The rest of a string in double quotes. -/
def readBasic : List Char → Option (List Char × List Char)
  | [] => none
  | c :: rest =>
    if c = '\x22' then some ([], rest)
    else if c = '\x5c' then
      match escape? rest with
      | none => none
      | some (e, length) => (readBasic (rest.drop length)).map (prepend e)
    else if isPlain c then (readBasic rest).map (prepend c)
    else none
termination_by cs => cs.length
decreasing_by all_goals simp only [List.length_cons, List.length_drop]; omega

/-- The rest of a string in single quotes. -/
def readLiteral : List Char → Option (List Char × List Char)
  | [] => none
  | c :: rest =>
    if c = '\x27' then some ([], rest)
    else if isPlain c then (readLiteral rest).map (prepend c)
    else none

/-- The rest of a string of several lines, delimited by three of `quote`.  Up to two more may stand
before the end.  A line end counts as `\n` however it is written, and with `escapes` a backslash
starts an escape or joins lines. -/
def readLines (quote : Char) (escapes : Bool) : List Char → Option (List Char × List Char)
  | [] => none
  | c :: rest =>
    if c = quote then
      let run := 1 + (rest.takeWhile (· == quote)).length
      if run < 3 then (readLines quote escapes rest).map (prepend c)
      else
        let extra := min (run - 3) 2
        some (List.replicate extra quote, rest.drop (extra + 2))
    else if escapes && c = '\x5c' then
      match continuation? rest with
      | some length => readLines quote escapes (rest.drop length)
      | none =>
        match escape? rest with
        | none => none
        | some (e, length) => (readLines quote escapes (rest.drop length)).map (prepend e)
    else if c = '\n' then (readLines quote escapes rest).map (prepend '\n')
    else if c = '\r' then
      if rest.head? = some '\n' then (readLines quote escapes (rest.drop 1)).map (prepend '\n')
      else none
    else if isPlain c then (readLines quote escapes rest).map (prepend c)
    else none
termination_by cs => cs.length
decreasing_by all_goals simp only [List.length_cons, List.length_drop]; omega

/-- Drops the line end that may follow an opening delimiter. -/
def skipFirstLineEnd (cs : List Char) : List Char :=
  (afterLineEnd? cs).getD cs

/-- A quoted string of any of the four kinds. -/
def readString : List Char → Option (List Char × List Char)
  | '\x22' :: '\x22' :: '\x22' :: rest => readLines '\x22' true (skipFirstLineEnd rest)
  | '\x27' :: '\x27' :: '\x27' :: rest => readLines '\x27' false (skipFirstLineEnd rest)
  | '\x22' :: rest => readBasic rest
  | '\x27' :: rest => readLiteral rest
  | _ => none

/-- One part of a key. -/
def readKeyPart (cs : List Char) : Option (String × List Char) :=
  let read :=
    match cs with
    | '\x22' :: rest => readBasic rest
    | '\x27' :: rest => readLiteral rest
    | _ =>
      let name := cs.takeWhile isBare
      if name.isEmpty then none else some (name, cs.dropWhile isBare)
  read.map fun (name, rest) => (String.ofList name, rest)

/-- The parts of a key, parted by dots; blanks may stand around each part.  The fuel bounds the number
of parts. -/
def readKeyParts : (fuel : Nat) → List Char → Option (List String × List Char)
  | 0, _ => none
  | fuel + 1, cs =>
    match readKeyPart (skipBlanks cs) with
    | none => none
    | some (part, rest) =>
      match skipBlanks rest with
      | '.' :: more => (readKeyParts fuel more).map fun (parts, rest) => (part :: parts, rest)
      | after => some ([part], after)

/-- How deep tables and arrays may nest, and how long a key may be. -/
def depthLimit : Nat := 80

/-- A key: its parts but the last, the last, and the rest of the text. -/
def readKey (cs : List Char) : Option (List String × String × List Char) :=
  match readKeyParts (depthLimit - 1) cs with
  | none => none
  | some (parts, rest) => parts.getLast?.map fun last => (parts.dropLast, last, rest)

end EchoLog.Toml
