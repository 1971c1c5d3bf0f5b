import EchoLog.Toml.Draft
import EchoLog.Toml.Scalar
/-!
# Reading a TOML document

`Toml.parse` gives the entries of a document, or the line on which it stops being one.
-/

namespace EchoLog.Toml

mutual

/-- A value.  `depth` counts the arrays and inline tables around it; the fuel bounds the values and
keys still to be read. -/
def readValue : (fuel depth : Nat) → List Char → Option (Value × List Char)
  | 0, _, _ => none
  | fuel + 1, depth, cs =>
    match cs with
    | '[' :: rest =>
      if depth + 1 < depthLimit then
        (readItems fuel (depth + 1) (skipTrivia false rest)).map fun (items, rest) =>
          (.array items, rest)
      else none
    | '\x7b' :: rest =>
      if depth + 1 < depthLimit then
        match skipBlanks rest with
        | '\x7d' :: rest => some (.table [], rest)
        | rest =>
          (readPairs fuel (depth + 1) [] rest).map fun (entries, rest) =>
            (.table (finishEntries entries), rest)
      else none
    | '\x22' :: _ => (readString cs).map fun (text, rest) => (.string (String.ofList text), rest)
    | '\x27' :: _ => (readString cs).map fun (text, rest) => (.string (String.ofList text), rest)
    | _ => readScalar cs

/-- The items of an array up to its closing bracket; a comma may follow the last. -/
def readItems : (fuel depth : Nat) → List Char → Option (List Value × List Char)
  | 0, _, _ => none
  | fuel + 1, depth, cs =>
    match cs with
    | ']' :: rest => some ([], rest)
    | _ =>
      match readValue fuel depth cs with
      | none => none
      | some (v, rest) =>
        match skipTrivia false rest with
        | ',' :: rest =>
          (readItems fuel depth (skipTrivia false rest)).map fun (vs, rest) => (v :: vs, rest)
        | ']' :: rest => some ([v], rest)
        | _ => none

/-- The pairs of an inline table up to its closing brace; no comma may follow the last. -/
def readPairs : (fuel depth : Nat) → Entries → List Char → Option (Entries × List Char)
  | 0, _, _, _ => none
  | fuel + 1, depth, entries, cs =>
    match readKey cs with
    | some (path, key, '=' :: rest) =>
      match readValue fuel depth (skipBlanks rest) with
      | none => none
      | some (v, rest) =>
        match entries.addPair path key v with
        | none => none
        | some entries =>
          match skipBlanks rest with
          | ',' :: rest => readPairs fuel depth entries rest
          | '\x7d' :: rest => some (entries, rest)
          | _ => none
    | _ => none

end

/-- Reads one line that is no comment, a header or a pair, and what follows its line end.  The value
of a pair may go over several lines.  `bound` is fuel for the values and keys in it. -/
def readLine (bound : Nat) (b : Builder) (cs : List Char) : Option (Builder × List Char) :=
  match cs with
  | '[' :: '[' :: rest =>
    match readKey rest with
    | some (path, key, ']' :: ']' :: rest) => do return (← b.openElement path key, ← afterLine? rest)
    | _ => none
  | '[' :: rest =>
    match readKey rest with
    | some (path, key, ']' :: rest) => do return (← b.openTable path key, ← afterLine? rest)
    | _ => none
  | _ =>
    match readKey cs with
    | some (path, key, '=' :: rest) => do
      let (v, rest) ← readValue bound 0 (skipBlanks rest)
      return (← b.pair path key v, ← afterLine? rest)
    | _ => none

/-- Reads the lines of a document, or gives the text from the line on that breaks the grammar.  The
fuel bounds the number of lines, and `bound` the values and keys of each. -/
def readLinesOf (bound : Nat) : (fuel : Nat) → Builder → List Char → Except (List Char) Entries
  | 0, _, cs => .error cs
  | fuel + 1, b, cs =>
    match afterLine? cs with
    | some [] => b.close.elim (.error cs) .ok
    | some rest => readLinesOf bound fuel b rest
    | none =>
      match readLine bound b (skipBlanks cs) with
      | none => .error cs
      | some (b, rest) => readLinesOf bound fuel b rest

/-- The text without the byte order mark that may start it. -/
def withoutMark : List Char → List Char
  | c :: rest => if c.toNat = 0xfeff then rest else c :: rest
  | [] => []

/-- The entries of a document; otherwise the number of the line that breaks the grammar. -/
def parse (text : String) : Except Nat (List (String × Value)) :=
  let cs := withoutMark text.toList
  match readLinesOf (2 * cs.length + 2) (cs.length + 1) {} cs with
  | .ok entries => .ok (finishEntries entries)
  | .error rest => .error ((cs.take (cs.length - rest.length)).count '\n' + 1)

end EchoLog.Toml
