import WorkMarket.Text.Json.Numeral

/-!
# Reading JSON texts

The reader goes through the characters once and answers with a value and the
characters behind it.  Of two steps at least one takes a character, so a text
needs at most twice as many steps as it has characters.
-/

namespace WorkMarket
namespace Json

/-- The four blanks of JSON. -/
def isBlank
    (character : Char) :
    Bool :=
  character = ' ' || character = '\n' || character = '\t' || character = '\r'

/-- The text behind any blanks. -/
def skipBlanks
    (characters : List Char) :
    List Char :=
  characters.dropWhile isBlank

/-- The value of four hexadecimal digits and the text behind them. -/
def codeUnit?
    (characters : List Char) :
    Option (Nat × List Char) :=
  let digits := characters.take 4
  if digits.length = 4 then
    (Text.numberOf? Text.hexValue? 16 digits).map fun unit => (unit, characters.drop 4)
  else none

/-- The second half of a character beyond sixteen bits. -/
def lowUnit?
    (characters : List Char) :
    Option (Nat × List Char) := do
  let (unit, rest) ← codeUnit? (← Text.stripLead? ['\\', 'u'] characters)
  if 0xdc00 ≤ unit ∧ unit ≤ 0xdfff then some (unit, rest) else none

/-- The character that an escape of a code unit denotes.  A character beyond
sixteen bits takes two units, of which neither denotes one alone. -/
def codePoint?
    (characters : List Char) :
    Option (Option Char × List Char) := do
  let (unit, rest) ← codeUnit? characters
  if 0xdc00 ≤ unit ∧ unit ≤ 0xdfff then some (none, rest)
  else if 0xd800 ≤ unit ∧ unit ≤ 0xdbff then
    match lowUnit? rest with
    | some (low, rest) =>
        some (some (Char.ofNat (0x10000 + (unit - 0xd800) * 0x400 + (low - 0xdc00))), rest)
    | none => some (none, rest)
  else some (some (Char.ofNat unit), rest)

/-- The characters that single letters stand for behind a backslash. -/
def escapes : List (Char × Char) :=
  [('"', '"'), ('\\', '\\'), ('/', '/'), ('b', '\x08'), ('f', '\x0c'), ('n', '\n'),
    ('r', '\r'), ('t', '\t')]

/-- The character that an escape denotes, if it denotes a whole one. -/
def escape?
    (characters : List Char) :
    Option (Option Char × List Char) :=
  match characters with
  | 'u' :: rest => codePoint? rest
  | letter :: rest => (escapes.lookup letter).map fun meant => (some meant, rest)
  | [] => none

/-- The characters up to the closing quote, within a number of steps, onto
those already read in reverse.  With half a character there is no text. -/
def stringBody? :
    (steps : Nat) → (done : Option (List Char)) → List Char →
      Option (Option String × List Char)
  | 0, _, _ => none
  | _, _, [] => none
  | steps + 1, done, character :: rest =>
      if character = '"' then some (done.map fun done => String.ofList done.reverse, rest)
      else if character = '\\' then
        match escape? rest with
        | none => none
        | some (meant, rest) =>
            stringBody? steps (meant.bind fun meant => done.map fun done => meant :: done) rest
      else if character.toNat < 0x20 then none
      else stringBody? steps (done.map fun done => character :: done) rest

/-- Read a quoted text, which is none if it holds half a character. -/
def string?
    (steps : Nat)
    (characters : List Char) :
    Option (Option String × List Char) :=
  match characters with
  | '"' :: rest => stringBody? steps (some []) rest
  | _ => none

/-- The object of some members, of which each must have a name. -/
def ofMembers
    (members : List (Option String × Json)) :
    Json :=
  match members.mapM fun (name, value) => name.map fun name => (name, value) with
  | some members => .object members
  | none => .garbled

mutual

/-- Read a value. -/
def value? : (steps : Nat) → List Char → Option (Json × List Char)
  | 0, _ => none
  | steps + 1, characters =>
      match skipBlanks characters with
      | 'n' :: 'u' :: 'l' :: 'l' :: rest => some (.null, rest)
      | 't' :: 'r' :: 'u' :: 'e' :: rest => some (.boolean true, rest)
      | 'f' :: 'a' :: 'l' :: 's' :: 'e' :: rest => some (.boolean false, rest)
      | '"' :: rest =>
          (string? (rest.length + 1) ('"' :: rest)).map fun (text, rest) =>
            ((text.map Json.string).getD .garbled, rest)
      | '[' :: rest =>
          match skipBlanks rest with
          | ']' :: rest => some (.array [], rest)
          | rest => (elements? steps rest).map fun (elements, rest) => (.array elements, rest)
      | '\x7b' :: rest =>
          match skipBlanks rest with
          | '\x7d' :: rest => some (.object [], rest)
          | rest => (members? steps rest).map fun (members, rest) => (ofMembers members, rest)
      | rest => Numeral.read? rest

/-- Read the elements of an array up to the bracket that closes it. -/
def elements? : (steps : Nat) → List Char → Option (List Json × List Char)
  | 0, _ => none
  | steps + 1, characters =>
      match value? steps characters with
      | none => none
      | some (first, rest) =>
          match skipBlanks rest with
          | ']' :: rest => some ([first], rest)
          | ',' :: rest =>
              (elements? steps rest).map fun (others, rest) => (first :: others, rest)
          | _ => none

/-- Read the members of an object up to the brace that closes it. -/
def members? : (steps : Nat) → List Char → Option (List (Option String × Json) × List Char)
  | 0, _ => none
  | steps + 1, characters =>
      let characters := skipBlanks characters
      match string? (characters.length + 1) characters with
      | none => none
      | some (name, rest) =>
          match skipBlanks rest with
          | ':' :: rest =>
              match value? steps rest with
              | none => none
              | some (first, rest) =>
                  match skipBlanks rest with
                  | '\x7d' :: rest => some ([(name, first)], rest)
                  | ',' :: rest =>
                      (members? steps rest).map fun (others, rest) =>
                        ((name, first) :: others, rest)
                  | _ => none
          | _ => none

end

/-- Read a text that holds one value and blanks. -/
def read?
    (text : String) :
    Option Json :=
  let characters := text.toList
  match value? (2 * characters.length + 1) characters with
  | some (value, rest) => if (skipBlanks rest).isEmpty then some value else none
  | none => none

end Json
end WorkMarket
