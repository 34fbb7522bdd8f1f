import WorkMarket.Text.Yaml.Token

/-!
# The events of YAML documents

A document is told as a list of events: scalars, uses of names, and the starts
and ends of sequences and mappings, in which keys and values take turns.
`Event.ofTokens?` orders the tokens of a text with one document at most into
such a list.  It keeps a stack of what may come next; whatever was left out is
an empty scalar.
-/

namespace WorkMarket
namespace Yaml

/-- A step in the telling of a document. -/
inductive Event where
  | scalar (anchor : Option String) (scalar : Scalar)
  | alias (name : String)
  | sequenceStart (anchor : Option String)
  | sequenceEnd
  | mappingStart (anchor : Option String)
  | mappingEnd

namespace Event

/-- What was left out. -/
def absent : Event :=
  .scalar none Scalar.absent

/-- What may come next. -/
inductive Expected where
  /-- An element of a sequence in lines. -/
  | entry
  /-- An element of a sequence whose dashes stand below the key it belongs to. -/
  | keyedEntry
  /-- A key of a mapping in lines. -/
  | key
  /-- A value of a mapping in lines. -/
  | value
  /-- An element between brackets. -/
  | element (first : Bool)
  /-- The key of a pair that is an element. -/
  | pairKey
  /-- The value of such a pair. -/
  | pairValue
  /-- The end of such a pair. -/
  | pairEnd
  /-- A member between braces. -/
  | member (first : Bool)
  /-- The value of a key between braces. -/
  | memberValue
  /-- The end of a member that has no value. -/
  | memberEnd

/-- An event, what may come next and the tokens behind the event. -/
abbrev Progress := Event × List Expected × List Token

/-- The handles of tags with what they stand for. -/
abbrev Shorthands := List (List Char × Tag)

/-! ## Values -/

/-- The name and the tag of a value, in either order. -/
def properties : List Token → (Option String × Option (List Char × Tag)) × List Token
  | .anchor name :: .tag handle text :: rest => ((some name, some (handle, text)), rest)
  | .tag handle text :: .anchor name :: rest => ((some name, some (handle, text)), rest)
  | .anchor name :: rest => ((some name, none), rest)
  | .tag handle text :: rest => ((none, some (handle, text)), rest)
  | rest => ((none, none), rest)

/-- The complete form of a tag. -/
def complete?
    (shorthands : Shorthands)
    (handle : List Char)
    (text : Tag) :
    Option Tag :=
  if handle.isEmpty then some text else (shorthands.lookup handle).map (· ++ text)

/-- Begin a value, which may be laid out in lines or only between brackets, and
whose dashes may stand below the key it belongs to. -/
def node?
    (shorthands : Shorthands)
    (inLines keyed : Bool)
    (stack : List Expected)
    (tokens : List Token) :
    Option Progress :=
  match tokens with
  | .alias name :: rest => some (.alias name, stack, rest)
  | tokens => do
      let ((anchor, written), tokens) := properties tokens
      let tag ←
        match written with
        | none => some none
        | some (handle, text) => (complete? shorthands handle text).map some
      match tokens with
      | .entry :: _ =>
          if keyed then some (.sequenceStart anchor, .keyedEntry :: stack, tokens)
          else if written.isSome || anchor.isSome then
            some (.scalar anchor ⟨tag, .plain, ""⟩, stack, tokens)
          else none
      | .scalar style text :: rest => some (.scalar anchor ⟨tag, style, text⟩, stack, rest)
      | .openBracket :: rest => some (.sequenceStart anchor, .element true :: stack, rest)
      | .openBrace :: rest => some (.mappingStart anchor, .member true :: stack, rest)
      | tokens =>
          match inLines, tokens with
          | true, .blockSequence :: rest => some (.sequenceStart anchor, .entry :: stack, rest)
          | true, .blockMapping :: rest => some (.mappingStart anchor, .key :: stack, rest)
          | _, _ =>
              if written.isSome || anchor.isSome then
                some (.scalar anchor ⟨tag, .plain, ""⟩, stack, tokens)
              else none

/-- Begin a value unless one of certain tokens comes next, before which it was
left out. -/
def nodeUnless?
    (shorthands : Shorthands)
    (ends : List Token)
    (inLines keyed : Bool)
    (stack : List Expected)
    (tokens : List Token) :
    Option Progress :=
  if tokens.head?.any (ends.contains ·) then some (absent, stack, tokens)
  else node? shorthands inLines keyed stack tokens

/-- The tokens behind the comma before an element that is not the first. -/
def behindComma?
    (first : Bool)
    (tokens : List Token) :
    Option (List Token) :=
  if first then some tokens
  else
    match tokens with
    | .comma :: rest => some rest
    | _ => none

/-! ## Parts of collections -/

/-- Read an element between brackets, or their end. -/
def element?
    (shorthands : Shorthands)
    (first : Bool)
    (stack : List Expected)
    (tokens : List Token) :
    Option Progress :=
  match tokens with
  | .closeBracket :: rest => some (.sequenceEnd, stack, rest)
  | tokens => do
      match ← behindComma? first tokens with
      | .closeBracket :: rest => some (.sequenceEnd, stack, rest)
      | .key :: rest => some (.mappingStart none, .pairKey :: .element false :: stack, rest)
      | tokens => node? shorthands false false (.element false :: stack) tokens

/-- Read a member between braces, or their end. -/
def member?
    (shorthands : Shorthands)
    (first : Bool)
    (stack : List Expected)
    (tokens : List Token) :
    Option Progress :=
  match tokens with
  | .closeBrace :: rest => some (.mappingEnd, stack, rest)
  | tokens => do
      match ← behindComma? first tokens with
      | .closeBrace :: rest => some (.mappingEnd, stack, rest)
      | .key :: rest =>
          nodeUnless? shorthands [.value, .comma, .closeBrace] false false
            (.memberValue :: stack) rest
      | tokens => node? shorthands false false (.memberEnd :: stack) tokens

/-- Read what may come next. -/
def next?
    (shorthands : Shorthands)
    (stack : List Expected)
    (tokens : List Token) :
    Expected → Option Progress
  | .entry =>
      match tokens with
      | .entry :: rest =>
          nodeUnless? shorthands [.entry, .blockEnd] true false (.entry :: stack) rest
      | .blockEnd :: rest => some (.sequenceEnd, stack, rest)
      | _ => none
  | .keyedEntry =>
      match tokens with
      | .entry :: rest =>
          nodeUnless? shorthands [.entry, .key, .value, .blockEnd] true false
            (.keyedEntry :: stack) rest
      | tokens => some (.sequenceEnd, stack, tokens)
  | .key =>
      match tokens with
      | .key :: rest =>
          nodeUnless? shorthands [.key, .value, .blockEnd] true true (.value :: stack) rest
      | .blockEnd :: rest => some (.mappingEnd, stack, rest)
      | _ => none
  | .value =>
      match tokens with
      | .value :: rest =>
          nodeUnless? shorthands [.key, .value, .blockEnd] true true (.key :: stack) rest
      | tokens => some (absent, .key :: stack, tokens)
  | .element first => element? shorthands first stack tokens
  | .pairKey =>
      match tokens with
      | .value :: rest | .comma :: rest | .closeBracket :: rest =>
          some (absent, .pairValue :: stack, rest)
      | tokens => node? shorthands false false (.pairValue :: stack) tokens
  | .pairValue =>
      match tokens with
      | .value :: rest =>
          nodeUnless? shorthands [.comma, .closeBracket] false false (.pairEnd :: stack) rest
      | tokens => some (absent, .pairEnd :: stack, tokens)
  | .pairEnd => some (.mappingEnd, stack, tokens)
  | .member first => member? shorthands first stack tokens
  | .memberValue =>
      match tokens with
      | .value :: rest =>
          nodeUnless? shorthands [.comma, .closeBrace] false false (.member false :: stack) rest
      | tokens => some (absent, .member false :: stack, tokens)
  | .memberEnd => some (absent, .member false :: stack, tokens)

/-- Read until nothing is open, onto the events so far in reverse. -/
def finish?
    (shorthands : Shorthands) :
    (steps : Nat) → (done : List Event) → List Expected → List Token →
      Option (List Event × List Token)
  | 0, _, _, _ => none
  | _ + 1, done, [], tokens => some (done.reverse, tokens)
  | steps + 1, done, expected :: stack, tokens =>
      match next? shorthands stack tokens expected with
      | none => none
      | some (event, stack, tokens) => finish? shorthands steps (event :: done) stack tokens

/-- Read the value that a document holds.  No token opens more than four
events. -/
def value?
    (shorthands : Shorthands)
    (tokens : List Token) :
    Option (List Event × List Token) := do
  let (event, stack, rest) ← node? shorthands true false [] tokens
  finish? shorthands (5 * tokens.length + 1) [event] stack rest

/-! ## Documents -/

/-- The handles that need no directive. -/
def usualShorthands : Shorthands :=
  [(['!'], Text.utf8 "!"), (['!', '!'], Tag.common)]

/-- Read directives, of which at most one tells the version and no two the same
handle. -/
def directives? :
    (versioned : Bool) → Shorthands → List Token → Option (Shorthands × List Token)
  | versioned, given, .version major minor :: rest =>
      if versioned || major ≠ 1 || (minor ≠ 1 && minor ≠ 2) then none
      else directives? true given rest
  | versioned, given, .shorthand handle lead :: rest =>
      if (given.lookup handle).isSome then none
      else directives? versioned ((handle, lead) :: given) rest
  | _, given, rest => some (given ++ usualShorthands, rest)

/-- Whether a token stands between documents. -/
def isBetween : Token → Bool
  | .version _ _ | .shorthand _ _ | .documentStart | .documentEnd => true
  | _ => false

/-- Read a document and answer with the tokens behind it.  Only with nothing
before its start may the start go unmarked. -/
def document?
    (tokens : List Token) :
    Option (List Event × List Token) := do
  let (shorthands, rest) ← directives? false [] tokens
  match rest with
  | .documentStart :: rest =>
      if rest.head?.all isBetween then some ([absent], rest) else value? shorthands rest
  | _ => if rest.length = tokens.length then value? shorthands tokens else none

/-- The events of the only document of a text; there are none in an empty
text. -/
def ofTokens?
    (tokens : List Token) :
    Option (List Event) :=
  if tokens.isEmpty then some []
  else do
    let (events, rest) ← document? tokens
    if rest.all (· = .documentEnd) then some events else none

end Event

end Yaml
end WorkMarket
