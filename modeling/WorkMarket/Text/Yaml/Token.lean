import WorkMarket.Text.Yaml.Scalar

/-!
# The tokens of YAML texts

A text is a list of tokens: the signs that are written, and the beginnings and
ends of blocks, which only columns show.
-/

namespace WorkMarket
namespace Yaml

/-- A piece of a text. -/
inductive Token where
  /-- The version of YAML that a text is written in. -/
  | version (major minor : Nat)
  /-- A handle that tags may begin with, and what it stands for. -/
  | shorthand (handle : List Char) (lead : Tag)
  | documentStart
  | documentEnd
  /-- The start of a sequence that is laid out in lines. -/
  | blockSequence
  /-- The start of a mapping that is laid out in lines. -/
  | blockMapping
  /-- The end of either. -/
  | blockEnd
  | openBracket
  | closeBracket
  | openBrace
  | closeBrace
  /-- The dash of an element. -/
  | entry
  | comma
  /-- The start of a key, whether or not a sign shows it. -/
  | key
  /-- The colon before a value. -/
  | value
  /-- A value that was given a name before. -/
  | alias (name : String)
  /-- The name of the value that follows. -/
  | anchor (name : String)
  /-- A tag: a handle, which is empty if the tag is complete, and the rest. -/
  | tag (handle : List Char) (rest : Tag)
  | scalar (style : ScalarStyle) (text : String)
deriving DecidableEq

end Yaml
end WorkMarket
