import WorkMarket.Text.Yaml.Document
import WorkMarket.Text.Yaml.Token.Scan

/-!
# Reading YAML texts

A text is divided into tokens, the tokens are ordered into events, and the
events tell a document.
-/

namespace WorkMarket
namespace Yaml

/-- Whether a character may occur in a YAML text. -/
def isAllowed
    (character : Char) :
    Bool :=
  let code := character.toNat
  code = 0x09 || code = 0x0a || (0x20 ≤ code && code ≤ 0x7e) ||
    (0xa0 ≤ code && code ≤ 0xd7ff) || (0xe000 ≤ code && code ≤ 0xfffd) || 0x10000 ≤ code

/-- A text in which only one kind of line break stands for the common ones. -/
def withPlainBreaks : List Char → List Char
  | [] => []
  | '\r' :: '\n' :: rest => '\n' :: withPlainBreaks rest
  | first :: rest =>
      (if first = '\r' || first = '\u0085' then '\n' else first) :: withPlainBreaks rest

/-- Read a text that holds at most one document. -/
def Document.read?
    (text : String) :
    Option Document :=
  let characters := withPlainBreaks text.toList
  if characters.all isAllowed then
    ((Token.scan? characters).bind Event.ofTokens?).bind Document.ofEvents?
  else none

end Yaml
end WorkMarket
