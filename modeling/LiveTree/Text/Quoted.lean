import LiveTree.Text.Digits
import LiveTree.Text.Unseen

/-! Quoted texts. A quoted text stands between double quotes; inside, the quote, the backslash and
every character without a visible form are written as escapes, so the quoted form is one visible
line whatever the text holds. -/
namespace LiveTree.Text

/-- One character as it stands inside a quoted text. -/
def escapeChar (c : Char) : String :=
  match c with
  | '\x00' => "\\0"
  | '\t' => "\\t"
  | '\r' => "\\r"
  | '\n' => "\\n"
  | '\\' => "\\\\"
  | '"' => "\\\""
  | c =>
    if ' ' ≤ c && c ≤ '~' then String.singleton c
    else if isUnseen c then "\\u\x7b" ++ hexText c.toNat ++ "\x7d"
    else String.singleton c

/-- A text between double quotes, with escapes. -/
def quoted (text : String) : String :=
  "\"" ++ String.join (text.toList.map escapeChar) ++ "\""

end LiveTree.Text
