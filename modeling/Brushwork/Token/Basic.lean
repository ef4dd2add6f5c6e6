import Brushwork.Literal
import Brushwork.Text.Position
import Brushwork.Token.Kind

/-!
Tokens: a kind, the text they were written as, the value of a literal, and a place.
-/

namespace Brushwork

/-- A token of a program text. -/
structure Token where
  kind : Kind
  lexeme : String
  literal : Option Literal
  position : Position
deriving DecidableEq

namespace Token

/-- The token that closes a token list. -/
def eof (p : Position) : Token := ⟨.eof, "", none, p⟩

/-- The value of a literal token; one without a value stands for its own text. -/
def value (t : Token) : Literal := t.literal.getD (.text t.lexeme)

/-- The name that an identifier or a color token gives. -/
def name (t : Token) : String := (t.literal.bind Literal.text?).getD t.lexeme

/-- A token as it is listed beside the program: its kind, then its text in quotes. -/
def describe (t : Token) : String := t.kind.label ++ " '" ++ t.lexeme ++ "'"

end Token

end Brushwork
