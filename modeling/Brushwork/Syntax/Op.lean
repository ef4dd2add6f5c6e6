/-!
The binary operators, their symbols and how tightly they bind.

* `Op.ofSymbol?_symbol`: every operator is found again by its symbol.
-/

namespace Brushwork

/-- How tightly a binary operator binds, loosest first. -/
inductive Level where
  | or | and | equality | comparison | term | factor
deriving DecidableEq

namespace Level

/-- The place of a level in the order of binding, loosest first. -/
def rank : Level → Nat
  | or => 0
  | and => 1
  | equality => 2
  | comparison => 3
  | term => 4
  | factor => 5

/-- The next tighter level; past `factor` come the operands themselves. -/
def tighter : Level → Option Level
  | or => some and
  | and => some equality
  | equality => some comparison
  | comparison => some term
  | term => some factor
  | factor => none

theorem rank_tighter {l m : Level} (h : l.tighter = some m) : m.rank = l.rank + 1 := by
  cases l <;> cases m <;> simp_all [tighter, rank]

theorem rank_le (l : Level) : l.rank ≤ 5 := by
  cases l <;> decide

end Level

/-- The binary operators. -/
inductive Op where
  | or | and
  | equal | notEqual
  | greater | less | greaterEqual | lessEqual
  | add | sub
  | mul | div | mod | pow
deriving DecidableEq

namespace Op

/-- All operators, loosest first. -/
def all : List Op :=
  [or, and, equal, notEqual, greater, less, greaterEqual, lessEqual, add, sub, mul, div, mod, pow]

/-- How an operator is written. -/
def symbol : Op → String
  | or => "||"
  | and => "&&"
  | equal => "=="
  | notEqual => "!="
  | greater => ">"
  | less => "<"
  | greaterEqual => ">="
  | lessEqual => "<="
  | add => "+"
  | sub => "-"
  | mul => "*"
  | div => "/"
  | mod => "%"
  | pow => "**"

/-- The operator that is written so, if there is one. -/
def ofSymbol? (s : String) : Option Op := all.find? (·.symbol == s)

/-- The level of an operator. All of `*`, `/`, `%` and `**` share one. -/
def level : Op → Level
  | or => .or
  | and => .and
  | equal | notEqual => .equality
  | greater | less | greaterEqual | lessEqual => .comparison
  | add | sub => .term
  | mul | div | mod | pow => .factor

theorem ofSymbol?_symbol (o : Op) : ofSymbol? o.symbol = some o := by
  cases o <;> decide

end Op

end Brushwork
