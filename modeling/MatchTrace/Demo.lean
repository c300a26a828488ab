import MatchTrace.Rule.Grammar

/-!
Three small grammars to try a trace on: integer arithmetic, comma separated records, and lines.
-/

namespace MatchTrace.Demo

set_option autoImplicit false

def ch (id : Nat) (c : Char) : Rule := .terminal id (.ch c)

def spacing : Rule :=
  .labelled 0 "Spacing" (.zeroOrMore 1 (.terminal 2 (.anyOf [' ', '\t'])))

def token (id : Nat) (c : Char) : Rule :=
  .labelled id (String.ofList ['\'', c, '\'']) (.sequence (id + 1) [ch (id + 2) c, spacing])

def expr : Rule := .proxy 3 "Expr"

def number : Rule :=
  .labelled 4 "Number"
    (.sequence 5 [.oneOrMore 6 (.terminal 7 (.range '0' '9')), spacing])

def parens : Rule := .labelled 8 "Parens" (.sequence 9 [token 30 '(', expr, token 40 ')'])

def factor : Rule := .labelled 10 "Factor" (.firstOf 11 [number, parens])

def term : Rule :=
  .labelled 12 "Term" (.sequence 13 [factor,
    .zeroOrMore 14 (.sequence 15 [.firstOf 16 [token 50 '*', token 60 '/'], factor])])

def sum : Rule :=
  .labelled 17 "Sum" (.sequence 18 [term,
    .zeroOrMore 19 (.sequence 20 [.firstOf 21 [token 70 '+', token 80 '-'], term])])

-- Integer arithmetic with four operations and parentheses. The name `Sum` is held, for the root
-- reaches it through the proxy only.
def arith : Grammar where
  root := .labelled 22 "Arith" (.sequence 23 [spacing, expr, .optional 24 (ch 25 '\n'),
    .terminal 26 .endOfInput])
  rules := [("Sum", sum)]
  bindings := [⟨expr.id, sum⟩]

def quoteMark : Rule := ch 0 '"'

def quoted : Rule :=
  .labelled 1 "Quoted" (.sequence 2 [quoteMark,
    .zeroOrMore 3 (.firstOf 4 [.terminal 5 (.string ['"', '"']),
      .sequence 6 [.testNot 7 quoteMark, .terminal 8 .any]]),
    quoteMark])

def bare : Rule :=
  .labelled 9 "Bare" (.zeroOrMore 10
    (.sequence 11 [.testNot 12 (.terminal 13 (.anyOf [',', '"', '\r', '\n'])), .terminal 14 .any]))

def csvField : Rule := .labelled 15 "Field" (.firstOf 16 [quoted, bare])

def csvRecord : Rule :=
  .labelled 17 "Record" (.sequence 18 [csvField,
    .zeroOrMore 19 (.sequence 20 [ch 21 ',', csvField])])

def newline : Rule :=
  .labelled 22 "Newline" (.sequence 23 [.optional 24 (ch 25 '\r'), ch 26 '\n'])

def csv : Grammar where
  root := .labelled 27 "Csv" (.sequence 28 [csvRecord,
    .zeroOrMore 29 (.sequence 30 [newline, csvRecord]),
    .optional 31 newline, .terminal 32 .endOfInput])

def lineText : Rule :=
  .labelled 0 "Text" (.zeroOrMore 1
    (.sequence 2 [.testNot 3 (ch 4 '\n'), .terminal 5 .any]))

def countLine : Rule := .action 6 "CountLine" fun _ => .ok true

def line : Rule := .labelled 7 "Line" (.sequence 8 [lineText, ch 9 '\n', countLine])

def lines : Grammar where
  root := .labelled 10 "Lines" (.sequence 11 [.zeroOrMore 12 line, lineText,
    .terminal 13 .endOfInput])

def ofName? (name : String) : Option Grammar :=
  if name = "arith" then some arith
  else if name = "csv" then some csv
  else if name = "lines" then some lines
  else none

end MatchTrace.Demo
