import AttachmentGrammar.Cardinality
import AttachmentGrammar.Pattern
/-!
Rules of a grammar and their written form. An attachment rule lets each class of its left side
attach to each class of its right side; a rule with one side bounds all attachments of its classes
in that direction.
-/
namespace AttachmentGrammar

inductive Side where
  | left
  | right
  deriving DecidableEq, Repr

def Side.describe : Side → String
  | left => "left-hand"
  | right => "right-hand"

structure Token where
  pattern : Pattern
  cardinality : Option Cardinality
  deriving DecidableEq, Repr

def Token.render (t : Token) : List Char :=
  t.pattern.text.toList ++ (t.cardinality.map Cardinality.render).getD []

inductive Statement where
  | attachment (sources targets : List Token)
  | sourceAggregate (sources : List Token)
  | targetAggregate (targets : List Token)
  deriving DecidableEq, Repr

structure Rule where
  line : Nat
  statement : Statement
  deriving DecidableEq, Repr

def renderTokens (tokens : List Token) : List Char :=
  [' '].intercalate (tokens.map Token.render)

namespace Statement

def isAggregate : Statement → Bool
  | attachment _ _ => false
  | sourceAggregate _ | targetAggregate _ => true

def sources : Statement → List Token
  | attachment sources _ | sourceAggregate sources => sources
  | targetAggregate _ => []

def targets : Statement → List Token
  | attachment _ targets | targetAggregate targets => targets
  | sourceAggregate _ => []

def render : Statement → List Char
  | attachment sources targets => renderTokens sources ++ ' ' :: '|' :: ' ' :: renderTokens targets
  | sourceAggregate sources => renderTokens sources ++ [' ', '|']
  | targetAggregate targets => '|' :: ' ' :: renderTokens targets

end Statement

/-- One rule a line, without line numbers, comments or blank lines. -/
def Rule.renderAll (rules : List Rule) : String :=
  String.ofList (rules.flatMap fun rule => rule.statement.render ++ ['\n'])

end AttachmentGrammar
