import MediaPipeline.Scope
import MediaPipeline.Text.Integer

/-!
# What can be wrong with a template

Every way in which the text of a template or guard can be malformed, or can
fail to make sense with the values it reads, and the message for each.
-/

namespace MediaPipeline.Template

/-- The directives that end a block or a branch. -/
inductive Closer where
  | endFor
  | otherwise
  | endIf
deriving DecidableEq, Repr

/-- The spelling of a closing directive. -/
def Closer.spelling : Closer → String
  | endFor => "%endfor%"
  | otherwise => "%else%"
  | endIf => "%endif%"

/-- What is wrong with a template, a guard or the values one reads. -/
inductive Fault where
  /-- The text after the percent sign has no closing brace. -/
  | openReference (after : List Char)
  | noParameterName (raw : String)
  | emptyParameterName (raw : String)
  | openIndex (raw : String)
  | invalidIndex (raw index : String)
  | unknownKind (kind raw : String)
  | notIndexed (raw : String) (kind : ContextKind)
  | openReferenceInDirective (after : List Char)
  | openDirective (after : List Char)
  /-- A word of a directive or guard has no closing quote. -/
  | openQuoteIn (quote : Char) (text : List Char)
  | noLoopVariable (directive : List Char)
  | noArgumentKey (directive : List Char)
  | emptyCondition
  | expectedComparison
  | malformedCondition (words : Nat)
  | strayCloser (closer : Closer)
  | closerInLoop (closer : Closer) (var : String)
  | openLoop (var : String)
  | openOtherwise
  | loopEndInBranch
  | openBranch
  | boundReadsVariable (var : String)
  | unknownArgument (key : String)
  | duplicateArgument (key : String)
  | twoBounds (var : String)
  | noBound (var : String)
  /-- The text of a command has no closing quote. -/
  | openQuote (quote : Char)
  | emptyCommand
  | emptyOutput
  | boundNotInteger (argument value : String)
  | negativeCount (var : String) (count : Int)
  | countOverflow (var : String) (first count : Int)
  | notBoolean (value : String)
  | loopBoundNotInteger (value : String)
  | loopNegativeCount (var : String) (count : Int)
  | loopCountOverflow (var : String) (first count : Int)
deriving DecidableEq

/-- The message of a fault. -/
def Fault.message : Fault → String
  | openReference after => "unterminated reference '%" ++ String.ofList after ++ "'"
  | noParameterName raw => "reference " ++ raw ++ " has no parameter name"
  | emptyParameterName raw => "reference " ++ raw ++ " has an empty parameter name"
  | openIndex raw => "reference " ++ raw ++ " has an unclosed index"
  | invalidIndex raw index => "reference " ++ raw ++ " has an invalid index '" ++ index ++ "'"
  | unknownKind kind raw => ContextKind.unknownMessage kind ++ " in " ++ raw
  | notIndexed raw kind =>
    "reference " ++ raw ++ ": " ++ kind.name ++ " parameters cannot be indexed"
  | openReferenceInDirective after =>
    "unterminated reference in directive '%" ++ String.ofList after ++ "'"
  | openDirective after => "unterminated directive '%" ++ String.ofList after ++ "'"
  | openQuoteIn quote text =>
    "unterminated " ++ String.ofList [quote] ++ " quote in '" ++ String.ofList text ++ "'"
  | noLoopVariable directive => "'%" ++ String.ofList directive ++ "%' needs a loop variable name"
  | noArgumentKey directive =>
    "'%" ++ String.ofList directive ++ "%': expected key=value arguments"
  | emptyCondition => "empty condition"
  | expectedComparison => "expected '==' or '!=' in condition"
  | malformedCondition words => "malformed condition (" ++ Text.showNat words ++ " words)"
  | strayCloser closer => "unexpected " ++ closer.spelling ++ " without matching opener"
  | closerInLoop closer var => "unexpected " ++ closer.spelling ++ " inside %for " ++ var ++ "%"
  | openLoop var => "%for " ++ var ++ "% without %endfor%"
  | openOtherwise => "%else% without %endif%"
  | loopEndInBranch => "unexpected %endfor% inside %if%"
  | openBranch => "%if% without %endif%"
  | boundReadsVariable var => "bounds of %for " ++ var ++ "% may not reference the loop variable"
  | unknownArgument key => "unknown %for argument '" ++ key ++ "'"
  | duplicateArgument key => "duplicate %for argument '" ++ key ++ "'"
  | twoBounds var => "%for " ++ var ++ "% takes either to= or count="
  | noBound var => "%for " ++ var ++ "% needs to= or count="
  | openQuote quote => "unterminated " ++ String.ofList [quote] ++ " quote"
  | emptyCommand => "resolves to an empty command"
  | emptyOutput => "output resolves to an empty path"
  | boundNotInteger argument value =>
    "%for " ++ argument ++ "= value '" ++ value ++ "' is not an integer"
  | negativeCount var count => "%for " ++ var ++ "% has a negative count " ++ Text.showInt count
  | countOverflow var first count =>
    "%for " ++ var ++ "% range from=" ++ Text.showInt first ++ " count=" ++ Text.showInt count ++
      " overflows"
  | notBoolean value => "'" ++ value ++ "' is not a boolean value"
  | loopBoundNotInteger value => "loop bound '" ++ value ++ "' is not an integer"
  | loopNegativeCount var count =>
    "loop '" ++ var ++ "' has a negative count " ++ Text.showInt count
  | loopCountOverflow var first count =>
    "loop '" ++ var ++ "' range from=" ++ Text.showInt first ++ " count=" ++
      Text.showInt count ++ " overflows"

end MediaPipeline.Template
