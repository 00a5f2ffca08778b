import Runbook.Source.Reference

/-!
Why a source text is refused.
-/
namespace Runbook

inductive ParseCause where
  | unknownStatement (line : Text)
  | importForm
  | ruleForm
  | functionForm
  | workflowForm
  | ruleRuns
  | openRule (name : Text)
  | openFunction (name : Text)
  | openWorkflow (name : Text)
  | openConditional
  | conditionalEnd
  | ensureForm
  | runForm
  | promptForm
  | promptTail
  | openPrompt
deriving DecidableEq, Repr

namespace ParseCause

def message : ParseCause → Text
  | unknownStatement line => "unsupported top-level statement: " ++ line
  | importForm => "import must match: import \"<path>\" as <alias>"
  | ruleForm => "invalid rule declaration"
  | functionForm => "invalid function declaration"
  | workflowForm => "invalid workflow declaration"
  | ruleRuns =>
    "`run` is not allowed inside a `rule` block.\nUse `ensure` to call another rule, or move this call to a `workflow`."
  | openRule name => "unterminated rule block: " ++ name
  | openFunction name => "unterminated function block: " ++ name
  | openWorkflow name => "unterminated workflow block: " ++ name
  | openConditional => "unterminated if-block, expected \"fi\""
  | conditionalEnd => "if-block must end with \"fi\""
  | ensureForm => "invalid ensure statement"
  | runForm => "run must target a workflow reference"
  | promptForm => "prompt must match: prompt \"<text>\""
  | promptTail => "unexpected text after prompt string"
  | openPrompt => "unterminated prompt string"

def isUnterminated : ParseCause → Bool
  | openRule _ | openFunction _ | openWorkflow _ | openConditional | openPrompt => true
  | _ => false

end ParseCause

structure ParseError where
  loc : Location
  cause : ParseCause
deriving DecidableEq, Repr

end Runbook
