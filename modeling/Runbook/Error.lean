import Runbook.FileTree
import Runbook.Prompt
import Runbook.Source.Module
import Runbook.Source.ParseError

/-!
Why a source file cannot be compiled.
-/
namespace Runbook

inductive ValidationCause where
  | duplicateOwner (owner : Text)
  | malformed (kind : Kind) (value : Text)
  | unknownName (kind : Kind) (value : Text)
  | unknownOwner (owner : Text) (kind : Kind) (value : Text)
  | unknownImported (kind : Kind) (value : Text)
deriving DecidableEq, Repr

def ValidationCause.message : ValidationCause → Text
  | duplicateOwner owner => "duplicate import alias \"" ++ owner ++ "\""
  | malformed kind value => "invalid " ++ kind.text ++ " reference \"" ++ value ++ "\""
  | unknownName kind value => "unknown local " ++ kind.text ++ " reference \"" ++ value ++ "\""
  | unknownOwner owner kind value =>
    "unknown import alias \"" ++ owner ++ "\" for " ++ kind.text ++ " reference \"" ++ value ++ "\""
  | unknownImported kind value => "imported " ++ kind.text ++ " \"" ++ value ++ "\" does not exist"

inductive CompileError where
  | parse (file : Path) (error : ParseError)
  | prompt (file : Path) (loc : Location) (cause : PromptCause)
  | validation (file : Path) (loc : Location) (cause : ValidationCause)
  | importNotFound (file : Path) (loc : Location) (owner : Text) (path : Path)
  | invalidReference (kind : Kind) (value : Text)
  | read (path : Path) (cause : FileError)
  | write (path : Path) (cause : FileError)
deriving DecidableEq, Repr

namespace CompileError

/-- A message in front of which stand its file, its place and the code of its kind. -/
def located (file : Path) (loc : Location) (code message : Text) : Text :=
  file.text ++ ":" ++ Text.ofNat loc.line ++ ":" ++ Text.ofNat loc.col ++ " " ++ code ++ " " ++ message

def message : CompileError → Text
  | parse file error => located file error.loc "E_PARSE" error.cause.message
  | prompt file loc cause => located file loc "E_PARSE" cause.message
  | validation file loc cause => located file loc "E_VALIDATE" cause.message
  | importNotFound file loc owner path =>
    located file loc "E_IMPORT_NOT_FOUND"
      ("import \"" ++ owner ++ "\" resolves to missing file \"" ++ path.text ++ "\"")
  | invalidReference kind value =>
    "ValidationError: " ++ (ValidationCause.malformed kind value).message
  | read path cause => "failed to read " ++ path.text ++ ": " ++ cause.message
  | write path cause => "failed to write " ++ path.text ++ ": " ++ cause.message

end CompileError

end Runbook
