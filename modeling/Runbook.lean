import Runbook.Main
import Runbook.Proofs.Attribution
import Runbook.Proofs.Bodies
import Runbook.Proofs.Calls
import Runbook.Proofs.Captures
import Runbook.Proofs.Cursor
import Runbook.Proofs.Delimiter
import Runbook.Proofs.Drawing
import Runbook.Proofs.Escapes
import Runbook.Proofs.EventLine
import Runbook.Proofs.FailedBuild
import Runbook.Proofs.FunctionNames
import Runbook.Proofs.Indentation
import Runbook.Proofs.Loading
import Runbook.Proofs.Markers
import Runbook.Proofs.Places
import Runbook.Proofs.Printing
import Runbook.Proofs.PromptBody
import Runbook.Proofs.ReferencePattern
import Runbook.Proofs.RuntimeLibrary
import Runbook.Proofs.Scaffold
