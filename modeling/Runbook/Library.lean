import Runbook.Capture
import Runbook.Event
import Runbook.Text.Lines

/-!
The runtime library: the shell functions that every generated script sources. What the program reads back
from a run, the lines of events and the names of captured files, is written by them.
-/
namespace Runbook

def version : Text := "0.1.0"

namespace Library

def preamble : List Text :=
  [ "#!/usr/bin/env bash",
    "# Runtime helpers shared by generated jaiph modules." ]

def printVersion : List Text :=
  [ "jaiph__version() \x7b",
    "  echo \"jaiph " ++ version ++ "\"",
    "\x7d" ]

def die : List Text :=
  [ "jaiph__die() \x7b",
    "  echo \"jaiph: $1\" >&2",
    "  return 1",
    "\x7d" ]

def nowMs : List Text :=
  [ "jaiph__now_ms() \x7b",
    "  if [[ -n \"$\x7bEPOCHREALTIME:-\x7d\" ]]; then",
    "    local seconds=\"$\x7bEPOCHREALTIME%[.,]*\x7d\"",
    "    local fraction=\"$\x7bEPOCHREALTIME#*[.,]\x7d\"",
    "    printf '%s%s\\n' \"$seconds\" \"$\x7bfraction:0:3\x7d\"",
    "  else",
    "    printf '%s000\\n' \"$(date +%s)\"",
    "  fi",
    "\x7d" ]

def newRunId : List Text :=
  [ "jaiph__new_run_id() \x7b",
    "  if [[ -r /proc/sys/kernel/random/uuid ]]; then",
    "    cat /proc/sys/kernel/random/uuid",
    "    return 0",
    "  fi",
    "  if command -v uuidgen >/dev/null 2>&1; then",
    "    uuidgen | tr \"[:upper:]\" \"[:lower:]\"",
    "    return 0",
    "  fi",
    "  printf \"%s-%s-%s\\n\" \"$$\" \"$RANDOM\" \"$(date +%s)\"",
    "\x7d" ]

def sanitizeName : List Text :=
  [ "jaiph__sanitize_name() \x7b",
    "  local raw=\"$1\"",
    "  raw=\"$\x7braw//" ++ strayPattern ++ "/_\x7d\"",
    "  printf \"%s\" \"$raw\"",
    "\x7d" ]

/-- One replacement. A control character is written with its letter, any other behind a backslash. -/
def escapeLine (c sign : Char) : Text :=
  let found : Text := if c = sign then ['\\', c] else "$'\\" ++ [sign] ++ "'"
  let new : Text := if c = sign then ['\\', c] else [sign]
  "  value=\"$\x7bvalue//" ++ found ++ "/\\\\" ++ new ++ "\x7d\""

def jsonEscape : List Text :=
  let opening : List Text := ["jaiph__json_escape() \x7b", "  local value=\"$1\""]
  let closing : List Text := ["  printf \"%s\" \"$value\"", "\x7d"]
  opening ++ Event.escapes.map (fun (c, sign) => escapeLine c sign) ++ closing

def stepMarker : List Text :=
  [ "# Prints the kind marker that occurs first in FUNC, if any.",
    "jaiph__step_marker() \x7b",
    "  local func=\"$1\" marker head first=\"\" first_len=-1",
    "  for marker in " ++ [' '].intercalate (kindMarkers.map (·.1)) ++ "; do",
    "    [[ \"$func\" == *\"$marker\"* ]] || continue",
    "    head=\"$\x7bfunc%%\"$marker\"*\x7d\"",
    "    if (( first_len < 0 || $\x7b#head\x7d < first_len )); then",
    "      first=\"$marker\"",
    "      first_len=$\x7b#head\x7d",
    "    fi",
    "  done",
    "  printf \"%s\" \"$first\"",
    "\x7d" ]

def stepKind : List Text :=
  [ "jaiph__step_kind() \x7b",
    "  local marker",
    "  marker=\"$(jaiph__step_marker \"$1\")\"",
    "  if [[ -n \"$marker\" ]]; then",
    "    marker=\"$\x7bmarker#__\x7d\"",
    "    printf \"%s\" \"$\x7bmarker%_\x7d\"",
    "  elif [[ \"$1\" == \"" ++ promptFunction ++ "\" ]]; then",
    "    printf \"" ++ RowKind.prompt.text ++ "\"",
    "  else",
    "    printf \"" ++ RowKind.step.text ++ "\"",
    "  fi",
    "\x7d" ]

def stepName : List Text :=
  [ "jaiph__step_name() \x7b",
    "  local marker",
    "  marker=\"$(jaiph__step_marker \"$1\")\"",
    "  if [[ -n \"$marker\" ]]; then",
    "    printf \"%s\" \"$\x7b1#*\"$marker\"\x7d\"",
    "  elif [[ \"$1\" == \"" ++ promptFunction ++ "\" ]]; then",
    "    printf \"" ++ RowKind.prompt.text ++ "\"",
    "  else",
    "    printf \"%s\" \"$1\"",
    "  fi",
    "\x7d" ]

def slotText : Event.Slot → Text
  | .plain i => "\\\"$" ++ Text.ofNat i ++ "\\\""
  | .escaped i => "\\\"$(jaiph__json_escape \"$" ++ Text.ofNat i ++ "\")\\\""
  | .number i => '$' :: Text.ofNat i
  | .time => "\\\"$(date -u +%Y-%m-%dT%H:%M:%SZ)\\\""

/-- Members of the object of an event, inside a string of the shell. -/
def membersText (row : Nat) : Text :=
  let members := (Event.slots.getD row []).map fun (name, slot) => "\\\"" ++ name ++ "\\\":" ++ slotText slot
  [','].intercalate members

def emitEvent : List Text :=
  [ "# jaiph__emit_event TYPE FUNC KIND NAME [STATUS ELAPSED_MS OUT_FILE ERR_FILE]",
    "# Writes one event line to the descriptor in JAIPH_EVENT_FD, if any.",
    "jaiph__emit_event() \x7b",
    "  if [[ -z \"$\x7bJAIPH_EVENT_FD:-\x7d\" ]]; then",
    "    return 0",
    "  fi",
    "  local json",
    "  json=\"\x7b" ++ membersText 0 ++ "\"",
    "  json+=\"," ++ membersText 1 ++ "\"",
    "  if [[ \"$#\" -ge 8 ]]; then",
    "    json+=\"," ++ membersText 2 ++ "\"",
    "    json+=\"," ++ membersText 3 ++ "\"",
    "  fi",
    "  printf \"" ++ Event.marker ++ "%s\x7d\\n\" \"$json\" 2>/dev/null >&\"$JAIPH_EVENT_FD\" || true",
    "\x7d" ]

def initRunTracking : List Text :=
  [ "jaiph__init_run_tracking() \x7b",
    "  if [[ -z \"$\x7bJAIPH_RUN_DIR:-\x7d\" ]]; then",
    "    local started_at",
    "    started_at=\"$(date -u +%Y-%m-%dT%H-%M-%SZ)\"",
    "    JAIPH_RUN_ID=\"$\x7bJAIPH_RUN_ID:-$(jaiph__new_run_id)\x7d\"",
    "    JAIPH_RUN_DIR=\"$\x7bJAIPH_RUNS_DIR:-$PWD/.jaiph/runs\x7d/$\x7bstarted_at\x7d-$\x7bJAIPH_RUN_ID\x7d\"",
    "  fi",
    "  mkdir -p \"$JAIPH_RUN_DIR\" || return 1",
    "  if [[ ! -e \"$JAIPH_RUN_DIR/.preceding_files\" ]]; then",
    "    : >\"$JAIPH_RUN_DIR/.preceding_files\"",
    "  fi",
    "  export JAIPH_RUN_DIR JAIPH_RUN_ID",
    "\x7d" ]

def nextSeq : List Text :=
  [ "jaiph__next_seq() \x7b",
    "  local seq_file=\"$JAIPH_RUN_DIR/.seq\"",
    "  local seq=0",
    "  if [[ -s \"$seq_file\" ]]; then",
    "    seq=\"$(<\"$seq_file\")\"",
    "  fi",
    "  seq=$((seq + 1))",
    "  printf \"%s\" \"$seq\" >\"$seq_file\"",
    "  printf \"%03d\" \"$seq\"",
    "\x7d" ]

def precedingFiles : List Text :=
  [ "# Comma-separated out/err files of every step finished so far in this run.",
    "jaiph__preceding_files() \x7b",
    "  local -a entries=()",
    "  if [[ -s \"$JAIPH_RUN_DIR/.preceding_files\" ]]; then",
    "    mapfile -t entries <\"$JAIPH_RUN_DIR/.preceding_files\"",
    "  fi",
    "  local IFS=,",
    "  printf \"%s\" \"$\x7bentries[*]-\x7d\"",
    "\x7d" ]

def runStep : List Text :=
  let opening : List Text :=
    [ "# jaiph__run_step FUNC COMMAND [ARGS...]",
      "jaiph__run_step() \x7b",
      "  local func_name=\"$\x7b1:-\x7d\"",
      "  shift || true",
      "  if [[ -z \"$func_name\" ]]; then",
      "    jaiph__die \"jaiph__run_step requires a function name\"",
      "    return 1",
      "  fi",
      "  if [[ \"$#\" -eq 0 ]]; then",
      "    jaiph__die \"jaiph__run_step requires a command to execute\"",
      "    return 1",
      "  fi",
      "  jaiph__init_run_tracking || return 1",
      "",
      "  local kind name seq started_at safe_name out_file err_file started_ms elapsed_ms status",
      "  kind=\"$(jaiph__step_kind \"$func_name\")\"",
      "  name=\"$(jaiph__step_name \"$func_name\")\"",
      "  seq=\"$(jaiph__next_seq)\"",
      "  started_at=\"$(date -u +%Y%m%dT%H%M%SZ)\"",
      "  safe_name=\"$(jaiph__sanitize_name \"$func_name\")\"",
      "  out_file=\"$JAIPH_RUN_DIR/$\x7bstarted_at\x7d-$\x7bseq\x7d-$\x7bsafe_name\x7d.out\"",
      "  err_file=\"$JAIPH_RUN_DIR/$\x7bstarted_at\x7d-$\x7bseq\x7d-$\x7bsafe_name\x7d.err\"",
      "  JAIPH_PRECEDING_FILES=\"$(jaiph__preceding_files)\"",
      "  export JAIPH_PRECEDING_FILES",
      "" ]
  let rest : List Text :=
    [ "  started_ms=\"$(jaiph__now_ms)\"",
      "  jaiph__emit_event " ++ Phase.start.text ++ " \"$func_name\" \"$kind\" \"$name\"",
      "",
      "  local errexit=0",
      "  if [[ \"$-\" == *e* ]]; then",
      "    errexit=1",
      "  fi",
      "  set +e",
      "  ( set -e; \"$@\" ) >\"$out_file\" 2>\"$err_file\"",
      "  status=$?",
      "  if [[ \"$errexit\" -eq 1 ]]; then",
      "    set -e",
      "  fi",
      "",
      "  elapsed_ms=$(( $(jaiph__now_ms) - started_ms ))",
      "  printf \"%s\\n%s\\n\" \"$out_file\" \"$err_file\" >>\"$JAIPH_RUN_DIR/.preceding_files\"",
      "  if [[ -s \"$out_file\" ]]; then",
      "    cat \"$out_file\"",
      "  fi",
      "  if [[ -s \"$err_file\" ]]; then",
      "    cat \"$err_file\" >&2",
      "  fi",
      "  jaiph__emit_event " ++ Phase.finish.text ++ " \"$func_name\" \"$kind\" \"$name\" \"$status\"" ++
        " \"$elapsed_ms\" \"$out_file\" \"$err_file\"",
      "  return \"$status\"",
      "\x7d" ]
  opening ++ rest

def isolationMode : List Text :=
  [ "# Prints \"namespace\" or \"none\". The harness decides up front and exports",
    "# JAIPH_ISOLATION; \"auto\" probes when the script runs on its own.",
    "jaiph__isolation_mode() \x7b",
    "  case \"$\x7bJAIPH_ISOLATION:-auto\x7d\" in",
    "    namespace) printf \"namespace\" ;;",
    "    none) printf \"none\" ;;",
    "    *)",
    "      if [[ \"$(uname -s)\" == \"Linux\" ]] \\",
    "        && command -v unshare >/dev/null 2>&1 \\",
    "        && command -v sudo >/dev/null 2>&1 \\",
    "        && sudo -n true >/dev/null 2>&1; then",
    "        printf \"namespace\"",
    "      else",
    "        printf \"none\"",
    "      fi",
    "      ;;",
    "  esac",
    "\x7d" ]

def executeReadonly : List Text :=
  let opening : List Text :=
    [ "# Run a function with the root filesystem remounted read-only in a private",
      "# mount namespace. Falls back to a plain call when that is unavailable.",
      "jaiph__execute_readonly() \x7b",
      "  local func_name=\"$\x7b1:-\x7d\"",
      "  shift || true",
      "  if [[ -z \"$func_name\" ]]; then",
      "    jaiph__die \"jaiph__execute_readonly requires a function name\"",
      "    return 1",
      "  fi",
      "  if ! declare -F \"$func_name\" >/dev/null 2>&1; then",
      "    jaiph__die \"unknown function: $func_name\"",
      "    return 1",
      "  fi",
      "  if [[ \"$(jaiph__isolation_mode)\" != \"namespace\" ]]; then",
      "    \"$func_name\" \"$@\"",
      "    return $?",
      "  fi",
      "" ]
  let rest : List Text :=
    [ "  local function_defs",
      "  function_defs=\"$(declare -f)\"",
      "  sudo -n env \\",
      "    PATH=\"$PATH\" \\",
      "    JAIPH_FUNCS=\"$function_defs\" \\",
      "    JAIPH_RUN_DIR=\"$JAIPH_RUN_DIR\" \\",
      "    JAIPH_PRECEDING_FILES=\"$\x7bJAIPH_PRECEDING_FILES:-\x7d\" \\",
      "    unshare -m bash -c '",
      "      eval \"$JAIPH_FUNCS\"",
      "      unset JAIPH_FUNCS",
      "      mount --make-rprivate /",
      "      mount -o remount,ro /",
      "      set -eo pipefail",
      "      \"$@\"",
      "    ' jaiph-readonly \"$func_name\" \"$@\"",
      "\x7d" ]
  opening ++ rest

def prompt : List Text :=
  [ promptFunction ++ "() \x7b",
    "  jaiph__run_step " ++ promptFunction ++ " jaiph__prompt__impl \"$@\"",
    "\x7d" ]

def promptImpl : List Text :=
  [ "# Reads the prompt from stdin, records it, then hands it to the agent.",
    "jaiph__prompt__impl() \x7b",
    "  local prompt_text",
    "  prompt_text=\"$(cat)\"",
    "  printf \"Prompt:\\n%s\\n\\n\" \"$prompt_text\"",
    "",
    "  local -a agent_command=()",
    "  if [[ -n \"$\x7bJAIPH_AGENT_COMMAND:-\x7d\" ]]; then",
    "    read -r -a agent_command <<<\"$JAIPH_AGENT_COMMAND\"",
    "  else",
    "    agent_command=(cursor-agent --print --output-format text --workspace \"$\x7bJAIPH_WORKSPACE:-$PWD\x7d\" --trust)",
    "  fi",
    "  if [[ -n \"$\x7bJAIPH_AGENT_MODEL:-\x7d\" ]]; then",
    "    agent_command+=(--model \"$JAIPH_AGENT_MODEL\")",
    "  fi",
    "  \"$\x7bagent_command[@]\x7d\" \"$prompt_text\"",
    "\x7d" ]

def sections : List (List Text) :=
  [preamble, printVersion, die, nowMs, newRunId, sanitizeName, jsonEscape, stepMarker, stepKind, stepName,
    emitEvent, initRunTracking, nextSeq, precedingFiles, runStep, isolationMode, executeReadonly,
    prompt, promptImpl]

def text : Text := Text.unlines (sections.intersperse [[]]).flatten ++ "\n"

end Library

end Runbook
