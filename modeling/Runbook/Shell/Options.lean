import Runbook.Text.Basic

/-!
What can be switched on and off in a shell: settings with a letter or a name, and behaviours that
have names only.
-/
namespace Runbook.Shell

inductive Setting where
  | allexport | braceexpand | emacs | errexit | errtrace | functrace | hashall | histexpand | history
  | ignoreeof | interactiveComments | keyword | monitor | noclobber | noexec | noglob | nolog | notify
  | nounset | onecmd | physical | pipefail | posix | privileged | verbose | vi | xtrace
deriving DecidableEq

namespace Setting

def names : List (Setting × Text) :=
  [(allexport, "allexport"), (braceexpand, "braceexpand"), (emacs, "emacs"), (errexit, "errexit"),
    (errtrace, "errtrace"), (functrace, "functrace"), (hashall, "hashall"), (histexpand, "histexpand"),
    (history, "history"), (ignoreeof, "ignoreeof"), (interactiveComments, "interactive-comments"),
    (keyword, "keyword"), (monitor, "monitor"), (noclobber, "noclobber"), (noexec, "noexec"),
    (noglob, "noglob"), (nolog, "nolog"), (notify, "notify"), (nounset, "nounset"), (onecmd, "onecmd"),
    (physical, "physical"), (pipefail, "pipefail"), (posix, "posix"), (privileged, "privileged"),
    (verbose, "verbose"), (vi, "vi"), (xtrace, "xtrace")]

def all : List Setting := names.map (·.1)

def name (x : Setting) : Text := (names.lookup x).getD []

def letters : List (Char × Setting) :=
  [('a', allexport), ('b', notify), ('e', errexit), ('f', noglob), ('h', hashall), ('k', keyword), ('m', monitor),
    ('n', noexec), ('p', privileged), ('t', onecmd), ('u', nounset), ('v', verbose), ('x', xtrace),
    ('B', braceexpand), ('C', noclobber), ('E', errtrace), ('H', histexpand), ('P', physical), ('T', functrace)]

def ofName? (t : Text) : Option Setting := (names.find? (·.2 = t)).map (·.1)

def ofLetter? (c : Char) : Option Setting := letters.lookup c

def initial : List Setting := [braceexpand, hashall, interactiveComments]

end Setting

namespace Behaviour

def all : List Text :=
  List.splitOn ' '
    ("autocd assoc_expand_once cdable_vars cdspell checkhash checkjobs checkwinsize cmdhist compat31 " ++
      "compat32 compat40 compat41 compat42 compat43 compat44 complete_fullquote direxpand dirspell " ++
      "dotglob execfail expand_aliases extdebug extglob extquote failglob force_fignore " ++
      "globasciiranges globskipdots globstar gnu_errfmt histappend histreedit histverify hostcomplete " ++
      "huponexit inherit_errexit interactive_comments lastpipe lithist localvar_inherit localvar_unset " ++
      "login_shell mailwarn no_empty_cmd_completion nocaseglob nocasematch noexpand_translation " ++
      "nullglob patsub_replacement progcomp progcomp_alias promptvars restricted_shell shift_verbose " ++
      "sourcepath varredir_close xpg_echo" : Text)

def initial : List Text :=
  ["checkwinsize", "cmdhist", "complete_fullquote", "extquote", "force_fignore", "globasciiranges",
    "globskipdots", "hostcomplete", "interactive_comments", "patsub_replacement", "progcomp", "promptvars",
    "sourcepath"]

end Behaviour

end Runbook.Shell
