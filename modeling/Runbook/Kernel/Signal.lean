import Runbook.Text.Basic

/-!
Signals by number and name, and what a process does that has said nothing about them.
-/
namespace Runbook.Kernel

namespace Signal

def interrupt : Nat := 2
def quit : Nat := 3
def killed : Nat := 9
def brokenPipe : Nat := 13
def terminate : Nat := 15
def child : Nat := 17
def continued : Nat := 18

def names : List Text :=
  ["HUP", "INT", "QUIT", "ILL", "TRAP", "ABRT", "BUS", "FPE", "KILL", "USR1", "SEGV", "USR2", "PIPE", "ALRM",
    "TERM", "STKFLT", "CHLD", "CONT", "STOP", "TSTP", "TTIN", "TTOU", "URG", "XCPU", "XFSZ", "VTALRM", "PROF",
    "WINCH", "IO", "PWR", "SYS"]

/-- The names of the signals that have no fixed meaning, with their numbers. -/
def realTimeNames : List (Nat × Text) :=
  (List.range 31).map fun i =>
    let name : Text :=
      if i = 0 then "RTMIN"
      else if i ≤ 15 then "RTMIN+" ++ Text.ofNat i
      else if i < 30 then "RTMAX-" ++ Text.ofNat (30 - i)
      else "RTMAX"
    (34 + i, name)

def all : List (Nat × Text) :=
  (names.zipIdx 1).map (fun (name, n) => (n, name)) ++ realTimeNames

def name? (n : Nat) : Option Text := all.lookup n

/-- The number of a signal, named with or without `SIG` in front, in letters of any size. -/
def number? (name : Text) : Option Nat :=
  let upper := name.map Char.toUpper
  let short := ("SIG".toList.isPrefixOf? upper).getD upper
  (all.find? (·.2 == short)).map (·.1)

def isHarmless (n : Nat) : Bool := n == child || n == continued || n == 23 || n == 28

def isStop (n : Nat) : Bool := n == 19 || n == 20 || n == 21 || n == 22

def description (n : Nat) : Text :=
  match n with
  | 1 => "Hangup"
  | 2 => "Interrupt"
  | 3 => "Quit"
  | 4 => "Illegal instruction"
  | 5 => "Trace/breakpoint trap"
  | 6 => "Aborted"
  | 7 => "Bus error"
  | 8 => "Floating point exception"
  | 9 => "Killed"
  | 10 => "User defined signal 1"
  | 11 => "Segmentation fault"
  | 12 => "User defined signal 2"
  | 13 => "Broken pipe"
  | 14 => "Alarm clock"
  | 15 => "Terminated"
  | 16 => "Stack fault"
  | 24 => "CPU time limit exceeded"
  | 25 => "File size limit exceeded"
  | 26 => "Virtual timer expired"
  | 27 => "Profiling timer expired"
  | 29 => "I/O possible"
  | 30 => "Power failure"
  | 31 => "Bad system call"
  | _ => "Unknown signal " ++ Text.ofNat n

end Signal

inductive Ending where
  | exited (status : Nat)
  | signaled (signal : Nat)
deriving DecidableEq

def Ending.status : Ending → Nat
  | exited status => status
  | signaled signal => 128 + signal

end Runbook.Kernel
