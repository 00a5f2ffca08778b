import Runbook.Kernel.Action

/-!
Running processes. One runs until it has to wait or ends; when all of them wait, time goes on to the first
moment asked for.
-/
namespace Runbook.Kernel

structure Thread where
  pid : Nat
  action : Action

namespace Scheduler

def conclude (w : World) (pid : Nat) (e : Ending) : World := ((Sys.finish pid e).run.run w).2

inductive Stand where
  | gone
  | waiting (action : Action)

def runOne : Nat → World → Nat → Action → List Thread → World × Stand × List Thread
  | 0, w, pid, _, started => (conclude w pid (.signaled Signal.killed), .gone, started)
  | fuel + 1, w, pid, action, started =>
    match w.processes.lookup pid with
    | none => (w, .gone, started)
    | some p =>
      match Sys.fatal? p with
      | some signal => (conclude w pid (.signaled signal), .gone, started)
      | none =>
        if p.isStopped then (w, .waiting action, started)
        else
          match action with
          | .finish e => (conclude w pid e, .gone, started)
          | .attempt step =>
            match step w with
            | some (w, next) => runOne fuel w pid next started
            | none => (w, .waiting action, started)
          | .fork child next =>
            match (Sys.fork pid).run.run w with
            | (.ok id, w) => runOne fuel w pid (next id) (⟨id, child id⟩ :: started)
            | (.error _, w) => (w, .gone, started)

def isReady (w : World) (t : Thread) : Bool :=
  match w.processes.lookup t.pid with
  | none => true
  | some p =>
    (Sys.fatal? p).isSome ||
      (!p.isStopped &&
        match t.action with
        | .attempt step => (step w).isSome
        | _ => true)

def nextMoment (w : World) (threads : List Thread) : Option Nat :=
  let asked := threads.filterMap fun t => (w.processes.lookup t.pid).bind (·.wakeAt)
  (asked.filter (w.clock.millis < ·)).min?

def pick (w : World) : List Thread → List Thread → Option (List Thread × Thread × List Thread)
  | _, [] => none
  | before, t :: rest => if isReady w t then some (before.reverse, t, rest) else pick w (t :: before) rest

/-- Runs threads until none is left, none can go on, or all wait for a later moment that nobody needs. New
ones come behind the one that started them. -/
def run (isOver : World → Bool) : Nat → Nat → World → List Thread → World
  | 0, _, w, _ => w
  | fuel + 1, limit, w, threads =>
    match pick w [] threads with
    | some (before, t, rest) =>
      let (w, stand, started) := runOne limit w t.pid t.action []
      match stand with
      | .gone => run isOver fuel limit w (before ++ started.reverse ++ rest)
      | .waiting action => run isOver fuel limit w (before ++ started.reverse ++ rest ++ [⟨t.pid, action⟩])
    | none =>
      if isOver w then w
      else
        match nextMoment w threads with
        | some moment => run isOver fuel limit { w with clock := ⟨moment⟩ } threads
        | none => w

end Scheduler

end Runbook.Kernel
