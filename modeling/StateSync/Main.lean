import StateSync.Demo.Arguments
import StateSync.Demo.Report

/-! The program: a server and its players run for some seconds of real time, frame by frame, and report. -/

namespace StateSync

/-- Plays frames as long as real time lasts them, until the deadline. -/
partial def playUntil (deadline last : Nat) (p : Play) : IO Play := do
  let now ← IO.monoNanosNow
  if deadline ≤ now then return p
  let frame := now - last
  let p := { p with network := p.network.elapse frame }
  let (journal, p) := (p.round frame).takeJournal
  for e in journal.events do
    if let some line := e.report? then IO.println line
  IO.sleep 1
  playUntil deadline now p

/-- Rolls for the packets of one run. -/
def rollFrom (seed : Nat) (packet : Nat) : Luck :=
  let roll (k : Nat) : Roll :=
    ⟨(seed + 3 * packet + k) * 6364136223846793005 / 65536 % 10000, Nat.mod_lt _ (by decide)⟩
  ⟨roll 0, roll 1, roll 2⟩

def runDemo (a : Arguments) (s : Settings) : IO UInt32 := do
  let now ← IO.monoNanosNow
  match Play.start (Network.create (rollFrom now)) s a.entities (List.replicate a.clients a.username) with
  | .error e =>
    IO.eprintln s!"Error: {e.message}"
    return 1
  | .ok p =>
    let p ← playUntil (now + a.seconds * second) now p
    for line in p.summary do
      IO.println line
    let _ := p.finish
    return 0

end StateSync

open StateSync in
def main (args : List String) : IO UInt32 := do
  match Arguments.ofWords args with
  | .error .displayHelp =>
    for line in Arguments.usage do
      IO.println line
    return 0
  | .error e =>
    IO.eprintln s!"error: {e.name}"
    return 2
  | .ok a =>
    match a.toSettings with
    | .error e =>
      IO.eprintln s!"Error: {e.message}"
      return 1
    | .ok s => runDemo a s
