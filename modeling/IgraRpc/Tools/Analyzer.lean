import IgraRpc.Lib.Channel
import IgraRpc.Lib.Lts
import IgraRpc.Tools.CumulativeTotals

/-!
# The analyzer's loop — `bin/tx_perf.rs`

A task reads lines into a bounded channel. The loop takes a signal before a tick and a tick
before a line: a line is parsed and recorded, a tick purges the window and prints, and a
signal or the end of the lines prints once more and ends the loop. The timer may be late, so
that lines are still taken when a tick is due.

* `Analyzer.tick`, `Analyzer.handleLine`, `Analyzer.printFinal` — the branches of the loop;
* `analyzer` — the loop and the reader as one transition system, with any schedule of lines,
  ticks and signals. What holds of its runs is in `Tools.AnalyzerRuns`.

Times are in nanoseconds. What is printed is the data of the reports, without their layout.
-/

namespace IgraRpc

open Lib

-- ---------------------------------------------------------------------------
-- The code
-- ---------------------------------------------------------------------------

/-- The arguments of the command line. An interval of zero panics before the loop. -/
structure AnalyzerArgs where
  window : Nat
  interval : Nat
  interval_pos : 0 < interval
  topSlowest : Nat
  showDropped : Bool

/-- What the analyzer uses of its libraries. -/
structure AnalyzerLib where
  hdr : Hdr
  order : MapOrder
  reader : ReaderLib

inductive PrintedItem where
  | window (summary : WindowSummary)
  | overall (report : CumulativeReport)
  | dropped (count : Nat)
  /-- The hint that no call succeeded yet. -/
  | waiting (dropped : Option Nat)

/-- The variables of the loop. -/
structure Analyzer where
  sliding : SlidingWindowMetrics
  cumulative : CumulativeTotals
  dropped : Nat
  printedNoDataHint : Bool

/-- What an event of the log is added as. -/
def SlidingWindowMetrics.apply (self : SlidingWindowMetrics) (now : Nat) :
    ParsedEvent → SlidingWindowMetrics
  | .miningSuccess durationMicros => self.addMiningSuccess now (.ofNat durationMicros)
  | .rpcSuccess id hash latencyMicros => self.addRpcSuccess
      ⟨now, .ofNat latencyMicros, some (String.ofList id), some (String.ofList hash)⟩
  | .processorError _ _ error => self.addError now (String.ofList error)
  | .walletError _ error => self.addError now (String.ofList error)
  | .capacity free => self.addCapacity now (.ofNat free)
  | .walletOkTime .. => self
  | .processorOkTime .. => self

namespace Analyzer

def new (lib : AnalyzerLib) (args : AnalyzerArgs) (startedAt : Nat) : Analyzer where
  sliding := .new args.window
  cumulative := .new lib.hdr args.topSlowest startedAt
  dropped := 0
  printedNoDataHint := false

/-- An incoming line. -/
def handleLine (lib : AnalyzerLib) (self : Analyzer) (now : Nat) (line : List Char) : Analyzer :=
  match parseLine lib.reader line with
  | some event =>
    { self with
      sliding := self.sliding.apply now event
      cumulative := self.cumulative.apply lib.hdr event }
  | none => { self with dropped := min (self.dropped + 1) maxCount }

/-- The periodic summary. -/
def tick (lib : AnalyzerLib) (args : AnalyzerArgs) (self : Analyzer) (now : Nat) :
    Analyzer × List PrintedItem :=
  let sliding := self.sliding.purgeExpired now
  let reports := args.showDropped && decide (0 < self.dropped)
  match sliding.summarize lib.hdr lib.order args.topSlowest with
  | some win =>
    let overall := (self.cumulative.summarize lib.hdr now).toList.map .overall
    if reports then
      ({ self with sliding, dropped := 0 }, .window win :: overall ++ [.dropped self.dropped])
    else ({ self with sliding }, .window win :: overall)
  | none =>
    if self.printedNoDataHint then ({ self with sliding }, [])
    else if reports then
      ({ self with sliding, dropped := 0, printedNoDataHint := true },
        [.waiting (some self.dropped)])
    else ({ self with sliding, printedNoDataHint := true }, [.waiting none])

/-- `print_final`. -/
def printFinal (lib : AnalyzerLib) (args : AnalyzerArgs) (self : Analyzer) (now : Nat) :
    List PrintedItem :=
  (self.sliding.summarize lib.hdr lib.order args.topSlowest).toList.map .window ++
    (self.cumulative.summarize lib.hdr now).toList.map .overall ++
    (if args.showDropped && decide (0 < self.dropped) then [.dropped self.dropped] else [])

end Analyzer

/-- The capacity of the channel of lines. -/
def lineChannelCapacity : Nat := 10000

/-- Why the loop ended. -/
inductive AnalyzerEnd where
  | signal
  | endOfLines
  deriving DecidableEq

/-- What was printed at once: when, after how many lines, and when the window had been
purged. -/
structure AnalyzerReport where
  time : Nat
  seen : Nat
  purged : Nat
  final : Bool
  printed : List PrintedItem

/-- A run: the loop, the clock and the reader, and what they have done. -/
structure AnalyzerRun where
  analyzer : Analyzer
  clock : Nat
  nextTick : Nat
  lines : Channel (List Char) lineChannelCapacity
  /-- The reader's end of the channel is gone. -/
  readerDone : Bool
  ended : Option AnalyzerEnd
  reports : List AnalyzerReport
  /-- The lines the reader sent. -/
  sent : List (List Char)
  /-- The lines the loop took, with the times at which it did. -/
  received : List (Nat × List Char)
  /-- When the window was last purged. -/
  purged : Nat

/-- The run after the last report. -/
def AnalyzerRun.finish (lib : AnalyzerLib) (args : AnalyzerArgs) (s : AnalyzerRun)
    (reason : AnalyzerEnd) : AnalyzerRun :=
  { s with
    ended := some reason
    reports := s.reports ++ [⟨s.clock, s.received.length, s.purged, true,
      s.analyzer.printFinal lib args s.clock⟩] }

/-- The run after a tick. -/
def AnalyzerRun.afterTick (lib : AnalyzerLib) (args : AnalyzerArgs) (s : AnalyzerRun) :
    AnalyzerRun :=
  { s with
    analyzer := (s.analyzer.tick lib args s.clock).1
    nextTick := s.nextTick + args.interval
    reports := s.reports ++ [⟨s.clock, s.received.length, s.clock, false,
      (s.analyzer.tick lib args s.clock).2⟩]
    purged := s.clock }

inductive AnalyzerLabel where
  | wait (later : Nat)
  | send (line : List Char)
  | readerEnds
  | signal
  | tick
  | line
  | endOfLines

/-- One step. The branches of the loop are tried in order, but a tick that is due is ready only
when the timer has fired: until then lines are taken. A full channel makes the reader wait. -/
inductive AnalyzerStep (lib : AnalyzerLib) (args : AnalyzerArgs) :
    AnalyzerRun → AnalyzerLabel → AnalyzerRun → Prop where
  | wait (s : AnalyzerRun) (later : Nat) (hlater : s.clock ≤ later) :
      AnalyzerStep lib args s (.wait later) { s with clock := later }
  | send (s : AnalyzerRun) (line : List Char) (lines : Channel (List Char) lineChannelCapacity)
      (hopen : s.readerDone = false) (hsend : s.lines.trySend line = .ok lines) :
      AnalyzerStep lib args s (.send line) { s with lines, sent := s.sent ++ [line] }
  | readerEnds (s : AnalyzerRun) :
      AnalyzerStep lib args s .readerEnds { s with readerDone := true }
  | signal (s : AnalyzerRun) (hrunning : s.ended = none) :
      AnalyzerStep lib args s .signal (s.finish lib args .signal)
  | tick (s : AnalyzerRun) (hrunning : s.ended = none) (hdue : s.nextTick ≤ s.clock) :
      AnalyzerStep lib args s .tick (s.afterTick lib args)
  | line (s : AnalyzerRun) (line : List Char) (lines : Channel (List Char) lineChannelCapacity)
      (hrunning : s.ended = none) (hrecv : s.lines.recv = some (line, lines)) :
      AnalyzerStep lib args s .line
        { s with
          analyzer := s.analyzer.handleLine lib s.clock line
          lines
          received := s.received ++ [(s.clock, line)] }
  | endOfLines (s : AnalyzerRun) (hrunning : s.ended = none) (hclosed : s.readerDone = true)
      (hempty : s.lines.recv = none) :
      AnalyzerStep lib args s .endOfLines (s.finish lib args .endOfLines)

/-- The run before the loop. -/
def AnalyzerRun.start (lib : AnalyzerLib) (args : AnalyzerArgs) (startedAt : Nat) :
    AnalyzerRun where
  analyzer := .new lib args startedAt
  clock := startedAt
  nextTick := startedAt + args.interval
  lines := Channel.empty
  readerDone := false
  ended := none
  reports := []
  sent := []
  received := []
  purged := startedAt

/-- `main`, from the loop on. -/
def analyzer (lib : AnalyzerLib) (args : AnalyzerArgs) : Lts AnalyzerRun AnalyzerLabel where
  init s := ∃ startedAt, s = .start lib args startedAt
  step := AnalyzerStep lib args

/-- The steps of a reader that has given lines to send, and ends when it has sent them. -/
def ReaderOf (file : List (List Char)) (s : AnalyzerRun) : AnalyzerLabel → Prop
  | .send line => s.sent ++ [line] <+: file
  | .readerEnds => s.sent = file
  | _ => True

/-- `main` with a reader of given lines. -/
def analyzerOf (lib : AnalyzerLib) (args : AnalyzerArgs) (file : List (List Char)) :
    Lts AnalyzerRun AnalyzerLabel :=
  (analyzer lib args).restrict (ReaderOf file)

end IgraRpc
