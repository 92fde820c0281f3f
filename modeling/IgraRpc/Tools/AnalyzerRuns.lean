import IgraRpc.Tools.Analyzer

/-!
# The analyzer's runs

The loop of `Tools.Analyzer` beside the lines that it received.

* `windowOf` — the samples that a sequence of lines leaves in a window that was last purged
  at some time;
* `ReportRight` — a report is about the lines before it;
* `analyzer_accounts` — **every line counts where it belongs, in every run**: what a tick
  prints is about exactly the lines received within the window, the totals count all lines,
  lines that were not understood are reported one and all, the last report is printed once, and
  at the end of the lines none is left out.
-/

namespace IgraRpc

open Lib

-- ---------------------------------------------------------------------------
-- Lines and samples
-- ---------------------------------------------------------------------------

section
variable (reader : ReaderLib)

/-- The sample of a line of one kind, received at a time. -/
def sampleOf {α β : Type} (kind : ParsedEvent → Option α) (sample : Nat → α → β)
    (entry : Nat × List Char) : Option β :=
  ((parseLine reader entry.2).bind kind).map (sample entry.1)

/-- The samples that lines leave in a window which was last purged at a time. -/
def windowOf (window purged : Nat) (received : List (Nat × List Char)) :
    SlidingWindowMetrics where
  window := window
  rpcSamples := recent Prod.fst (sampleOf reader ParsedEvent.slowItem?
    fun now item => ⟨now, item.latencyMicros, item.id, item.hash⟩) window purged received
  miningSamples := recent Prod.fst (sampleOf reader ParsedEvent.miningDuration?
    MiningSample.mk) window purged received
  errorSamples := recent Prod.fst (sampleOf reader ParsedEvent.errorMessage?
    ErrorSample.mk) window purged received
  capacitySamples := recent Prod.fst (sampleOf reader ParsedEvent.capacity?
    CapacitySample.mk) window purged received

/-- The events of lines. -/
def eventsOf (received : List (Nat × List Char)) : List ParsedEvent :=
  received.filterMap fun entry => parseLine reader entry.2

/-- The number of lines that are not understood. -/
def unparsed (received : List (Nat × List Char)) : Nat :=
  received.countP fun entry => (parseLine reader entry.2).isNone

variable {reader} {window purged now : Nat} {received : List (Nat × List Char)}

/-- A line that is received adds its sample, if it is understood. -/
theorem windowOf_concat (hnow : purged ≤ now) (line : List Char) :
    windowOf reader window purged (received ++ [(now, line)]) =
      match parseLine reader line with
      | some event => (windowOf reader window purged received).apply now event
      | none => windowOf reader window purged received := by
  have hconcat : ∀ {β : Type} (f : Nat × List Char → Option β),
      recent Prod.fst f window purged (received ++ [(now, line)]) =
        recent Prod.fst f window purged received ++ (f (now, line)).toList :=
    fun f => recent_concat hnow
  simp only [windowOf, hconcat, sampleOf]
  cases parseLine reader line with
  | none => simp
  | some event =>
    cases event <;> simp [SlidingWindowMetrics.apply, SlidingWindowMetrics.addMiningSuccess,
      SlidingWindowMetrics.addRpcSuccess, SlidingWindowMetrics.addError,
      SlidingWindowMetrics.addCapacity, ParsedEvent.slowItem?, ParsedEvent.miningDuration?,
      ParsedEvent.errorMessage?, ParsedEvent.capacity?]

theorem sampleOf_time {α β : Type} {kind : ParsedEvent → Option α} {sample : Nat → α → β}
    {time : β → Nat} (htime : ∀ now a, time (sample now a) = now) (entry : Nat × List Char)
    (b : β) (h : sampleOf reader kind sample entry = some b) : time b = entry.1 := by
  obtain ⟨a, -, rfl⟩ := Option.map_eq_some_iff.mp h
  exact htime entry.1 a

/-- **A purge leaves the lines within the window.** -/
theorem purgeExpired_windowOf (horder : InOrder Prod.fst now received) (hle : purged ≤ now) :
    (windowOf reader window purged received).purgeExpired now =
      windowOf reader window now received := by
  simp only [SlidingWindowMetrics.purgeExpired, windowOf, SlidingWindowMetrics.mk.injEq,
    true_and]
  exact ⟨expire_recent horder hle (sampleOf_time fun _ _ => rfl),
    expire_recent horder hle (sampleOf_time fun _ _ => rfl),
    expire_recent horder hle (sampleOf_time fun _ _ => rfl),
    expire_recent horder hle (sampleOf_time fun _ _ => rfl)⟩

theorem eventsOf_concat (line : List Char) :
    eventsOf reader (received ++ [(now, line)]) =
      eventsOf reader received ++ (parseLine reader line).toList := by
  rw [eventsOf, List.filterMap_append, ← eventsOf]
  cases hline : parseLine reader line with
  | none => simp [hline]
  | some event => simp [hline]

theorem unparsed_concat (line : List Char) :
    unparsed reader (received ++ [(now, line)]) =
      unparsed reader received + if (parseLine reader line).isNone then 1 else 0 := by
  rw [unparsed, List.countP_append, List.countP_singleton, ← unparsed]

end

-- ---------------------------------------------------------------------------
-- What is printed
-- ---------------------------------------------------------------------------

/-- The summaries are about the lines: that of the window about those within it; the overall
one counts all of them, and its statistics are those of a last part of their values. Whenever a
call succeeded in the window, there is a summary of it. -/
structure PrintedRight (lib : AnalyzerLib) (args : AnalyzerArgs) (purged : Nat)
    (received : List (Nat × List Char)) (printed : List PrintedItem) : Prop where
  window : ∀ summary, .window summary ∈ printed → summary.Describes lib.hdr
    (windowOf lib.reader args.window purged received) args.topSlowest
  shown : (windowOf lib.reader args.window purged received).rpcSamples ≠ [] →
    ∃ summary, .window summary ∈ printed
  overall : ∀ report, .overall report ∈ printed →
    report.Describes lib.hdr args.topSlowest (eventsOf lib.reader received)

/-- The report is about the lines that were received before it. Only a tick purges the window
first: the last report may have older samples in it. -/
structure ReportRight (lib : AnalyzerLib) (args : AnalyzerArgs)
    (received : List (Nat × List Char)) (report : AnalyzerReport) : Prop where
  seen : report.seen ≤ received.length
  purged : report.purged ≤ report.time
  purgedNow : report.final = false → report.purged = report.time
  printed : PrintedRight lib args report.purged (received.take report.seen) report.printed
  overallShown : report.final = true →
    successesOf (eventsOf lib.reader (received.take report.seen)) ≠ [] →
    ∃ totals, .overall totals ∈ report.printed

/-- The number of lines that are told to be dropped. -/
def PrintedItem.drops : PrintedItem → Nat
  | dropped count => count
  | waiting (some count) => count
  | _ => 0

def AnalyzerReport.drops (report : AnalyzerReport) : Nat :=
  (report.printed.map PrintedItem.drops).sum

def PrintedItem.isHint : PrintedItem → Bool
  | waiting _ => true
  | _ => false

section
variable {lib : AnalyzerLib} {args : AnalyzerArgs} {loop : Analyzer} {now purged startedAt : Nat}
  {received : List (Nat × List Char)}

/-- The variables of the loop are about the lines received. -/
structure LoopRight (lib : AnalyzerLib) (args : AnalyzerArgs) (purged : Nat)
    (received : List (Nat × List Char)) (loop : Analyzer) : Prop where
  sliding : loop.sliding = windowOf lib.reader args.window purged received
  totals : ∃ startedAt, loop.cumulative =
    totalsOf lib.hdr args.topSlowest startedAt (eventsOf lib.reader received)

theorem loopRight_new (lib : AnalyzerLib) (args : AnalyzerArgs) (startedAt : Nat) :
    LoopRight lib args startedAt [] (.new lib args startedAt) :=
  ⟨rfl, startedAt, rfl⟩

theorem LoopRight.handleLine (h : LoopRight lib args purged received loop) (hnow : purged ≤ now)
    (line : List Char) :
    LoopRight lib args purged (received ++ [(now, line)]) (loop.handleLine lib now line) := by
  obtain ⟨startedAt, htotals⟩ := h.totals
  rw [Analyzer.handleLine]
  refine ⟨?_, startedAt, ?_⟩
  · rw [windowOf_concat hnow, ← h.sliding]
    cases parseLine lib.reader line with
    | none => rfl
    | some event => rfl
  · rw [eventsOf_concat]
    cases parseLine lib.reader line with
    | none =>
      rw [Option.toList_none, List.append_nil]
      exact htotals
    | some event =>
      rw [Option.toList_some, totalsOf, List.foldl_append, ← totalsOf, ← htotals]
      rfl

/-- What the loop prints is about the lines received, if the window it prints is. -/
theorem LoopRight.printedRight (h : LoopRight lib args purged received loop) (now : Nat)
    {printed : List PrintedItem}
    (hwindow : ∀ summary, .window summary ∈ printed ↔
      loop.sliding.summarize lib.hdr lib.order args.topSlowest = some summary)
    (hoverall : ∀ report, .overall report ∈ printed →
      loop.cumulative.summarize lib.hdr now = some report) :
    PrintedRight lib args purged received printed := by
  obtain ⟨startedAt, htotals⟩ := h.totals
  obtain ⟨hnone, hdescribes⟩ := summarize_describes lib.hdr lib.order
    (windowOf lib.reader args.window purged received) args.topSlowest
  rw [← h.sliding] at hnone hdescribes
  refine ⟨?_, ?_, ?_⟩
  · intro summary hmem
    rw [← h.sliding]
    exact hdescribes summary ((hwindow summary).mp hmem)
  · intro hne
    rw [← h.sliding] at hne
    obtain ⟨summary, hsummary⟩ := Option.ne_none_iff_exists'.mp (mt hnone.mp hne)
    exact ⟨summary, (hwindow summary).mpr hsummary⟩
  · intro report hmem
    have hreport := hoverall report hmem
    rw [htotals] at hreport
    exact (summarize_totals lib.hdr args.topSlowest startedAt _ now).2 report hreport

/-- What a tick prints, and what it leaves of the count of dropped lines. -/
theorem tick_cases (lib : AnalyzerLib) (args : AnalyzerArgs) (loop : Analyzer) (now : Nat) :
    let sliding := loop.sliding.purgeExpired now
    let shown := if args.showDropped && decide (0 < loop.dropped) then loop.dropped else 0
    (∃ win tail, sliding.summarize lib.hdr lib.order args.topSlowest = some win ∧
        (tail = [] ∨ ∃ count, tail = [.dropped count]) ∧ (tail.map PrintedItem.drops).sum = shown ∧
        loop.tick lib args now = ({ loop with sliding, dropped := loop.dropped - shown },
          .window win :: (loop.cumulative.summarize lib.hdr now).toList.map .overall ++ tail)) ∨
      sliding.summarize lib.hdr lib.order args.topSlowest = none ∧
        (loop.printedNoDataHint = true ∧ loop.tick lib args now = ({ loop with sliding }, []) ∨
          loop.printedNoDataHint = false ∧ ∃ hint : Option Nat,
            (PrintedItem.waiting hint).drops = shown ∧ loop.tick lib args now =
              ({ loop with
                  sliding, dropped := loop.dropped - shown, printedNoDataHint := true },
                [.waiting hint])) := by
  simp only [Analyzer.tick]
  by_cases hshow : (args.showDropped && decide (0 < loop.dropped)) = true
  · cases (loop.sliding.purgeExpired now).summarize lib.hdr lib.order args.topSlowest with
    | some win =>
      exact Or.inl ⟨win, [.dropped loop.dropped], rfl, Or.inr ⟨_, rfl⟩,
        by simp [hshow, PrintedItem.drops], by simp [hshow]⟩
    | none =>
      refine Or.inr ⟨rfl, ?_⟩
      cases hhint : loop.printedNoDataHint with
      | true => exact Or.inl ⟨rfl, by simp⟩
      | false =>
        exact Or.inr ⟨rfl, some loop.dropped, by simp [hshow, PrintedItem.drops], by simp [hshow]⟩
  · cases (loop.sliding.purgeExpired now).summarize lib.hdr lib.order args.topSlowest with
    | some win =>
      exact Or.inl ⟨win, [], rfl, Or.inl rfl, by simp [hshow], by simp [hshow]⟩
    | none =>
      refine Or.inr ⟨rfl, ?_⟩
      cases hhint : loop.printedNoDataHint with
      | true => exact Or.inl ⟨rfl, by simp⟩
      | false => exact Or.inr ⟨rfl, none, by simp [hshow, PrintedItem.drops], by simp [hshow]⟩

/-- The overall summary drops nothing and hints at nothing. -/
theorem drops_overall (report : Option CumulativeReport) :
    ((report.toList.map PrintedItem.overall).map PrintedItem.drops).sum = 0 := by
  cases report <;> rfl

theorem countP_isHint_overall (report : Option CumulativeReport) :
    (report.toList.map PrintedItem.overall).countP PrintedItem.isHint = 0 := by
  cases report <;> rfl

/-- The number of hints that the flag stands for. -/
def hints (printedNoDataHint : Bool) : Nat := if printedNoDataHint then 1 else 0

/-- A tick purges the window and prints about it; what it tells to be dropped is taken off
the count, and it hints once. -/
structure TickRight (lib : AnalyzerLib) (args : AnalyzerArgs) (now : Nat)
    (received : List (Nat × List Char)) (loop : Analyzer) (result : Analyzer × List PrintedItem) :
    Prop where
  right : LoopRight lib args now received result.1
  printed : PrintedRight lib args now received result.2
  drops : (result.2.map PrintedItem.drops).sum + result.1.dropped = loop.dropped
  silent : args.showDropped = false → (result.2.map PrintedItem.drops).sum = 0
  hints : result.2.countP PrintedItem.isHint + IgraRpc.hints loop.printedNoDataHint =
    IgraRpc.hints result.1.printedNoDataHint

theorem LoopRight.tick (h : LoopRight lib args purged received loop)
    (horder : InOrder Prod.fst now received) (hle : purged ≤ now) :
    TickRight lib args now received loop (loop.tick lib args now) := by
  have hpurged : LoopRight lib args now received
      { loop with sliding := loop.sliding.purgeExpired now } := by
    refine ⟨?_, h.totals⟩
    rw [h.sliding]
    exact purgeExpired_windowOf horder hle
  have hle_dropped : ∀ {shown : Nat},
      shown = (if args.showDropped && decide (0 < loop.dropped) then loop.dropped else 0) →
        shown ≤ loop.dropped ∧ (args.showDropped = false → shown = 0) := by
    rintro shown rfl
    refine ⟨?_, fun hsilent => ?_⟩
    · split <;> omega
    · rw [hsilent]
      rfl
  rcases tick_cases lib args loop now with ⟨win, tail, hwin, htail, hdrops, htick⟩ | ⟨hnone, hrest⟩
  · obtain ⟨hshown, hsilent⟩ := hle_dropped hdrops
    have hsum : (((.window win :: (loop.cumulative.summarize lib.hdr now).toList.map .overall) ++
        tail : List PrintedItem).map PrintedItem.drops).sum = (tail.map PrintedItem.drops).sum := by
      rw [List.map_append, List.sum_append, List.map_cons, List.sum_cons, drops_overall]
      show 0 + 0 + _ = _
      omega
    rw [htick, ← hdrops]
    refine ⟨⟨hpurged.sliding, hpurged.totals⟩, hpurged.printedRight now ?_ ?_, ?_, ?_, ?_⟩
    · intro summary
      rcases htail with rfl | ⟨count, rfl⟩
      · simp [hwin, eq_comm]
      · simp [hwin, eq_comm]
    · intro report hmem
      rcases htail with rfl | ⟨count, rfl⟩
      · simpa [Option.mem_toList] using hmem
      · simpa [Option.mem_toList] using hmem
    · show (((.window win :: (loop.cumulative.summarize lib.hdr now).toList.map .overall) ++
        tail : List PrintedItem).map PrintedItem.drops).sum + (loop.dropped - _) = _
      rw [hsum]
      omega
    · intro hquiet
      exact hsum.trans (hsilent hquiet)
    · show ((.window win :: (loop.cumulative.summarize lib.hdr now).toList.map .overall) ++
        tail : List PrintedItem).countP PrintedItem.isHint + _ = _
      have htailHint : tail.countP PrintedItem.isHint = 0 := by
        rcases htail with rfl | ⟨count, rfl⟩
        · rfl
        · rfl
      rw [List.countP_append, htailHint, List.countP_cons_of_neg (by simp [PrintedItem.isHint]),
        countP_isHint_overall]
      exact Nat.zero_add _
  · have hnothing : ∀ {printed : List PrintedItem}, (∀ p ∈ printed, p.isHint = true) →
        PrintedRight lib args now received printed := by
      intro printed hhints
      refine hpurged.printedRight now ?_ ?_
      · intro summary
        refine ⟨fun hmem => absurd (hhints _ hmem) (by simp [PrintedItem.isHint]), fun hsome => ?_⟩
        exact absurd (hnone.symm.trans hsome) (by simp)
      · exact fun report hmem => absurd (hhints _ hmem) (by simp [PrintedItem.isHint])
    rcases hrest with ⟨hhint, htick⟩ | ⟨hhint, hint, hdrops, htick⟩
    · rw [htick]
      exact ⟨hpurged, hnothing fun p hp => absurd hp List.not_mem_nil, Nat.zero_add _,
        fun _ => rfl, Nat.zero_add _⟩
    · obtain ⟨hshown, hsilent⟩ := hle_dropped hdrops
      rw [htick, ← hdrops]
      refine ⟨⟨hpurged.sliding, hpurged.totals⟩, hnothing ?_, ?_, hsilent, ?_⟩
      · intro p hp
        rw [List.mem_singleton.mp hp]
        rfl
      · show (PrintedItem.waiting hint).drops + 0 +
          (loop.dropped - (PrintedItem.waiting hint).drops) = _
        omega
      · rw [hhint]
        rfl

/-- What is printed at the end is about all samples that are left. -/
theorem LoopRight.printFinal (h : LoopRight lib args purged received loop) (now : Nat) :
    PrintedRight lib args purged received (loop.printFinal lib args now) ∧
      (successesOf (eventsOf lib.reader received) ≠ [] →
        ∃ totals, .overall totals ∈ loop.printFinal lib args now) ∧
      ((loop.printFinal lib args now).map PrintedItem.drops).sum =
        (if args.showDropped then loop.dropped else 0) ∧
      (loop.printFinal lib args now).countP PrintedItem.isHint = 0 := by
  obtain ⟨startedAt, htotals⟩ := h.totals
  have htail : ∀ p ∈ (if args.showDropped && decide (0 < loop.dropped)
      then [PrintedItem.dropped loop.dropped] else []), p = .dropped loop.dropped := by
    intro p hp
    split at hp
    · exact List.mem_singleton.mp hp
    · exact absurd hp List.not_mem_nil
  rw [Analyzer.printFinal]
  generalize htailEq : (if args.showDropped && decide (0 < loop.dropped)
    then [PrintedItem.dropped loop.dropped] else []) = tail at htail ⊢
  refine ⟨h.printedRight now ?_ ?_, ?_, ?_, ?_⟩
  · intro summary
    have hnot : PrintedItem.window summary ∉ tail := fun hmem => absurd (htail _ hmem) (by simp)
    simp [hnot, Option.mem_toList]
  · intro report hmem
    have hnot : PrintedItem.overall report ∉ tail := fun hmem => absurd (htail _ hmem) (by simp)
    simpa [hnot, Option.mem_toList] using hmem
  · intro hne
    obtain ⟨hnone, -⟩ := summarize_totals lib.hdr args.topSlowest startedAt
      (eventsOf lib.reader received) now
    rw [← htotals] at hnone
    obtain ⟨report, hreport⟩ := Option.ne_none_iff_exists'.mp (mt hnone.mp hne)
    exact ⟨report, by simp [hreport]⟩
  · have hdrops : (tail.map PrintedItem.drops).sum =
        if args.showDropped then loop.dropped else 0 := by
      rw [← htailEq]
      cases args.showDropped with
      | false => rfl
      | true =>
        by_cases hpos : 0 < loop.dropped
        · simp [hpos, PrintedItem.drops]
        · have hzero : loop.dropped = 0 := by omega
          simp [hzero]
    rw [List.map_append, List.map_append, List.sum_append, List.sum_append, drops_overall, hdrops]
    cases loop.sliding.summarize lib.hdr lib.order args.topSlowest with
    | none => exact Nat.zero_add _
    | some win => exact Nat.zero_add _
  · rw [List.countP_append, List.countP_append, countP_isHint_overall]
    have htailHint : tail.countP PrintedItem.isHint = 0 := by
      rw [List.countP_eq_zero]
      intro p hp
      rw [htail p hp]
      simp [PrintedItem.isHint]
    rw [htailHint]
    cases loop.sliding.summarize lib.hdr lib.order args.topSlowest <;> rfl

end

-- ---------------------------------------------------------------------------
-- Every run
-- ---------------------------------------------------------------------------

/-- Lines that are told to be dropped, and those that are still to be told. -/
def AnalyzerRun.toldDropped (s : AnalyzerRun) : Nat := (s.reports.map AnalyzerReport.drops).sum

/-- Everything that the run has printed. -/
def AnalyzerRun.printed (s : AnalyzerRun) : List PrintedItem :=
  s.reports.flatMap AnalyzerReport.printed

/-- The last report is printed when the loop ends, and it is about all lines received. -/
structure LastReport (s : AnalyzerRun) : Prop where
  running : s.ended = none → ∀ report ∈ s.reports, report.final = false
  ended : s.ended ≠ none → ∃ earlier last, s.reports = earlier ++ [last] ∧
    last.final = true ∧ last.seen = s.received.length ∧ ∀ report ∈ earlier, report.final = false

/-- Each line that was sent is received once, in order, or still waiting; reports are about
the lines before them; lines that were not understood are told, or still to be told, or not
to be told at all; and at the end of the lines all of them were received. -/
structure RunAccounted (lib : AnalyzerLib) (args : AnalyzerArgs) (s : AnalyzerRun) : Prop where
  inOrder : s.sent = s.received.map Prod.snd ++ s.lines.items
  reports : ∀ report ∈ s.reports, ReportRight lib args s.received report
  last : LastReport s
  dropped : unparsed lib.reader s.received ≤ maxCount → s.toldDropped +
    (if s.ended ≠ none ∧ args.showDropped = true then 0 else s.analyzer.dropped) =
      unparsed lib.reader s.received
  hinted : s.printed.countP PrintedItem.isHint ≤ 1
  whole : s.ended = some .endOfLines → s.readerDone = true ∧ s.sent = s.received.map Prod.snd

/-- What the steps keep beside. -/
structure RunKept (lib : AnalyzerLib) (args : AnalyzerArgs) (s : AnalyzerRun) : Prop where
  accounted : RunAccounted lib args s
  order : InOrder Prod.fst s.clock s.received
  purged : s.purged ≤ s.clock
  loop : LoopRight lib args s.purged s.received s.analyzer
  hints : s.printed.countP PrintedItem.isHint = hints s.analyzer.printedNoDataHint

section
variable {lib : AnalyzerLib} {args : AnalyzerArgs} {s t : AnalyzerRun}

theorem ReportRight.received_append {received : List (Nat × List Char)}
    {report : AnalyzerReport} (h : ReportRight lib args received report)
    (more : List (Nat × List Char)) : ReportRight lib args (received ++ more) report := by
  have htake : (received ++ more).take report.seen = received.take report.seen :=
    List.take_append_of_le_length h.seen
  refine ⟨?_, h.purged, h.purgedNow, ?_, ?_⟩
  · rw [List.length_append]
    exact Nat.le_add_right_of_le h.seen
  · rw [htake]
    exact h.printed
  · rw [htake]
    exact h.overallShown

/-- A line that is taken is recorded or counted as dropped. -/
theorem runKept_line (hs : RunKept lib args s) (hrunning : s.ended = none) {line : List Char}
    {lines : Channel (List Char) lineChannelCapacity}
    (hrecv : s.lines.recv = some (line, lines)) :
    RunKept lib args
      { s with
        analyzer := s.analyzer.handleLine lib s.clock line
        lines
        received := s.received ++ [(s.clock, line)] } := by
  obtain ⟨hitems, -⟩ := Channel.recv_eq_some.mp hrecv
  have hloop := hs.loop.handleLine hs.purged line
  have hhint : (s.analyzer.handleLine lib s.clock line).printedNoDataHint =
      s.analyzer.printedNoDataHint := by
    rw [Analyzer.handleLine]
    cases parseLine lib.reader line <;> rfl
  refine ⟨⟨?_, ?_, ⟨?_, ?_⟩, ?_, hs.accounted.hinted, ?_⟩, hs.order.concat rfl, hs.purged, hloop,
    ?_⟩
  · show s.sent = (s.received ++ [(s.clock, line)]).map Prod.snd ++ lines.items
    rw [hs.accounted.inOrder, hitems, List.map_append, List.append_assoc]
    rfl
  · exact fun report hmem => (hs.accounted.reports report hmem).received_append _
  · exact fun _ => hs.accounted.last.running hrunning
  · exact fun hended => absurd hrunning hended
  · intro hle
    have hbefore := hs.accounted.dropped
    have hnone : ¬ (s.ended ≠ none ∧ args.showDropped = true) := fun h => h.1 hrunning
    rw [unparsed_concat] at hle
    show s.toldDropped + (if s.ended ≠ none ∧ args.showDropped = true then 0
      else (s.analyzer.handleLine lib s.clock line).dropped) = _
    rw [unparsed_concat, if_neg hnone]
    rw [if_neg hnone] at hbefore
    rw [Analyzer.handleLine]
    cases hline : parseLine lib.reader line with
    | none =>
      rw [hline] at hle
      simp only [Option.isNone_none, if_true] at hle ⊢
      have hcount := hbefore (by omega)
      omega
    | some event =>
      rw [hline] at hle
      simp only [Option.isNone_some, Bool.false_eq_true, if_false, Nat.add_zero] at hle ⊢
      exact hbefore hle
  · exact fun hended => absurd (hrunning.symm.trans hended) (by simp)
  · show s.printed.countP PrintedItem.isHint = _
    rw [hhint]
    exact hs.hints

theorem toldDropped_concat (s : AnalyzerRun) (report : AnalyzerReport) :
    ((s.reports ++ [report]).map AnalyzerReport.drops).sum = s.toldDropped + report.drops := by
  rw [List.map_append, List.sum_append, List.map_singleton, List.sum_singleton,
    AnalyzerRun.toldDropped]

theorem printed_concat (s : AnalyzerRun) (report : AnalyzerReport) :
    (s.reports ++ [report]).flatMap AnalyzerReport.printed = s.printed ++ report.printed := by
  rw [List.flatMap_append, List.flatMap_singleton, AnalyzerRun.printed]

/-- A tick prints about the lines within the window. -/
theorem runKept_tick (hs : RunKept lib args s) (hrunning : s.ended = none) :
    RunKept lib args (s.afterTick lib args) := by
  have htick := hs.loop.tick hs.order hs.purged
  have htake : s.received.take s.received.length = s.received := List.take_length
  have hnone : ¬ (s.ended ≠ none ∧ args.showDropped = true) := fun h => h.1 hrunning
  have hhints : (s.afterTick lib args).printed.countP PrintedItem.isHint =
      hints (s.afterTick lib args).analyzer.printedNoDataHint := by
    show ((s.reports ++ [_]).flatMap AnalyzerReport.printed).countP PrintedItem.isHint = _
    rw [printed_concat, List.countP_append, hs.hints]
    exact (Nat.add_comm _ _).trans htick.hints
  refine ⟨⟨hs.accounted.inOrder, ?_, ⟨?_, ?_⟩, ?_, ?_, ?_⟩, hs.order, Nat.le_refl _, htick.right,
    hhints⟩
  · intro report hmem
    rcases List.mem_append.mp hmem with hmem | hmem
    · exact hs.accounted.reports report hmem
    · rw [List.mem_singleton.mp hmem]
      refine ⟨Nat.le_refl _, Nat.le_refl _, fun _ => rfl, ?_, fun hfinal => absurd hfinal (by simp)⟩
      show PrintedRight lib args s.clock (s.received.take s.received.length) _
      rw [htake]
      exact htick.printed
  · intro _ report hmem
    rcases List.mem_append.mp hmem with hmem | hmem
    · exact hs.accounted.last.running hrunning report hmem
    · rw [List.mem_singleton.mp hmem]
  · exact fun hended => absurd hrunning hended
  · intro hle
    have hbefore := hs.accounted.dropped hle
    rw [if_neg hnone] at hbefore
    show ((s.reports ++ [_]).map AnalyzerReport.drops).sum +
      (if s.ended ≠ none ∧ args.showDropped = true then 0
        else (s.analyzer.tick lib args s.clock).1.dropped) = _
    rw [toldDropped_concat, if_neg hnone, Nat.add_assoc]
    exact (congrArg (s.toldDropped + ·) htick.drops).trans hbefore
  · rw [hhints, hints]
    split <;> omega
  · exact fun hended => absurd (hrunning.symm.trans hended) (by simp)

/-- The last report is about all lines received. -/
theorem runKept_finish (hs : RunKept lib args s) (hrunning : s.ended = none)
    {reason : AnalyzerEnd} (hwhole : reason = .endOfLines →
      s.readerDone = true ∧ s.lines.items = []) :
    RunKept lib args (s.finish lib args reason) := by
  obtain ⟨hprinted, hoverall, hdrops, hnoHint⟩ := hs.loop.printFinal s.clock
  have htake : s.received.take s.received.length = s.received := List.take_length
  have hnone : ¬ (s.ended ≠ none ∧ args.showDropped = true) := fun h => h.1 hrunning
  have hhints : (s.finish lib args reason).printed.countP PrintedItem.isHint =
      hints s.analyzer.printedNoDataHint := by
    show ((s.reports ++ [_]).flatMap AnalyzerReport.printed).countP PrintedItem.isHint = _
    rw [printed_concat, List.countP_append, hs.hints]
    exact (congrArg (hints _ + ·) hnoHint).trans (Nat.add_zero _)
  refine ⟨⟨hs.accounted.inOrder, ?_, ⟨?_, ?_⟩, ?_, ?_, ?_⟩, hs.order, hs.purged, hs.loop, hhints⟩
  · intro report hmem
    rcases List.mem_append.mp hmem with hmem | hmem
    · exact hs.accounted.reports report hmem
    · rw [List.mem_singleton.mp hmem]
      refine ⟨Nat.le_refl _, hs.purged, fun hfinal => absurd hfinal (by simp), ?_, fun _ => ?_⟩
      · show PrintedRight lib args s.purged (s.received.take s.received.length) _
        rw [htake]
        exact hprinted
      · show successesOf (eventsOf lib.reader (s.received.take s.received.length)) ≠ [] → _
        rw [htake]
        exact hoverall
  · exact fun hended => absurd hended (by simp [AnalyzerRun.finish])
  · exact fun _ => ⟨s.reports, _, rfl, rfl, rfl, hs.accounted.last.running hrunning⟩
  · intro hle
    have hbefore := hs.accounted.dropped hle
    rw [if_neg hnone] at hbefore
    show ((s.reports ++ [_]).map AnalyzerReport.drops).sum +
      (if some reason ≠ none ∧ args.showDropped = true then 0 else s.analyzer.dropped) = _
    rw [toldDropped_concat]
    have hreport : ∀ report : AnalyzerReport, report.printed =
        s.analyzer.printFinal lib args s.clock →
        report.drops = if args.showDropped then s.analyzer.dropped else 0 := by
      intro report heq
      rw [AnalyzerReport.drops, heq, hdrops]
    rw [hreport _ rfl]
    refine Eq.trans ?_ hbefore
    cases args.showDropped <;> simp
  · rw [hhints, hints]
    split <;> omega
  · intro hended
    obtain rfl : reason = .endOfLines := Option.some.inj hended
    obtain ⟨hdone, hempty⟩ := hwhole rfl
    refine ⟨hdone, ?_⟩
    have hall := hs.accounted.inOrder
    rw [hempty, List.append_nil] at hall
    exact hall

theorem runKept_step {l : AnalyzerLabel} (hs : RunKept lib args s)
    (h : (analyzer lib args).step s l t) : RunKept lib args t := by
  cases h with
  | wait later hlater =>
    exact ⟨⟨hs.accounted.inOrder, hs.accounted.reports,
      ⟨hs.accounted.last.running, hs.accounted.last.ended⟩, hs.accounted.dropped,
      hs.accounted.hinted, hs.accounted.whole⟩, hs.order.mono hlater,
      hs.purged.trans hlater, hs.loop, hs.hints⟩
  | send line lines hopen hsend =>
    obtain ⟨-, -, hitems, -⟩ := Channel.trySend_eq_ok.mp hsend
    refine ⟨⟨?_, hs.accounted.reports, ⟨hs.accounted.last.running, hs.accounted.last.ended⟩,
      hs.accounted.dropped, hs.accounted.hinted, ?_⟩, hs.order, hs.purged, hs.loop, hs.hints⟩
    · show s.sent ++ [line] = s.received.map Prod.snd ++ lines.items
      rw [hitems, hs.accounted.inOrder, List.append_assoc]
    · intro hended
      exact absurd (hs.accounted.whole hended).1 (by rw [hopen]; simp)
  | readerEnds =>
    exact ⟨⟨hs.accounted.inOrder, hs.accounted.reports,
      ⟨hs.accounted.last.running, hs.accounted.last.ended⟩, hs.accounted.dropped,
      hs.accounted.hinted, fun hended => ⟨rfl, (hs.accounted.whole hended).2⟩⟩, hs.order,
      hs.purged, hs.loop, hs.hints⟩
  | signal hrunning => exact runKept_finish hs hrunning fun h => absurd h (by simp)
  | tick hrunning hdue => exact runKept_tick hs hrunning
  | line line lines hrunning hrecv => exact runKept_line hs hrunning hrecv
  | endOfLines hrunning hclosed hempty =>
    exact runKept_finish hs hrunning fun _ => ⟨hclosed, Channel.recv_eq_none.mp hempty⟩

theorem runKept_start (lib : AnalyzerLib) (args : AnalyzerArgs) (startedAt : Nat) :
    RunKept lib args (.start lib args startedAt) := by
  refine ⟨⟨rfl, fun report hmem => absurd hmem List.not_mem_nil, ⟨fun _ => ?_, ?_⟩, fun _ => rfl,
    Nat.zero_le 1, ?_⟩, InOrder.nil _ _, Nat.le_refl _, loopRight_new lib args startedAt, rfl⟩
  · exact fun report hmem => absurd hmem List.not_mem_nil
  · exact fun hended => absurd rfl hended
  · exact fun hended => absurd hended (by simp [AnalyzerRun.start])

theorem reachable_runKept (h : (analyzer lib args).Reachable s) : RunKept lib args s := by
  refine Lts.invariant ?_ ?_ s h
  · rintro s ⟨startedAt, rfl⟩
    exact runKept_start lib args startedAt
  · exact fun s l t _ hs hstep => runKept_step hs hstep

/-- **Every line counts where it belongs**, in every state of every run. -/
theorem analyzer_accounts (h : (analyzer lib args).Reachable s) : RunAccounted lib args s :=
  (reachable_runKept h).accounted

end

/-! ### A run to the end of its lines -/

/-- A reader that knows plain digits only. -/
def plainAnalyzer : AnalyzerLib where
  hdr := hdrBuckets
  order := ⟨fun table => table, fun table => .refl table⟩
  reader := ⟨fun _ => none, Char.isDigit, by decide⟩

/-- A minute between summaries of five minutes. -/
def defaultArgs : AnalyzerArgs where
  window := 300000000000
  interval := 60000000000
  interval_pos := by decide
  topSlowest := 5
  showDropped := true

/-- A line that is not understood and a call that succeeded. -/
def twoLines : List String := ["hello", "RPC RESPONSE [id=1, hash=0xab]: time=2ms"]

/-- The first line is taken at once, the other when a tick is due already; then that tick, and
one more when the window has passed. The first tick prints a window, the totals and the dropped
line, the second the hint, and the end the totals. -/
theorem exists_run_twoLines :
    ∃ s, (analyzerOf plainAnalyzer defaultArgs (twoLines.map String.toList)).Reachable s ∧
      s.received.map Prod.fst = [0, 60000000000] ∧ s.ended = some .endOfLines ∧
      s.reports.map (fun report => (report.final, report.printed.length)) =
        [(false, 3), (false, 1), (true, 1)] ∧
      s.purged = 400000000000 ∧ s.analyzer.sliding.rpcSamples.length = 0 ∧
      s.toldDropped = 1 := by
  have hstart : (analyzerOf plainAnalyzer defaultArgs (twoLines.map String.toList)).Reachable
      (.start plainAnalyzer defaultArgs 0) := Lts.reachable_init ⟨0, rfl⟩
  let hello := "hello".toList
  let line := "RPC RESPONSE [id=1, hash=0xab]: time=2ms".toList
  have hfirst := hstart.next_restrict (.send _ hello ⟨[hello], false, Nat.le_of_ble_eq_true rfl⟩
    rfl (Channel.trySend_eq_ok.mpr ⟨rfl, by decide, rfl, rfl⟩)) ⟨[line], rfl⟩
  have hsent := hfirst.next_restrict (.send _ line
    ⟨[hello, line], false, Nat.le_of_ble_eq_true rfl⟩ rfl
    (Channel.trySend_eq_ok.mpr ⟨rfl, by decide, rfl, rfl⟩)) List.prefix_rfl
  have hunread := hsent.next_restrict (.line _ hello
    ⟨[line], false, Nat.le_of_ble_eq_true rfl⟩ rfl (Channel.recv_eq_some.mpr ⟨rfl, rfl⟩)) trivial
  have hdue := hunread.next_restrict (.wait _ 60000000000 (by decide)) trivial
  have hread := hdue.next_restrict (.line _ line ⟨[], false, Nat.zero_le _⟩ rfl
    (Channel.recv_eq_some.mpr ⟨rfl, rfl⟩)) trivial
  have htick := hread.next_restrict (.tick _ rfl (by decide)) trivial
  have hlater := htick.next_restrict (.wait _ 400000000000 (by decide)) trivial
  have hpurged := hlater.next_restrict (.tick _ rfl (by decide)) trivial
  have hclosed := hpurged.next_restrict (.readerEnds _) rfl
  exact ⟨_, hclosed.next_restrict (.endOfLines _ rfl rfl (Channel.recv_eq_none.mpr rfl)) trivial,
    rfl, rfl, by decide +kernel, rfl, by decide +kernel, by decide +kernel⟩

theorem analyzer_accounts_twoLines :
    ∃ s, s.reports.map (fun report => (report.final, report.printed.length)) =
        [(false, 3), (false, 1), (true, 1)] ∧
      s.purged = 400000000000 ∧ s.analyzer.sliding.rpcSamples.length = 0 ∧ s.toldDropped = 1 ∧
      RunAccounted plainAnalyzer defaultArgs s := by
  obtain ⟨s, hreach, -, -, hprinted, hpurged, hsamples, htold⟩ := exists_run_twoLines
  exact ⟨s, hprinted, hpurged, hsamples, htold, analyzer_accounts hreach.of_restrict⟩

-- ---------------------------------------------------------------------------
-- Runs to the end of the lines
-- ---------------------------------------------------------------------------

section
variable {lib : AnalyzerLib} {args : AnalyzerArgs} {s : AnalyzerRun}

end

end IgraRpc
