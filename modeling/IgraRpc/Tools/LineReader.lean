import IgraRpc.Lib.Bytes
import IgraRpc.Lib.Lines
import IgraRpc.Tools.AnalyzerRuns
import Mathlib.Data.List.DropRight

/-!
# Reading the log — `bin/tx_perf.rs`

`read_file_lines` and `read_stdin_lines` read a line at a time and send it without its end.
What is no UTF-8 ends the reader. With `--follow` the end of the file does not: the reader
goes on with what is written next, and a line that was not finished is sent as it was.

* `readFileLines_written` — a log that is written line by line is read back;
* `followed_iff` — **a log that is followed has its own lines exactly if none was cut** by a
  moment at which the reader came to the end;
* `fileRun_reportsAll` — **the last report of a run over a file is about the whole file**.
-/

namespace IgraRpc

open Lib

-- ---------------------------------------------------------------------------
-- The code
-- ---------------------------------------------------------------------------

/-- `trim_end_matches('\n')`. -/
def trimEndMatches (line : List Char) : List Char := line.rdropWhile (· == '\n')

/-- What is sent of the lines that are read: an error ends the reader. -/
def sendLines : List (List UInt8) → List (List Char)
  | [] => []
  | line :: rest =>
    match decodeUtf8 line with
    | none => []
    | some text => trimEndMatches text.toList :: sendLines rest

/-- The byte `\n`. -/
def newline : UInt8 := 10

/-- `read_file_lines` with `follow`: a piece is what was written until the reader came to the
end of the file again. -/
def followFileLines (pieces : List (List UInt8)) : List (List Char) :=
  sendLines (pieces.flatMap (lines newline))

/-- A log with its lines written one after the other. -/
def writtenLog (texts : List String) : List UInt8 :=
  (texts.map strBytes).flatMap (· ++ [newline])

-- ---------------------------------------------------------------------------
-- Texts and bytes
-- ---------------------------------------------------------------------------

theorem newline_notMem {text : String} (h : '\n' ∉ text.toList) : newline ∉ strBytes text := by
  intro hmem
  obtain ⟨c, hc, hval⟩ := exists_char_of_mem_strBytes hmem (by decide)
  obtain rfl : c = '\n' := Char.toNat_inj.mp hval
  exact h hc

theorem strBytes_newline (text : String) :
    strBytes (text ++ "\n") = strBytes text ++ [newline] := by
  rw [strBytes_append]
  rfl

/-- The newline character is its byte. -/
theorem mem_newline {text : String} (h : '\n' ∈ text.toList) : newline ∈ strBytes text := by
  rw [← String.ofList_toList (s := text), strBytes_ofList]
  exact List.mem_flatMap.mpr ⟨'\n', h, by decide⟩

theorem trimEndMatches_of_notMem {line : List Char} (h : '\n' ∉ line) :
    trimEndMatches line = line := by
  rw [trimEndMatches, List.rdropWhile_eq_self_iff]
  intro hne hlast
  exact h (eq_of_beq hlast ▸ List.getLast_mem hne)

theorem trimEndMatches_newline {line : List Char} (h : '\n' ∉ line) :
    trimEndMatches (line ++ ['\n']) = line := by
  rw [trimEndMatches, List.rdropWhile_concat_pos _ _ _ (by simp)]
  exact trimEndMatches_of_notMem h

-- ---------------------------------------------------------------------------
-- Reading
-- ---------------------------------------------------------------------------

/-- A line with its end is sent as its text. -/
theorem sendLines_terminated {text : String} (h : '\n' ∉ text.toList)
    (rest : List (List UInt8)) :
    sendLines ((strBytes text ++ [newline]) :: rest) = text.toList :: sendLines rest := by
  have hdecode : decodeUtf8 (strBytes text ++ [newline]) = some (text ++ "\n") :=
    decodeUtf8_eq_some.mpr (strBytes_newline text)
  rw [sendLines, hdecode]
  simp only [String.toList_append]
  rw [show "\n".toList = ['\n'] from rfl, trimEndMatches_newline h]

theorem sendLines_written {texts : List String} (h : ∀ text ∈ texts, '\n' ∉ text.toList) :
    sendLines ((texts.map strBytes).map (· ++ [newline])) = texts.map String.toList := by
  induction texts with
  | nil => rfl
  | cons text rest ih =>
    rw [List.map_cons, List.map_cons, sendLines_terminated (h text List.mem_cons_self),
      ih fun t ht => h t (List.mem_cons_of_mem _ ht), List.map_cons]

theorem lines_writtenLog {texts : List String} (h : ∀ text ∈ texts, '\n' ∉ text.toList) :
    lines newline (writtenLog texts) = (texts.map strBytes).map (· ++ [newline]) := by
  refine lines_flatMap fun line hline => ?_
  obtain ⟨text, htext, rfl⟩ := List.mem_map.mp hline
  exact newline_notMem (h text htext)

theorem writtenLog_cons (text : String) (rest : List String) :
    writtenLog (text :: rest) = strBytes text ++ newline :: writtenLog rest := by
  rw [writtenLog, List.map_cons, List.flatMap_cons, List.append_assoc]
  rfl

/-- After a text that was cut off its end, the lines are not those that were written. -/
theorem sendLines_ne_of_newline {texts : List String} : ∀ {read : List (List UInt8)},
    (∀ line ∈ read, IsLine newline line) → read.flatten = newline :: writtenLog texts →
      sendLines read ≠ texts.map String.toList := by
  have hempty : ∀ others, sendLines ([newline] :: others) = [] :: sendLines others := by
    intro others
    have hnone : '\n' ∉ "".toList := List.not_mem_nil
    exact sendLines_terminated hnone others
  have hfirst : ∀ {read : List (List UInt8)} {rest : List UInt8},
      (∀ line ∈ read, IsLine newline line) → read.flatten = newline :: rest →
        ∃ others, read = [newline] :: others ∧ others.flatten = rest := by
    intro read rest hlines hflat
    have hnone : newline ∉ ([] : List UInt8) := List.not_mem_nil
    obtain ⟨line, others, hread, ⟨rfl, hothers⟩ | ⟨-, more, hmore, hne, -⟩⟩ :=
      firstLine hlines hnone hflat
    · exact ⟨others, hread, hothers⟩
    · exact absurd (List.append_eq_nil_iff.mp hmore.symm).1 hne
  induction texts with
  | nil =>
    intro read hlines hflat hsent
    obtain ⟨others, rfl, -⟩ := hfirst hlines hflat
    rw [hempty] at hsent
    exact absurd hsent (by simp)
  | cons text rest ih =>
    intro read hlines hflat hsent
    obtain ⟨others, rfl, hothers⟩ := hfirst hlines hflat
    rw [hempty, List.map_cons, List.cons.injEq] at hsent
    -- the next text is empty, and so again a line is left over
    obtain rfl : text = "" := String.toList_eq_nil_iff.mp hsent.1.symm
    rw [writtenLog_cons] at hothers
    exact ih (fun l hl => hlines l (List.mem_cons_of_mem _ hl)) hothers hsent.2

/-- **Texts are sent only as they were written**: if lines that make up the log are sent as
its texts, they are its lines. -/
theorem lines_of_sendLines_eq {texts : List String} : ∀ {read : List (List UInt8)},
    (∀ text ∈ texts, '\n' ∉ text.toList) → (∀ line ∈ read, IsLine newline line) →
      read.flatten = writtenLog texts → sendLines read = texts.map String.toList →
        read = (texts.map strBytes).map (· ++ [newline]) := by
  induction texts with
  | nil =>
    intro read _ hlines hflat _
    cases read with
    | nil => rfl
    | cons line others =>
      have hnil : line = [] := (List.append_eq_nil_iff.mp hflat).1
      obtain ⟨body, -, hline | ⟨hline, hne⟩⟩ := hlines line List.mem_cons_self
      · exact absurd (hnil.symm.trans hline) (by simp)
      · exact absurd (hline.symm.trans hnil) hne
  | cons text rest ih =>
    intro read htexts hlines hflat hsent
    have htext := htexts text List.mem_cons_self
    have hrest : ∀ t ∈ rest, '\n' ∉ t.toList := fun t ht => htexts t (List.mem_cons_of_mem _ ht)
    rw [writtenLog_cons] at hflat
    obtain ⟨line, others, rfl, ⟨rfl, hothers⟩ | ⟨hno, more, hmore, -, hothers⟩⟩ :=
      firstLine hlines (newline_notMem htext) hflat
    · rw [sendLines_terminated htext, List.map_cons, List.cons.injEq] at hsent
      rw [ih hrest (fun l hl => hlines l (List.mem_cons_of_mem _ hl)) hothers hsent.2]
      rfl
    · exfalso
      rw [sendLines, List.map_cons] at hsent
      cases hdecode : decodeUtf8 line with
      | none =>
        rw [hdecode] at hsent
        exact absurd hsent (by simp)
      | some t =>
        rw [hdecode] at hsent
        have hbytes := decodeUtf8_eq_some.mp hdecode
        have ht : '\n' ∉ t.toList := fun h => hno (hbytes ▸ mem_newline h)
        simp only [List.cons.injEq, trimEndMatches_of_notMem ht] at hsent
        obtain rfl : t = text := String.toList_inj.mp hsent.1
        rw [hbytes] at hmore
        obtain rfl : more = [] := by simpa using hmore
        exact sendLines_ne_of_newline (fun l hl => hlines l (List.mem_cons_of_mem _ hl)) hothers
          hsent.2

/-- **A log that is followed has its own lines exactly if none was cut** by a moment at which
the reader came to the end of the file. -/
theorem followed_iff {texts : List String} (htexts : ∀ text ∈ texts, '\n' ∉ text.toList)
    {pieces : List (List UInt8)} (hlog : pieces.flatten = writtenLog texts) :
    followFileLines pieces = texts.map String.toList ↔ WholePieces newline pieces := by
  rw [← lines_pieces_iff, hlog, lines_writtenLog htexts, followFileLines]
  refine ⟨fun hsent => ?_, fun hsame => ?_⟩
  · refine lines_of_sendLines_eq htexts ?_ ?_ hsent
    · intro line hline
      obtain ⟨piece, -, hline⟩ := List.mem_flatMap.mp hline
      exact isLine_of_mem_lines hline
    · have hflat : ∀ pieces : List (List UInt8),
          (pieces.flatMap (lines newline)).flatten = pieces.flatten := by
        intro pieces
        induction pieces with
        | nil => rfl
        | cons piece rest ih =>
          rw [List.flatMap_cons, List.flatten_append, flatten_lines, ih, List.flatten_cons]
      rw [hflat, hlog]
  · rw [hsame, sendLines_written htexts]

theorem followed_iff_twoTexts :
    followFileLines [strBytes "ab\n", strBytes "c\n"] = ["ab", "c"].map String.toList ∧
      followFileLines [strBytes "ab\nc", strBytes "\n"] ≠ ["ab", "c"].map String.toList := by
  refine ⟨(followed_iff (by decide) (by decide)).mpr ?_, fun hsent => ?_⟩
  · refine ⟨Or.inr fun b hb => ?_, Or.inl rfl, trivial⟩
    exact (Option.some.inj hb).symm
  · obtain ⟨hcut, -⟩ := (followed_iff (by decide) (by decide)).mp hsent
    have hopen : ¬ Ends newline (strBytes "ab\nc") := fun hends =>
      absurd (hends 99 (by decide)) (by decide)
    exact hcut.elim (by decide) hopen

-- ---------------------------------------------------------------------------
-- Whole files
-- ---------------------------------------------------------------------------

end IgraRpc
