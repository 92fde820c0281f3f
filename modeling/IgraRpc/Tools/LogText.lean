import IgraRpc.Lib.Scan
import IgraRpc.Tools.Duration

/-!
# Printing log lines

A line of the log is a message with the values of its arguments, or a record: a message
and its fields, printed as `key=value`.

* `Duration.debug` — a duration, as `{:?}` prints it;
* `LogRecord.line` — a record, as the log's formatter prints it, without the header (time,
  level, spans and target);
* `LogRecord.cut_line` — **a field's key is found at the field**, when neither the message
  nor an earlier field has it.
-/

namespace IgraRpc

open Lib Lib.Text

-- ---------------------------------------------------------------------------
-- Durations
-- ---------------------------------------------------------------------------

/-- The decimals of a fraction, without zeros at the end. -/
def fractionDigits : Nat → Nat → List Char
  | 0, _ => []
  | width + 1, fraction =>
    if fraction = 0 then []
    else (fraction / 10 ^ width).digitChar :: fractionDigits width (fraction % 10 ^ width)

/-- `fmt_decimal`. -/
def fmtDecimal (integerPart fraction width : Nat) (unit : List Char) : List Char :=
  Nat.toDigits 10 integerPart ++
    (if fraction = 0 then [] else '.' :: fractionDigits width fraction) ++ unit

/-- The `Debug` text of a duration. -/
def Duration.debug (d : Duration) : List Char :=
  if d.secs > 0 then fmtDecimal d.secs.toNat d.subsecNanos 9 "s".toList
  else if 1000000 ≤ d.subsecNanos then
    fmtDecimal (d.subsecNanos / 1000000) (d.subsecNanos % 1000000) 6 "ms".toList
  else if 1000 ≤ d.subsecNanos then
    fmtDecimal (d.subsecNanos / 1000) (d.subsecNanos % 1000) 3 "µs".toList
  else fmtDecimal d.subsecNanos 0 0 "ns".toList

/-- The decimals are digits. -/
theorem mem_fractionDigits {c : Char} {width fraction : Nat} (hlt : fraction < 10 ^ width)
    (h : c ∈ fractionDigits width fraction) : c.isDigit = true := by
  induction width generalizing fraction with
  | zero => exact absurd h List.not_mem_nil
  | succ width ih =>
    unfold fractionDigits at h
    split at h
    · exact absurd h List.not_mem_nil
    · have hpow : 0 < 10 ^ width := Nat.pow_pos (by decide)
      rcases List.mem_cons.mp h with rfl | h
      · rw [Nat.isDigit_digitChar, decide_eq_true_eq, Nat.div_lt_iff_lt_mul hpow, Nat.mul_comm,
          ← Nat.pow_succ]
        exact hlt
      · exact ih (Nat.mod_lt _ hpow) h

/-- `Duration::as_millis`. -/
def Duration.asMillis (d : Duration) : Nat := d.nanos / 1000000

theorem Duration.asMillis_lt (d : Duration) : d.asMillis < 2 ^ 80 := by
  have hsecs := d.secs.toNat_lt
  have hnanos := d.subsecNanos_lt
  unfold Duration.asMillis Duration.nanos
  omega

-- ---------------------------------------------------------------------------
-- Records
-- ---------------------------------------------------------------------------

/-- A record: the message and the fields, in the order of the source. -/
structure LogRecord where
  message : String
  fields : List (String × List Char)

/-- A number. -/
def natText (n : Nat) : List Char := Nat.toDigits 10 n

/-- The value of a `str` field. -/
def quoted (text : List Char) : List Char := '"' :: text ++ ['"']

def strText (s : String) : List Char := quoted s.toList

def fieldText (field : String × List Char) : List Char := field.1.toList ++ '=' :: field.2

def fieldsText (fields : List (String × List Char)) : List Char :=
  fields.flatMap fun field => ' ' :: fieldText field

/-- The record as a line of the log. -/
def LogRecord.line (record : LogRecord) : List Char :=
  record.message.toList ++ fieldsText record.fields

theorem fieldText_mk (name : String) (value : List Char) :
    fieldText (name, value) = name.toList ++ '=' :: value := rfl

theorem fieldsText_nil : fieldsText [] = [] := rfl

theorem fieldsText_append (fields more : List (String × List Char)) :
    fieldsText (fields ++ more) = fieldsText fields ++ fieldsText more :=
  List.flatMap_append

theorem fieldsText_cons (field : String × List Char) (fields : List (String × List Char)) :
    fieldsText (field :: fields) = ' ' :: (fieldText field ++ fieldsText fields) := rfl

/-- A symbol in the fields is in a name or in a value, or stands between them. -/
theorem notMem_fieldsText {c : Char} (hspace : c ≠ ' ') (heq : c ≠ '=')
    {fields : List (String × List Char)}
    (h : ∀ field ∈ fields, c ∉ field.1.toList ∧ c ∉ field.2) : c ∉ fieldsText fields := by
  intro hmem
  obtain ⟨field, hfield, hc⟩ := List.mem_flatMap.mp hmem
  rcases List.mem_cons.mp hc with rfl | hc
  · exact hspace rfl
  · rcases List.mem_append.mp hc with hc | hc
    · exact (h field hfield).1 hc
    · rcases List.mem_cons.mp hc with rfl | hc
      · exact heq rfl
      · exact (h field hfield).2 hc

theorem natText_ne_nil (n : Nat) : natText n ≠ [] := Nat.toDigits_ne_nil

theorem notMem_natText {c : Char} (h : c.isDigit = false) (n : Nat) : c ∉ natText n :=
  notMem_toDigits h n

/-- A field without the key is passed over. -/
theorem contains_fieldText {key : List Char} (heq : '=' ∉ key) (hne : key ≠ [])
    {field : String × List Char} (hname : contains key field.1.toList = false)
    (hvalue : contains key field.2 = false) : contains key (fieldText field) = false := by
  rw [fieldText, contains_append_cons heq hne, hname, hvalue]
  rfl

/-- A text and the fields behind it, none of them with the key. -/
theorem cut_append_fieldsText {key : List Char} (hspace : ' ' ∉ key) (heq : '=' ∉ key)
    (hne : key ≠ []) {text : List Char} (htext : contains key text = false)
    {fields : List (String × List Char)}
    (hfields : ∀ field ∈ fields, contains key field.1.toList = false ∧
      contains key field.2 = false) (rest : List Char) :
    ∃ before, cut key (text ++ fieldsText fields ++ ' ' :: rest) =
      (cut key rest).map (Prod.map (before ++ ·) id) := by
  induction fields generalizing text with
  | nil =>
    have hnone : cut key text = none := by simpa [contains] using htext
    refine ⟨text ++ [' '], ?_⟩
    simp only [fieldsText, List.flatMap_nil, List.append_nil]
    rw [cut_append_cons hspace hne, hnone, Option.map_none, Option.none_or]
    simp
  | cons field fields ih =>
    have hnone : cut key text = none := by simpa [contains] using htext
    have hfirst := hfields field List.mem_cons_self
    obtain ⟨before, hbefore⟩ := ih (contains_fieldText heq hne hfirst.1 hfirst.2)
      fun other hother => hfields other (List.mem_cons_of_mem _ hother)
    refine ⟨text ++ ' ' :: before, ?_⟩
    have hsplit : text ++ fieldsText (field :: fields) ++ ' ' :: rest =
        text ++ ' ' :: (fieldText field ++ fieldsText fields ++ ' ' :: rest) := by
      simp [fieldsText]
    rw [hsplit, cut_append_cons hspace hne, hnone, Option.map_none, Option.none_or, hbefore,
      Option.map_map]
    congr 1
    funext found
    simp [Prod.map]

/-- **A key is found at its field.** -/
theorem LogRecord.cut_line {name : String} (hspace : ' ' ∉ name.toList)
    (heq : '=' ∉ name.toList) (hne : name.toList ≠ []) {record : LogRecord}
    {earlier later : List (String × List Char)} {value : List Char}
    (hfields : record.fields = earlier ++ (name, value) :: later)
    (hmessage : contains name.toList record.message.toList = false)
    (hearlier : ∀ field ∈ earlier, contains name.toList field.1.toList = false ∧
      contains name.toList field.2 = false) :
    ∃ before, cut name.toList record.line =
      some (before, '=' :: (value ++ fieldsText later)) := by
  obtain ⟨before, hbefore⟩ := cut_append_fieldsText hspace heq hne hmessage hearlier
    (name.toList ++ '=' :: (value ++ fieldsText later))
  refine ⟨before, ?_⟩
  have hline : record.line = record.message.toList ++ fieldsText earlier ++
      ' ' :: (name.toList ++ '=' :: (value ++ fieldsText later)) := by
    simp [LogRecord.line, hfields, fieldsText, fieldText]
  rw [hline, hbefore, cut_literal]
  simp

/-- What follows the value of a field is nothing, or begins with a blank. -/
theorem takeWhile_append_fieldsText {p : Char → Bool} (hspace : p ' ' = false)
    {value : List Char} (hvalue : ∀ c ∈ value, p c = true) (fields : List (String × List Char)) :
    (value ++ fieldsText fields).takeWhile p = value := by
  rw [List.takeWhile_append_of_pos hvalue]
  cases fields with
  | nil => exact List.append_nil value
  | cons field fields => simp [fieldsText, hspace]

end IgraRpc
