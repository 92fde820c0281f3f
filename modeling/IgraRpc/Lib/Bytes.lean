import Mathlib.Data.List.Basic
import Mathlib.Tactic.Ring

/-!
# Bytes — fixed-size arrays, strings, hex and machine integers

The byte-level vocabulary of the development.

* `FixedBytes n` — `[u8; n]`, with the length as part of the value;
* `strBytes` — the UTF-8 bytes of a string, which is what `str::len`, slicing
  and `hex::decode` of a `&str` look at, with its inverse `decodeUtf8`;
* `hexEncode` / `hexDecode` — the `hex` crate, inverse to each other on
  lowercase text (`hexDecode_hexEncode`, `hexDecode_lowerHex`);
* `leBytes` / `beBytes` — `to_le_bytes` / `to_be_bytes`, with their inverse
  `ofLeBytes`;
* `writeTail` — overwriting the last bytes of a buffer in place.
-/

namespace Lib

-- ---------------------------------------------------------------------------
-- Fixed-size byte arrays
-- ---------------------------------------------------------------------------

/-- `[u8; n]`. -/
structure FixedBytes (n : Nat) where
  bytes : List UInt8
  size : bytes.length = n
  deriving DecidableEq

namespace FixedBytes

/-- `copy_from_slice` into an array: fails unless the lengths agree. -/
def fromSlice? (n : Nat) (bs : List UInt8) : Option (FixedBytes n) :=
  if h : bs.length = n then some ⟨bs, h⟩ else none

/-- `[0u8; n]`. -/
def zero (n : Nat) : FixedBytes n := ⟨List.replicate n 0, List.length_replicate⟩

@[ext] theorem ext {n : Nat} {a b : FixedBytes n} (h : a.bytes = b.bytes) : a = b := by
  cases a
  cases b
  simp_all

@[simp] theorem fromSlice?_bytes {n : Nat} (a : FixedBytes n) :
    fromSlice? n a.bytes = some a := by
  simp [fromSlice?, a.size]

theorem fromSlice?_eq_none {n : Nat} {bs : List UInt8} :
    fromSlice? n bs = none ↔ bs.length ≠ n := by
  simp [fromSlice?]

theorem fromSlice?_eq_some {n : Nat} {bs : List UInt8} {a : FixedBytes n} :
    fromSlice? n bs = some a ↔ a.bytes = bs := by
  refine ⟨?_, ?_⟩
  · intro h
    unfold fromSlice? at h
    split at h
    · rw [← Option.some.inj h]
    · exact absurd h (by simp)
  · rintro rfl
    exact fromSlice?_bytes a

end FixedBytes

-- ---------------------------------------------------------------------------
-- Strings as bytes
-- ---------------------------------------------------------------------------

/-- The UTF-8 bytes of a string. -/
def strBytes (s : String) : List UInt8 := s.toByteArray.data.toList

theorem strBytes_inj {s t : String} (h : strBytes s = strBytes t) : s = t := by
  rw [← String.toByteArray_inj]
  exact ByteArray.ext (Array.toList_inj.mp h)

theorem strBytes_ofList (cs : List Char) :
    strBytes (String.ofList cs) = cs.flatMap String.utf8EncodeChar := by
  rw [strBytes, String.toByteArray_ofList, List.utf8Encode, List.toList_data_toByteArray]

theorem strBytes_append (s t : String) : strBytes (s ++ t) = strBytes s ++ strBytes t := by
  rw [strBytes, String.toByteArray_append, ByteArray.data_append, Array.toList_append]
  rfl

/-- The text of bytes that are UTF-8. -/
def decodeUtf8 (bytes : List UInt8) : Option String := String.fromUTF8? ⟨bytes.toArray⟩

theorem decodeUtf8_eq_some {bytes : List UInt8} {text : String} :
    decodeUtf8 bytes = some text ↔ strBytes text = bytes := by
  rw [decodeUtf8, String.fromUTF8?]
  refine ⟨fun h => ?_, ?_⟩
  · split at h
    · rw [← Option.some.inj h]
      rfl
    · exact absurd h (by simp)
  · rintro rfl
    have hbytes : (⟨(strBytes text).toArray⟩ : ByteArray) = text.toByteArray := by
      rw [strBytes, Array.toArray_toList]
    rw [hbytes, dif_pos text.isValidUTF8]
    exact congrArg some (String.toByteArray_inj.mp rfl)

/-- An ASCII character is one byte. -/
theorem utf8EncodeChar_ascii {c : Char} (h : c.toNat < 128) :
    String.utf8EncodeChar c = [UInt8.ofNat c.toNat] := by
  have hle : c.val.toNat ≤ 0x7f := Nat.le_of_lt_succ h
  simp only [String.utf8EncodeChar, hle, if_true]
  rfl

/-- A byte below 128 stands for the ASCII character it encodes. -/
theorem toNat_of_mem_utf8EncodeChar {c : Char} {b : UInt8} (h : b ∈ String.utf8EncodeChar c)
    (hb : b.toNat < 128) : c.toNat = b.toNat := by
  -- the bytes of a longer encoding have their high bit set
  have hhigh : ∀ n, 128 ≤ n → n < 256 → b ≠ UInt8.ofNat n := by
    intro n hlow hn heq
    rw [heq, UInt8.toNat_ofNat', Nat.mod_eq_of_lt hn] at hb
    omega
  have hval : c.toNat = c.val.toNat := rfl
  unfold String.utf8EncodeChar at h
  simp only at h
  split at h
  · next hone =>
    obtain rfl := List.mem_singleton.mp h
    rw [UInt8.toNat_ofNat', Nat.mod_eq_of_lt (by omega)]
    exact hval
  · split at h
    · simp only [List.mem_cons, List.not_mem_nil, or_false] at h
      rcases h with h | h
      · exact absurd h (hhigh _ (by omega) (by omega))
      · exact absurd h (hhigh _ (by omega) (by omega))
    · split at h
      · simp only [List.mem_cons, List.not_mem_nil, or_false] at h
        rcases h with h | h | h
        · exact absurd h (hhigh _ (by omega) (by omega))
        · exact absurd h (hhigh _ (by omega) (by omega))
        · exact absurd h (hhigh _ (by omega) (by omega))
      · simp only [List.mem_cons, List.not_mem_nil, or_false] at h
        rcases h with h | h | h | h
        · exact absurd h (hhigh _ (by omega) (by omega))
        · exact absurd h (hhigh _ (by omega) (by omega))
        · exact absurd h (hhigh _ (by omega) (by omega))
        · exact absurd h (hhigh _ (by omega) (by omega))

/-- An ASCII byte of a text is one of its characters. -/
theorem exists_char_of_mem_strBytes {s : String} {b : UInt8} (h : b ∈ strBytes s)
    (hb : b.toNat < 128) : ∃ c ∈ s.toList, c.toNat = b.toNat := by
  rw [← String.ofList_toList (s := s), strBytes_ofList] at h
  obtain ⟨c, hc, hmem⟩ := List.mem_flatMap.mp h
  exact ⟨c, hc, toNat_of_mem_utf8EncodeChar hmem hb⟩

theorem toNat_charOfNat {n : Nat} (h : n < 128) : (Char.ofNat n).toNat = n := by
  have hvalid : n.isValidChar := Or.inl (by omega)
  rw [Char.ofNat, dif_pos hvalid]
  rfl

-- ---------------------------------------------------------------------------
-- Hexadecimal text
-- ---------------------------------------------------------------------------

/-- `hex::FromHexError`. -/
inductive FromHexError where
  | oddLength
  | invalidHexCharacter (c : UInt8) (index : Nat)
  deriving DecidableEq, Repr

/-- `{:?}` of a byte read as a Latin-1 character. -/
def debugByteChar (c : UInt8) : String :=
  let n := c.toNat
  let escaped :=
    if n = 0 then "\\0"
    else if n = 9 then "\\t"
    else if n = 10 then "\\n"
    else if n = 13 then "\\r"
    else if n = 39 then "\\'"
    else if n = 92 then "\\\\"
    -- control characters, the no-break space and the soft hyphen do not print
    else if n < 32 ∨ (127 ≤ n ∧ n ≤ 160) ∨ n = 173 then
      "\\u\x7b" ++ String.ofList (Nat.toDigits 16 n) ++ "\x7d"
    else String.singleton (Char.ofNat n)
  "'" ++ escaped ++ "'"

/-- The error's `Display` text. -/
def FromHexError.display : FromHexError → String
  | .oddLength => "Odd number of digits"
  | .invalidHexCharacter c index =>
    s!"Invalid character {debugByteChar c} at position {index}"

/-- The value of one hex digit, of either case. -/
def hexVal (c : UInt8) : Option Nat :=
  if 65 ≤ c.toNat ∧ c.toNat ≤ 70 then some (c.toNat - 55)
  else if 97 ≤ c.toNat ∧ c.toNat ≤ 102 then some (c.toNat - 87)
  else if 48 ≤ c.toNat ∧ c.toNat ≤ 57 then some (c.toNat - 48)
  else none

/-- The value of the digit at position `index`, or the error naming it. -/
def hexValAt (c : UInt8) (index : Nat) : Except FromHexError Nat :=
  match hexVal c with
  | some v => .ok v
  | none => .error (.invalidHexCharacter c index)

/-- Decode digit pairs, the first at position `index`. -/
def hexPairs : List UInt8 → Nat → Except FromHexError (List UInt8)
  | a :: b :: rest, index => do
    let hi ← hexValAt a index
    let lo ← hexValAt b (index + 1)
    let tail ← hexPairs rest (index + 2)
    return UInt8.ofNat (hi * 16 + lo) :: tail
  | _, _ => .ok []

/-- `hex::decode`. -/
def hexDecode (digits : List UInt8) : Except FromHexError (List UInt8) :=
  if digits.length % 2 = 0 then hexPairs digits 0 else .error .oddLength

/-- The lowercase digit of a nibble, as an ASCII byte. -/
def hexDigit (n : Nat) : UInt8 := UInt8.ofNat (if n < 10 then 48 + n else 87 + n)

/-- The two digits of each byte, high half first. -/
def hexEncodeBytes (bs : List UInt8) : List UInt8 :=
  bs.flatMap fun b => [hexDigit (b.toNat / 16), hexDigit (b.toNat % 16)]

/-- `hex::encode`. -/
def hexEncode (bs : List UInt8) : String :=
  String.ofList ((hexEncodeBytes bs).map fun d => Char.ofNat d.toNat)

/-- `{:#x}` of an integer. -/
def hexLiteral (n : Nat) : String := "0x" ++ String.ofList (Nat.toDigits 16 n)

/-- Lowercase hex digits, two for each byte. -/
def LowerHex (digits : List UInt8) : Prop :=
  digits.length % 2 = 0 ∧
    ∀ d ∈ digits, (48 ≤ d.toNat ∧ d.toNat ≤ 57) ∨ (97 ≤ d.toNat ∧ d.toNat ≤ 102)

/-- A lowercase hex digit. -/
def isLowerHexDigit (d : UInt8) : Bool :=
  (48 ≤ d.toNat && d.toNat ≤ 57) || (97 ≤ d.toNat && d.toNat ≤ 102)

theorem lowerHex_iff {digits : List UInt8} :
    (digits.length % 2 == 0 && digits.all isLowerHexDigit) = true ↔ LowerHex digits := by
  simp [LowerHex, isLowerHexDigit]

instance (digits : List UInt8) : Decidable (LowerHex digits) :=
  decidable_of_iff _ lowerHex_iff

theorem hexDigit_toNat {n : Nat} (h : n < 16) :
    (hexDigit n).toNat = if n < 10 then 48 + n else 87 + n := by
  unfold hexDigit
  split <;> simp only [UInt8.toNat_ofNat'] <;> omega

theorem hexVal_hexDigit {n : Nat} (h : n < 16) : hexVal (hexDigit n) = some n := by
  unfold hexVal
  rw [hexDigit_toNat h]
  split_ifs <;> first | omega | (congr 1; omega)

theorem byte_halves (b : UInt8) :
    UInt8.ofNat (b.toNat / 16 * 16 + b.toNat % 16) = b := by
  have : b.toNat / 16 * 16 + b.toNat % 16 = b.toNat := by omega
  rw [this, UInt8.ofNat_toNat]

theorem hexEncodeBytes_cons (b : UInt8) (bs : List UInt8) :
    hexEncodeBytes (b :: bs) =
      hexDigit (b.toNat / 16) :: hexDigit (b.toNat % 16) :: hexEncodeBytes bs := rfl

theorem hexEncodeBytes_length (bs : List UInt8) :
    (hexEncodeBytes bs).length = 2 * bs.length := by
  induction bs with
  | nil => rfl
  | cons b bs ih =>
    rw [hexEncodeBytes_cons, List.length_cons, List.length_cons, ih, List.length_cons]
    omega

theorem hexPairs_hexEncodeBytes (bs : List UInt8) :
    ∀ index, hexPairs (hexEncodeBytes bs) index = .ok bs := by
  induction bs with
  | nil =>
    intro index
    rfl
  | cons b bs ih =>
    intro index
    have hb := b.toNat_lt
    have hhi : hexValAt (hexDigit (b.toNat / 16)) index = .ok (b.toNat / 16) := by
      rw [hexValAt, hexVal_hexDigit (by omega)]
    have hlo : hexValAt (hexDigit (b.toNat % 16)) (index + 1) = .ok (b.toNat % 16) := by
      rw [hexValAt, hexVal_hexDigit (by omega)]
    rw [hexEncodeBytes_cons, hexPairs, hhi, hlo, ih]
    simp only [Bind.bind, Except.bind, pure, Except.pure, byte_halves]

/-- Encoded bytes decode to themselves. -/
theorem hexDecode_hexEncodeBytes (bs : List UInt8) :
    hexDecode (hexEncodeBytes bs) = .ok bs := by
  rw [hexDecode, if_pos (by rw [hexEncodeBytes_length]; omega), hexPairs_hexEncodeBytes]

theorem strBytes_hexEncode (bs : List UInt8) : strBytes (hexEncode bs) = hexEncodeBytes bs := by
  have hdigits : ∀ d ∈ hexEncodeBytes bs, d.toNat < 128 := by
    intro d hd
    obtain ⟨b, -, hd⟩ := List.mem_flatMap.mp hd
    have hb := b.toNat_lt
    simp only [List.mem_cons, List.not_mem_nil, or_false] at hd
    rcases hd with rfl | rfl
    · rw [hexDigit_toNat (by omega)]
      split <;> omega
    · rw [hexDigit_toNat (by omega)]
      split <;> omega
  rw [hexEncode, strBytes_ofList]
  generalize hexEncodeBytes bs = ds at hdigits
  induction ds with
  | nil => rfl
  | cons d ds ih =>
    have hd := hdigits d (List.mem_cons_self ..)
    have hval := toNat_charOfNat hd
    rw [List.map_cons, List.flatMap_cons, utf8EncodeChar_ascii (by omega), hval,
      UInt8.ofNat_toNat, ih fun x hx => hdigits x (List.mem_cons_of_mem _ hx)]
    rfl

theorem hexDecode_hexEncode (bs : List UInt8) : hexDecode (strBytes (hexEncode bs)) = .ok bs := by
  rw [strBytes_hexEncode, hexDecode_hexEncodeBytes]

/-- A lowercase digit is the digit of its value. -/
theorem lower_digit {d : UInt8}
    (h : (48 ≤ d.toNat ∧ d.toNat ≤ 57) ∨ (97 ≤ d.toNat ∧ d.toNat ≤ 102)) :
    ∃ n, n < 16 ∧ hexVal d = some n ∧ hexDigit n = d := by
  rcases h with h | h
  · refine ⟨d.toNat - 48, by omega, ?_, ?_⟩
    · rw [hexVal, if_neg (by omega), if_neg (by omega), if_pos h]
    · apply UInt8.toNat_inj.mp
      rw [hexDigit_toNat (by omega), if_pos (by omega)]
      omega
  · refine ⟨d.toNat - 87, by omega, ?_, ?_⟩
    · rw [hexVal, if_neg (by omega), if_pos h]
    · apply UInt8.toNat_inj.mp
      rw [hexDigit_toNat (by omega), if_neg (by omega)]
      omega

/-- Lowercase text decodes, and encoding the result gives the text back. -/
theorem hexPairs_lowerHex : ∀ (ds : List UInt8) (index : Nat), LowerHex ds →
    ∃ bs, hexPairs ds index = .ok bs ∧ hexEncodeBytes bs = ds
  | [], _, _ => ⟨[], rfl, rfl⟩
  | [_], _, h => absurd h.1 (by simp)
  | a :: b :: rest, index, h => by
    obtain ⟨hi, hhi, hva, hda⟩ := lower_digit (h.2 a (by simp))
    obtain ⟨lo, hlo, hvb, hdb⟩ := lower_digit (h.2 b (by simp))
    have hrest : LowerHex rest :=
      ⟨by have := h.1; simp only [List.length_cons] at this; omega,
        fun d hd => h.2 d (by simp [hd])⟩
    obtain ⟨bs, hbs, henc⟩ := hexPairs_lowerHex rest (index + 2) hrest
    have hnat : (UInt8.ofNat (hi * 16 + lo)).toNat = hi * 16 + lo := by
      rw [UInt8.toNat_ofNat']
      omega
    refine ⟨UInt8.ofNat (hi * 16 + lo) :: bs, ?_, ?_⟩
    · simp only [hexPairs, hexValAt, hva, hvb, hbs, Bind.bind, Except.bind, pure, Except.pure]
    · rw [hexEncodeBytes_cons, hnat, henc, show (hi * 16 + lo) / 16 = hi by omega,
        show (hi * 16 + lo) % 16 = lo by omega, hda, hdb]

theorem hexDecode_lowerHex {s : String} (h : LowerHex (strBytes s)) :
    ∃ bs, hexDecode (strBytes s) = .ok bs ∧ hexEncode bs = s := by
  obtain ⟨bs, hbs, henc⟩ := hexPairs_lowerHex (strBytes s) 0 h
  refine ⟨bs, by rw [hexDecode, if_pos h.1, hbs], strBytes_inj ?_⟩
  rw [strBytes_hexEncode, henc]

theorem hexVal_isSome {d : UInt8} {n : Nat} (h : hexVal d = some n) :
    (65 ≤ d.toNat ∧ d.toNat ≤ 70) ∨ (97 ≤ d.toNat ∧ d.toNat ≤ 102) ∨
      (48 ≤ d.toNat ∧ d.toNat ≤ 57) := by
  unfold hexVal at h
  split at h
  · exact Or.inl ‹_›
  · split at h
    · exact Or.inr (Or.inl ‹_›)
    · split at h
      · exact Or.inr (Or.inr ‹_›)
      · exact absurd h (by simp)

/-- Digits that decode are hex digits, two for each byte. -/
theorem hexPairs_digits : ∀ {ds bs : List UInt8} {index : Nat}, ds.length % 2 = 0 →
    hexPairs ds index = .ok bs →
      ds.length = 2 * bs.length ∧ ∀ d ∈ ds, ∃ n, hexVal d = some n
  | [], bs, index, _, h => by
    obtain rfl : [] = bs := Except.ok.inj h
    exact ⟨rfl, by simp⟩
  | [_], _, _, hlen, _ => absurd hlen (by simp)
  | a :: b :: rest, bs, index, hlen, h => by
    have heven : rest.length % 2 = 0 := by
      simp only [List.length_cons] at hlen
      omega
    rw [hexPairs] at h
    cases ha : hexVal a with
    | none => exact absurd h (by simp [hexValAt, ha, bind, Except.bind])
    | some hi =>
      cases hb : hexVal b with
      | none => exact absurd h (by simp [hexValAt, ha, hb, bind, Except.bind])
      | some lo =>
        cases hrest : hexPairs rest (index + 2) with
        | error e => exact absurd h (by simp [hexValAt, ha, hb, hrest, bind, Except.bind])
        | ok tail =>
          obtain ⟨hlength, hdigits⟩ := hexPairs_digits heven hrest
          have hbs : UInt8.ofNat (hi * 16 + lo) :: tail = bs := by
            simpa [hexValAt, ha, hb, hrest, bind, Except.bind, pure, Except.pure] using h
          refine ⟨?_, ?_⟩
          · rw [← hbs, List.length_cons, List.length_cons, List.length_cons, hlength]
            omega
          · intro d hd
            rcases List.mem_cons.mp hd with rfl | hd
            · exact ⟨hi, ha⟩
            · rcases List.mem_cons.mp hd with rfl | hd
              · exact ⟨lo, hb⟩
              · exact hdigits d hd

/-- What `hex::decode` accepts. -/
theorem hexDecode_digits {ds bs : List UInt8} (h : hexDecode ds = .ok bs) :
    ds.length = 2 * bs.length ∧ ∀ d ∈ ds, ∃ n, hexVal d = some n := by
  unfold hexDecode at h
  split at h
  · next heven => exact hexPairs_digits heven h
  · exact absurd h (by simp)

-- ---------------------------------------------------------------------------
-- Machine integers as bytes
-- ---------------------------------------------------------------------------

/-- `n.to_le_bytes()` for an integer of `k` bytes. -/
def leBytes : Nat → Nat → List UInt8
  | 0, _ => []
  | k + 1, n => UInt8.ofNat n :: leBytes k (n / 256)

/-- `n.to_be_bytes()` for an integer of `k` bytes. -/
def beBytes (k n : Nat) : List UInt8 := (leBytes k n).reverse

/-- `from_le_bytes`. -/
def ofLeBytes : List UInt8 → Nat
  | [] => 0
  | b :: bs => b.toNat + 256 * ofLeBytes bs

@[simp] theorem leBytes_length (k n : Nat) : (leBytes k n).length = k := by
  induction k generalizing n with
  | zero => rfl
  | succ k ih => rw [leBytes, List.length_cons, ih]

@[simp] theorem beBytes_length (k n : Nat) : (beBytes k n).length = k := by
  rw [beBytes, List.length_reverse, leBytes_length]

theorem ofLeBytes_leBytes (k n : Nat) : ofLeBytes (leBytes k n) = n % 256 ^ k := by
  induction k generalizing n with
  | zero => simp [leBytes, ofLeBytes, Nat.mod_one]
  | succ k ih =>
    rw [leBytes, ofLeBytes, ih, UInt8.toNat_ofNat', pow_succ' 256 k, Nat.mod_mul]

-- ---------------------------------------------------------------------------
-- Overwriting the end of a buffer
-- ---------------------------------------------------------------------------

/-- `let len = buf.len(); buf[len - tail.len()..].copy_from_slice(tail)`. -/
def writeTail (buf tail : List UInt8) : List UInt8 :=
  buf.take (buf.length - tail.length) ++ tail

theorem writeTail_length {buf tail : List UInt8} (h : tail.length ≤ buf.length) :
    (writeTail buf tail).length = buf.length := by
  rw [writeTail, List.length_append, List.length_take]
  omega

/-- Only the last write of a given width is visible. -/
theorem writeTail_writeTail {buf t u : List UInt8} (h : t.length = u.length) :
    writeTail (writeTail buf t) u = writeTail buf u := by
  have hlen : (buf.take (buf.length - t.length) ++ t).length - u.length =
      (buf.take (buf.length - t.length)).length := by
    rw [List.length_append]
    omega
  rw [writeTail, writeTail, hlen, List.take_left, writeTail, h]

/-- Everything before the tail is unchanged. -/
theorem take_writeTail {buf tail : List UInt8} {i : Nat}
    (h : i ≤ buf.length - tail.length) : (writeTail buf tail).take i = buf.take i := by
  rw [writeTail, List.take_append_of_le_length (by rw [List.length_take]; omega),
    List.take_take, Nat.min_eq_left h]

theorem writeTail_append {pre old tail : List UInt8} (h : old.length = tail.length) :
    writeTail (pre ++ old) tail = pre ++ tail := by
  rw [writeTail, List.length_append, h, Nat.add_sub_cancel, List.take_left]

end Lib
