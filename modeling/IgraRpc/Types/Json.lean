import IgraRpc.Lib.Bytes

/-!
# JSON values

`serde_json::Value` as the provider uses it: reads through `get` and indexing,
in-place updates through `get_mut`, construction by `json!`, and the compact
text `to_string` prints.

* An object is its map's entries in iteration order; keys of a map are distinct,
  so the first entry under a key is the only one.
* A number is an integer (`u64` / `i64`) or a float; a float is kept as the text
  it prints as, since nothing here computes with it.
-/

namespace IgraRpc

/-- `serde_json::Number`. -/
inductive Number where
  | int (z : Int)
  | float (text : String)
  deriving DecidableEq, Repr

def Number.toText : Number → String
  | .int z => toString z
  | .float text => text

/-- `serde_json::Value`. -/
inductive Value where
  | null
  | bool (b : Bool)
  | number (n : Number)
  | string (s : String)
  | array (items : List Value)
  | object (entries : List (String × Value))
  deriving Repr

namespace Value

/-- An integer literal in `json!`. -/
def int (z : Int) : Value := .number (.int z)

def isNull : Value → Bool
  | null => true
  | _ => false

/-- `Value::as_str`. -/
def asStr : Value → Option String
  | string s => some s
  | _ => none

/-- `Value::get` with a key. -/
def get (v : Value) (key : String) : Option Value :=
  match v with
  | object entries => entries.lookup key
  | _ => none

/-- `Value::get` with a position. -/
def getIdx (v : Value) (i : Nat) : Option Value :=
  match v with
  | array items => items[i]?
  | _ => none

/-- `v[i]`: an absent position reads as `null`. -/
def index (v : Value) (i : Nat) : Value := (v.getIdx i).getD null

/-- Apply `f` to the entry under `key`. -/
def modifyEntries (key : String) (f : Value → Value) :
    List (String × Value) → List (String × Value)
  | [] => []
  | (k, v) :: rest =>
    if key == k then (k, f v) :: rest else (k, v) :: modifyEntries key f rest

/-- `if let Some(entry) = v.get_mut(key) { *entry = f(*entry) }`. -/
def modify (v : Value) (key : String) (f : Value → Value) : Value :=
  match v with
  | object entries => object (modifyEntries key f entries)
  | other => other

-- ---------------------------------------------------------------------------
-- Printing
-- ---------------------------------------------------------------------------

/-- `serde_json`'s string escapes. -/
def escapeChar (c : Char) : List Char :=
  if c = '"' then ['\\', '"']
  else if c = '\\' then ['\\', '\\']
  else if c.toNat = 8 then ['\\', 'b']
  else if c.toNat = 9 then ['\\', 't']
  else if c.toNat = 10 then ['\\', 'n']
  else if c.toNat = 12 then ['\\', 'f']
  else if c.toNat = 13 then ['\\', 'r']
  else if c.toNat < 32 then
    ['\\', 'u', '0', '0', Nat.digitChar (c.toNat / 16), Nat.digitChar (c.toNat % 16)]
  else [c]

def quote (s : String) : String := "\"" ++ String.ofList (s.toList.flatMap escapeChar) ++ "\""

mutual

/-- `Value::to_string`: compact JSON. -/
def toText : Value → String
  | null => "null"
  | bool b => if b then "true" else "false"
  | number n => n.toText
  | string s => quote s
  | array items => "[" ++ itemsText items ++ "]"
  | object entries => "\x7b" ++ entriesText entries ++ "\x7d"

def itemsText : List Value → String
  | [] => ""
  | [v] => toText v
  | v :: w :: rest => toText v ++ "," ++ itemsText (w :: rest)

def entriesText : List (String × Value) → String
  | [] => ""
  | [(k, v)] => quote k ++ ":" ++ toText v
  | (k, v) :: e :: rest => quote k ++ ":" ++ toText v ++ "," ++ entriesText (e :: rest)

end

-- ---------------------------------------------------------------------------
-- Reading after an update
-- ---------------------------------------------------------------------------

theorem lookup_modifyEntries (key key' : String) (f : Value → Value)
    (entries : List (String × Value)) :
    (modifyEntries key f entries).lookup key' =
      if key' = key then (entries.lookup key').map f else entries.lookup key' := by
  induction entries with
  | nil => simp [modifyEntries]
  | cons e rest ih =>
    obtain ⟨k, v⟩ := e
    rw [modifyEntries]
    by_cases hk : key = k
    · subst hk
      rw [if_pos (beq_self_eq_true key), List.lookup_cons, List.lookup_cons]
      by_cases hk' : key' = key
      · simp [hk']
      · simp [beq_eq_false_iff_ne.mpr hk', hk']
    · rw [if_neg (by simpa using hk), List.lookup_cons, List.lookup_cons, ih]
      by_cases hk' : key' = k
      · have hne : key' ≠ key := fun h => hk (h.symm.trans hk')
        simp [hk', hk' ▸ hne]
      · simp [beq_eq_false_iff_ne.mpr hk']

/-- Updating one entry leaves every other entry as it was. -/
theorem get_modify (v : Value) (key key' : String) (f : Value → Value) :
    (v.modify key f).get key' = if key' = key then (v.get key').map f else v.get key' := by
  cases v with
  | object entries => exact lookup_modifyEntries key key' f entries
  | _ => simp [modify, get]

theorem get_modify_of_ne {key key' : String} (h : key' ≠ key) (v : Value)
    (f : Value → Value) : (v.modify key f).get key' = v.get key' := by
  rw [get_modify, if_neg h]

theorem isNull_iff {v : Value} : v.isNull = true ↔ v = null := by
  cases v <;> simp [isNull]

end Value

end IgraRpc
