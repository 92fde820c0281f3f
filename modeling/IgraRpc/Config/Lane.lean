import IgraRpc.Lib.Result
import IgraRpc.Types.Wallet
import IgraRpc.Types.Whitelist

/-!
# The lane configuration — `config/lane.rs`

* `parseNamespace` — a 4-byte namespace in lowercase hex, padded to a subnetwork id;
* `LaneConfig.resolve` — the lane to enforce, or enforcement switched off;
* `parseNamespace_eq_ok` — **what is parsed is a user lane**: eight lowercase digits,
  their four bytes in front of sixteen zeros, and no reserved id;
* `IsUserLane.injective` — different texts are different lanes.

What the parser takes from outside is the structure `Subnets`.
-/

namespace IgraRpc

open Lib

/-- What the parser uses of kaspa's subnetwork ids, and `{:?}` of a text. -/
structure Subnets where
  isNative : SubnetworkId → Bool
  isBuiltin : SubnetworkId → Bool
  display : SubnetworkId → String
  debugText : String → String

-- ---------------------------------------------------------------------------
-- The code
-- ---------------------------------------------------------------------------

structure LaneConfig where
  laneId : Option String
  enforcementDisabled : Bool

/-- How the lane configuration resolves at startup. -/
inductive LaneMode where
  | enforced (id : SubnetworkId)
  | disabled

def namespaceLen : Nat := 4

def namespaceHexLen : Nat := namespaceLen * 2

/-- Bytes written to the front of a zeroed array. -/
def zeroExtended (n : Nat) (bytes : List UInt8) : FixedBytes n :=
  ⟨(bytes ++ List.replicate n 0).take n, by
    rw [List.length_take, List.length_append, List.length_replicate]
    omega⟩

/-- `is_ascii_uppercase`. -/
def isAsciiUppercase (c : Char) : Bool := 65 ≤ c.toNat && c.toNat ≤ 90

/-- `parse_namespace`. Eight digits always fit the four bytes they are decoded into. -/
def parseNamespace (subnets : Subnets) (s : String) : Except String SubnetworkId :=
  if startsWith s "0x" || startsWith s "0X" then
    .error "IGRA_LANE_ID must not have a 0x prefix"
  else if (strBytes s).length ≠ namespaceHexLen then
    .error ("IGRA_LANE_ID must be the 4-byte lane namespace as " ++
      s!"{namespaceHexLen} lowercase hex chars (e.g. 97b10000), got " ++
      s!"{(strBytes s).length} chars")
  else if s.toList.any isAsciiUppercase then
    .error s!"IGRA_LANE_ID must be lowercase hex (e.g. 97b10000), got {subnets.debugText s}"
  else
    match hexDecode (strBytes s) with
    | .error e => .error s!"IGRA_LANE_ID namespace must be valid lowercase hex: {e.display}"
    | .ok decoded =>
      let parsed : SubnetworkId := zeroExtended 20 decoded
      if subnets.isNative parsed then
        .error ("IGRA_LANE_ID: explicit NATIVE namespace 00000000 selects no lane; " ++
          "use LANE_ENFORCEMENT_DISABLED=true to opt out of enforcement")
      else if subnets.isBuiltin parsed then
        .error ("IGRA_LANE_ID: reserved built-in subnetwork " ++
          s!"{subnets.display parsed} is not allowed")
      else if ((parsed.bytes.take namespaceLen).drop 1).all (· == 0) then
        .error (s!"IGRA_LANE_ID: namespace 0x{hexEncode (parsed.bytes.take 1)}000000 " ++
          "collides with the reserved system shape [x, 0×19] per KIP-21")
      else .ok parsed

namespace LaneConfig

/-- `parsed`: an absent or empty lane id is no lane. -/
def parsed (subnets : Subnets) (config : LaneConfig) : Except String (Option SubnetworkId) :=
  match config.laneId with
  | none => .ok none
  | some "" => .ok none
  | some s => (parseNamespace subnets s).map some

/-- `resolve`. -/
def resolve (subnets : Subnets) (config : LaneConfig) : Except String LaneMode := do
  match (← config.parsed subnets), config.enforcementDisabled with
  | some id, _ => .ok (.enforced id)
  | none, true => .ok .disabled
  | none, false =>
    .error ("IGRA_LANE_ID is required; set LANE_ENFORCEMENT_DISABLED=true to " ++
      "explicitly opt out (dev/tests only, not for production)")

/-- `validate`. -/
def validate (subnets : Subnets) (config : LaneConfig) : Except String Unit :=
  (config.resolve subnets).map fun _ => ()

end LaneConfig

-- ---------------------------------------------------------------------------
-- User lanes
-- ---------------------------------------------------------------------------

/-- A lane id text and the user lane it names. -/
structure IsUserLane (subnets : Subnets) (s : String) (lane : SubnetworkId) : Prop where
  digits : (strBytes s).length = 8
  lowercase : LowerHex (strBytes s)
  namespaceBytes : ∃ decoded : List UInt8, decoded.length = 4 ∧ hexEncode decoded = s ∧
    lane.bytes = decoded ++ List.replicate 16 0 ∧ ∃ b ∈ decoded.drop 1, b ≠ 0
  notNative : subnets.isNative lane = false
  notBuiltin : subnets.isBuiltin lane = false

/-- Hex digits without an uppercase character are lowercase digits. -/
theorem lowerHex_of_decodes {s : String} {decoded : List UInt8}
    (hlower : s.toList.any isAsciiUppercase = false)
    (h : hexDecode (strBytes s) = .ok decoded) : LowerHex (strBytes s) := by
  obtain ⟨hlength, hdigits⟩ := hexDecode_digits h
  refine ⟨by omega, ?_⟩
  intro d hd
  obtain ⟨n, hn⟩ := hdigits d hd
  rcases hexVal_isSome hn with hupper | hletter | hdigit
  · obtain ⟨c, hc, hval⟩ := exists_char_of_mem_strBytes hd (by omega)
    have hnot := List.any_eq_false.mp hlower c hc
    simp only [isAsciiUppercase, Bool.and_eq_true, decide_eq_true_eq] at hnot
    omega
  · exact Or.inr hletter
  · exact Or.inl hdigit

theorem zeroExtended_bytes {n : Nat} {bytes : List UInt8} (h : bytes.length ≤ n) :
    (zeroExtended n bytes).bytes = bytes ++ List.replicate (n - bytes.length) 0 := by
  show (bytes ++ List.replicate n 0).take n = _
  rw [List.take_append, List.take_of_length_le h, List.take_replicate, Nat.min_eq_left]
  exact Nat.sub_le n bytes.length

/-- The checks of `parse_namespace`, passed one after the other. -/
structure NamespacePassed (subnets : Subnets) (s : String) (decoded : List UInt8) : Prop where
  length : (strBytes s).length = namespaceHexLen
  lowercase : s.toList.any isAsciiUppercase = false
  decodes : hexDecode (strBytes s) = .ok decoded
  notNative : subnets.isNative (zeroExtended 20 decoded) = false
  notBuiltin : subnets.isBuiltin (zeroExtended 20 decoded) = false
  notReserved : (((zeroExtended 20 decoded).bytes.take namespaceLen).drop 1).all (· == 0) = false

theorem namespacePassed_of_ok {subnets : Subnets} {s : String} {lane : SubnetworkId}
    (h : parseNamespace subnets s = .ok lane) :
    ∃ decoded, NamespacePassed subnets s decoded ∧ lane = zeroExtended 20 decoded := by
  unfold parseNamespace at h
  split at h
  · exact absurd h (by simp)
  split at h
  · exact absurd h (by simp)
  next hlength =>
  split at h
  · exact absurd h (by simp)
  next hupper =>
  cases hdecode : hexDecode (strBytes s) with
  | error e =>
    rw [hdecode] at h
    exact absurd h (by simp)
  | ok decoded =>
    rw [hdecode] at h
    simp only at h
    split at h
    · exact absurd h (by simp)
    next hnative =>
    split at h
    · exact absurd h (by simp)
    next hbuiltin =>
    split at h
    · exact absurd h (by simp)
    next hshape =>
    exact ⟨decoded, ⟨not_not.mp hlength, Bool.eq_false_iff.mpr hupper, hdecode,
      Bool.eq_false_iff.mpr hnative, Bool.eq_false_iff.mpr hbuiltin,
      Bool.eq_false_iff.mpr hshape⟩, (Except.ok.inj h).symm⟩

/-- **`parse_namespace`, success.** -/
theorem parseNamespace_eq_ok {subnets : Subnets} {s : String} {lane : SubnetworkId}
    (h : parseNamespace subnets s = .ok lane) : IsUserLane subnets s lane := by
  obtain ⟨decoded, hpassed, rfl⟩ := namespacePassed_of_ok h
  have height : (strBytes s).length = 8 := hpassed.length
  have hfour : decoded.length = 4 := by
    have hdouble := (hexDecode_digits hpassed.decodes).1
    omega
  have hlower : LowerHex (strBytes s) := lowerHex_of_decodes hpassed.lowercase hpassed.decodes
  have hbytes : (zeroExtended 20 decoded).bytes = decoded ++ List.replicate 16 0 := by
    rw [zeroExtended_bytes (by omega), hfour]
  have htake : (zeroExtended 20 decoded).bytes.take namespaceLen = decoded := by
    rw [hbytes]
    exact List.take_left' hfour
  have hencode : hexEncode decoded = s := by
    obtain ⟨bs, hbs, hencode⟩ := hexDecode_lowerHex hlower
    rw [hpassed.decodes] at hbs
    rw [Except.ok.inj hbs, hencode]
  have hnonzero : ∃ b ∈ decoded.drop 1, b ≠ 0 := by
    have hshape := hpassed.notReserved
    rw [htake] at hshape
    obtain ⟨b, hb, hzero⟩ := List.all_eq_false.mp hshape
    exact ⟨b, hb, by simpa using hzero⟩
  exact ⟨height, hlower, ⟨decoded, hfour, hencode, hbytes, hnonzero⟩, hpassed.notNative,
    hpassed.notBuiltin⟩

/-- Different texts are different lanes. -/
theorem IsUserLane.injective {subnets : Subnets} {s t : String} {lane : SubnetworkId}
    (hs : IsUserLane subnets s lane) (ht : IsUserLane subnets t lane) : s = t := by
  obtain ⟨a, ha, has, hlane, -⟩ := hs.namespaceBytes
  obtain ⟨b, hb, hbt, hlane', -⟩ := ht.namespaceBytes
  have hsame : a = b := List.append_cancel_right (hlane.symm.trans hlane')
  rw [← has, ← hbt, hsame]

-- ---------------------------------------------------------------------------
-- Resolution
-- ---------------------------------------------------------------------------

namespace LaneConfig

variable {subnets : Subnets} {config : LaneConfig}

/-- No lane id is given: it is absent or empty. -/
def Unnamed (config : LaneConfig) : Prop := config.laneId = none ∨ config.laneId = some ""

theorem parsed_of_unnamed (h : config.Unnamed) : config.parsed subnets = .ok none := by
  rcases h with h | h
  · rw [parsed, h]
  · rw [parsed, h]
    rfl

theorem parsed_of_named {s : String} (h : config.laneId = some s) (hs : s ≠ "") :
    config.parsed subnets = (parseNamespace subnets s).map some := by
  rw [parsed, h]
  split
  · next heq => exact absurd heq (by simp)
  · next heq => exact absurd (Option.some.inj heq) hs
  · next heq => rw [Option.some.inj heq]

theorem unnamed_or_named (config : LaneConfig) :
    config.Unnamed ∨ ∃ s, config.laneId = some s ∧ s ≠ "" := by
  cases hid : config.laneId with
  | none => exact Or.inl (Or.inl hid)
  | some s =>
    by_cases hs : s = ""
    · exact Or.inl (Or.inr (by rw [hid, hs]))
    · exact Or.inr ⟨s, rfl, hs⟩

/-- **`resolve`, with a lane id.** The lane it names is enforced. -/
theorem resolve_of_named {s : String} (h : config.laneId = some s) (hs : s ≠ "") :
    config.resolve subnets = (parseNamespace subnets s).map .enforced := by
  rw [resolve, parsed_of_named h hs]
  cases parseNamespace subnets s <;> rfl

/-- **`resolve`, without a lane id.** Enforcement must have been switched off. -/
theorem resolve_of_unnamed (h : config.Unnamed) :
    config.resolve subnets =
      if config.enforcementDisabled then .ok .disabled
      else .error ("IGRA_LANE_ID is required; set LANE_ENFORCEMENT_DISABLED=true to " ++
        "explicitly opt out (dev/tests only, not for production)") := by
  rw [resolve, parsed_of_unnamed h]
  cases config.enforcementDisabled <;> rfl

/-- Validation accepts what resolves. -/
theorem validate_eq_ok :
    config.validate subnets = .ok () ↔ ∃ mode, config.resolve subnets = .ok mode := by
  rw [validate]
  cases config.resolve subnets with
  | error e => simp [Except.map]
  | ok mode => simp [Except.map]

end LaneConfig

end IgraRpc
