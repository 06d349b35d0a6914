/-
# UCI packages and the SQM intent of an instance

`UciPackage` of `runtime_health.rs`, the words that its options hold, and `sqm_config.rs`: what an
instance of the `cake-autorate` package asks of its SQM queue.  A package is a map from section names
to sections, each a map from options to values, in the order of the names.
-/

import CakeAutorate.Machine.Fallible
import CakeAutorate.Wire.Text
import Mathlib.Algebra.Group.Int.Defs
import Mathlib.Data.Nat.Basic
import Std.Data.ExtTreeMap

namespace CakeAutorate.Sqm

open Wire (isWhitespace)

/-- `BTreeMap<String, String>`. -/
abbrev Options := Std.ExtTreeMap String String

structure UciSection where
  sectionType : String
  options : Options

structure UciPackage where
  sections : Std.ExtTreeMap String UciSection

def UciPackage.get (p : UciPackage) (name : String) : Option UciSection := p.sections[name]?

def UciSection.get (s : UciSection) (option : String) : Option String := s.options[option]?

def safeName (value : String) : Bool :=
  !value.isEmpty && decide (value.utf8ByteSize ≤ 64)
    && value.toList.all fun c => c.isAlphanum || c == '_'

def safeInterface (value : String) : Bool :=
  !value.isEmpty && decide (value.utf8ByteSize ≤ 64)
    && value.toList.all fun c => c.isAlphanum || "_.:@-".toList.contains c

/-- `char::is_control`. -/
def isControl (c : Char) : Bool := c.toNat ≤ 0x1f || (0x7f ≤ c.toNat && c.toNat ≤ 0x9f)

/-- `value.trim().to_ascii_lowercase()`. -/
def plainWord (value : String) : List Char :=
  (((value.toList.dropWhile isWhitespace).reverse.dropWhile isWhitespace).reverse).map Char.toLower

def boolWord (value : String) : Option Bool :=
  if ["1", "true", "yes", "on", "enabled"].any fun word => plainWord value == word.toList then
    some true
  else if ["0", "false", "no", "off", "disabled"].any fun word => plainWord value == word.toList then
    some false
  else none

def boolValue (value : Option String) (default : Bool) : Bool := (value.bind boolWord).getD default

def parseBool (value : String) : Except String Bool :=
  match boolWord value with
  | some b => .ok b
  | none => .error
    "invalid boolean value (expected 1/0, true/false, yes/no, on/off, enabled/disabled)"

/-- The digits of `str::parse` for an integer. -/
def parseDigits (digits : List Char) : Option ℕ :=
  if digits.isEmpty || !digits.all Char.isDigit then none
  else some (digits.foldl (fun n c => n * 10 + (c.toNat - '0'.toNat)) 0)

/-- `str::parse::<i64>`. -/
def parseI64 (value : String) : Option ℤ :=
  let parsed : Option ℤ := match value.toList with
    | '-' :: digits => (parseDigits digits).map fun n => -(n : ℤ)
    | '+' :: digits => (parseDigits digits).map fun n => (n : ℤ)
    | digits => (parseDigits digits).map fun n => (n : ℤ)
  parsed.filter fun n => -2 ^ 63 ≤ n && n < 2 ^ 63

structure CakeIntent where
  useMq : Bool
  legacyAlias : Bool

/-- `intent`, whether the qdisc is a multi-queue one. -/
def aliasMq (qdisc : String) : Except String Bool :=
  if qdisc = "cake" then .ok false
  else if qdisc = "cake_mq" ∨ qdisc = "cake-mq" then .ok true
  else .error "sqm_qdisc must be cake or a supported multi-queue CAKE mode"

/-- `intent`, whether several queues are asked for: the option says so, or the qdisc, or what the
queue already has. -/
def wantsMq (alias_ : Bool) (explicitMq retainedMq : Option String) : Except String Bool :=
  match explicitMq, alias_, retainedMq with
  | some value, _, _ => (parseBool value).mapError fun _ => "sqm_use_mq must be boolean"
  | none, true, _ => .ok true
  | none, false, none => .ok false
  | none, false, some value =>
    (parseBool value).mapError fun _ => "retained SQM use_mq must be boolean"

def intent (qdisc : String) (explicitMq retainedMq : Option String) : Except String CakeIntent := do
  let alias_ ← aliasMq qdisc
  let useMq ← wantsMq alias_ explicitMq retainedMq
  return ⟨useMq, qdisc == "cake-mq" || qdisc == "cake_mq"⟩

/-- `contains("..")`. -/
def doubleDot : List Char → Bool
  | '.' :: '.' :: _ => true
  | _ :: rest => doubleDot rest
  | [] => false

def safeScript (script : String) : Bool :=
  !script.isEmpty && decide (script.utf8ByteSize ≤ 128) && ".qos".toList.isSuffixOf script.toList
    && !".".toList.isPrefixOf script.toList
    && !doubleDot script.toList
    && script.toList.all fun c => c.isAlphanum || c == '_' || c == '-' || c == '.'

/-- `validate`, an option that is a boolean when it is there. -/
def optionalBool (value : Option String) (default : Bool) : Except String Bool :=
  match value with
  | none => .ok default
  | some value => parseBool value

/-- `validate`, an integer option. -/
def validateInteger (options : Options) (key : String) (minimum maximum : ℤ) : Except String Unit :=
  check (((options[key]?).filter fun value => !value.isEmpty).all fun value =>
      (parseI64 value).any fun n => minimum ≤ n && n ≤ maximum)
    (key ++ " must be an integer between " ++ toString minimum ++ " and " ++ toString maximum)

def knownDirection (direction : String) : Bool :=
  ["both", "upload_only", "download_only", "off"].contains direction

/-- `validate`, the support for several queues, asked for only where it is needed. -/
def mqAnswer (mqSupported : String → Except String Bool) (needed : Bool) (script : String) :
    Except String Bool :=
  if needed then mqSupported script else .ok true

/-- `validate`, from the script on. -/
def validateScript (options : Options) (mqSupported : String → Except String Bool) (active : Bool)
    (mode : CakeIntent) : Except String CakeIntent := do
  let script := options["sqm_script"]?.getD "piece_of_cake.qos"
  check (safeScript script) "sqm_script must be a safe installed .qos basename"
  validateInteger options "sqm_download" 0 100000000
  validateInteger options "sqm_upload" 0 100000000
  validateInteger options "sqm_overhead" (-1500) 1500
  validateInteger options "sqm_tcMTU" 1 65535
  validateInteger options "sqm_tcTSIZE" 1 65535
  validateInteger options "sqm_tcMPU" 0 65535
  check ((options["sqm_linklayer"]?).all fun linklayer =>
      ["none", "ethernet", "atm"].contains linklayer)
    "sqm_linklayer must be none, ethernet or atm"
  let supported ← mqAnswer mqSupported (active && mode.useMq) script
  check supported "multi-queue CAKE requires verified kernel, tc and SQM script support"
  return mode

def validate (options : Options) (retainedMq : Option String)
    (mqSupported : String → Except String Bool) : Except String CakeIntent := do
  let enabled ← optionalBool options["enabled"]? false
  let sqmEnabled ← optionalBool options["sqm_enabled"]? enabled
  let direction := options["sqm_direction_mode"]?.getD "both"
  check (knownDirection direction)
    "sqm_direction_mode must be both, upload_only, download_only or off"
  let mode ← intent (options["sqm_qdisc"]?.getD "cake") options["sqm_use_mq"]? retainedMq
  validateScript options mqSupported (enabled && sqmEnabled && direction != "off") mode

def flag (b : Bool) : String := if b then "1" else "0"

theorem parseBool_flag (b : Bool) : parseBool (flag b) = .ok b := by
  cases b <;> decide +kernel

theorem intent_flag {qdisc : String} {explicitMq retainedMq : Option String} {i : CakeIntent}
    (h : intent qdisc explicitMq retainedMq = .ok i) :
    intent qdisc explicitMq (some (flag i.useMq)) = .ok i := by
  simp only [intent, bind_ok, pure, Except.pure, Except.ok.injEq] at h ⊢
  obtain ⟨alias_, halias, useMq, hmq, rfl⟩ := h
  refine ⟨alias_, halias, useMq, ?_, rfl⟩
  cases explicitMq with
  | some value => exact hmq
  | none =>
    cases alias_ with
    | true => exact hmq
    | false =>
      show (parseBool (flag useMq)).mapError _ = .ok useMq
      rw [parseBool_flag]
      rfl

theorem validate_flag {options : Options} {retainedMq : Option String}
    {mqSupported : String → Except String Bool} {i : CakeIntent}
    (h : validate options retainedMq mqSupported = .ok i) :
    validate options (some (flag i.useMq)) mqSupported = .ok i := by
  simp only [validate, bind_ok] at h ⊢
  obtain ⟨enabled, henabled, sqmEnabled, hsqmEnabled, u, hu, mode, hmode, hscript⟩ := h
  have hsame : mode = i := by
    simp only [validateScript, bind_ok, pure, Except.pure, Except.ok.injEq] at hscript
    obtain ⟨-, -, -, -, -, -, -, -, -, -, -, -, -, -, -, -, -, -, -, -, hsame⟩ := hscript
    exact hsame
  subst hsame
  exact ⟨enabled, henabled, sqmEnabled, hsqmEnabled, u, hu, mode, intent_flag hmode, hscript⟩

end CakeAutorate.Sqm
