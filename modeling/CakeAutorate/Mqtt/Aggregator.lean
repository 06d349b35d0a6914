/-
# The MQTT aggregator

`MqttAggregator` of `operations/mqtt_publisher.rs`: lines of the daemon's log are added up, and the
means are published when the interval has passed.  Numbers are rationals where the source has floats,
counts do not saturate, and what is published is the values that the JSON text shows, not yet rounded.

A record is taken field by field.  A field that is refused ends it, and what the fields before it have
changed stays.
-/

import CakeAutorate.Controller.Options
import CakeAutorate.Wire.Text

namespace CakeAutorate.Mqtt

open Wire
open Sqm (isControl)

def maxCpuCores : ℕ := 256

/-- How a record is refused: with a message, or by an index that is out of bounds. -/
inductive Failure where
  | refused (message : String)
  | panicked

/-- `line.split("; ")`. -/
def splitFields : Text → List Text
  | [] => [[]]
  | ';' :: ' ' :: rest => [] :: splitFields rest
  | c :: rest =>
    match splitFields rest with
    | field :: fields => (c :: field) :: fields
    | [] => [[c]]

def finite (value : Text) (name : String) : Except Failure ℚ :=
  match Controller.parseF64 (String.ofList value) with
  | .error _ => .error (.refused ("MQTT " ++ name ++ " is invalid"))
  | .ok none => .error (.refused ("MQTT " ++ name ++ " is not finite"))
  | .ok (some q) => .ok q

def validateText (value : Text) (limit : ℕ) : Except Failure Unit :=
  if limit < byteLength value ∨ value.any isControl = true then
    .error (.refused "MQTT configuration contains unsafe or oversized text")
  else .ok ()

structure SummaryAccumulator where
  count : ℕ := 0
  dlRate : ℚ := 0
  ulRate : ℚ := 0
  dlDelays : ℚ := 0
  ulDelays : ℚ := 0
  dlOwd : ℚ := 0
  ulOwd : ℚ := 0
  dlLoad : Text := []
  ulLoad : Text := []
  cakeDl : ℚ := 0
  cakeUl : ℚ := 0
  eventEpoch : ℚ := 0

structure CpuAccumulator where
  count : ℕ := 0
  total : ℚ := 0
  cores : List ℚ := []

structure MqttAggregator where
  minimumInterval : ℕ
  publishCpu : Bool
  lastEmit : Option ℕ
  summary : SummaryAccumulator
  cpu : CpuAccumulator

def MqttAggregator.new (minimumInterval : ℕ) (publishCpu : Bool) : MqttAggregator :=
  ⟨minimumInterval, publishCpu, none, {}, {}⟩

def sequence {σ : Type} : List (σ → Except Failure σ) → σ → σ × Except Failure Unit
  | [], s => (s, .ok ())
  | move :: moves, s =>
    match move s with
    | .error failure => (s, .error failure)
    | .ok next => sequence moves next

def number {σ : Type} (value : Text) (name : String) (put : σ → ℚ → σ) (s : σ) : Except Failure σ := do
  let x ← finite value name
  return put s x

def field (fields : List Text) (index : ℕ) : Text := fields.getD index []

/-- `observe_summary`, the moves. -/
def summaryMoves (fields : List Text) : List (SummaryAccumulator → Except Failure SummaryAccumulator) :=
  [number (field fields 1) "event epoch" fun s x => { s with eventEpoch := x },
    number (field fields 2) "download rate" fun s x => { s with dlRate := s.dlRate + x },
    number (field fields 3) "upload rate" fun s x => { s with ulRate := s.ulRate + x },
    number (field fields 4) "download delay sum" fun s x => { s with dlDelays := s.dlDelays + x },
    number (field fields 5) "upload delay sum" fun s x => { s with ulDelays := s.ulDelays + x },
    number (field fields 6) "download OWD" fun s x => { s with dlOwd := s.dlOwd + x },
    number (field fields 7) "upload OWD" fun s x => { s with ulOwd := s.ulOwd + x },
    fun s => do
      validateText (field fields 8) 64
      validateText (field fields 9) 64
      return { s with dlLoad := field fields 8, ulLoad := field fields 9 },
    number (field fields 10) "CAKE download rate" fun s x => { s with cakeDl := x },
    number (field fields 11) "CAKE upload rate" fun s x => { s with cakeUl := x },
    fun s => .ok { s with count := s.count + 1 }]

def observeSummary (fields : List Text) (s : SummaryAccumulator) :
    SummaryAccumulator × Except Failure Unit := sequence (summaryMoves fields) s

/-- `observe_cpu`, the sums of the cores, which are set up where there are none. -/
def CpuAccumulator.resized (s : CpuAccumulator) (coreCount : ℕ) : List ℚ :=
  if s.cores.isEmpty then .replicate coreCount 0 else s.cores

/-- `observe_cpu`, a core. -/
def addCore (index : ℕ) (value : Text) (s : CpuAccumulator) : Except Failure CpuAccumulator := do
  let x ← finite value "CPU core"
  match s.cores[index]? with
  | none => .error .panicked
  | some sum => return { s with cores := s.cores.set index (sum + x) }

/-- `observe_cpu`, the moves. -/
def cpuMoves (fields : List Text) : List (CpuAccumulator → Except Failure CpuAccumulator) :=
  let coreCount := fields.length - 3
  [fun s =>
      if maxCpuCores < coreCount then .error (.refused "MQTT CPU record has too many cores")
      else if 0 < s.count ∧ s.cores.length ≠ coreCount then
        .error (.refused "MQTT CPU core count changed within one window")
      else .ok { s with cores := s.resized coreCount },
    number (field fields 2) "CPU total" fun s x => { s with total := s.total + x }] ++
  (fields.drop 3).mapIdx addCore ++
  [fun s => .ok { s with count := s.count + 1 }]

def observeCpu (fields : List Text) (s : CpuAccumulator) : CpuAccumulator × Except Failure Unit :=
  sequence (cpuMoves fields) s

/-- What is published of the cores. -/
structure CpuState where
  total : ℚ
  cores : List ℚ

/-- What is published. -/
structure MqttState where
  eventEpoch : ℚ
  dlAchievedRateKbps : ℚ
  ulAchievedRateKbps : ℚ
  dlSumDelays : ℚ
  ulSumDelays : ℚ
  dlAvgOwdDeltaUs : ℚ
  ulAvgOwdDeltaUs : ℚ
  dlLoadCondition : Text
  ulLoadCondition : Text
  cakeDlRateKbps : ℚ
  cakeUlRateKbps : ℚ
  cpu : Option CpuState
  samples : ℕ

namespace MqttAggregator

/-- `take_state_json`, the CPU. -/
def cpuState (a : MqttAggregator) : Option CpuState :=
  if a.publishCpu && decide (0 < a.cpu.count) then
    some ⟨a.cpu.total / a.cpu.count, a.cpu.cores.map fun value => value / a.cpu.count⟩
  else none

/-- `take_state_json`. -/
def takeState (a : MqttAggregator) : MqttAggregator × MqttState :=
  let divisor : ℚ := (max a.summary.count 1 : ℕ)
  ({ a with summary := {}, cpu := {} },
    { eventEpoch := a.summary.eventEpoch
      dlAchievedRateKbps := a.summary.dlRate / divisor
      ulAchievedRateKbps := a.summary.ulRate / divisor
      dlSumDelays := a.summary.dlDelays / divisor
      ulSumDelays := a.summary.ulDelays / divisor
      dlAvgOwdDeltaUs := a.summary.dlOwd / divisor
      ulAvgOwdDeltaUs := a.summary.ulOwd / divisor
      dlLoadCondition := a.summary.dlLoad
      ulLoadCondition := a.summary.ulLoad
      cakeDlRateKbps := a.summary.cakeDl
      cakeUlRateKbps := a.summary.cakeUl
      cpu := a.cpuState
      samples := max a.summary.count 1 })

/-- `observe_line`, whether a state is due. -/
def due (minimumInterval : ℕ) (lastEmit : Option ℕ) (now : ℕ) : Bool :=
  lastEmit.all fun last => decide (now < last) || decide (minimumInterval ≤ now - last)

/-- `observe_line`, after the record. -/
def emit (a : MqttAggregator) (now : ℕ) : MqttAggregator × Except Failure (Option MqttState) :=
  if a.summary.count = 0 then (a, .ok none)
  else if due a.minimumInterval a.lastEmit now = false then (a, .ok none)
  else
    let result := takeState { a with lastEmit := some now }
    (result.1, .ok (some result.2))

def observeLine (a : MqttAggregator) (line : Text) (now : ℕ) :
    MqttAggregator × Except Failure (Option MqttState) :=
  if 64 * 1024 < byteLength line ∨ line.any (· == '\x00') = true then
    (a, .error (.refused "MQTT log record is unsafe or oversized"))
  else
    let fields := splitFields line
    if fields.head? = some "SUMMARY".toList ∧ 12 ≤ fields.length then
      match observeSummary fields a.summary with
      | (summary, .error failure) => ({ a with summary }, .error failure)
      | (summary, .ok ()) => emit { a with summary } now
    else if fields.head? = some "CPU".toList ∧ a.publishCpu = true ∧ 3 ≤ fields.length then
      match observeCpu fields a.cpu with
      | (cpu, .error failure) => ({ a with cpu }, .error failure)
      | (cpu, .ok ()) => emit { a with cpu } now
    else (a, .ok none)

end MqttAggregator

end CakeAutorate.Mqtt
