/-
# The means that are published

What the aggregator is for: the records that were accepted since the last emission are a window, and
a state is published with their means.  A record is read as a whole here, before anything is added.

The aggregator adds while it reads.  It publishes these means on every run in which no record is
refused after its first field was taken.
-/

import CakeAutorate.Mqtt.Aggregator
import Mathlib.Algebra.BigOperators.Group.List.Basic
import Mathlib.Algebra.GroupWithZero.Nat

namespace CakeAutorate.Mqtt

open Wire List SummaryAccumulator MqttAggregator Nat Machine CpuAccumulator

/-- A `SUMMARY` record. -/
structure SummaryRecord where
  eventEpoch : ℚ
  dlRate : ℚ
  ulRate : ℚ
  dlDelays : ℚ
  ulDelays : ℚ
  dlOwd : ℚ
  ulOwd : ℚ
  dlLoad : Text
  ulLoad : Text
  cakeDl : ℚ
  cakeUl : ℚ

/-- A `CPU` record. -/
structure CpuRecord where
  total : ℚ
  cores : List ℚ

/-- A record that is accepted. -/
inductive Record where
  | summary (r : SummaryRecord)
  | cpu (r : CpuRecord)

/-- A `SUMMARY` record as it is read. -/
def readSummary (fields : List Text) : Except Failure SummaryRecord := do
  let eventEpoch ← finite (field fields 1) "event epoch"
  let dlRate ← finite (field fields 2) "download rate"
  let ulRate ← finite (field fields 3) "upload rate"
  let dlDelays ← finite (field fields 4) "download delay sum"
  let ulDelays ← finite (field fields 5) "upload delay sum"
  let dlOwd ← finite (field fields 6) "download OWD"
  let ulOwd ← finite (field fields 7) "upload OWD"
  validateText (field fields 8) 64
  validateText (field fields 9) 64
  let cakeDl ← finite (field fields 10) "CAKE download rate"
  let cakeUl ← finite (field fields 11) "CAKE upload rate"
  return { eventEpoch, dlRate, ulRate, dlDelays, ulDelays, dlOwd, ulOwd, dlLoad := field fields 8,
           ulLoad := field fields 9, cakeDl, cakeUl }

/-- The cores of a `CPU` record. -/
def readCores : List Text → Except Failure (List ℚ)
  | [] => .ok []
  | value :: values => do
    let x ← finite value "CPU core"
    let xs ← readCores values
    return x :: xs

/-- A `CPU` record as it is read, in a window that has some already. -/
def readCpu (window : List CpuRecord) (fields : List Text) : Except Failure CpuRecord := do
  if maxCpuCores < fields.length - 3 then
    throw (.refused "MQTT CPU record has too many cores")
  if window.any fun r => r.cores.length != fields.length - 3 then
    throw (.refused "MQTT CPU core count changed within one window")
  let total ← finite (field fields 2) "CPU total"
  let cores ← readCores (fields.drop 3)
  return ⟨total, cores⟩

/-- What was accepted since the last emission, in the order of the log. -/
structure Window where
  minimumInterval : ℕ
  publishCpu : Bool
  lastEmit : Option ℕ
  summaries : List SummaryRecord
  cpus : List CpuRecord

def mean (values : List ℚ) : ℚ := values.sum / values.length

def cpuMeans (cpus : List CpuRecord) : Option CpuState :=
  cpus.head?.map fun first =>
    ⟨mean (cpus.map (·.total)),
      (range first.cores.length).map fun index => mean (cpus.map fun r => r.cores.getD index 0)⟩

/-- **The state of a window** with `latest` as its last `SUMMARY` record. -/
def stateOf (summaries : List SummaryRecord) (cpus : List CpuRecord) (latest : SummaryRecord) :
    MqttState where
  eventEpoch := latest.eventEpoch
  dlAchievedRateKbps := mean (summaries.map (·.dlRate))
  ulAchievedRateKbps := mean (summaries.map (·.ulRate))
  dlSumDelays := mean (summaries.map (·.dlDelays))
  ulSumDelays := mean (summaries.map (·.ulDelays))
  dlAvgOwdDeltaUs := mean (summaries.map (·.dlOwd))
  ulAvgOwdDeltaUs := mean (summaries.map (·.ulOwd))
  dlLoadCondition := latest.dlLoad
  ulLoadCondition := latest.ulLoad
  cakeDlRateKbps := latest.cakeDl
  cakeUlRateKbps := latest.cakeUl
  cpu := cpuMeans cpus
  samples := summaries.length

namespace Window

def new (minimumInterval : ℕ) (publishCpu : Bool) : Window :=
  ⟨minimumInterval, publishCpu, none, [], []⟩

def read (w : Window) (line : Text) : Except Failure (Option Record) :=
  if 64 * 1024 < byteLength line ∨ line.any (· == '\x00') = true then
    .error (.refused "MQTT log record is unsafe or oversized")
  else
    let fields := splitFields line
    if fields.head? = some "SUMMARY".toList ∧ 12 ≤ fields.length then do
      let r ← readSummary fields
      return some (.summary r)
    else if fields.head? = some "CPU".toList ∧ w.publishCpu = true ∧ 3 ≤ fields.length then do
      let r ← readCpu w.cpus fields
      return some (.cpu r)
    else .ok none

def accept (w : Window) : Record → Window
  | .summary r => { w with summaries := w.summaries ++ [r] }
  | .cpu r => { w with cpus := w.cpus ++ [r] }

/-- The state of the window is published when it has a `SUMMARY` record and is due. -/
def publish (w : Window) (now : ℕ) : Window × Except Failure (Option MqttState) :=
  match w.summaries.getLast? with
  | none => (w, .ok none)
  | some latest =>
    if due w.minimumInterval w.lastEmit now = false then (w, .ok none)
    else ({ w with lastEmit := some now, summaries := [], cpus := [] },
      .ok (some (stateOf w.summaries w.cpus latest)))

/-- **A line is accepted or ignored as a whole.** -/
def observeLine (w : Window) (line : Text) (now : ℕ) : Window × Except Failure (Option MqttState) :=
  match w.read line with
  | .error failure => (w, .error failure)
  | .ok none => (w, .ok none)
  | .ok (some record) => (w.accept record).publish now

end Window

/-- A `SUMMARY` record is refused at its first field or not at all. -/
def SummaryWhole (fields : List Text) : Prop :=
  (∃ epoch, finite (field fields 1) "event epoch" = .ok epoch) → ∃ r, readSummary fields = .ok r

/-- A `CPU` record whose cores fit is refused at its first field, with nothing set up for its cores,
or not at all. -/
def CpuWhole (s : CpuAccumulator) (fields : List Text) : Prop :=
  fields.length - 3 ≤ maxCpuCores → (0 < s.count → s.cores.length = fields.length - 3) →
    (s.count = 0 ∧ 3 < fields.length ∨ ∃ total, finite (field fields 2) "CPU total" = .ok total) →
    (∃ total, finite (field fields 2) "CPU total" = .ok total) ∧
      ∃ cores, readCores (fields.drop 3) = .ok cores

/-- **A line has no record that is refused after its first field was taken.**  A line that is refused
or ignored as a whole has no record. -/
def Whole (a : MqttAggregator) (line : Text) : Prop :=
  ¬(64 * 1024 < byteLength line ∨ line.any (· == '\x00') = true) →
    ((splitFields line).head? = some "SUMMARY".toList ∧ 12 ≤ (splitFields line).length →
      SummaryWhole (splitFields line)) ∧
    ((splitFields line).head? = some "CPU".toList ∧ a.publishCpu = true ∧
      3 ≤ (splitFields line).length → CpuWhole a.cpu (splitFields line))

instance Except.decidableOk {ε α : Type} (x : Except ε α) : Decidable (∃ a, x = .ok a) :=
  match x with
  | .error _ => isFalse nofun
  | .ok a => isTrue ⟨a, rfl⟩

instance (fields : List Text) : Decidable (SummaryWhole fields) :=
  inferInstanceAs (Decidable (_ → _))

instance (s : CpuAccumulator) (fields : List Text) : Decidable (CpuWhole s fields) :=
  inferInstanceAs (Decidable (_ → _ → _ → _))

instance (a : MqttAggregator) (line : Text) : Decidable (Whole a line) :=
  inferInstanceAs (Decidable (_ → _))

/-- One more `SUMMARY` record. -/
def SummaryAccumulator.add (s : SummaryAccumulator) (r : SummaryRecord) : SummaryAccumulator where
  count := s.count + 1
  dlRate := s.dlRate + r.dlRate
  ulRate := s.ulRate + r.ulRate
  dlDelays := s.dlDelays + r.dlDelays
  ulDelays := s.ulDelays + r.ulDelays
  dlOwd := s.dlOwd + r.dlOwd
  ulOwd := s.ulOwd + r.ulOwd
  dlLoad := r.dlLoad
  ulLoad := r.ulLoad
  cakeDl := r.cakeDl
  cakeUl := r.cakeUl
  eventEpoch := r.eventEpoch

theorem sequence_number {σ : Type} {value : Text} {name : String} {put : σ → ℚ → σ} {x : ℚ}
    (h : finite value name = .ok x) (moves : List (σ → Except Failure σ)) (s : σ) :
    sequence (number value name put :: moves) s = sequence moves (put s x) := by
  simp [sequence, number, h, bind, Except.bind, pure, Except.pure]

variable {fields : List Text}

/-- **A record that is read as a whole is added as a whole.** -/
theorem observeSummary_ok {r : SummaryRecord} (h : readSummary fields = .ok r)
    (s : SummaryAccumulator) : observeSummary fields s = (s.add r, .ok ()) := by
  simp only [readSummary, bind_ok, pure, Except.pure, Except.ok.injEq] at h
  obtain ⟨epoch, hepoch, dlRate, hdlRate, ulRate, hulRate, dlDelays, hdlDelays, ulDelays, hulDelays,
    dlOwd, hdlOwd, ulOwd, hulOwd, _, hdlLoad, _, hulLoad, cakeDl, hcakeDl, cakeUl, hcakeUl, rfl⟩ := h
  unfold observeSummary summaryMoves
  rw [sequence_number hepoch, sequence_number hdlRate, sequence_number hulRate,
    sequence_number hdlDelays, sequence_number hulDelays, sequence_number hdlOwd,
    sequence_number hulOwd]
  simp only [sequence, hdlLoad, hulLoad, number, hcakeDl, hcakeUl, bind, Except.bind, pure,
    Except.pure]
  rfl

theorem observeSummary_refused {failure : Failure}
    (h : finite (field fields 1) "event epoch" = .error failure) (s : SummaryAccumulator) :
    observeSummary fields s = (s, .error failure) ∧ readSummary fields = .error failure := by
  constructor
  · simp [observeSummary, summaryMoves, sequence, number, h, bind, Except.bind]
  · simp [readSummary, h, bind, Except.bind]

variable {xs : List ℚ}

theorem readCores_length {values : List Text} (h : readCores values = .ok xs) :
    xs.length = values.length := by
  induction values generalizing xs with
  | nil =>
    cases h
    rfl
  | cons value values ih =>
    simp only [readCores, bind_ok, pure, Except.pure, Except.ok.injEq] at h
    obtain ⟨x, -, rest, hrest, rfl⟩ := h
    rw [length_cons, length_cons, ih hrest]

theorem sequence_cores {values : List Text} (h : readCores values = .ok xs)
    (moves : List (CpuAccumulator → Except Failure CpuAccumulator)) (s : CpuAccumulator)
    (done sums : List ℚ) (hcores : s.cores = done ++ sums) (hlength : sums.length = values.length) :
    sequence (values.mapIdx (fun i => addCore (done.length + i)) ++ moves) s =
      sequence moves { s with cores := done ++ zipWith (· + ·) sums xs } := by
  induction values generalizing xs s done sums with
  | nil =>
    cases h
    obtain rfl : sums = [] := length_eq_zero_iff.1 hlength
    rw [mapIdx_nil, nil_append, zipWith_nil_right, ← hcores]
  | cons value values ih =>
    simp only [readCores, bind_ok, pure, Except.pure, Except.ok.injEq] at h
    obtain ⟨x, hx, rest, hrest, rfl⟩ := h
    match sums, hlength with
    | sum :: sums, hlength =>
      have hget : s.cores[done.length + 0]? = some sum := by
        rw [hcores, Nat.add_zero, getElem?_append_right (le_refl _), Nat.sub_self]
        rfl
      have hset : s.cores.set (done.length + 0) (sum + x) = (done ++ [sum + x]) ++ sums := by
        rw [hcores, Nat.add_zero, set_append_right _ _ (le_refl _), Nat.sub_self, append_assoc]
        rfl
      have hnext := ih hrest { s with cores := (done ++ [sum + x]) ++ sums } (done ++ [sum + x])
        sums rfl (succ.inj hlength)
      have hindex : (fun i => addCore (done.length + (i + 1))) =
          fun i => addCore ((done ++ [sum + x]).length + i) := by
        funext i
        rw [length_append, length_singleton, add_assoc, add_comm 1 i]
      rw [mapIdx_cons, cons_append, hindex]
      simp only [sequence, addCore, hx, hget, hset, bind, Except.bind, pure, Except.pure]
      have hdone : (done ++ [sum + x]) ++ zipWith (· + ·) sums rest =
          done ++ (sum + x) :: zipWith (· + ·) sums rest := by
        rw [append_assoc]
        rfl
      rw [hnext, zipWith_cons_cons, hdone]

/-- **A `CPU` record that is read as a whole is added as a whole.** -/
theorem observeCpu_ok {total : ℚ} {s : CpuAccumulator} (hfew : fields.length - 3 ≤ maxCpuCores)
    (hsame : 0 < s.count → s.cores.length = fields.length - 3) (hnew : s.count = 0 → s.cores = [])
    (htotal : finite (field fields 2) "CPU total" = .ok total)
    (hcores : readCores (fields.drop 3) = .ok xs) :
    observeCpu fields s = (⟨s.count + 1, s.total + total,
      zipWith (· + ·) (s.resized (fields.length - 3)) xs⟩, .ok ()) := by
  have hlength : (s.resized (fields.length - 3)).length = (fields.drop 3).length := by
    rw [length_drop]
    unfold resized
    split
    · rw [length_replicate]
    · rename_i hsome
      refine hsame (pos_of_ne_zero fun hzero => hsome ?_)
      rw [hnew hzero]
      rfl
  have hbound : ¬maxCpuCores < fields.length - 3 := not_lt.2 hfew
  have hmismatch : ¬(0 < s.count ∧ s.cores.length ≠ fields.length - 3) := by
    rintro ⟨hpos, hne⟩
    exact hne (hsame hpos)
  have hall := sequence_cores hcores [fun s => .ok { s with count := s.count + 1 }]
    { s with cores := s.resized (fields.length - 3), total := s.total + total } [] _ rfl hlength
  unfold observeCpu cpuMoves
  simp only [cons_append, nil_append]
  rw [sequence]
  simp only [if_neg hbound, if_neg hmismatch]
  rw [sequence_number htotal]
  simp only [length_nil, zero_add] at hall
  exact hall

theorem observeCpu_refused {failure : Failure} {s : CpuAccumulator}
    (hfew : fields.length - 3 ≤ maxCpuCores)
    (hsame : 0 < s.count → s.cores.length = fields.length - 3)
    (hsetup : s.resized (fields.length - 3) = s.cores)
    (htotal : finite (field fields 2) "CPU total" = .error failure) :
    observeCpu fields s = (s, .error failure) := by
  have hbound : ¬maxCpuCores < fields.length - 3 := not_lt.2 hfew
  have hmismatch : ¬(0 < s.count ∧ s.cores.length ≠ fields.length - 3) := by
    rintro ⟨hpos, hne⟩
    exact hne (hsame hpos)
  unfold observeCpu cpuMoves
  simp only [cons_append, nil_append]
  rw [sequence]
  simp only [if_neg hbound, if_neg hmismatch, hsetup]
  simp [sequence, number, htotal, bind, Except.bind]

def coreSums (cpus : List CpuRecord) (n : ℕ) : List ℚ :=
  (range n).map fun index => (cpus.map fun r => r.cores.getD index 0).sum

/-- **The aggregator has the sums of a window.** -/
structure Refines (a : MqttAggregator) (w : Window) : Prop where
  minimumInterval : a.minimumInterval = w.minimumInterval
  publishCpu : a.publishCpu = w.publishCpu
  lastEmit : a.lastEmit = w.lastEmit
  count : a.summary.count = w.summaries.length
  dlRate : a.summary.dlRate = (w.summaries.map (·.dlRate)).sum
  ulRate : a.summary.ulRate = (w.summaries.map (·.ulRate)).sum
  dlDelays : a.summary.dlDelays = (w.summaries.map (·.dlDelays)).sum
  ulDelays : a.summary.ulDelays = (w.summaries.map (·.ulDelays)).sum
  dlOwd : a.summary.dlOwd = (w.summaries.map (·.dlOwd)).sum
  ulOwd : a.summary.ulOwd = (w.summaries.map (·.ulOwd)).sum
  latest : ∀ r ∈ w.summaries.getLast?, a.summary.eventEpoch = r.eventEpoch ∧
    a.summary.dlLoad = r.dlLoad ∧ a.summary.ulLoad = r.ulLoad ∧ a.summary.cakeDl = r.cakeDl ∧
    a.summary.cakeUl = r.cakeUl
  cpuCount : a.cpu.count = w.cpus.length
  total : a.cpu.total = (w.cpus.map (·.total)).sum
  cores : a.cpu.cores = coreSums w.cpus (w.cpus.head?.elim 0 (·.cores.length))
  alike : ∀ r ∈ w.cpus, r.cores.length = w.cpus.head?.elim 0 (·.cores.length)
  unpublished : w.publishCpu = false → w.cpus = []

variable (cpus : List CpuRecord)

theorem coreSums_length (n : ℕ) : (coreSums cpus n).length = n := by
  rw [coreSums, length_map, length_range]

theorem coreSums_nil (n : ℕ) : coreSums [] n = replicate n 0 := by
  refine ext_getElem ?_ fun i h₁ h₂ => ?_
  · rw [coreSums_length, length_replicate]
  · simp [coreSums]

theorem coreSums_append {r : CpuRecord} {n : ℕ} (h : r.cores.length = n) :
    coreSums (cpus ++ [r]) n = zipWith (· + ·) (coreSums cpus n) r.cores := by
  refine ext_getElem ?_ fun i h₁ h₂ => ?_
  · rw [coreSums_length, length_zipWith, coreSums_length, h, min_self]
  · rw [coreSums_length] at h₁
    have hi : i < r.cores.length := h ▸ h₁
    simp [coreSums, getElem?_eq_getElem hi]

variable {a : MqttAggregator} {w : Window}

theorem refines_new (minimumInterval : ℕ) (publishCpu : Bool) :
    Refines (.new minimumInterval publishCpu) (.new minimumInterval publishCpu) :=
  ⟨rfl, rfl, rfl, rfl, rfl, rfl, rfl, rfl, rfl, rfl, nofun, rfl, rfl, rfl, nofun, fun _ => rfl⟩

/-- A `SUMMARY` record more. -/
theorem Refines.summary (h : Refines a w) (r : SummaryRecord) :
    Refines { a with summary := a.summary.add r } (w.accept (.summary r)) where
  minimumInterval := h.minimumInterval
  publishCpu := h.publishCpu
  lastEmit := h.lastEmit
  count := by simp [add, Window.accept, h.count]
  dlRate := by simp [add, Window.accept, h.dlRate]
  ulRate := by simp [add, Window.accept, h.ulRate]
  dlDelays := by simp [add, Window.accept, h.dlDelays]
  ulDelays := by simp [add, Window.accept, h.ulDelays]
  dlOwd := by simp [add, Window.accept, h.dlOwd]
  ulOwd := by simp [add, Window.accept, h.ulOwd]
  latest := by
    intro latest hlatest
    obtain rfl : r = latest := by simpa [Window.accept] using hlatest
    exact ⟨rfl, rfl, rfl, rfl, rfl⟩
  cpuCount := h.cpuCount
  total := h.total
  cores := h.cores
  alike := h.alike
  unpublished := h.unpublished

theorem coreCount_append (r : CpuRecord) :
    (cpus ++ [r]).head?.elim 0 (·.cores.length) =
      if cpus = [] then r.cores.length else cpus.head?.elim 0 (·.cores.length) := by
  cases cpus with
  | nil => rfl
  | cons first rest => rfl

theorem Refines.coreCount (h : Refines a w) :
    a.cpu.cores.length = w.cpus.head?.elim 0 (·.cores.length) := by
  rw [h.cores, coreSums_length]

/-- A `CPU` record more. -/
theorem Refines.cpu (h : Refines a w) (hpublish : a.publishCpu = true) {r : CpuRecord}
    (hsame : 0 < a.cpu.count → a.cpu.cores.length = r.cores.length) :
    Refines { a with cpu := ⟨a.cpu.count + 1, a.cpu.total + r.total,
      zipWith (· + ·) (a.cpu.resized r.cores.length) r.cores⟩ } (w.accept (.cpu r)) := by
  have hcount : w.cpus ≠ [] → w.cpus.head?.elim 0 (·.cores.length) = r.cores.length := by
    intro hne
    rw [← h.coreCount]
    refine hsame ?_
    rw [h.cpuCount]
    exact length_pos_iff.2 hne
  have hnew : (w.cpus ++ [r]).head?.elim 0 (·.cores.length) = r.cores.length := by
    rw [coreCount_append]
    split
    · rfl
    · rename_i hne
      exact hcount hne
  have hresized : a.cpu.resized r.cores.length = coreSums w.cpus r.cores.length := by
    have hcores := h.cores
    unfold resized
    by_cases hnil : w.cpus = []
    · rw [hnil] at hcores ⊢
      have hempty : a.cpu.cores = [] := hcores
      rw [hempty, coreSums_nil]
      rfl
    · rw [hcount hnil] at hcores
      by_cases hzero : a.cpu.cores = []
      · have hlength : r.cores.length = 0 := by
          have hcoreCount := h.coreCount
          rw [hcount hnil, hzero] at hcoreCount
          exact hcoreCount.symm
        rw [hlength, hzero]
        rfl
      · rw [if_neg (by rwa [List.isEmpty_iff]), hcores]
  refine { h with
    cpuCount := ?_, total := ?_, cores := ?_, alike := ?_, unpublished := ?_ }
  · simp [Window.accept, h.cpuCount]
  · simp [Window.accept, h.total]
  · show zipWith _ _ _ = coreSums (w.cpus ++ [r]) ((w.cpus ++ [r]).head?.elim 0 _)
    rw [hnew, coreSums_append _ rfl, hresized]
  · show ∀ s ∈ w.cpus ++ [r], s.cores.length = (w.cpus ++ [r]).head?.elim 0 _
    rw [hnew]
    intro s hs
    rcases mem_append.1 hs with hs | hs
    · rw [h.alike s hs]
      exact hcount (ne_nil_of_mem hs)
    · rw [mem_singleton.1 hs]
  · intro hno
    rw [h.publishCpu, show w.publishCpu = false from hno] at hpublish
    cases hpublish

/-- **What is published is the means of the window.** -/
theorem Refines.state (h : Refines a w) {latest : SummaryRecord}
    (hlatest : w.summaries.getLast? = some latest) :
    a.takeState.2 = stateOf w.summaries w.cpus latest := by
  have hpos : 0 < w.summaries.length := by
    rw [length_pos_iff]
    rintro hnil
    rw [hnil] at hlatest
    cases hlatest
  have hdivisor : max a.summary.count 1 = w.summaries.length := by
    rw [h.count]
    omega
  have hcpu : a.cpuState = cpuMeans w.cpus := by
    unfold cpuState
    cases hcpus : w.cpus with
    | nil =>
      rw [h.cpuCount, hcpus]
      simp [cpuMeans]
    | cons first rest =>
      have hpublish : a.publishCpu = true := by
        rw [h.publishCpu]
        by_contra hno
        rw [h.unpublished (Bool.not_eq_true _ ▸ hno)] at hcpus
        cases hcpus
      rw [if_pos (by simp [hpublish, h.cpuCount, hcpus]), h.total, h.cores, h.cpuCount, hcpus]
      simp [cpuMeans, mean, coreSums]
  obtain ⟨hepoch, hdlLoad, hulLoad, hcakeDl, hcakeUl⟩ := h.latest latest hlatest
  simp only [takeState, stateOf, mean, length_map, hdivisor, hcpu, hepoch, hdlLoad,
    hulLoad, hcakeDl, hcakeUl, h.dlRate, h.ulRate, h.dlDelays, h.ulDelays, h.dlOwd, h.ulOwd]

theorem Refines.emit (h : Refines a w) (now : ℕ) :
    Refines (a.emit now).1 (w.publish now).1 ∧ (a.emit now).2 = (w.publish now).2 := by
  unfold MqttAggregator.emit Window.publish
  rw [h.count, h.minimumInterval, h.lastEmit]
  cases hlatest : w.summaries.getLast? with
  | none =>
    rw [getLast?_eq_none_iff.1 hlatest]
    exact ⟨h, rfl⟩
  | some latest =>
    have hne : w.summaries.length ≠ 0 := by
      rw [Ne, length_eq_zero_iff]
      rintro hnil
      rw [hnil] at hlatest
      cases hlatest
    rw [if_neg hne]
    dsimp only
    by_cases hdue : due w.minimumInterval w.lastEmit now = false
    · rw [if_pos hdue, if_pos hdue]
      exact ⟨h, rfl⟩
    · rw [if_neg hdue, if_neg hdue]
      have hnow : Refines { a with lastEmit := some now } { w with lastEmit := some now } :=
        { h with lastEmit := rfl }
      refine ⟨⟨rfl, h.publishCpu, rfl, rfl, rfl, rfl, rfl, rfl, rfl, rfl, nofun, rfl, rfl, rfl, nofun,
        fun _ => rfl⟩, ?_⟩
      exact congrArg (fun state => Except.ok (some state)) (hnow.state hlatest)

/-- A `SUMMARY` record that is not torn. -/
theorem SummaryWhole.observe (h : SummaryWhole fields) (s : SummaryAccumulator) :
    (∃ failure, observeSummary fields s = (s, .error failure) ∧ readSummary fields = .error failure) ∨
    ∃ r, observeSummary fields s = (s.add r, .ok ()) ∧ readSummary fields = .ok r := by
  cases hepoch : finite (field fields 1) "event epoch" with
  | error failure => exact .inl ⟨failure, observeSummary_refused hepoch s⟩
  | ok epoch =>
    obtain ⟨r, hr⟩ := h ⟨epoch, hepoch⟩
    exact .inr ⟨r, observeSummary_ok hr s, hr⟩

/-- A `CPU` record that is not torn. -/
theorem Refines.observeCpu (h : Refines a w) (hwhole : CpuWhole a.cpu fields)
    (hlength : 3 ≤ fields.length) :
    (∃ failure, observeCpu fields a.cpu = (a.cpu, .error failure) ∧
      readCpu w.cpus fields = .error failure) ∨
    ∃ r, r.cores.length = fields.length - 3 ∧
      (0 < a.cpu.count → a.cpu.cores.length = fields.length - 3) ∧
      observeCpu fields a.cpu = (⟨a.cpu.count + 1, a.cpu.total + r.total,
        zipWith (· + ·) (a.cpu.resized r.cores.length) r.cores⟩, .ok ()) ∧
      readCpu w.cpus fields = .ok r := by
  -- the records of the window disagree with the new one exactly if the accumulator does
  have hany : (w.cpus.any fun r => r.cores.length != fields.length - 3) = true ↔
      0 < a.cpu.count ∧ a.cpu.cores.length ≠ fields.length - 3 := by
    rw [any_eq_true, h.cpuCount, h.coreCount, length_pos_iff]
    constructor
    · rintro ⟨r, hr, hne⟩
      rw [h.alike r hr] at hne
      exact ⟨ne_nil_of_mem hr, bne_iff_ne.1 hne⟩
    · rintro ⟨hne, hlength⟩
      obtain ⟨first, rest, hcpus⟩ := exists_cons_of_ne_nil hne
      rw [hcpus] at hlength ⊢
      exact ⟨first, mem_cons_self, bne_iff_ne.2 hlength⟩
  by_cases hfew : fields.length - 3 ≤ maxCpuCores
  swap
  · refine .inl ⟨.refused "MQTT CPU record has too many cores", ?_, ?_⟩
    · simp only [Mqtt.observeCpu, cpuMoves, cons_append, sequence, if_pos (not_le.1 hfew)]
    · simp only [readCpu, if_pos (not_le.1 hfew), throw, throwThe, MonadExceptOf.throw, bind,
        Except.bind]
  by_cases hmismatch : 0 < a.cpu.count ∧ a.cpu.cores.length ≠ fields.length - 3
  · refine .inl ⟨.refused "MQTT CPU core count changed within one window", ?_, ?_⟩
    · simp only [Mqtt.observeCpu, cpuMoves, cons_append, sequence, if_neg (not_lt.2 hfew),
        if_pos hmismatch]
    · simp only [readCpu, if_neg (not_lt.2 hfew), if_pos (hany.2 hmismatch), throw, throwThe,
        MonadExceptOf.throw, bind, Except.bind, pure, Except.pure]
  have hsame : 0 < a.cpu.count → a.cpu.cores.length = fields.length - 3 := by
    intro hpos
    by_contra hne
    exact hmismatch ⟨hpos, hne⟩
  have hnoany : ¬(w.cpus.any fun r => r.cores.length != fields.length - 3) = true :=
    fun htrue => hmismatch (hany.1 htrue)
  have hread : readCpu w.cpus fields = do
      let total ← finite (field fields 2) "CPU total"
      let cores ← readCores (fields.drop 3)
      return ⟨total, cores⟩ := by
    simp only [readCpu, if_neg (not_lt.2 hfew), if_neg hnoany, bind, Except.bind, pure, Except.pure]
  have hnew : a.cpu.count = 0 → a.cpu.cores = [] := by
    intro hzero
    have hcores := h.cores
    rw [h.cpuCount, length_eq_zero_iff] at hzero
    rw [hzero] at hcores
    exact hcores
  cases htotal : finite (field fields 2) "CPU total" with
  | error failure =>
    -- nothing is set up for its cores, since it would be torn
    have hsetup : a.cpu.resized (fields.length - 3) = a.cpu.cores := by
      unfold resized
      split
      · rename_i hempty
        rw [List.isEmpty_iff] at hempty
        have hno : ¬(a.cpu.count = 0 ∧ 3 < fields.length) := by
          intro hboth
          obtain ⟨⟨total, hok⟩, -⟩ := hwhole hfew hsame (.inl hboth)
          rw [htotal] at hok
          cases hok
        have hzero : fields.length - 3 = 0 := by
          by_cases hcount : a.cpu.count = 0
          · have hnot : ¬3 < fields.length := fun hlt => hno ⟨hcount, hlt⟩
            omega
          · rw [← hsame (pos_of_ne_zero hcount), hempty]
            rfl
        rw [hzero, hempty]
        rfl
      · rfl
    refine .inl ⟨failure, observeCpu_refused hfew hsame hsetup htotal, ?_⟩
    rw [hread, htotal]
    rfl
  | ok total =>
    obtain ⟨-, xs, hxs⟩ := hwhole hfew hsame (.inr ⟨total, htotal⟩)
    have hcores : xs.length = fields.length - 3 := by
      rw [readCores_length hxs, length_drop]
    refine .inr ⟨⟨total, xs⟩, hcores, hsame, ?_, ?_⟩
    · rw [observeCpu_ok hfew hsame hnew htotal hxs, hcores]
    · rw [hread, htotal, hxs]
      rfl

theorem emit_accepted (a : MqttAggregator) (now : ℕ) (failure : Failure) :
    (a.emit now).2 ≠ .error failure := by
  unfold emit
  split
  · exact nofun
  · split <;> exact nofun

/-- **A line that is not torn keeps the sums**, and changes nothing if it is refused. -/
theorem Refines.observeLine (h : Refines a w) {line : Text} (hwhole : Whole a line) (now : ℕ) :
    Refines (a.observeLine line now).1 (w.observeLine line now).1 ∧
      (a.observeLine line now).2 = (w.observeLine line now).2 ∧
      ∀ failure, (a.observeLine line now).2 = .error failure → (a.observeLine line now).1 = a := by
  unfold MqttAggregator.observeLine Window.observeLine Window.read
  by_cases hsafe : 64 * 1024 < byteLength line ∨ line.any (· == '\x00') = true
  · rw [if_pos hsafe, if_pos hsafe]
    exact ⟨h, rfl, fun _ _ => rfl⟩
  rw [if_neg hsafe, if_neg hsafe]
  by_cases hsummary : (splitFields line).head? = some "SUMMARY".toList ∧ 12 ≤ (splitFields line).length
  · rw [if_pos hsummary, if_pos hsummary]
    rcases ((hwhole hsafe).1 hsummary).observe a.summary with
      ⟨failure, hobserve, hread⟩ | ⟨r, hobserve, hread⟩
    · rw [hobserve, hread]
      exact ⟨h, rfl, fun _ _ => rfl⟩
    · rw [hobserve, hread]
      obtain ⟨hrefines, hsame⟩ := (h.summary r).emit now
      exact ⟨hrefines, hsame, fun failure hfailure => absurd hfailure (emit_accepted _ now failure)⟩
  rw [if_neg hsummary, if_neg hsummary, ← h.publishCpu]
  by_cases hcpu : (splitFields line).head? = some "CPU".toList ∧ a.publishCpu = true ∧
      3 ≤ (splitFields line).length
  · rw [if_pos hcpu, if_pos hcpu]
    rcases h.observeCpu ((hwhole hsafe).2 hcpu) hcpu.2.2 with ⟨failure, hobserve, hread⟩ |
      ⟨r, hlength, hsame, hobserve, hread⟩
    · rw [hobserve, hread]
      exact ⟨h, rfl, fun _ _ => rfl⟩
    · rw [hobserve, hread]
      obtain ⟨hrefines, hequal⟩ := (h.cpu hcpu.2.1 (hlength ▸ hsame)).emit now
      exact ⟨hrefines, hequal, fun failure hfailure => absurd hfailure (emit_accepted _ now failure)⟩
  · rw [if_neg hcpu, if_neg hcpu]
    exact ⟨h, rfl, fun _ _ => rfl⟩

def MqttAggregator.step (a : MqttAggregator) (entry : Text × ℕ) : MqttAggregator :=
  (a.observeLine entry.1 entry.2).1

def MqttAggregator.answers (a : MqttAggregator) :
    List (Text × ℕ) → List (Except Failure (Option MqttState))
  | [] => []
  | entry :: log => (a.observeLine entry.1 entry.2).2 :: answers (a.step entry) log

def Window.answers (w : Window) : List (Text × ℕ) → List (Except Failure (Option MqttState))
  | [] => []
  | entry :: log =>
    (w.observeLine entry.1 entry.2).2 :: answers (w.observeLine entry.1 entry.2).1 log

abbrev Untorn (a : MqttAggregator) (log : List (Text × ℕ)) : Prop :=
  Machine.Along step (fun a entry => Whole a entry.1) a log

theorem Refines.answers (h : Refines a w) {log : List (Text × ℕ)} (hlog : Untorn a log) :
    a.answers log = w.answers log ∧ ∀ before entry after, log = before ++ entry :: after →
      ∀ failure, ((run step a before).observeLine entry.1 entry.2).2 = .error failure →
        run step a (before ++ [entry]) = run step a before := by
  induction log generalizing a w with
  | nil =>
    refine ⟨rfl, fun before entry after hsplit => ?_⟩
    exact absurd hsplit.symm (append_ne_nil_of_right_ne_nil _ (cons_ne_nil _ _))
  | cons first log ih =>
    obtain ⟨hwhole, hrest⟩ := hlog
    obtain ⟨hrefines, hequal, hrefused⟩ := h.observeLine hwhole first.2
    obtain ⟨hanswers, hlater⟩ := ih hrefines hrest
    refine ⟨congrArg₂ cons hequal hanswers, fun before entry after hsplit failure hfailure => ?_⟩
    cases before with
    | nil =>
      obtain ⟨rfl, rfl⟩ := cons.inj hsplit
      exact hrefused failure hfailure
    | cons b before =>
      obtain ⟨hfirst, hrest⟩ := cons.inj hsplit
      subst hfirst
      exact hlater before entry after hrest failure hfailure

/-- **A bad record never distorts what is published**, in every log without a torn one: the answers are
the means of the windows of accepted records, and a line that is refused changes nothing. -/
theorem means_published (minimumInterval : ℕ) (publishCpu : Bool) (log : List (Text × ℕ))
    (hlog : Untorn (.new minimumInterval publishCpu) log) :
    (new minimumInterval publishCpu).answers log =
      (Window.new minimumInterval publishCpu).answers log ∧
    ∀ before entry after, log = before ++ entry :: after → ∀ failure,
      ((run step (.new minimumInterval publishCpu) before).observeLine
          entry.1 entry.2).2 = .error failure →
        run step (.new minimumInterval publishCpu) (before ++ [entry]) =
          run step (.new minimumInterval publishCpu) before :=
  (refines_new minimumInterval publishCpu).answers hlog

def goodLine : Text :=
  "SUMMARY; 101.0; 2000; 400; 3; 4; 5; 6; high_dl; low_ul; 1800; 360".toList

def tornLine : Text :=
  "SUMMARY; 100.0; 1000; 200; x; 2; 3; 4; high_dl; low_ul; 900; 180".toList

/-- Two records and a `CPU` record, between them one that is refused at its event epoch and one that is
too short to be read. -/
def mixedLog : List (Text × ℕ) :=
  [(goodLine, 0), ("CPU; 101.5; 40; 30; 50".toList, 1), ("SUMMARY; 100.0; 1000".toList, 2),
    ("SUMMARY; x; 1000; 200; 1; 2; 3; 4; high_dl; low_ul; 900; 180".toList, 3),
    ("SUMMARY; 102.0; 1000; 200; 1; 2; 3; 4; low_dl; low_ul; 900; 180".toList, 4), (goodLine, 10)]

/-- The second state has the means of two records, and the refused line left nothing behind. -/
theorem mixedLog_published :
    (new 10 true).answers mixedLog = (Window.new 10 true).answers mixedLog ∧
    run step (new 10 true) (mixedLog.take 4) = run step (new 10 true) (mixedLog.take 3) ∧
    ((Window.new 10 true).answers mixedLog).map (fun answer => answer.toOption.map
        (·.map fun s => (s.dlAchievedRateKbps, (s.cpu.map CpuState.cores).getD [], s.samples))) =
      [some (some (2000, [], 1)), some none, some none, none, some none,
        some (some (1500, [30, 50], 2))] := by
  obtain ⟨hanswers, hrefused⟩ := means_published 10 true mixedLog (by decide +kernel)
  refine ⟨hanswers, ?_, by decide +kernel⟩
  have herror : ((run step (new 10 true) (mixedLog.take 3)).observeLine
      (mixedLog.getD 3 ([], 0)).1 3).2.toOption.isNone = true := by decide +kernel
  cases h : ((run step (new 10 true) (mixedLog.take 3)).observeLine
      (mixedLog.getD 3 ([], 0)).1 3).2 with
  | error failure => exact hrefused (mixedLog.take 3) _ (mixedLog.drop 4) rfl failure h
  | ok answer =>
    rw [h] at herror
    cases herror

theorem tornLine_distorts :
    ((new 2 true).answers [(tornLine, 0), (goodLine, 0)]).map
        (fun answer => answer.toOption.map (·.map fun s => (s.dlAchievedRateKbps, s.samples))) =
      [none, some (some (3000, 1))] ∧
    ((Window.new 2 true).answers [(tornLine, 0), (goodLine, 0)]).map
        (fun answer => answer.toOption.map (·.map fun s => (s.dlAchievedRateKbps, s.samples))) =
      [none, some (some (2000, 1))] := by
  constructor <;> decide +kernel

end CakeAutorate.Mqtt
