/-
# The attempts of a measurement

The two loops of `operations/speedtest.rs` that try a measurement again, with the counters of the
route and with the ledger of owned traffic.  A turn of a loop is what it reads around an attempt,
how the attempt ends, and what is answered to the debit; a run has a step for each turn.
-/

import CakeAutorate.OwnedTraffic.Once

namespace CakeAutorate.OwnedTraffic

open Syscall Protocol List Option OwnedTrafficSnapshot TrafficPolicy

section

variable (p : TrafficPolicy)

def allows (requiredBytes : ℕ) : Bool :=
  match p with
  | .capped maxBytes => decide (requiredBytes ≤ maxBytes.toNat)
  | .unlimited => true

def checkedSub (bytes : ℕ) : Option TrafficPolicy :=
  match p with
  | .capped maxBytes =>
    if bytes ≤ maxBytes.toNat then some (.capped (UInt64.ofNat (maxBytes.toNat - bytes))) else none
  | .unlimited => some .unlimited

/-- `checked_sub(bytes).unwrap_or(0_u64.into())`. -/
def less (bytes : ℕ) : TrafficPolicy := (checkedSub p bytes).getD (.capped 0)

/-- The bytes that a policy leaves, if it has a cap. -/
def limit : Option ℕ := p.limitBytes.map UInt64.toNat

theorem limit_less (bytes : ℕ) : limit (less p bytes) = (limit p).map (· - bytes) := by
  cases p with
  | unlimited => rfl
  | capped maxBytes =>
    have hmax := maxBytes.toNat_lt
    by_cases h : bytes ≤ maxBytes.toNat
    · simp only [less, checkedSub, if_pos h, limit, limitBytes, getD_some,
        map_some, UInt64.toNat_ofNat', some.injEq]
      omega
    · simp only [less, checkedSub, if_neg h, limit, limitBytes, getD_none,
        map_some, UInt64.toNat_zero, some.injEq]
      omega

end

theorem exceeded_eq_false {p : TrafficPolicy} {bytes : ℕ} (h : bytes < u64Bound) :
    p.exceeded (UInt64.ofNat bytes) = false ↔ ∀ n ∈ limit p, bytes ≤ n := by
  cases p with
  | unlimited => simp [exceeded, limit, limitBytes]
  | capped maxBytes =>
    have hbytes : (UInt64.ofNat bytes).toNat = bytes := UInt64.toNat_ofNat_of_lt' h
    simp [exceeded, limit, limitBytes, UInt64.lt_iff_toNat_lt, hbytes]

structure Turn (C A T : Type) where
  before : Except String C
  outcome : Except String T
  after : Except String C
  answer : A

/-- An attempt, the counters that were read before it, and those read after it if they could be. -/
structure Attempted (C T : Type) where
  policy : TrafficPolicy
  before : C
  after : Option C
  outcome : Except String T

/-- What a turn does: the state it starts in and leaves, the attempt it makes, the counters it read
last, and the debit it hands to the callback, with the answer.  After an error the call ends with
it, and else it looks at the outcome. -/
structure Step (S C T : Type) where
  start : S
  state : S
  attempted : Option (Attempted C T)
  read : Option C
  handed : Option (SpeedtestTrafficDebit × Except String Unit)
  ends : Except String Unit

def unprovedError : String := "speedtest-route-traffic-unproved"

/-- The attempt ended as unproved. -/
def Step.unproved {S C T : Type} (step : Step S C T) : Bool :=
  step.attempted.any fun a => match a.outcome with
    | .ok _ => false
    | .error e => e == unprovedError

/-- `MAX_UNPROVED_TRAFFIC_ATTEMPTS`. -/
def maxUnprovedTrafficAttempts : ℕ := 3

/-- The unproved attempts before the next turn, if there is one. -/
def retry {T : Type} (unproved : ℕ) : Except String T → Option ℕ
  | .ok _ => none
  | .error e =>
    if e = "speedtest-route-not-ready" then some unproved
    else if e = unprovedError then
      if unproved + 1 < maxUnprovedTrafficAttempts then some (unproved + 1) else none
    else none

/-- A loop: the steps of the turns, and what the call returns if it ends within them. -/
def attempts {S C A T : Type} (turn : S → Turn C A T → Step S C T) :
    S → ℕ → List (Turn C A T) → List (Step S C T) × Option (Except String T)
  | _, _, [] => ([], none)
  | s, unproved, t :: ts =>
    let step := turn s t
    match step.ends with
    | .error e => ([step], some (.error e))
    | .ok () =>
      match retry unproved t.outcome with
      | none => ([step], some t.outcome)
      | some unproved =>
        let (steps, result) := attempts turn step.state unproved ts
        (step :: steps, result)

/-- The debit is handed to the callback, unless it is empty. -/
def handOver (debit : SpeedtestTrafficDebit) (answer : Except String Unit) :
    Option (SpeedtestTrafficDebit × Except String Unit) :=
  if debit.rxBytes ≠ 0 ∨ debit.txBytes ≠ 0 then some (debit, answer) else none

/-- `debit_traffic_budget`: the debit, what it consumed, and whether that is an overrun. -/
def debitTrafficBudget (remaining : TrafficPolicy) (before after : SpeedtestTrafficCounters) :
    Except String (SpeedtestTrafficDebit × ℕ × Bool) := do
  let deltas ← counterDeltas before after
  let consumed ← checkedAdd deltas.1 deltas.2 "speedtest-traffic-budget-overflow"
  .ok ({ lifecycle := false, rxBytes := deltas.1, txBytes := deltas.2 }, consumed,
    remaining.exceeded (UInt64.ofNat consumed))

/-- A turn of `retry_budgeted_route_measurement_on_loss_with_debit`. -/
def routeTurn {T : Type} (minimum : ℕ) (remaining : TrafficPolicy)
    (t : Turn SpeedtestTrafficCounters (Except String Unit) T) :
    Step TrafficPolicy SpeedtestTrafficCounters T :=
  let idle : Step TrafficPolicy SpeedtestTrafficCounters T :=
    ⟨remaining, remaining, none, none, none, .ok ()⟩
  if allows remaining minimum = false then
    { idle with ends := .error "speedtest-traffic-budget-exhausted" }
  else
    match t.before with
    | .error e => { idle with ends := .error e }
    | .ok before =>
      let tried := some ⟨remaining, before, t.after.toOption, t.outcome⟩
      match t.after with
      | .error e => { idle with attempted := tried, read := some before, ends := .error e }
      | .ok after =>
        match debitTrafficBudget remaining before after with
        | .error e => { idle with attempted := tried, read := some after, ends := .error e }
        | .ok (debit, consumed, overrun) =>
          { start := remaining
            state := less remaining consumed
            attempted := tried
            read := some after
            handed := handOver debit t.answer
            ends := do
              if (handOver debit t.answer).isSome then t.answer
              if overrun then throw "speedtest-traffic-budget-exceeded" }

/-- What `commit_debit_with_intent` does before it calls the callback, the answer of the callback,
and what it does after. -/
structure Persisted where
  intent : Except String Unit
  answer : Except String Unit
  published : Except String Unit

def Persisted.result (p : Persisted) : Except String Unit := do
  p.intent
  p.answer
  p.published

namespace OwnedTrafficLedger

def remaining (ledger : OwnedTrafficLedger) : Except String TrafficPolicy := do
  if ledger.persistenceUncertain then throw "owned traffic persistence is uncertain"
  return less ledger.authority (← ledger.committed.counters.totalBytes)

def uncertain (ledger : OwnedTrafficLedger) : OwnedTrafficLedger :=
  { ledger with persistenceUncertain := true }

section

variable (ledger : OwnedTrafficLedger) (observed : OwnedTrafficSnapshot)
  (answer : Except String Unit)

/-- `OwnedTrafficLedger::checkpoint`, given what its `persist` answers; and the debit that it
persists. -/
def checkpointed : OwnedTrafficLedger × Option SpeedtestTrafficDebit × Except String Bool :=
  if ledger.persistenceUncertain then
    (ledger, none, .error "owned traffic persistence is uncertain")
  else match ledger.measure observed with
    | .error error => (ledger.uncertain, none, .error error)
    | .ok (exceeded, debit) =>
      if debit.rxBytes ≠ 0 ∨ debit.txBytes ≠ 0 then
        if ledger.committed.sequence + 1 < u32Bound then
          match answer with
          | .ok () => ({ ledger with committed := ⟨ledger.committed.sequence + 1, observed⟩ },
              some debit, .ok exceeded)
          | .error error => (ledger.uncertain, some debit, .error error)
        else (ledger.uncertain, none, .error "owned traffic sequence overflow")
      else (ledger, none, .ok exceeded)

end

end OwnedTrafficLedger

/-- The error of `commit_owned_snapshot` for one of `checkpoint`. -/
def snapshotError (e : String) : String :=
  if e.startsWith "speedtest-owned-persistence-failed:" then e
  else s!"speedtest-owned-budget-observation-failed: {e}"

/-- `commit_owned_snapshot`; its debit is marked as one of the lifecycle or not. -/
def commitOwned (s : OwnedTrafficLedger × TrafficPolicy) (observed : OwnedTrafficSnapshot)
    (lifecycle : Bool) (p : Persisted) :
    (OwnedTrafficLedger × TrafficPolicy) × Option (SpeedtestTrafficDebit × Except String Unit) ×
      Except String Bool :=
  let persisted := p.result.mapError fun e => s!"speedtest-owned-persistence-failed: {e}"
  let (ledger, debit, result) := s.1.checkpointed observed persisted
  let handed := match p.intent with
    | .ok () => debit.map fun d => ({ d with lifecycle }, p.answer)
    | .error _ => none
  match result with
  | .error e => ((ledger, s.2), handed, .error (snapshotError e))
  | .ok exceeded =>
    match ledger.remaining with
    | .error e => ((ledger, s.2), handed, .error e)
    | .ok remaining => ((ledger, remaining), handed, .ok exceeded)

/-- `read_owned`, of a reading after another one. -/
def readOwned (previous : OwnedTrafficSnapshot) (counters : Except String OwnedTrafficSnapshot) :
    Except String OwnedTrafficSnapshot := do
  let observed ← counters
  let _ ← observed.totalBytes
  let _ ← observed.deltaSince previous
  return observed

/-- The error of a watcher of the budget that failed. -/
def watcherFailed {T : Type} : Except String T → Option String
  | .ok _ => none
  | .error e =>
    if e.startsWith "speedtest-owned-budget-observation-failed:" ||
      e == "speedtest-budget-watcher-panicked" then some e else none

/-- A turn of `retry_budgeted_session_measurement_with_debit` that has a ledger. -/
def ownedTurn {T : Type} (minimum : ℕ) (s : OwnedTrafficLedger × TrafficPolicy)
    (t : Turn OwnedTrafficSnapshot Persisted T) :
    Step (OwnedTrafficLedger × TrafficPolicy) OwnedTrafficSnapshot T :=
  let idle : Step (OwnedTrafficLedger × TrafficPolicy) OwnedTrafficSnapshot T :=
    ⟨s, s, none, none, none, .ok ()⟩
  match s.1.remaining with
  | .error e => { idle with ends := .error e }
  | .ok _ =>
    match readOwned s.1.committed.counters t.before with
    | .error e => { idle with state := (s.1.uncertain, s.2), ends := .error e }
    | .ok before =>
      let available := less s.1.authority (before.rx + before.tx)
      if allows available minimum = false then
        let (state, handed, result) := commitOwned s before true t.answer
        { idle with
          state, handed, read := some before
          ends := do
            let overrun ← result
            throw (if overrun then "speedtest-traffic-budget-exceeded"
              else "speedtest-traffic-budget-exhausted") }
      else
        let tried : Attempted OwnedTrafficSnapshot T := ⟨available, before, none, t.outcome⟩
        let failed (e : String) : Step (OwnedTrafficLedger × TrafficPolicy) OwnedTrafficSnapshot T :=
          { idle with
            state := (s.1.uncertain, s.2), attempted := some tried, read := some before
            ends := .error e }
        match watcherFailed t.outcome with
        | some e => failed e
        | none =>
          match readOwned before t.after with
          | .error e => failed e
          | .ok after =>
            let (state, handed, result) := commitOwned s after false t.answer
            { start := s
              state
              attempted := some { tried with after := some after }
              read := some after
              handed
              ends := do
                if ← result then throw "speedtest-traffic-budget-exceeded" }

section Runs

variable {S C A T : Type} {turn : S → Turn C A T → Step S C T} {s : S} {n : ℕ}
  {turns : List (Turn C A T)} {spec : S → Turn C A T → Step S C T → Prop}

/-- Each step starts in the state that the one before it left. -/
def Linked : S → List (Step S C T) → Prop
  | _, [] => True
  | s, step :: steps => step.start = s ∧ Linked step.state steps

/-- **What every run does.**  The steps are turns and linked, each does what is asked of a turn and
ends well or ends the call with its error, and the bound on unproved attempts is kept. -/
structure Budgeted (turn : S → Turn C A T → Step S C T) (spec : S → Turn C A T → Step S C T → Prop)
    (s : S) (n : ℕ) (turns : List (Turn C A T))
    (run : List (Step S C T) × Option (Except String T)) : Prop where
  turns : ∀ step ∈ run.1, ∃ t ∈ turns, step = turn step.start t ∧ spec step.start t step
  linked : Linked s run.1
  ends : ∀ step ∈ run.1, step.ends = .ok () ∨ ∃ e, step.ends = .error e ∧ run.2 = some (.error e)
  bounded : (run.1.filter Step.unproved).length ≤ maxUnprovedTrafficAttempts - n

/-- What is asked of the turns of a loop. -/
structure Loop (turn : S → Turn C A T → Step S C T) (spec : S → Turn C A T → Step S C T → Prop) :
    Prop where
  start : ∀ s t, (turn s t).start = s
  outcome : ∀ s t, ∀ a ∈ (turn s t).attempted, a.outcome = t.outcome
  spec : ∀ s t, spec s t (turn s t)

theorem Loop.unproved (h : Loop turn spec) {t : Turn C A T} (hu : (turn s t).unproved = true) :
    t.outcome = .error unprovedError := by
  obtain ⟨a, ha, hout⟩ := (any_eq_true _ _).1 hu
  rw [h.outcome s t a ha] at hout
  cases hcase : t.outcome with
  | ok x => simp [hcase] at hout
  | error e => simpa [hcase] using hout

theorem retry_eq_some {outcome : Except String T} {m : ℕ} (h : retry n outcome = some m) :
    (outcome ≠ .error unprovedError ∧ m = n) ∨ (m = n + 1 ∧ n + 1 < maxUnprovedTrafficAttempts) := by
  cases outcome with
  | ok x => cases h
  | error e =>
    simp only [retry] at h
    split at h
    next he =>
      cases h
      refine .inl ⟨?_, rfl⟩
      rw [he]
      simp [unprovedError]
    next =>
      split at h
      next =>
        split at h
        next hlt =>
          cases h
          exact .inr ⟨rfl, hlt⟩
        next => cases h
      next => cases h

/-- A call that ends with this step. -/
theorem Loop.last (h : Loop turn spec) {t : Turn C A T} {ts : List (Turn C A T)}
    {result : Option (Except String T)} (hn : n < maxUnprovedTrafficAttempts)
    (hends : (turn s t).ends = .ok () ∨ ∃ e, (turn s t).ends = .error e ∧
      result = some (.error e)) :
    Budgeted turn spec s n (t :: ts) ([turn s t], result) where
  turns := by simpa [h.start] using .inl (h.spec s t)
  linked := ⟨h.start s t, trivial⟩
  ends := by simpa using hends
  bounded := by
    have := length_filter_le Step.unproved [turn s t]
    exact this.trans (Nat.sub_pos_of_lt hn)

theorem Loop.budgeted (h : Loop turn spec) (hn : n < maxUnprovedTrafficAttempts) :
    Budgeted turn spec s n turns (attempts turn s n turns) := by
  induction turns generalizing s n with
  | nil => exact ⟨by simp [attempts], trivial, by simp [attempts], by simp [attempts]⟩
  | cons t ts ih =>
    rw [attempts]
    cases hends : (turn s t).ends with
    | error e => exact h.last hn (.inr ⟨e, hends, rfl⟩)
    | ok u =>
      cases hretry : retry n t.outcome with
      | none => exact h.last hn (.inl hends)
      | some m =>
        have hm : m < maxUnprovedTrafficAttempts := by
          rcases retry_eq_some hretry with ⟨-, rfl⟩ | ⟨rfl, hlt⟩
          · exact hn
          · exact hlt
        have hrest := ih (s := (turn s t).state) hm
        refine ⟨?_, ?_, ?_, ?_⟩
        · intro step hstep
          rcases mem_cons.1 hstep with rfl | hstep
          · exact ⟨t, mem_cons_self, by rw [h.start], by rw [h.start]; exact h.spec s t⟩
          · obtain ⟨t', ht', heq⟩ := hrest.turns step hstep
            exact ⟨t', mem_cons_of_mem _ ht', heq⟩
        · exact ⟨h.start s t, hrest.linked⟩
        · intro step hstep
          rcases mem_cons.1 hstep with rfl | hstep
          · exact .inl hends
          · exact hrest.ends step hstep
        · have hbound := hrest.bounded
          simp only [filter_cons]
          split
          next hu =>
            -- An unproved attempt is counted, for it is tried again.
            rcases retry_eq_some hretry with ⟨hne, -⟩ | ⟨rfl, -⟩
            · exact absurd (h.unproved hu) hne
            · rw [length_cons]
              omega
          next =>
            rcases retry_eq_some hretry with ⟨-, rfl⟩ | ⟨rfl, -⟩
            · exact hbound
            · omega

end Runs

def SpeedtestTrafficDebit.bytes (debit : SpeedtestTrafficDebit) : ℕ := debit.rxBytes + debit.txBytes

/-- The difference of two readings of the route. -/
def between (before after : SpeedtestTrafficCounters) : SpeedtestTrafficDebit :=
  ⟨false, after.rxBytes - before.rxBytes, after.txBytes - before.txBytes⟩

/-- No counter went backwards, and what they add is a `u64`. -/
def Steady (before after : SpeedtestTrafficCounters) : Prop :=
  (before.rxBytes ≤ after.rxBytes ∧ before.txBytes ≤ after.txBytes) ∧
    (between before after).bytes < u64Bound

section Turns

variable {T : Type} {minimum : ℕ}

section Route

variable {s : TrafficPolicy} {t : Turn SpeedtestTrafficCounters (Except String Unit) T}
  {before after : SpeedtestTrafficCounters}

theorem debitTrafficBudget_eq_ok {r : SpeedtestTrafficDebit × ℕ × Bool} :
    debitTrafficBudget s before after = .ok r ↔ Steady before after ∧
      r = (between before after, (between before after).bytes,
        s.exceeded (UInt64.ofNat (between before after).bytes)) := by
  simp only [debitTrafficBudget, bind_ok, counterDeltas_eq_ok, checkedAdd_eq_ok, Except.ok.injEq]
  constructor
  · rintro ⟨_, ⟨hle, rfl⟩, _, ⟨hlt, rfl⟩, rfl⟩
    exact ⟨⟨hle, hlt⟩, rfl⟩
  · rintro ⟨⟨hle, hlt⟩, rfl⟩
    exact ⟨_, ⟨hle, rfl⟩, _, ⟨hlt, rfl⟩, rfl⟩

/-- What a turn with the counters of the route does. -/
structure RouteStep (minimum : ℕ) (s : TrafficPolicy)
    (t : Turn SpeedtestTrafficCounters (Except String Unit) T)
    (step : Step TrafficPolicy SpeedtestTrafficCounters T) : Prop where
  start : step.start = s
  allowed : ∀ a ∈ step.attempted, a.policy = s ∧ allows s minimum = true ∧
    t.before = .ok a.before ∧ a.after = t.after.toOption ∧ a.outcome = t.outcome
  debited : ∀ a ∈ step.attempted, ∀ after ∈ a.after, Steady a.before after →
    step.handed = handOver (between a.before after) t.answer ∧
      limit step.state = (limit s).map (· - (between a.before after).bytes)
  refused : ¬(∃ a ∈ step.attempted, ∃ after ∈ a.after, Steady a.before after) →
    step.handed = none ∧ step.state = s ∧ ∃ e, step.ends = .error e
  accepted : step.ends = .ok () → (∀ d ∈ step.handed, d.2 = .ok ()) ∧
    ∃ a ∈ step.attempted, ∃ after ∈ a.after, Steady a.before after ∧
      ∀ n ∈ limit s, (between a.before after).bytes ≤ n

/-- A turn that debits nothing. -/
theorem RouteStep.of_error {attempted : Option (Attempted SpeedtestTrafficCounters T)}
    {read : Option SpeedtestTrafficCounters} {e : String}
    (hallowed : ∀ a ∈ attempted, a.policy = s ∧ allows s minimum = true ∧
      t.before = .ok a.before ∧ a.after = t.after.toOption ∧ a.outcome = t.outcome)
    (hsteady : ∀ a ∈ attempted, ∀ after ∈ a.after, ¬Steady a.before after) :
    RouteStep minimum s t ⟨s, s, attempted, read, none, .error e⟩ where
  start := rfl
  allowed := hallowed
  debited a ha after hafter h := absurd h (hsteady a ha after hafter)
  refused _ := ⟨rfl, rfl, e, rfl⟩
  accepted h := by cases h

/-- The answer to a debit, which is asked for unless it is empty. -/
theorem ends_eq_ok {debit : SpeedtestTrafficDebit} {answer : Except String Unit} {overrun : Bool}
    (h : (do
      if (handOver debit answer).isSome then answer
      if overrun then throw "speedtest-traffic-budget-exceeded" : Except String Unit) = .ok ()) :
    overrun = false ∧ ∀ d ∈ handOver debit answer, d.2 = .ok () := by
  by_cases hd : debit.rxBytes ≠ 0 ∨ debit.txBytes ≠ 0
  · simp only [handOver, if_pos hd] at h ⊢
    cases answer with
    | error e => cases h
    | ok =>
      cases overrun with
      | true => cases h
      | false => exact ⟨rfl, by simp⟩
  · simp only [handOver, if_neg hd] at h ⊢
    cases overrun with
    | true => cases h
    | false => exact ⟨rfl, by simp⟩

theorem routeTurn_step (minimum : ℕ) (s : TrafficPolicy)
    (t : Turn SpeedtestTrafficCounters (Except String Unit) T) :
    RouteStep minimum s t (routeTurn minimum s t) := by
  simp only [routeTurn]
  split
  · exact .of_error (by simp) (by simp)
  next hallows =>
  cases hbefore : t.before with
  | error e => exact .of_error (by simp) (by simp)
  | ok before =>
  cases hafter : t.after with
  | error e => exact .of_error (by simp [hallows, hbefore, hafter]) (by simp [Except.toOption])
  | ok after =>
  cases hdebit : debitTrafficBudget s before after with
  | error e =>
    simp only [hdebit]
    refine .of_error (by simp [hallows, hbefore, hafter]) ?_
    rintro a ⟨⟩ _ ⟨⟩ hsteady
    rw [debitTrafficBudget_eq_ok.2 ⟨hsteady, rfl⟩] at hdebit
    cases hdebit
  | ok r =>
  obtain ⟨hsteady, rfl⟩ := debitTrafficBudget_eq_ok.1 hdebit
  simp only [hdebit]
  refine ⟨rfl, by simp [hallows, hbefore, hafter], ?_, ?_, ?_⟩
  · rintro a ⟨⟩ _ ⟨⟩ -
    exact ⟨rfl, limit_less _ _⟩
  · exact fun h => absurd ⟨_, rfl, _, rfl, hsteady⟩ h
  · intro hends
    obtain ⟨hexceeded, hanswer⟩ := ends_eq_ok hends
    exact ⟨hanswer, _, rfl, _, rfl, hsteady, (exceeded_eq_false hsteady.2).1 hexceeded⟩

end Route

section Owned

variable {ledger : OwnedTrafficLedger} {s : OwnedTrafficLedger × TrafficPolicy}
  {t : Turn OwnedTrafficSnapshot Persisted T} {previous observed : OwnedTrafficSnapshot}

theorem remaining_eq_ok {p : TrafficPolicy} :
    ledger.remaining = .ok p ↔ ledger.persistenceUncertain = false ∧
      ledger.committed.counters.rx + ledger.committed.counters.tx < u64Bound ∧
        p = less ledger.authority
          (ledger.committed.counters.rx + ledger.committed.counters.tx) := by
  unfold OwnedTrafficLedger.remaining
  cases ledger.persistenceUncertain with
  | true => simp [bind, Except.bind]
  | false =>
    simp only [Bool.false_eq_true, if_false, bind_ok, totalBytes_eq_ok, true_and]
    constructor
    · rintro ⟨_, ⟨hlt, rfl⟩, h⟩
      exact ⟨hlt, (Except.ok.inj h).symm⟩
    · rintro ⟨hlt, rfl⟩
      exact ⟨_, ⟨hlt, rfl⟩, rfl⟩

/-- A ledger that is uncertain refuses further use. -/
theorem uncertain_remaining (ledger : OwnedTrafficLedger) :
    ∃ e, ledger.uncertain.remaining = .error e :=
  ⟨_, rfl⟩

theorem readOwned_eq_ok {counters : Except String OwnedTrafficSnapshot} :
    readOwned previous counters = .ok observed ↔ counters = .ok observed ∧
      previous.Below observed ∧ observed.rx + observed.tx < u64Bound := by
  simp only [readOwned, bind_ok, totalBytes_eq_ok, deltaSince_eq_ok]
  constructor
  · rintro ⟨_, hread, _, ⟨hlt, -⟩, _, ⟨hbelow, -, -⟩, h⟩
    cases h
    exact ⟨hread, hbelow, hlt⟩
  · rintro ⟨hread, hbelow, hlt⟩
    exact ⟨_, hread, _, ⟨hlt, rfl⟩, _, ⟨hbelow, by omega, rfl⟩, rfl⟩

/-- What the ledger adds to the debit: everything since its committed counters. -/
def since (committed observed : OwnedTrafficSnapshot) (lifecycle : Bool) : SpeedtestTrafficDebit :=
  ⟨lifecycle, observed.rx - committed.rx, observed.tx - committed.tx⟩

@[simp] theorem since_lifecycle (committed observed : OwnedTrafficSnapshot) (b b' : Bool) :
    (⟨b', (since committed observed b).rxBytes, (since committed observed b).txBytes⟩ :
      SpeedtestTrafficDebit) = since committed observed b' := rfl

/-- The ledger refuses further use, or it is at the counters read last. -/
def Settled (authority : TrafficPolicy) (read : Option OwnedTrafficSnapshot)
    (s : OwnedTrafficLedger × TrafficPolicy) : Prop :=
  (∃ e, s.1.remaining = .error e) ∨
    (read = some s.1.committed.counters ∧ s.1.remaining = .ok s.2 ∧
      limit s.2 = (limit authority).map
        (· - (s.1.committed.counters.rx + s.1.committed.counters.tx)))

/-- A debit can be noted before it is handed over: the sequence goes on, and its intent is written. -/
def Writes (s : OwnedTrafficLedger × TrafficPolicy) (p : Persisted) : Prop :=
  s.1.committed.sequence + 1 < u32Bound ∧ p.intent = .ok ()

instance {p : Persisted} : Decidable (Writes s p) := inferInstanceAs (Decidable (_ ∧ _))

section

variable (s : OwnedTrafficLedger × TrafficPolicy) (observed : OwnedTrafficSnapshot)
  (lifecycle : Bool) (p : Persisted)

/-- The debit that a reading of the counters hands over. -/
def handed : Option (SpeedtestTrafficDebit × Except String Unit) :=
  if Writes s p then handOver (since s.1.committed.counters observed lifecycle) p.answer else none

/-- There is a debit, and it cannot be noted. -/
def Unwritten : Prop :=
  handOver (since s.1.committed.counters observed lifecycle) p.answer ≠ none ∧ ¬Writes s p

end

/-- What `commit_owned_snapshot` does with a reading of the counters. -/
structure Committed (s : OwnedTrafficLedger × TrafficPolicy) (observed : OwnedTrafficSnapshot)
    (lifecycle : Bool) (p : Persisted)
    (r : (OwnedTrafficLedger × TrafficPolicy) ×
      Option (SpeedtestTrafficDebit × Except String Unit) × Except String Bool) : Prop where
  authority : r.1.1.authority = s.1.authority
  settled : Settled s.1.authority (some observed) r.1
  handed : r.2.1 = handed s observed lifecycle p
  unwritten : Unwritten s observed lifecycle p →
    (∃ e, r.1.1.remaining = .error e) ∧ ∃ e, r.2.2 = .error e
  accepted : r.2.2 = .ok false → (∀ d ∈ r.2.1, d.2 = .ok ()) ∧
    r.2.1 = handOver (since s.1.committed.counters observed lifecycle) p.answer ∧
      ∀ n ∈ limit s.1.authority, observed.rx + observed.tx ≤ n

theorem eq_of_since {c : OwnedTrafficSnapshot} {lifecycle : Bool} (h : c.Below observed)
    (hempty : ¬((since c observed lifecycle).rxBytes ≠ 0 ∨ (since c observed lifecycle).txBytes ≠ 0)) :
    c = observed := by
  obtain ⟨h₁, h₂, h₃, h₄⟩ := h
  simp only [since, rx, tx, not_or, not_not] at hempty
  obtain ⟨⟨brx, btx⟩, prx, ptx⟩ := c
  obtain ⟨⟨brx', btx'⟩, prx', ptx'⟩ := observed
  simp only [mk.injEq, SpeedtestTrafficCounters.mk.injEq] at *
  omega

theorem settled_of_committed {authority : TrafficPolicy} {p : TrafficPolicy}
    (hauthority : ledger.authority = authority) (hread : ledger.committed.counters = observed)
    (hp : ledger.remaining = .ok p) : Settled authority (some observed) (ledger, p) := by
  refine .inr ⟨by rw [hread], hp, ?_⟩
  obtain ⟨-, -, rfl⟩ := remaining_eq_ok.1 hp
  rw [limit_less, hauthority]

/-- **The ledger is committed to what was read**, or it refuses further use. -/
theorem commitOwned_committed {p : Persisted}
    (hsure : s.1.persistenceUncertain = false) (hbelow : s.1.committed.counters.Below observed)
    (hlt : observed.rx + observed.tx < u64Bound) (lifecycle : Bool) :
    Committed s observed lifecycle p (commitOwned s observed lifecycle p) := by
  have hmeasure : s.1.measure observed =
      .ok (s.1.authority.exceeded (UInt64.ofNat (observed.rx + observed.tx)),
        since s.1.committed.counters observed false) := by
    simp only [OwnedTrafficLedger.measure, totalBytes_eq_ok.2 ⟨hlt, rfl⟩,
      deltaSince_eq_ok.2 ⟨hbelow, by omega, rfl⟩, bind, Except.bind, since]
  simp only [commitOwned, OwnedTrafficLedger.checkpointed, hsure, Bool.false_eq_true, if_false,
    hmeasure]
  by_cases hempty : (since s.1.committed.counters observed false).rxBytes ≠ 0 ∨
      (since s.1.committed.counters observed false).txBytes ≠ 0
  swap
  · -- Nothing was used: the ledger is at these counters already.
    have heq := eq_of_since hbelow hempty
    have hremaining := remaining_eq_ok.2 ⟨hsure, heq ▸ hlt, rfl⟩
    have hnone : handOver (since s.1.committed.counters observed lifecycle) p.answer = none :=
      if_neg hempty
    have hhanded : handed s observed lifecycle p = none := by rw [handed, hnone, ite_self]
    simp only [if_neg hempty, hremaining]
    cases p.intent <;> exact ⟨rfl, settled_of_committed rfl heq hremaining, hhanded.symm,
      fun h => absurd hnone h.1,
      fun h => ⟨by simp, hnone.symm, (exceeded_eq_false hlt).1 (Except.ok.inj h)⟩⟩
  have hsome : handOver (since s.1.committed.counters observed lifecycle) p.answer =
      some (since s.1.committed.counters observed lifecycle, p.answer) := if_pos hempty
  by_cases hsequence : s.1.committed.sequence + 1 < u32Bound
  swap
  · simp only [if_pos hempty, if_neg hsequence]
    have hhanded : handed s observed lifecycle p = none := if_neg fun h => hsequence h.1
    cases p.intent <;> exact ⟨rfl, .inl (uncertain_remaining _), hhanded.symm,
      fun _ => ⟨uncertain_remaining _, _, rfl⟩, fun h => by cases h⟩
  simp only [if_pos hempty, if_pos hsequence]
  cases hresult : p.result with
  | error e =>
    refine ⟨rfl, .inl (uncertain_remaining _), ?_,
      fun _ => ⟨uncertain_remaining _, _, rfl⟩, fun h => by cases h⟩
    cases hintent : p.intent with
    | ok u => rw [handed, if_pos ⟨hsequence, hintent⟩, hsome]; rfl
    | error e' =>
      have hnot : ¬Writes s p := fun h => by simpa [hintent] using h.2
      exact (if_neg hnot).symm
  | ok u =>
    simp only [Persisted.result, bind_ok] at hresult
    obtain ⟨_, hintent, _, hanswer, -⟩ := hresult
    have hremaining : OwnedTrafficLedger.remaining
        ⟨s.1.authority, ⟨s.1.committed.sequence + 1, observed⟩, false⟩ =
          .ok (less s.1.authority (observed.rx + observed.tx)) := remaining_eq_ok.2 ⟨rfl, hlt, rfl⟩
    simp only [Except.mapError, hintent, hremaining, map_some, since_lifecycle]
    have hwrites : Writes s p := ⟨hsequence, hintent⟩
    exact ⟨rfl, settled_of_committed rfl rfl hremaining, by rw [handed, if_pos hwrites, hsome],
      fun h => absurd hwrites h.2,
      fun h => ⟨by simp [hanswer], hsome.symm, (exceeded_eq_false hlt).1 (Except.ok.inj h)⟩⟩

/-- Nothing is handed over, the ledger refuses further use, and the call ends with an error. -/
def Lost (step : Step (OwnedTrafficLedger × TrafficPolicy) OwnedTrafficSnapshot T) : Prop :=
  step.handed = none ∧ (∃ e, step.state.1.remaining = .error e) ∧ ∃ e, step.ends = .error e

/-- What a turn with a ledger does. -/
structure OwnedStep (minimum : ℕ) (s : OwnedTrafficLedger × TrafficPolicy)
    (t : Turn OwnedTrafficSnapshot Persisted T)
    (step : Step (OwnedTrafficLedger × TrafficPolicy) OwnedTrafficSnapshot T) : Prop where
  start : step.start = s
  allowed : ∀ a ∈ step.attempted, a.policy = less s.1.authority (a.before.rx + a.before.tx) ∧
    allows a.policy minimum = true ∧ t.before = .ok a.before ∧ a.outcome = t.outcome ∧
      s.1.committed.counters.Below a.before
  debited : ∀ a ∈ step.attempted, ∀ after ∈ a.after, t.after = .ok after ∧ a.before.Below after ∧
    step.handed = handed s after false t.answer ∧ (Unwritten s after false t.answer → Lost step)
  /-- The watcher has failed, or the counters cannot be read after the attempt. -/
  unread : ∀ a ∈ step.attempted, (a.after = none ↔
    (∃ e, watcherFailed t.outcome = some e) ∨ ∃ e, readOwned a.before t.after = .error e) ∧
    (a.after = none → Lost step)
  /-- Without an attempt nothing can be read, or the budget is exhausted at what is read. -/
  idle : step.attempted = none → Lost step ∨ ∃ before, t.before = .ok before ∧
    allows (less s.1.authority (before.rx + before.tx)) minimum = false ∧
    step.handed = handed s before true t.answer ∧ (∃ e, step.ends = .error e) ∧
    (Unwritten s before true t.answer → Lost step)
  authority : step.state.1.authority = s.1.authority
  settled : Settled s.1.authority step.read step.state
  backwards : ∀ before after, t.before = .ok before → t.after = .ok after →
    ¬(s.1.committed.counters.Below before ∧ before.Below after) → ∃ e, step.ends = .error e
  accepted : step.ends = .ok () → (∀ d ∈ step.handed, d.2 = .ok ()) ∧
    ∃ a ∈ step.attempted, ∃ after ∈ a.after,
      step.handed = handOver (since s.1.committed.counters after false) t.answer.answer ∧
        ∀ n ∈ limit s.1.authority, after.rx + after.tx ≤ n

/-- A turn that ends before anything is read. -/
theorem OwnedStep.of_unread {e : String} {ledger : OwnedTrafficLedger}
    (hauthority : ledger.authority = s.1.authority) (hrefuses : ∃ e, ledger.remaining = .error e) :
    OwnedStep minimum s t ⟨s, (ledger, s.2), none, none, none, .error e⟩ :=
  ⟨rfl, by simp, by simp, by simp, fun _ => .inl ⟨rfl, hrefuses, e, rfl⟩, hauthority, .inl hrefuses,
    fun _ _ _ _ _ => ⟨e, rfl⟩, fun h => by cases h⟩

/-- A turn whose budget is exhausted at what it reads. -/
theorem OwnedStep.of_exhausted {e : String}
    (h : Committed s observed true t.answer (commitOwned s observed true t.answer))
    (hbefore : t.before = .ok observed)
    (hexhausted : allows (less s.1.authority (observed.rx + observed.tx)) minimum = false) :
    OwnedStep minimum s t ⟨s, (commitOwned s observed true t.answer).1, none, some observed,
      (commitOwned s observed true t.answer).2.1, .error e⟩ := by
  refine ⟨rfl, by simp, by simp, by simp, fun _ => .inr ⟨observed, hbefore, hexhausted, h.handed,
    ⟨e, rfl⟩, fun hunwritten => ?_⟩, h.authority, h.settled, fun _ _ _ _ _ => ⟨e, rfl⟩,
    fun h => by cases h⟩
  exact ⟨h.handed.trans (if_neg hunwritten.2), (h.unwritten hunwritten).1, e, rfl⟩

theorem ownedTurn_step (minimum : ℕ) (s : OwnedTrafficLedger × TrafficPolicy)
    (t : Turn OwnedTrafficSnapshot Persisted T) :
    OwnedStep minimum s t (ownedTurn minimum s t) := by
  simp only [ownedTurn]
  cases hremaining : s.1.remaining with
  | error e => exact .of_unread rfl ⟨e, hremaining⟩
  | ok p =>
  cases hbefore : readOwned s.1.committed.counters t.before with
  | error e => exact .of_unread rfl (uncertain_remaining _)
  | ok before =>
  have hsure := (remaining_eq_ok.1 hremaining).1
  obtain ⟨hbefore', hbelow, hlt⟩ := readOwned_eq_ok.1 hbefore
  simp only
  split
  next hexhausted =>
    have h := commitOwned_committed (p := t.answer) hsure hbelow hlt true
    cases (commitOwned s before true t.answer).2.2 <;> exact .of_exhausted h hbefore' hexhausted
  next hallows =>
  have hfailed : ∀ e, ((∃ e, watcherFailed t.outcome = some e) ∨
      ∃ e, readOwned before t.after = .error e) →
      OwnedStep minimum s t ⟨s, (s.1.uncertain, s.2),
        some ⟨less s.1.authority (before.rx + before.tx), before, none, t.outcome⟩, some before, none,
        .error e⟩ := by
    intro e hunread
    have hlost : Lost (T := T) ⟨s, (s.1.uncertain, s.2),
        some ⟨less s.1.authority (before.rx + before.tx), before, none, t.outcome⟩, some before, none,
        .error e⟩ := ⟨rfl, uncertain_remaining _, e, rfl⟩
    exact ⟨rfl, by simp [hallows, hbefore', hbelow], by simp, by simpa using ⟨hunread, hlost⟩, by simp,
      rfl, .inl (uncertain_remaining _), fun _ _ _ _ _ => ⟨e, rfl⟩, fun h => by cases h⟩
  cases hwatcher : watcherFailed t.outcome with
  | some e => exact hfailed e (.inl ⟨e, hwatcher⟩)
  | none =>
  cases hafter : readOwned before t.after with
  | error e => exact hfailed e (.inr ⟨e, hafter⟩)
  | ok after =>
  obtain ⟨hafter', hlater, hlt'⟩ := readOwned_eq_ok.1 hafter
  have h := commitOwned_committed (p := t.answer) hsure (hbelow.trans hlater) hlt' false
  refine ⟨rfl, by simp [hallows, hbefore', hbelow], ?_, by simp [hwatcher, hafter], by simp,
    h.authority, h.settled, ?_, ?_⟩
  · rintro a ⟨⟩ _ ⟨⟩
    refine ⟨hafter', hlater, h.handed, fun hunwritten => ?_⟩
    obtain ⟨hrefuses, e, hresult⟩ := h.unwritten hunwritten
    exact ⟨h.handed.trans (if_neg hunwritten.2), hrefuses, e, by simp [hresult, bind, Except.bind]⟩
  · intro before' after' hb ha hback
    rw [hbefore'] at hb
    rw [hafter'] at ha
    cases hb
    cases ha
    exact absurd ⟨hbelow, hlater⟩ hback
  · intro hends
    have hresult : (commitOwned s after false t.answer).2.2 = .ok false := by
      cases hr : (commitOwned s after false t.answer).2.2 with
      | error e => simp [hr, bind, Except.bind] at hends
      | ok overrun =>
        cases overrun with
        | false => rfl
        | true => simp [hr, bind, Except.bind] at hends
    obtain ⟨hanswer, hhanded, hwithin⟩ := h.accepted hresult
    exact ⟨hanswer, _, rfl, after, rfl, hhanded, hwithin⟩

end Owned

theorem routeLoop (minimum : ℕ) : Loop (T := T) (routeTurn minimum) (RouteStep minimum) where
  start s t := (routeTurn_step minimum s t).start
  outcome s t a ha := ((routeTurn_step minimum s t).allowed a ha).2.2.2.2
  spec := routeTurn_step minimum

theorem ownedLoop (minimum : ℕ) : Loop (T := T) (ownedTurn minimum) (OwnedStep minimum) where
  start s t := (ownedTurn_step minimum s t).start
  outcome s t a ha := ((ownedTurn_step minimum s t).allowed a ha).2.2.2.1
  spec := ownedTurn_step minimum

end Turns

/-- **Every attempt is within the budget**, with the counters of the route and with a ledger. -/
theorem attempts_budgeted (T : Type) (minimum : ℕ) :
    (∀ remaining turns, Budgeted (T := T) (routeTurn minimum) (RouteStep minimum) remaining 0 turns
      (attempts (routeTurn minimum) remaining 0 turns)) ∧
    ∀ s turns, Budgeted (T := T) (ownedTurn minimum) (OwnedStep minimum) s 0 turns
      (attempts (ownedTurn minimum) s 0 turns) :=
  ⟨fun _ _ => (routeLoop minimum).budgeted (by decide),
    fun _ _ => (ownedLoop minimum).budgeted (by decide)⟩

/-- A difference whose sum is no `u64` is not handed over; the counters of the route may be reset
between two attempts; and a ledger hands over what was used before the attempt too. -/
theorem attempts_not_budgeted :
    ((attempts (routeTurn 0) .unlimited 0 [⟨.ok ⟨0, 0⟩, .ok (), .ok ⟨2 ^ 63, 2 ^ 63⟩, .ok ()⟩]).1.map
      Step.handed = [none]) ∧
    (attempts (routeTurn 0) .unlimited 0
      [⟨.ok ⟨5, 5⟩, .error "speedtest-route-not-ready", .ok ⟨5, 5⟩, .ok ()⟩,
        ⟨.ok ⟨0, 0⟩, .ok (), .ok ⟨0, 0⟩, .ok ()⟩]).2 = some (.ok ()) ∧
    ((attempts (ownedTurn 0) (⟨.unlimited, ⟨0, .zero⟩, false⟩, .unlimited) 0
      [⟨.ok ⟨⟨10, 0⟩, ⟨0, 0⟩⟩, .ok (), .ok ⟨⟨20, 0⟩, ⟨0, 0⟩⟩, ⟨.ok (), .ok (), .ok ()⟩⟩]).1.map
        Step.handed = [some (⟨false, 20, 0⟩, .ok ())]) := by
  refine ⟨rfl, rfl, rfl⟩

end CakeAutorate.OwnedTraffic
